import PTunes.Core.Energest
import Mathlib.Data.Nat.ModEq

/-!
# `PTunes.Proofs.Core.EnergestReads`: what reading an energy account changes

A read closes the running interval and opens it again, and each piece is divided by
`ENERGEST_DIVIDER` on its own. So a read loses the remainder of its piece, and the totals of
two schedules of reads differ by what they lose.

* `spent_step`: what one step loses or counts again. `ENERGEST_ON` on an open account loses
  the time since it was opened or read, and `ENERGEST_OFF` on a closed one counts the time
  since then again.
* `units_run`: over a whole run, four times the units and what was lost are the ticks in which
  the account was open and what was counted again.
* `openTicks_withoutReads`: these ticks do not depend on the reads.
* `total_run_eq_iff`: two schedules of reads give the same total when they lose the same.
-/

set_option autoImplicit false

namespace PTunes.Account

/-- Whether the account is open after a step. -/
def Step.opens (opened : Bool) : Step → Bool
  | .on => true
  | .off => false
  | .read => opened

/-- The steps without the reads. -/
def withoutReads (steps : List (Nat × Step)) : List (Nat × Step) :=
  steps.filter fun e => e.2 ≠ .read

/-- Time does not go back, and less than a round of the clock passes between two steps. -/
def Timely : Nat → List (Nat × Step) → Prop
  | _, [] => True
  | last, e :: steps => last ≤ e.1 ∧ e.1 < last + 65536 ∧ Timely e.1 steps

/-- The last interval is closed. -/
def Closes (opened : Bool) (steps : List (Nat × Step)) : Prop :=
  steps.foldl (fun opened e => e.2.opens opened) opened = false

/-- Whether the account is open, and when it was last opened or, if it was open, read. -/
structure Interval where
  opened : Bool
  since : Nat
deriving DecidableEq, Repr

namespace Interval

/-- The interval after a step. -/
def after (i : Interval) : Nat × Step → Interval
  | (now, .on) => ⟨true, now⟩
  | (_, .off) => ⟨false, i.since⟩
  | (now, .read) => if i.opened then ⟨true, now⟩ else i

/-- The ticks of an open account that a step does not count: the remainder of the division, or
with `ENERGEST_ON` all of them. -/
def loses (i : Interval) : Nat × Step → Nat
  | (now, .on) => if i.opened then now - i.since else 0
  | (now, .off) | (now, .read) => if i.opened then (now - i.since) % 4 else 0

/-- The ticks that `ENERGEST_OFF` counts again on a closed account. -/
def recounts (i : Interval) : Nat × Step → Nat
  | (now, .off) => if i.opened then 0 else 4 * ((now - i.since) % 65536 / 4)
  | (_, .on) | (_, .read) => 0

/-- The ticks that are lost in a run. -/
def lost : Interval → List (Nat × Step) → Nat
  | _, [] => 0
  | i, e :: steps => i.loses e + lost (i.after e) steps

/-- The ticks that are counted again in a run. -/
def recounted : Interval → List (Nat × Step) → Nat
  | _, [] => 0
  | i, e :: steps => i.recounts e + recounted (i.after e) steps

end Interval

/-- The interval of an account. -/
def interval (a : Account) : Interval := ⟨a.mode, a.since⟩

/-- The ticks in which the account is open, from the time `last` to the last step. -/
def openTicks : Bool → Nat → List (Nat × Step) → Nat
  | _, _, [] => 0
  | opened, last, e :: steps =>
    (if opened then e.1 - last else 0) + openTicks (e.2.opens opened) e.1 steps

/-! ### One step -/

section
variable {a : Account} {last : Nat}

/-- A step of the code is one of the record of the intervals. -/
theorem interval_step (a : Account) (e : Nat × Step) :
    (a.step e).interval = a.interval.after e := by
  obtain ⟨now, s⟩ := e
  cases s with
  | on => rfl
  | off => rfl
  | read =>
      cases hmode : a.mode with
      | true => simp [step, sample, interval, Interval.after, hmode, add]
      | false => simp [step, sample, interval, Interval.after, hmode]

/-- The mode of the account is the one of the last step. -/
theorem mode_step (a : Account) (e : Nat × Step) : (a.step e).mode = e.2.opens a.mode := by
  obtain ⟨now, s⟩ := e
  cases s with
  | on => rfl
  | off => rfl
  | read => exact mode_sample a now

/-- A step at the time of the last one or later. -/
theorem Ok.step {e : Nat × Step} (h : a.Ok last) (hle : last ≤ e.1) : (a.step e).Ok e.1 := by
  have hnow : a.Ok e.1 := ⟨h.current, Nat.le_trans h.since_le hle, h.total⟩
  obtain ⟨now, s⟩ := e
  cases s with
  | on => exact hnow.on
  | off => exact hnow.off
  | read => exact hnow.sample

/-- An account that is open after a step was opened or read in it. -/
theorem since_step {e : Nat × Step} (hmode : (a.step e).mode = true) :
    e.1 ≤ (a.step e).since := by
  obtain ⟨now, s⟩ := e
  cases s with
  | on => exact Nat.le_refl _
  | off => exact absurd hmode Bool.false_ne_true
  | read => exact le_since_sample hmode (Nat.le_refl _)

/-- What one step loses or counts again. -/
theorem spent_step {e : Nat × Step} (h : a.Ok last) (hle : last ≤ e.1)
    (hlt : e.1 < last + 65536) (hopen : a.mode = true → last ≤ a.since) :
    (a.step e).spent e.1 + a.interval.loses e =
      a.spent last + (if a.mode then e.1 - last else 0) + a.interval.recounts e := by
  have hnow : a.Ok e.1 := ⟨h.current, Nat.le_trans h.since_le hle, h.total⟩
  have helapsed := toNat_elapsed hnow
  have hsince := h.since_le
  obtain ⟨now, s⟩ := e
  dsimp only at hle hlt helapsed
  -- What a step does to the counter depends on whether the interval is open.
  cases hmode : a.mode with
  | true =>
      have := hopen hmode
      cases s with
      | on =>
          simp [step, on, spent, openTime, interval, Interval.loses, Interval.recounts, hmode]
          omega
      | off =>
          simp [step, off, add, spent, openTime, interval, Interval.loses, Interval.recounts,
            hmode]
          omega
      | read =>
          simp [step, sample, add, spent, openTime, interval, Interval.loses,
            Interval.recounts, hmode]
          omega
  | false =>
      cases s with
      | on =>
          simp [step, on, spent, openTime, interval, Interval.loses, Interval.recounts, hmode]
      | off =>
          simp [step, off, add, spent, openTime, interval, Interval.loses, Interval.recounts,
            hmode]
          omega
      | read =>
          simp [step, sample, spent, openTime, interval, Interval.loses, Interval.recounts,
            hmode]

/-! ### A whole run -/

/-- The account after a run that closes its last interval. -/
theorem units_run {steps : List (Nat × Step)} (h : a.Ok last)
    (hopen : a.mode = true → last ≤ a.since) (htimely : Timely last steps)
    (hcloses : Closes a.mode steps) :
    4 * (a.run steps).units + a.interval.lost steps =
        a.spent last + openTicks a.mode last steps + a.interval.recounted steps ∧
      (a.run steps).total = UInt32.ofNat (a.run steps).units := by
  induction steps generalizing a last with
  | nil =>
      have hmode : a.mode = false := hcloses
      refine ⟨?_, h.total⟩
      simp [run, Interval.lost, Interval.recounted, openTicks, spent, openTime, hmode]
  | cons e steps ih =>
      obtain ⟨hle, hlt, htimely⟩ := htimely
      have hstep := spent_step h hle hlt hopen
      -- The rest of the run goes on from the account after the first step.
      have hcloses' : Closes (a.step e).mode steps := by
        rw [mode_step]
        exact hcloses
      obtain ⟨hrun, htotal⟩ := ih (h.step hle) since_step htimely hcloses'
      rw [mode_step, interval_step] at hrun
      refine ⟨?_, htotal⟩
      show 4 * ((a.step e).run steps).units +
          (a.interval.loses e + (a.interval.after e).lost steps) =
        a.spent last + ((if a.mode then e.1 - last else 0) +
          openTicks (e.2.opens a.mode) e.1 steps) +
          (a.interval.recounts e + (a.interval.after e).recounted steps)
      omega

end

/-! ### The ticks in which the account is open -/

/-- The time of the first step comes after `last`. -/
def StartsFrom (last : Nat) (steps : List (Nat × Step)) : Prop := ∀ e ∈ steps.head?, last ≤ e.1

/-- The time before the first step can be split. -/
theorem openTicks_split {opened : Bool} {last now : Nat} {steps : List (Nat × Step)}
    (hle : last ≤ now) (hstart : StartsFrom now steps) (hcloses : Closes opened steps) :
    openTicks opened last steps =
      (if opened then now - last else 0) + openTicks opened now steps := by
  cases steps with
  | nil =>
      have hopened : opened = false := hcloses
      simp [openTicks, hopened]
  | cons e steps =>
      have := hstart e rfl
      cases opened with
      | true =>
          simp only [openTicks, if_true]
          omega
      | false => simp [openTicks]

/-- Leaving out the reads does not change what is open at the end. -/
theorem closes_withoutReads (opened : Bool) (steps : List (Nat × Step)) :
    Closes opened (withoutReads steps) ↔ Closes opened steps := by
  induction steps generalizing opened with
  | nil => exact Iff.rfl
  | cons e steps ih =>
      obtain ⟨now, s⟩ := e
      cases s with
      | on => exact ih true
      | off => exact ih false
      | read => exact ih opened

/-- Leaving out the reads keeps the first time late enough. -/
theorem startsFrom_withoutReads {last : Nat} {steps : List (Nat × Step)}
    (htimely : Timely last steps) : StartsFrom last (withoutReads steps) := by
  induction steps generalizing last with
  | nil => exact fun _ h => absurd h (by simp [withoutReads])
  | cons e steps ih =>
      obtain ⟨now, s⟩ := e
      obtain ⟨hle, _, htimely⟩ := htimely
      cases s with
      | on => exact fun e' h => by cases h; exact hle
      | off => exact fun e' h => by cases h; exact hle
      | read => exact fun e' h => Nat.le_trans hle (ih htimely e' h)

/-- The ticks in which the account is open do not depend on the reads. -/
theorem openTicks_withoutReads {opened : Bool} {last : Nat} {steps : List (Nat × Step)}
    (htimely : Timely last steps) (hcloses : Closes opened steps) :
    openTicks opened last (withoutReads steps) = openTicks opened last steps := by
  induction steps generalizing opened last with
  | nil => rfl
  | cons e steps ih =>
      obtain ⟨now, s⟩ := e
      obtain ⟨hle, _, htimely⟩ := htimely
      cases s with
      | on => exact congrArg (_ + ·) (ih htimely (show Closes true steps from hcloses))
      | off => exact congrArg (_ + ·) (ih htimely (show Closes false steps from hcloses))
      | read =>
          -- Without the read, its time is part of the wait for the next step.
          have hcloses : Closes opened steps := hcloses
          have hsplit := openTicks_split hle (startsFrom_withoutReads htimely)
            ((closes_withoutReads opened steps).mpr hcloses)
          rw [ih htimely hcloses] at hsplit
          exact hsplit

/-! ### Two schedules -/

/-- `ENERGEST_ON` and `ENERGEST_OFF` alternate. -/
def Alternates : Bool → List (Nat × Step) → Prop
  | _, [] => True
  | opened, (_, .on) :: steps => opened = false ∧ Alternates true steps
  | opened, (_, .off) :: steps => opened = true ∧ Alternates false steps
  | opened, (_, .read) :: steps => Alternates opened steps

/-- When they alternate, nothing is counted twice. -/
theorem recounted_of_alternates {i : Interval} {steps : List (Nat × Step)}
    (h : Alternates i.opened steps) : i.recounted steps = 0 := by
  induction steps generalizing i with
  | nil => rfl
  | cons e steps ih =>
      obtain ⟨now, s⟩ := e
      cases s with
      | on =>
          simpa [Interval.recounted, Interval.recounts, Interval.after] using
            ih (i := ⟨true, now⟩) h.2
      | off =>
          simpa [Interval.recounted, Interval.recounts, Interval.after, h.1] using
            ih (i := ⟨false, i.since⟩) h.2
      | read =>
          have hafter : (i.after (now, .read)).opened = i.opened := by
            rw [Interval.after]
            split
            · rename_i hopened
              exact hopened.symm
            · rfl
          simpa [Interval.recounted, Interval.recounts] using ih (hafter ▸ h)

/-- Two schedules of reads give the same total when they lose the same ticks, up to what is
counted again and to whole rounds of the total. -/
theorem total_run_eq_iff {a : Account} {start : Nat} {steps steps' : List (Nat × Step)}
    (h : a.Ok start) (hmode : a.mode = false) (htimely : Timely start steps)
    (htimely' : Timely start steps') (hsame : withoutReads steps = withoutReads steps')
    (hcloses : Closes false (withoutReads steps)) :
    (a.run steps).total = (a.run steps').total ↔
      a.interval.lost steps + a.interval.recounted steps' ≡
        a.interval.lost steps' + a.interval.recounted steps [MOD 2 ^ 34] := by
  have hopen : a.mode = true → start ≤ a.since := fun hm => absurd (hmode.symm.trans hm) nofun
  have hc := (closes_withoutReads false steps).mp hcloses
  have hc' := (closes_withoutReads false steps').mp (hsame ▸ hcloses)
  have hticks : openTicks a.mode start steps = openTicks a.mode start steps' := by
    rw [hmode, ← openTicks_withoutReads htimely hc, hsame, openTicks_withoutReads htimely' hc']
  have ⟨hunits, htotal⟩ := units_run h hopen htimely (hmode ▸ hc)
  have ⟨hunits', htotal'⟩ := units_run h hopen htimely' (hmode ▸ hc')
  -- A unit is four ticks, so equal totals modulo `2 ^ 32` are equal ticks modulo `2 ^ 34`.
  rw [htotal, htotal', ← UInt32.toNat_inj, UInt32.toNat_ofNat', UInt32.toNat_ofNat', Nat.ModEq]
  omega

/-- An interval of 8 ticks, with and without a read after 2 ticks. -/
theorem total_run_eq_iff_eight :
    (Account.init.run [(0, .on), (2, .read), (8, .off)]).total ≠
      (Account.init.run [(0, .on), (8, .off)]).total :=
  mt (total_run_eq_iff (ok_init : init.Ok 0) rfl (by simp [Timely]) (by simp [Timely])
    (by decide) (by rfl)).mp (by decide)

/-- Reading an account is not harmless: an interval of 6 ticks is one unit, and none when it
is read after 3 ticks. -/
theorem not_forall_total_run_eq :
    ¬ ∀ (a : Account) (start : Nat) (steps steps' : List (Nat × Step)), a.Ok start →
      a.mode = false → Timely start steps → Timely start steps' →
      withoutReads steps = withoutReads steps' → Closes false (withoutReads steps) →
      (a.run steps).total = (a.run steps').total := fun h =>
  absurd
    (h .init 0 [(0, .on), (6, .off)] [(0, .on), (3, .read), (6, .off)] ok_init rfl
      (by simp [Timely]) (by simp [Timely]) (by decide) rfl)
    (by decide)

end PTunes.Account
