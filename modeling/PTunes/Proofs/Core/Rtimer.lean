import PTunes.Core.Rtimer
import Mathlib.Tactic.Common

/-!
# `PTunes.Proofs.Core.Rtimer`: a long rtimer counts down to its target

`Counting since target` is the invariant of a timer that was set at the time `since` and waits
for the time `target`: the rounds in `overflows_to_go` are the ones that lie between the counter
and the target.

* `counting_rtimerSetLong`: `rtimer_set_long` starts the count, when the reference time is
  less than one round old and the target is not a whole number of rounds away.
* `counting_of_reachable`: the count is kept while the timer waits.
* `expire_of_reachable`: when the callback is called, the timer is the one that `expire` gives.
* `rtimerTimeToExpire_eq`: `rtimer_time_to_expire` is the time to the target, except for one
  round more while an interrupt is late and one round less in the tick of a match whose
  interrupt was served.
-/

set_option autoImplicit false

namespace PTunes.TimerA

/-- The timer waits for the time `target`. A match that is pending has not been counted. -/
structure Counting (since target : Nat) (s : TimerA) : Prop where
  armed : s.armed = true
  time : s.rtimer.time = UInt16.ofNat target
  taccr0 : s.taccr0 = UInt16.ofNat target
  since_le : since ≤ s.now
  since_lt : since + 65536 * s.rtimer.overflowsToGo.toNat < target
  late : s.pending = true →
    target ≤ s.now + 65536 * s.rtimer.overflowsToGo.toNat ∧
      s.now + 65536 * s.rtimer.overflowsToGo.toNat < target + 65536
  early : s.pending = false →
    s.now + 65536 * s.rtimer.overflowsToGo.toNat < target ∧
      target ≤ s.now + 65536 * s.rtimer.overflowsToGo.toNat + 65536

/-- Two times give the same register value when they are a whole number of rounds apart. -/
theorem ofNat_eq_ofNat_iff (a b : Nat) :
    UInt16.ofNat a = UInt16.ofNat b ↔ a % 65536 = b % 65536 := by
  rw [← UInt16.toNat_inj, UInt16.toNat_ofNat', UInt16.toNat_ofNat']

/-- The difference of two register values, as a number. -/
theorem toNat_ofNat_sub (a b : Nat) :
    (UInt16.ofNat a - UInt16.ofNat b).toNat = (65536 - b % 65536 + a % 65536) % 65536 := by
  rw [UInt16.toNat_sub, UInt16.toNat_ofNat', UInt16.toNat_ofNat']

/-- `rtimer_set_long`: the register has the low part of the target, and `overflows_to_go` is
the number of whole rounds from now to the target. -/
theorem rtimerSetLong_eq {s : TimerA} {ref : Nat} {offset : UInt32} (harmed : s.armed = false)
    (hlo : ref ≤ s.now) (hhi : s.now < ref + 65536) (hnow : s.now < ref + offset.toNat) :
    ∃ rounds : UInt16, rounds.toNat = (ref + offset.toNat - s.now) / 65536 ∧
      s.rtimerSetLong (UInt16.ofNat ref) offset = { s with
        rtimer := ⟨UInt16.ofNat (ref + offset.toNat), rounds⟩
        armed := true
        taccr0 := UInt16.ofNat (ref + offset.toNat) } := by
  have hreg : UInt16.ofNat ref + offset.toUInt16 = UInt16.ofNat (ref + offset.toNat) := by
    rw [← UInt16.toNat_inj, UInt16.toNat_add, UInt16.toNat_ofNat', UInt16.toNat_ofNat',
      UInt32.toNat_toUInt16]
    omega
  have hover : ((offset - (s.tar - UInt16.ofNat ref).toUInt32) >>> 16).toUInt16.toNat =
      (ref + offset.toNat - s.now) / 65536 := by
    rw [UInt32.toNat_toUInt16, UInt32.toNat_shiftRight, UInt32.toNat_sub,
      UInt16.toNat_toUInt32, tar, toNat_ofNat_sub, show (16 : UInt32).toNat % 32 = 16 from rfl,
      Nat.shiftRight_eq_div_pow]
    have := offset.toNat_lt
    omega
  refine ⟨_, hover, ?_⟩
  simp only [rtimerSetLong, harmed, Bool.false_eq_true, if_false, schedule, hreg]

/-- `rtimer_set_long` starts the count. -/
theorem counting_rtimerSetLong {s : TimerA} {ref : Nat} {offset : UInt32}
    (harmed : s.armed = false) (hpending : s.pending = false)
    (hlo : ref ≤ s.now) (hhi : s.now < ref + 65536) (hnow : s.now < ref + offset.toNat)
    (hround : (ref + offset.toNat) % 65536 ≠ s.now % 65536) :
    Counting s.now (ref + offset.toNat) (s.rtimerSetLong (UInt16.ofNat ref) offset) := by
  obtain ⟨rounds, hrounds, heq⟩ := rtimerSetLong_eq harmed hlo hhi hnow
  rw [heq]
  exact {
    armed := rfl
    time := rfl
    taccr0 := rfl
    since_le := Nat.le_refl _
    since_lt := by
      show s.now + 65536 * rounds.toNat < _
      omega
    late := fun h => absurd h (by simp [hpending])
    early := fun _ => by
      show s.now + 65536 * rounds.toNat < _ ∧ _
      dsimp only
      omega }

/-- `rtimer_set` starts the count, when the target is ahead by at most a round. -/
theorem counting_rtimerSet {s : TimerA} {target : Nat} (harmed : s.armed = false)
    (hpending : s.pending = false) (hlt : s.now < target) (hle : target ≤ s.now + 65536) :
    Counting s.now target (s.rtimerSet (UInt16.ofNat target)) := by
  simp only [rtimerSet, harmed, Bool.false_eq_true, if_false, schedule]
  exact {
    armed := rfl
    time := rfl
    taccr0 := rfl
    since_le := Nat.le_refl _
    since_lt := hlt
    late := fun h => absurd h (by simp [hpending])
    early := fun _ => ⟨hlt, hle⟩ }

/-- The count ends at the target. -/
theorem Counting.nextExpiry_eq {since target : Nat} {s : TimerA} (h : Counting since target s)
    (hpending : s.pending = false) : s.nextExpiry = target := by
  have hearly := h.early hpending
  rw [nextExpiry, h.taccr0, tar, UInt16.toNat_sub, toNat_ofNat_sub,
    show (1 : UInt16).toNat = 1 from rfl]
  omega

/-- A tick keeps the count. -/
theorem Counting.tick {since target : Nat} {s : TimerA} (h : Counting since target s)
    (hgate : ¬ (s.pending = true ∧ UInt16.ofNat (s.now + 1) = s.taccr0)) :
    Counting since target s.tick := by
  rw [h.taccr0, ofNat_eq_ofNat_iff] at hgate
  have hlate := h.late
  have hearly := h.early
  have hmatch : (UInt16.ofNat (s.now + 1) == s.taccr0) = true ↔
      (s.now + 1) % 65536 = target % 65536 := by
    rw [beq_iff_eq, h.taccr0, ofNat_eq_ofNat_iff]
  exact {
    armed := h.armed
    time := h.time
    taccr0 := h.taccr0
    since_le := Nat.le_succ_of_le h.since_le
    since_lt := h.since_lt
    late := fun hp => by
      show target ≤ s.now + 1 + 65536 * s.rtimer.overflowsToGo.toNat ∧
        s.now + 1 + 65536 * s.rtimer.overflowsToGo.toNat < target + 65536
      cases hs : s.pending with
      | false =>
          -- The match of this tick.
          have hm := hmatch.mp (by simpa [TimerA.tick, hs] using hp)
          have := hearly hs
          omega
      | true =>
          have := hlate hs
          have hm : (s.now + 1) % 65536 ≠ target % 65536 := fun hm => hgate ⟨hs, hm⟩
          omega
    early := fun hp => by
      show s.now + 1 + 65536 * s.rtimer.overflowsToGo.toNat < target ∧
        target ≤ s.now + 1 + 65536 * s.rtimer.overflowsToGo.toNat + 65536
      have hno : s.pending = false ∧ ¬ (s.now + 1) % 65536 = target % 65536 := by
        simpa [TimerA.tick, ← hmatch] using hp
      have := hearly hno.1
      omega }

/-- The interrupt of a match keeps the count. -/
theorem Counting.timera0 {since target : Nat} {s : TimerA} (h : Counting since target s)
    (hpending : s.pending = true) (hover : s.rtimer.overflowsToGo ≠ 0) :
    Counting since target (rtimerRunNext id { s with pending := false }) := by
  have hpos : 0 < s.rtimer.overflowsToGo.toNat := by
    have : s.rtimer.overflowsToGo.toNat ≠ 0 := fun h0 => hover (UInt16.toNat_inj.mp h0)
    omega
  have hdec : (s.rtimer.overflowsToGo - 1).toNat = s.rtimer.overflowsToGo.toNat - 1 := by
    have := s.rtimer.overflowsToGo.toNat_lt
    rw [UInt16.toNat_sub, show (1 : UInt16).toNat = 1 from rfl]
    omega
  have hlate := h.late hpending
  have hsince := h.since_lt
  simp only [rtimerRunNext, h.armed, if_true, hover, if_false, schedule]
  exact {
    armed := rfl
    time := h.time
    taccr0 := h.time
    since_le := h.since_le
    since_lt := by
      show since + 65536 * (s.rtimer.overflowsToGo - 1).toNat < target
      omega
    late := fun hp => nomatch hp
    early := fun _ => by
      show s.now + 65536 * (s.rtimer.overflowsToGo - 1).toNat < target ∧
        target ≤ s.now + 65536 * (s.rtimer.overflowsToGo - 1).toNat + 65536
      omega }

/-- The count is kept while the timer waits. -/
theorem counting_of_reachable {since target : Nat} {s₀ s : TimerA}
    (h₀ : Counting since target s₀) (h : (waiting s₀).Reachable s) :
    Counting since target s := by
  refine h.invariant (Counting since target) h₀ ?_
  intro s a t hs hst
  cases a with
  | tick =>
      obtain ⟨hgate, ⟨⟩⟩ := Option.ite_none_left_eq_some.mp hst
      exact hs.tick hgate
  | timera0 =>
      obtain ⟨⟨hpending, hover⟩, ⟨⟩⟩ := Option.ite_none_right_eq_some.mp hst
      exact hs.timera0 hpending hover

/-- The timer when the interrupt is served that calls the callback. -/
theorem expire_of_reachable {since target : Nat} {s₀ s : TimerA}
    (h₀ : Counting since target s₀) (hpending₀ : s₀.pending = false)
    (h : (waiting s₀).Reachable s) (hpending : s.pending = true)
    (hover : s.rtimer.overflowsToGo = 0) :
    ∃ late < 65536, { s with pending := false } = s₀.expire late := by
  have hs := counting_of_reachable h₀ h
  have hlate := hs.late hpending
  rw [hover, show (0 : UInt16).toNat = 0 from rfl] at hlate
  have htime : s₀.nextExpiry + (s.now - target) = s.now := by
    rw [h₀.nextExpiry_eq hpending₀]
    omega
  have hrtimer : s.rtimer = ⟨s₀.rtimer.time, 0⟩ := by
    rw [h₀.time, ← hs.time, ← hover]
  refine ⟨s.now - target, by omega, ?_⟩
  simp only [expire, htime, hrtimer, hs.taccr0, hs.armed, h₀.taccr0, h₀.armed]

/-- A callback that sets the timer: `rtimer_run_next` changes nothing after it. -/
theorem rtimerRunNext_eq {func : TimerA → TimerA} {s : TimerA} (harmed : s.armed = true)
    (hover : s.rtimer.overflowsToGo = 0)
    (hset : (func { s with armed := false }).taccr0 =
      (func { s with armed := false }).rtimer.time) :
    rtimerRunNext func s = func { s with armed := false } := by
  simp only [rtimerRunNext, harmed, hover, if_true, schedule, ← hset]
  exact ite_id _

/-- What `rtimer_time_to_expire` is off by: a round more while the interrupt of a match is
late, a round less in the tick of a match whose interrupt was served. -/
def slip (s : TimerA) : Int :=
  if s.tar = s.taccr0 then (if s.pending then 0 else -65536)
  else (if s.pending then 65536 else 0)

/-- The time to the next expiration is right, or it is off by one round to either side. -/
theorem slip_cases (s : TimerA) : s.slip = 0 ∨ s.slip = 65536 ∨ s.slip = -65536 := by
  rw [slip]
  split <;> split <;> simp

/-- `rtimer_time_to_expire` is the time to the target, up to `slip`. -/
theorem rtimerTimeToExpire_eq {since target : Nat} {s : TimerA}
    (h : Counting since target s) :
    (s.rtimerTimeToExpire.toNat : Int) = target - s.now + s.slip := by
  have hover := s.rtimer.overflowsToGo.toNat_lt
  have hsum : s.rtimerTimeToExpire.toNat =
      (65536 - s.now % 65536 + target % 65536) % 65536 +
        65536 * s.rtimer.overflowsToGo.toNat := by
    rw [rtimerTimeToExpire, UInt32.toNat_add, UInt16.toNat_toUInt32, h.taccr0, tar,
      toNat_ofNat_sub, UInt32.toNat_shiftLeft, UInt16.toNat_toUInt32,
      show (16 : UInt32).toNat % 32 = 16 from rfl, Nat.shiftLeft_eq]
    omega
  have hreg : s.tar = s.taccr0 ↔ s.now % 65536 = target % 65536 := by
    rw [h.taccr0, tar, ofNat_eq_ofNat_iff]
  rw [hsum, slip]
  cases hp : s.pending with
  | false =>
      have := h.early hp
      by_cases heq : s.now % 65536 = target % 65536
      · simp only [hreg.mpr heq, if_true, Bool.false_eq_true, if_false]
        omega
      · simp only [mt hreg.mp heq, Bool.false_eq_true, if_false]
        omega
  | true =>
      have := h.late hp
      by_cases heq : s.now % 65536 = target % 65536
      · simp only [hreg.mpr heq, if_true]
        omega
      · simp only [mt hreg.mp heq, if_true, if_false]
        omega

end PTunes.TimerA
