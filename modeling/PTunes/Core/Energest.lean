import Mathlib.Tactic.Common

/-!
# `PTunes.Core.Energest`: energy accounts (`core/sys/energest.h`)

An account adds up the time between `ENERGEST_ON` and `ENERGEST_OFF` in units of
`ENERGEST_DIVIDER` ticks. The macros read the 16-bit clock `RTIMER_NOW()`, which here is the
low part of the time `now`. `ENERGEST_OFF` does not look whether the account is open: on a
closed one it adds the time since the last `ENERGEST_ON` again.

The last fields of `Account` are records: `since` is the time at which `current` was written,
`units` the sum without overflow, and `cuts` counts the divisions.

* `Account.spent_off_le`: closing an open account adds at most what was open.
* `Account.Measures`: the account and the ticks that it has measured. It is kept by the
  operations on an account in their order (`Measures.on`, `Measures.off`, `Measures.sample`).
-/

set_option autoImplicit false

namespace PTunes

/-- `ENERGEST_DIVIDER`, with Glossy. -/
def energestDivider : UInt16 := 4

/-- `energest_total_time`, `energest_current_time` and `energest_current_mode` of one type. -/
structure Account where
  total : UInt32
  current : UInt16
  mode : Bool
  since : Nat
  units : Nat
  cuts : Nat
deriving DecidableEq, Repr

namespace Account

/-- `energest_init`. -/
def init : Account := ⟨0, 0, false, 0, 0, 0⟩

/-- The units since `current`. -/
def elapsed (a : Account) (now : Nat) : UInt16 :=
  (UInt16.ofNat now - a.current) / energestDivider

/-- `ENERGEST_ON`. -/
def on (a : Account) (now : Nat) : Account :=
  { a with current := UInt16.ofNat now, mode := true, since := now }

/-- What `ENERGEST_OFF` adds to the total. -/
def add (a : Account) (now : Nat) : Account :=
  { a with
    total := a.total + (a.elapsed now).toUInt32
    units := a.units + (a.elapsed now).toNat
    cuts := a.cuts + 1 }

/-- `ENERGEST_OFF`. -/
def off (a : Account) (now : Nat) : Account := { a.add now with mode := false }

/-- `energest_type_time`, and `energest_flush` for one type: an open account is brought up to
date. -/
def sample (a : Account) (now : Nat) : Account :=
  if a.mode then { a.add now with current := UInt16.ofNat now, since := now } else a

/-- `energest_type_set`. -/
def set (a : Account) (total : UInt32) (units : Nat) : Account :=
  { a with total := total, units := units }

/-- What the code does with the account of one type. -/
inductive Step where
  | on
  | off
  | read
deriving DecidableEq, Repr

/-- One step, at a time. -/
def step (a : Account) : Nat × Step → Account
  | (now, .on) => a.on now
  | (now, .off) => a.off now
  | (now, .read) => a.sample now

/-- The steps at their times. -/
def run (a : Account) (steps : List (Nat × Step)) : Account := steps.foldl step a

/-- The records agree with the fields, and the account was opened in the past. -/
structure Ok (a : Account) (now : Nat) : Prop where
  current : a.current = UInt16.ofNat a.since
  since_le : a.since ≤ now
  total : a.total = UInt32.ofNat a.units

/-- The time since an open account was opened or brought up to date. -/
def openTime (a : Account) (now : Nat) : Nat := if a.mode then now - a.since else 0

/-- The ticks that an account stands for. -/
def spent (a : Account) (now : Nat) : Nat := 4 * a.units + a.openTime now

variable {a : Account} {now : Nat}

/-- An account that was never opened. Its records and its fields are 0. -/
theorem ok_init : init.Ok now := ⟨rfl, Nat.zero_le _, rfl⟩

/-- It stands for no time. -/
@[simp] theorem spent_init : init.spent now = 0 := rfl

/-- Bringing an account up to date leaves it open or closed. -/
theorem mode_sample (a : Account) (now : Nat) : (a.sample now).mode = a.mode := by
  rw [sample]
  split <;> rfl

/-- An open account that is brought up to date is opened now. -/
theorem le_since_sample {a : Account} {now t : Nat} (h : (a.sample now).mode = true)
    (hle : t ≤ now) : t ≤ (a.sample now).since := by
  rw [mode_sample] at h
  rw [sample, if_pos h]
  exact hle

/-- The total does not exceed the sum without overflow. -/
theorem total_le (h : a.Ok now) : a.total.toNat ≤ a.units := by
  rw [h.total, UInt32.toNat_ofNat']
  exact Nat.mod_le _ _

/-- The units since `current`, as a number. -/
theorem toNat_elapsed (h : a.Ok now) :
    (a.elapsed now).toNat = (now - a.since) % 65536 / 4 := by
  have hle := h.since_le
  rw [elapsed, UInt16.toNat_div, UInt16.toNat_sub, h.current, UInt16.toNat_ofNat',
    UInt16.toNat_ofNat', show energestDivider.toNat = 4 from rfl]
  omega

/-- Time passes. The account was opened in the past still. -/
theorem Ok.tick (h : a.Ok now) : a.Ok (now + 1) :=
  ⟨h.current, Nat.le_succ_of_le h.since_le, h.total⟩

/-- `ENERGEST_ON` writes the clock and the record of it at once, so they agree again. -/
theorem Ok.on (h : a.Ok now) : (a.on now).Ok now := ⟨rfl, Nat.le_refl _, h.total⟩

/-- The addition to the total: it may wrap at 32 bits, and it is the record modulo `2 ^ 32` also
then. -/
theorem Ok.add (h : a.Ok now) : (a.add now).Ok now where
  current := h.current
  since_le := h.since_le
  total := by
    show a.total + (a.elapsed now).toUInt32 = UInt32.ofNat (a.units + (a.elapsed now).toNat)
    rw [h.total, UInt32.ofNat_add]
    congr 1
    rw [← UInt32.toNat_inj, UInt16.toNat_toUInt32, UInt32.toNat_ofNat']
    have := (a.elapsed now).toNat_lt
    omega

/-- `ENERGEST_OFF` adds to the total and closes the account. -/
theorem Ok.off (h : a.Ok now) : (a.off now).Ok now :=
  ⟨h.add.current, h.add.since_le, h.add.total⟩

/-- Bringing an open account up to date adds to the total and starts to count anew. -/
theorem Ok.sample (h : a.Ok now) : (a.sample now).Ok now := by
  rw [Account.sample]
  split
  · exact ⟨rfl, Nat.le_refl _, h.add.total⟩
  · exact h

/-! ### Bounds -/

/-- A tick adds one to an open account. -/
theorem spent_tick (h : a.Ok now) :
    a.spent (now + 1) = a.spent now + if a.mode then 1 else 0 := by
  have hle := h.since_le
  rw [spent, spent, openTime, openTime]
  cases a.mode with
  | true =>
      simp only [if_true]
      omega
  | false => simp

/-- Opening an account adds nothing. -/
theorem spent_on_le (a : Account) (now : Nat) : (a.on now).spent now ≤ a.spent now := by
  show 4 * a.units + (now - now) ≤ 4 * a.units + a.openTime now
  omega

/-- Closing an open account adds at most what was open. -/
theorem spent_off_le (h : a.Ok now) (hmode : a.mode = true) :
    (a.off now).spent now ≤ a.spent now := by
  have helapsed := toNat_elapsed h
  have hopen : a.openTime now = now - a.since := if_pos hmode
  show 4 * (a.units + (a.elapsed now).toNat) + 0 ≤ 4 * a.units + a.openTime now
  omega

/-- Bringing an account up to date adds nothing. -/
theorem spent_sample_le (h : a.Ok now) : (a.sample now).spent now ≤ a.spent now := by
  rw [sample]
  cases hmode : a.mode with
  | false => simp
  | true =>
      have hoff := spent_off_le h hmode
      have hadd : (a.off now).spent now = 4 * (a.add now).units := rfl
      simp only [if_true]
      show 4 * (a.add now).units + (if a.mode then now - now else 0) ≤ a.spent now
      rw [hmode, if_pos rfl]
      omega

/-! ### Measuring -/

/-- The account has measured `ticks` ticks, up to the remainders of the divisions. -/
structure Measures (a : Account) (now ticks : Nat) : Prop where
  ok : a.Ok now
  le : a.spent now ≤ ticks
  ge : ticks ≤ a.spent now + 3 * a.cuts

/-- An account that was never opened has measured no tick. -/
theorem measures_init : init.Measures now 0 := ⟨ok_init, Nat.le_refl _, Nat.zero_le _⟩

/-- A tick, which is measured when the account is open. -/
theorem Measures.tick {ticks : Nat} (h : a.Measures now ticks) :
    a.Measures (now + 1) (ticks + if a.mode then 1 else 0) where
  ok := h.ok.tick
  le := by
    rw [spent_tick h.ok]
    exact Nat.add_le_add_right h.le _
  ge := by
    have := h.ge
    rw [spent_tick h.ok]
    omega

/-- A closed account is opened. -/
theorem Measures.on {ticks : Nat} (h : a.Measures now ticks) (hmode : a.mode = false) :
    (a.on now).Measures now ticks := by
  have heq : (a.on now).spent now = a.spent now := by
    show 4 * a.units + (now - now) = 4 * a.units + a.openTime now
    rw [openTime, hmode, Nat.sub_self]
    rfl
  exact ⟨h.ok.on, heq ▸ h.le, heq ▸ h.ge⟩

/-- An open account is closed, less than a round of the clock after it was opened. -/
theorem Measures.off {ticks : Nat} (h : a.Measures now ticks) (hmode : a.mode = true)
    (hshort : now < a.since + 65536) : (a.off now).Measures now ticks where
  ok := h.ok.off
  le := Nat.le_trans (spent_off_le h.ok hmode) h.le
  ge := by
    have hge := h.ge
    have helapsed := toNat_elapsed h.ok
    have hopen : a.openTime now = now - a.since := if_pos hmode
    rw [spent] at hge
    show ticks ≤ 4 * (a.units + (a.elapsed now).toNat) + 0 + 3 * (a.cuts + 1)
    omega

/-- An account is brought up to date. -/
theorem Measures.sample {ticks : Nat} (h : a.Measures now ticks)
    (hshort : a.mode = true → now < a.since + 65536) : (a.sample now).Measures now ticks := by
  cases hmode : a.mode with
  | false =>
      rw [Account.sample, hmode]
      exact h
  | true =>
      have hoff := h.off hmode (hshort hmode)
      have hadd : (a.off now).spent now = 4 * (a.add now).units := rfl
      have hcuts : (a.off now).cuts = (a.add now).cuts := rfl
      have hspent : (a.sample now).spent now = 4 * (a.add now).units := by
        rw [Account.sample, if_pos hmode]
        show 4 * (a.add now).units + (if a.mode then now - now else 0) = _
        rw [hmode, if_pos rfl]
        omega
      have hcuts' : (a.sample now).cuts = (a.add now).cuts := by
        rw [Account.sample, if_pos hmode]
      exact {
        ok := h.ok.sample
        le := by
          rw [hspent, ← hadd]
          exact hoff.le
        ge := by
          rw [hspent, hcuts', ← hadd, ← hcuts]
          exact hoff.ge }

end Account

end PTunes
