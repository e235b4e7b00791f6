import Mathlib.Data.Nat.Bitwise
import Mathlib.Logic.Function.Basic

/-!
# `PTunes.Lib.Bits`: a memory as a string of bits

A memory is a function from positions to bytes. `bitAt m k` is bit `k` of the memory, where the
bits of a byte are numbered from the most significant one on.

* `eq_of_bitAt`: two bytes with the same bits are equal.
* `bitAt_update_or`, `bitAt_update`: what a write to one byte does to the bits.
* `Places m m' start len bits`: `m'` is `m` with the bits from `start` on replaced. Writes that
  follow each other compose (`Places.append`), and a write leaves the bits of the others alone.
-/

set_option autoImplicit false

namespace PTunes

/-- Bit `k` of a memory. -/
def bitAt (m : Nat → UInt8) (k : Nat) : Bool := (m (k / 8)).toNat.testBit (7 - k % 8)

/-- A byte has no bits but these eight. -/
theorem byte_ext {a b : UInt8} (h : ∀ i < 8, a.toNat.testBit i = b.toNat.testBit i) : a = b := by
  rw [← UInt8.toNat_inj]
  refine Nat.eq_of_testBit_eq fun i => ?_
  by_cases hi : i < 8
  · exact h i hi
  · have hle : 2 ^ 8 ≤ 2 ^ i := Nat.pow_le_pow_right (by decide) (by omega)
    have ha := a.toNat_lt
    have hb := b.toNat_lt
    rw [Nat.testBit_lt_two_pow (by omega), Nat.testBit_lt_two_pow (by omega)]

/-- Bit `j` of byte `i`, counted from the most significant one, with the division worked out. -/
theorem bitAt_eq (m : Nat → UInt8) {i j : Nat} (hj : j < 8) :
    bitAt m (8 * i + j) = (m i).toNat.testBit (7 - j) := by
  rw [bitAt, show (8 * i + j) / 8 = i by omega, show (8 * i + j) % 8 = j by omega]

/-- Bytes with the same bits are equal, wherever they are. -/
theorem eq_of_bitAt {m m' : Nat → UInt8} {i i' : Nat}
    (h : ∀ j < 8, bitAt m (8 * i + j) = bitAt m' (8 * i' + j)) : m i = m' i' := by
  refine byte_ext fun j hj => ?_
  have hbit := h (7 - j) (by omega)
  rw [bitAt_eq m (by omega), bitAt_eq m' (by omega), show 7 - (7 - j) = j by omega] at hbit
  exact hbit

/-- The bits after a write to one byte. -/
theorem bitAt_update (m : Nat → UInt8) (i : Nat) (b : UInt8) (k : Nat) :
    bitAt (Function.update m i b) k =
      if k / 8 = i then b.toNat.testBit (7 - k % 8) else bitAt m k := by
  rw [bitAt, Function.update_apply]
  split
  · rfl
  · rfl

/-- The bits after a disjunction with one byte. -/
theorem bitAt_update_or (m : Nat → UInt8) (i : Nat) (b : UInt8) (k : Nat) :
    bitAt (Function.update m i (m i ||| b)) k =
      (bitAt m k || (decide (k / 8 = i) && b.toNat.testBit (7 - k % 8))) := by
  rw [bitAt_update]
  by_cases h : k / 8 = i
  · rw [if_pos h, UInt8.toNat_or, Nat.testBit_or, bitAt, h]
    simp
  · rw [if_neg h]
    simp [h]

/-- The bits `start` to `start + len` are replaced by `bits`. -/
def Places (m m' : Nat → UInt8) (start len : Nat) (bits : Nat → Bool) : Prop :=
  ∀ k, bitAt m' k = if start ≤ k ∧ k < start + len then bits (k - start) else bitAt m k

namespace Places

variable {m m' m'' : Nat → UInt8} {start len : Nat} {bits : Nat → Bool}

/-- Nothing was placed, whatever the bits would have been. -/
theorem refl (m : Nat → UInt8) (start : Nat) (bits : Nat → Bool) : Places m m start 0 bits :=
  fun k => (if_neg (by omega)).symm

/-- Inside the range the bits are the ones that were placed. -/
theorem inside (h : Places m m' start len bits) {j : Nat} (hj : j < len) :
    bitAt m' (start + j) = bits j := by
  rw [h, if_pos (by omega), Nat.add_sub_cancel_left]

/-- Outside of the range, on either side, the bits are the ones from before. -/
theorem outside (h : Places m m' start len bits) {k : Nat} (hk : k < start ∨ start + len ≤ k) :
    bitAt m' k = bitAt m k := by
  rw [h, if_neg (by omega)]

/-- Two writes, one behind the other. -/
theorem append {len' : Nat} {bits' : Nat → Bool} (h : Places m m' start len bits)
    (h' : Places m' m'' (start + len) len' bits')
    (hbits : ∀ j < len', bits' j = bits (len + j)) : Places m m'' start (len + len') bits := by
  intro k
  rw [h' k, h k]
  by_cases hsecond : start + len ≤ k ∧ k < start + len + len'
  · rw [if_pos hsecond, if_pos (by omega), hbits _ (by omega)]
    congr 1
    omega
  · rw [if_neg hsecond]
    by_cases hfirst : start ≤ k ∧ k < start + len
    · rw [if_pos hfirst, if_pos (by omega)]
    · rw [if_neg hfirst, if_neg (by omega)]

/-- Only the bits of the range count, so any other ones that agree on it do as well. -/
theorem congr {bits' : Nat → Bool} (h : Places m m' start len bits)
    (hbits : ∀ j < len, bits j = bits' j) : Places m m' start len bits' := by
  intro k
  rw [h k]
  by_cases hk : start ≤ k ∧ k < start + len
  · rw [if_pos hk, if_pos hk, hbits _ (by omega)]
  · rw [if_neg hk, if_neg hk]

end Places

end PTunes
