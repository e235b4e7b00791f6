import Mathlib.Tactic.Common
import Mathlib.Algebra.Order.Group.Nat

/-!
# `PTunes.Lib.SerialNumber`: numbers compared modulo a power of two

A sender numbers its messages and sends only the last `w` bits of a number. Two such serial
numbers are compared by the sign of their difference. The comparison is that of the numbers as
long as they are close: `serial_eq_iff` and `serial_lt_iff` with a distance below `2 ^ (w - 1)`,
where the second number may even be ahead by `2 ^ (w - 1)`. No comparison of the bits alone can do
more: numbers at a distance of `2 ^ w` have the same serial number.
-/

set_option autoImplicit false

namespace PTunes.SerialNumber

/-- The serial number of `n`. -/
abbrev serial (w n : Nat) : BitVec w := BitVec.ofNat w n

/-- `a` is behind `b`: the difference, taken with a sign, is negative. -/
def Before {w : Nat} (a b : BitVec w) : Prop := (a - b).toInt < 0

instance {w : Nat} (a b : BitVec w) : Decidable (Before a b) :=
  inferInstanceAs (Decidable (_ < _))

variable {w m n : Nat}

/-- The value of a serial number, taken with a sign, is the balanced remainder of the number. -/
theorem toInt_serial (w n : Nat) : (serial w n).toInt = (n : Int).bmod (2 ^ w) := by
  rw [serial, ← BitVec.ofInt_natCast, BitVec.toInt_ofInt]

/-- The difference of two close numbers can be read off their serial numbers. -/
theorem toInt_serial_sub (hw : 0 < w) (hbehind : n ≤ m + 2 ^ (w - 1))
    (hahead : m < n + 2 ^ (w - 1)) : (serial w m - serial w n).toInt = (m : Int) - n := by
  have hpow : ((2 ^ (w - 1) : Nat) : Int) = 2 ^ (w - 1) := by push_cast; rfl
  have hofInt : serial w m - serial w n = BitVec.ofInt w ((m : Int) - n) := by
    apply BitVec.eq_of_toInt_eq
    rw [BitVec.toInt_sub, toInt_serial, toInt_serial, BitVec.toInt_ofInt, Int.bmod_sub_bmod,
      Int.sub_bmod_bmod]
  rw [hofInt]
  exact BitVec.toInt_ofInt_eq_self hw (by omega) (by omega)

/-- Close numbers with the same serial number are equal. -/
theorem serial_eq_iff (hw : 0 < w) (hbehind : n ≤ m + 2 ^ (w - 1))
    (hahead : m < n + 2 ^ (w - 1)) : serial w m = serial w n ↔ m = n := by
  constructor
  · intro h
    have hsub := toInt_serial_sub hw hbehind hahead
    rw [h, BitVec.sub_self, BitVec.toInt_zero] at hsub
    omega
  · rintro rfl
    rfl

/-- Close numbers are compared by their serial numbers. -/
theorem serial_lt_iff (hw : 0 < w) (hbehind : n ≤ m + 2 ^ (w - 1))
    (hahead : m < n + 2 ^ (w - 1)) : Before (serial w m) (serial w n) ↔ m < n := by
  rw [Before, toInt_serial_sub hw hbehind hahead]
  omega

end PTunes.SerialNumber
