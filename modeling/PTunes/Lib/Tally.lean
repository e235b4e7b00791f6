import Mathlib.Init

/-!
# `PTunes.Lib.Tally`: a sum and a count that are halved together

The mean of a sequence of values is kept as their sum and their number. From time to time both are
halved, so that newer values count more. The sum is rounded down then.

`Between lo hi sum count` says that the sum is that of `count` values between `lo` and `hi`, up to
one. A new value keeps this (`Between.add`), and so does halving when the count is even
(`Between.halve`): the rounding does not add up, because the loss is halved as well. So the mean is
between the bounds up to one (`Between.mean`), however often the tally was halved.
-/

set_option autoImplicit false

namespace PTunes.Tally

/-- A sum of `count` values between `lo` and `hi`, of which one unit may be lost. -/
structure Between (lo hi sum count : Nat) : Prop where
  lower : count * lo ≤ sum + 1
  upper : sum ≤ count * hi

namespace Between

variable {lo hi sum count x : Nat}

/-- No values. -/
theorem zero (lo hi : Nat) : Between lo hi 0 0 := ⟨by simp, by simp⟩

/-- One more value. -/
theorem add (h : Between lo hi sum count) (hlo : lo ≤ x) (hhi : x ≤ hi) :
    Between lo hi (sum + x) (count + 1) where
  lower := by
    have := h.lower
    rw [Nat.add_mul]
    omega
  upper := by
    have := h.upper
    rw [Nat.add_mul]
    omega

/-- Half of an even number of values. -/
theorem halve (h : Between lo hi sum (2 * count)) : Between lo hi (sum / 2) count where
  lower := by
    have hlower := h.lower
    rw [Nat.mul_assoc] at hlower
    omega
  upper := by
    have hupper := h.upper
    rw [Nat.mul_assoc] at hupper
    omega

/-- The mean is between the bounds, up to one. -/
theorem mean (h : Between lo hi sum count) (hcount : 0 < count) :
    lo ≤ sum / count + 1 ∧ sum / count ≤ hi := by
  constructor
  · have hlt : sum < count * (sum / count + 1) := Nat.lt_mul_div_succ sum hcount
    have hlower := h.lower
    -- Otherwise `count * lo` would be at least two more than the sum.
    exact Nat.le_of_mul_le_mul_left (Nat.le_trans hlower hlt) hcount
  · exact Nat.div_le_of_le_mul h.upper

end Between

end PTunes.Tally
