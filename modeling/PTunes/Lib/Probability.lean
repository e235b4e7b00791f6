import Mathlib.Analysis.SpecialFunctions.Pow.Real
import Mathlib.Topology.UnitInterval

/-!
# `PTunes.Lib.Probability`: probabilities as real numbers

A probability is a member of `unitInterval`. It stays one under powers, with exponents of
any kind that are not negative. `le_mix` bounds the mean of two values by the lesser one, and
`retries_nonneg` is about the closed form of a truncated geometric sum: the expected number
of times that an attempt is repeated, when it fails with probability `q` and is repeated at
most `n` times.
-/

set_option autoImplicit false

namespace PTunes.Probability

variable {p q : ℝ}

/-- A natural power of a probability. -/
theorem pow_mem (hp : p ∈ unitInterval) (n : Nat) : p ^ n ∈ unitInterval :=
  ⟨pow_nonneg hp.1 n, pow_le_one₀ hp.1 hp.2⟩

/-- An integer power of a probability. -/
theorem zpow_mem (hp : p ∈ unitInterval) {n : ℤ} (hn : 0 ≤ n) : p ^ n ∈ unitInterval := by
  obtain ⟨m, rfl⟩ := Int.eq_ofNat_of_zero_le hn
  rw [zpow_natCast]
  exact pow_mem hp m

/-- A real power of a probability. -/
theorem rpow_mem (hp : p ∈ unitInterval) {x : ℝ} (hx : 0 ≤ x) : p ^ x ∈ unitInterval :=
  ⟨Real.rpow_nonneg hp.1 x, Real.rpow_le_one hp.1 hp.2 hx⟩

/-- A natural power of a probability falls when the probability falls or the exponent grows. -/
theorem pow_le_pow (hp : p ∈ unitInterval) (hpq : p ≤ q) {m n : Nat} (hmn : m ≤ n) :
    p ^ n ≤ q ^ m :=
  (pow_le_pow_of_le_one hp.1 hp.2 hmn).trans (pow_le_pow_left₀ hp.1 hpq m)

/-- The same for integer powers. -/
theorem zpow_le_zpow (hp : p ∈ unitInterval) (hpq : p ≤ q) {m n : ℤ} (hm : 0 ≤ m)
    (hmn : m ≤ n) : p ^ n ≤ q ^ m := by
  obtain ⟨i, rfl⟩ := Int.eq_ofNat_of_zero_le hm
  obtain ⟨j, rfl⟩ := Int.eq_ofNat_of_zero_le (hm.trans hmn)
  rw [zpow_natCast, zpow_natCast]
  exact pow_le_pow hp hpq (by exact_mod_cast hmn)

/-- A real power of a probability falls when the exponent grows. -/
theorem rpow_le_rpow (hp : p ∈ unitInterval) {x y : ℝ} (hx : 0 ≤ x) (hxy : x ≤ y) :
    p ^ y ≤ p ^ x :=
  Real.rpow_le_rpow_of_exponent_ge' hp.1 hp.2 hx hxy

/-- The complement of a probability. -/
theorem compl_mem (hp : p ∈ unitInterval) : 1 - p ∈ unitInterval :=
  Set.Icc.one_sub_mem hp

/-- A rational number between 0 and 1 as a probability. -/
theorem cast_mem {r : ℚ} (h : 0 ≤ r ∧ r ≤ 1) : (r : ℝ) ∈ unitInterval := by
  obtain ⟨h0, h1⟩ := h
  exact ⟨by exact_mod_cast h0, by exact_mod_cast h1⟩

/-- The mean of two values is at least a bound of both. -/
theorem le_mix {a x y : ℝ} (hp : p ∈ unitInterval) (hx : a ≤ x) (hy : a ≤ y) :
    a ≤ x * p + y * (1 - p) := by
  have hxp : a * p ≤ x * p := mul_le_mul_of_nonneg_right hx hp.1
  have hyp : a * (1 - p) ≤ y * (1 - p) := mul_le_mul_of_nonneg_right hy (compl_mem hp).1
  linarith

/-- The expected number of repetitions is not negative. -/
theorem retries_nonneg (hq : q ∈ unitInterval) {n : ℤ} (hn : 0 ≤ n) :
    0 ≤ q * (1 - q ^ n) / (1 - q) :=
  div_nonneg (mul_nonneg hq.1 (compl_mem (zpow_mem hq hn)).1) (compl_mem hq).1

end PTunes.Probability
