import Mathlib.Algebra.Order.BigOperators.Ring.Finset
import Mathlib.Algebra.Field.GeomSum
import Mathlib.Data.Real.Basic
import Mathlib.Tactic.FieldSimp
import Mathlib.Tactic.Linarith
import Mathlib.Tactic.Ring

/-!
# `PTunes.Lib.Attempts`: independent attempts that are repeated on failure

`n` independent attempts, each of which fails with probability `p`. An outcome lists which of
them succeed, `mean` is the mean over the outcomes and `meanGivenSuccess` the mean over those
with a success. `failures` counts the attempts before the first success, so its mean is the
expected number of repetitions when at most `n` attempts are repeated.

* `mean_failures` and `meanGivenSuccess_failures`: the closed forms of both means of `failures`.
* `meanGivenSuccess_succ`: the second one grows with each further attempt by a factor that is
  itself monotone, which gives its bounds and its monotonicity by induction.
-/

set_option autoImplicit false

namespace PTunes.Attempts

open Finset

/-- The mean of `X` over the outcomes of `n` attempts. -/
noncomputable def mean (p : ℝ) : ℕ → (List Bool → ℝ) → ℝ
  | 0, X => X []
  | n + 1, X =>
    p * mean p n (fun outcome => X (false :: outcome)) +
      (1 - p) * mean p n (fun outcome => X (true :: outcome))

/-- The attempts before the first success. -/
def failures : List Bool → ℕ
  | [] => 0
  | true :: _ => 0
  | false :: outcome => failures outcome + 1

/-- `X` on the outcomes with a success, and 0 on the other one. -/
def onSuccess (X : List Bool → ℝ) (outcome : List Bool) : ℝ :=
  if true ∈ outcome then X outcome else 0

/-- The mean of `X` over the outcomes of `n` attempts with a success. -/
noncomputable def meanGivenSuccess (p : ℝ) (n : ℕ) (X : List Bool → ℝ) : ℝ :=
  mean p n (onSuccess X) / mean p n (onSuccess fun _ => 1)

variable {p q : ℝ} {m n : ℕ}

/-! ### Means -/

/-- The mean of a constant. -/
@[simp] theorem mean_const (p : ℝ) (n : ℕ) (c : ℝ) : mean p n (fun _ => c) = c := by
  induction n with
  | zero => rfl
  | succ n ih =>
      rw [mean, ih]
      ring

/-- The mean of a sum. -/
theorem mean_add (p : ℝ) (n : ℕ) (X Y : List Bool → ℝ) :
    mean p n (fun outcome => X outcome + Y outcome) = mean p n X + mean p n Y := by
  induction n generalizing X Y with
  | zero => rfl
  | succ n ih =>
      simp only [mean, ih]
      ring

/-! ### The number of failures -/

/-- When the first attempt fails, the others count on. -/
@[simp] theorem failures_cons_false (outcome : List Bool) :
    failures (false :: outcome) = failures outcome + 1 := rfl

/-- A success at once is preceded by no failure. -/
@[simp] theorem failures_cons_true (outcome : List Bool) : failures (true :: outcome) = 0 := rfl

/-- One more attempt before the others. -/
theorem mean_failures_succ (p : ℝ) (n : ℕ) :
    mean p (n + 1) (fun outcome => failures outcome) =
      p * (mean p n (fun outcome => failures outcome) + 1) := by
  simp only [mean, failures_cons_false, failures_cons_true, Nat.cast_add, Nat.cast_one,
    Nat.cast_zero, mean_add, mean_const]
  ring

/-- The mean number of failures is a truncated geometric sum. -/
theorem mean_failures (p : ℝ) (n : ℕ) :
    mean p n (fun outcome => failures outcome) = ∑ k ∈ range n, p ^ (k + 1) := by
  induction n with
  | zero => simp [mean, failures]
  | succ n ih =>
      -- The first attempt multiplies every term by `p` and adds the term `p`.
      rw [mean_failures_succ, ih, sum_range_succ', mul_add, mul_sum, mul_one, zero_add, pow_one]
      exact congrArg (· + p) (sum_congr rfl fun k _ => (pow_succ' p (k + 1)).symm)

/-- Its closed form. -/
theorem mean_failures_eq (hp : p ≠ 1) (n : ℕ) :
    mean p n (fun outcome => failures outcome) = p * (1 - p ^ n) / (1 - p) := by
  have hgeom : (1 - p) * ∑ k ∈ range n, p ^ k = 1 - p ^ n := mul_neg_geom_sum p n
  have hne : 1 - p ≠ 0 := sub_ne_zero.mpr hp.symm
  rw [mean_failures, eq_div_iff hne, ← hgeom]
  simp only [pow_succ, ← sum_mul]
  ring

/-- No more attempts fail than are made. -/
theorem mean_failures_mem (h0 : 0 ≤ p) (h1 : p ≤ 1) (n : ℕ) :
    mean p n (fun outcome => failures outcome) ∈ Set.Icc (0 : ℝ) n := by
  rw [mean_failures]
  constructor
  · exact sum_nonneg fun k _ => pow_nonneg h0 _
  · calc ∑ k ∈ range n, p ^ (k + 1) ≤ ∑ k ∈ range n, (1 : ℝ) :=
          sum_le_sum fun k _ => pow_le_one₀ h0 h1
      _ = n := by simp

/-- More attempts, or attempts that fail more often, have more failures. -/
theorem mean_failures_mono (h0 : 0 ≤ p) (hpq : p ≤ q) (hmn : m ≤ n) :
    mean p m (fun outcome => failures outcome) ≤
      mean q n (fun outcome => failures outcome) := by
  rw [mean_failures, mean_failures]
  calc ∑ k ∈ range m, p ^ (k + 1) ≤ ∑ k ∈ range m, q ^ (k + 1) :=
        sum_le_sum fun k _ => pow_le_pow_left₀ h0 hpq _
    _ ≤ ∑ k ∈ range n, q ^ (k + 1) :=
        sum_le_sum_of_subset_of_nonneg (range_mono hmn) fun k _ _ =>
          pow_nonneg (h0.trans hpq) _

/-! ### The number of failures before a success -/

/-- After a failure, the others have to succeed. -/
@[simp] theorem onSuccess_cons_false (X : List Bool → ℝ) (outcome : List Bool) :
    onSuccess X (false :: outcome) = onSuccess (fun o => X (false :: o)) outcome := by
  simp [onSuccess]

/-- An outcome that begins with a success has one. -/
@[simp] theorem onSuccess_cons_true (X : List Bool → ℝ) (outcome : List Bool) :
    onSuccess X (true :: outcome) = X (true :: outcome) := by
  simp [onSuccess]

/-- `onSuccess` of a sum. -/
theorem onSuccess_add (X Y : List Bool → ℝ) :
    onSuccess (fun outcome => X outcome + Y outcome) =
      fun outcome => onSuccess X outcome + onSuccess Y outcome := by
  funext outcome
  simp only [onSuccess]
  split <;> simp

/-- The probability of a success. -/
theorem mean_onSuccess_one (p : ℝ) (n : ℕ) : mean p n (onSuccess fun _ => 1) = 1 - p ^ n := by
  induction n with
  | zero => simp [mean, onSuccess]
  | succ n ih =>
      simp only [mean, onSuccess_cons_false, onSuccess_cons_true, mean_const, ih]
      ring

/-- One more attempt before the others. -/
theorem mean_onSuccess_failures_succ (p : ℝ) (n : ℕ) :
    mean p (n + 1) (onSuccess fun outcome => failures outcome) =
      p * (mean p n (onSuccess fun outcome => failures outcome) + (1 - p ^ n)) := by
  simp only [mean, onSuccess_cons_false, onSuccess_cons_true, failures_cons_false,
    failures_cons_true, Nat.cast_add, Nat.cast_one, Nat.cast_zero, onSuccess_add, mean_add,
    mean_const, mean_onSuccess_one]
  ring

/-- The closed form of the share of the outcomes with a success. -/
theorem mean_onSuccess_failures (hp : p ≠ 1) (n : ℕ) :
    mean p n (onSuccess fun outcome => failures outcome) =
      (1 - p ^ n) * p / (1 - p) - n * p ^ n := by
  have hne : 1 - p ≠ 0 := sub_ne_zero.mpr hp.symm
  induction n with
  | zero => simp [mean, onSuccess]
  | succ n ih =>
      rw [mean_onSuccess_failures_succ, ih]
      -- What is left is an identity of rational functions in `p` and `p ^ n`.
      push_cast
      field_simp
      ring

/-- The mean number of failures before a success, in closed form. -/
theorem meanGivenSuccess_failures (hp : p ≠ 1) {n : ℕ} (hpn : p ^ n ≠ 1) :
    meanGivenSuccess p n (fun outcome => failures outcome) =
      p / (1 - p) - n * p ^ n / (1 - p ^ n) := by
  have hne : 1 - p ^ n ≠ 0 := sub_ne_zero.mpr hpn.symm
  rw [meanGivenSuccess, mean_onSuccess_failures hp, mean_onSuccess_one]
  field_simp

/-- The probability that the first of `n + 1` attempts fails, given that one succeeds. -/
noncomputable def firstFails (p : ℝ) (n : ℕ) : ℝ := p * (1 - p ^ n) / (1 - p ^ (n + 1))

/-- A single attempt that succeeds has no failure before it. -/
theorem meanGivenSuccess_one (p : ℝ) :
    meanGivenSuccess p 1 (fun outcome => failures outcome) = 0 := by
  simp [meanGivenSuccess, mean, onSuccess, failures]

/-- When the first attempt fails, its failure counts with those of the others. -/
theorem meanGivenSuccess_succ {n : ℕ} (hpn : p ^ n ≠ 1) :
    meanGivenSuccess p (n + 1) (fun outcome => failures outcome) =
      firstFails p n * (meanGivenSuccess p n (fun outcome => failures outcome) + 1) := by
  have hne : 1 - p ^ n ≠ 0 := sub_ne_zero.mpr hpn.symm
  rw [meanGivenSuccess, meanGivenSuccess, firstFails, mean_onSuccess_failures_succ,
    mean_onSuccess_one, mean_onSuccess_one]
  field_simp

/-- The geometric sum has the term 1. -/
theorem one_le_geom_sum (h0 : 0 ≤ p) (n : ℕ) : 1 ≤ ∑ k ∈ range (n + 1), p ^ k := by
  rw [sum_range_succ', pow_zero]
  have hrest : 0 ≤ ∑ k ∈ range n, p ^ (k + 1) := sum_nonneg fun k _ => pow_nonneg h0 _
  linarith

/-- The first attempt succeeds with the share of 1 in the geometric sum. -/
theorem firstFails_eq (h0 : 0 ≤ p) (h1 : p < 1) (n : ℕ) :
    firstFails p n = 1 - 1 / ∑ k ∈ range (n + 1), p ^ k := by
  have hsum : (∑ k ∈ range (n + 1), p ^ k) ≠ 0 := by
    have hone := one_le_geom_sum h0 n
    linarith
  have hne : 1 - p ≠ 0 := by linarith
  have hgeom : (1 - p) * ∑ k ∈ range (n + 1), p ^ k = 1 - p ^ (n + 1) := mul_neg_geom_sum p _
  -- The numerator is the denominator less `1 - p`.
  have hnum : p * (1 - p ^ n) = (1 - p) * (∑ k ∈ range (n + 1), p ^ k) - (1 - p) := by
    rw [hgeom]
    ring
  rw [firstFails, hnum, ← hgeom]
  field_simp

/-- The first attempt fails with a probability. -/
theorem firstFails_mem (h0 : 0 ≤ p) (h1 : p < 1) (n : ℕ) :
    firstFails p n ∈ Set.Icc (0 : ℝ) 1 := by
  have hone := one_le_geom_sum h0 n
  have hle : 1 / ∑ k ∈ range (n + 1), p ^ k ≤ 1 := (div_le_one₀ (by linarith)).mpr hone
  have hnonneg : 0 ≤ 1 / ∑ k ∈ range (n + 1), p ^ k := div_nonneg zero_le_one (by linarith)
  rw [firstFails_eq h0 h1]
  constructor <;> linarith

/-- With more attempts that may succeed, or attempts that fail more often, the first one fails
more often. -/
theorem firstFails_mono (h0 : 0 ≤ p) (hpq : p ≤ q) (h1 : q < 1) (hmn : m ≤ n) :
    firstFails p m ≤ firstFails q n := by
  have hsum : ∑ k ∈ range (m + 1), p ^ k ≤ ∑ k ∈ range (n + 1), q ^ k := by
    calc ∑ k ∈ range (m + 1), p ^ k ≤ ∑ k ∈ range (m + 1), q ^ k :=
          sum_le_sum fun k _ => pow_le_pow_left₀ h0 hpq _
      _ ≤ ∑ k ∈ range (n + 1), q ^ k :=
          sum_le_sum_of_subset_of_nonneg (range_mono (by omega)) fun k _ _ =>
            pow_nonneg (h0.trans hpq) _
  have hone := one_le_geom_sum h0 m
  have hinv : 1 / ∑ k ∈ range (n + 1), q ^ k ≤ 1 / ∑ k ∈ range (m + 1), p ^ k :=
    one_div_le_one_div_of_le (by linarith) hsum
  rw [firstFails_eq h0 (hpq.trans_lt h1), firstFails_eq (h0.trans hpq) h1]
  linarith

/-- Attempts that fail with less than certainty succeed some time. -/
theorem pow_succ_ne_one (h0 : 0 ≤ p) (h1 : p < 1) (n : ℕ) : p ^ (n + 1) ≠ 1 :=
  (pow_lt_one₀ h0 h1 (Nat.succ_ne_zero n)).ne

/-- Of `n + 1` attempts with a success at most `n` fail before it. -/
theorem meanGivenSuccess_mem (h0 : 0 ≤ p) (h1 : p < 1) (n : ℕ) :
    meanGivenSuccess p (n + 1) (fun outcome => failures outcome) ∈ Set.Icc (0 : ℝ) n := by
  induction n with
  | zero => simp [meanGivenSuccess_one]
  | succ n ih =>
      obtain ⟨hlow, hhigh⟩ := ih
      obtain ⟨hnonneg, hle⟩ := firstFails_mem h0 h1 (n + 1)
      -- A factor of at most 1 on at most `n + 1` failures.
      rw [meanGivenSuccess_succ (pow_succ_ne_one h0 h1 n)]
      push_cast
      constructor
      · exact mul_nonneg hnonneg (by linarith)
      · calc _ ≤ 1 * (meanGivenSuccess p (n + 1) (fun outcome => failures outcome) + 1) :=
              mul_le_mul_of_nonneg_right hle (by linarith)
          _ ≤ n + 1 := by linarith

/-- Attempts that fail more often have more failures before a success. -/
theorem meanGivenSuccess_mono_left (h0 : 0 ≤ p) (hpq : p ≤ q) (h1 : q < 1) (n : ℕ) :
    meanGivenSuccess p (n + 1) (fun outcome => failures outcome) ≤
      meanGivenSuccess q (n + 1) (fun outcome => failures outcome) := by
  have hp1 := hpq.trans_lt h1
  have hq0 := h0.trans hpq
  induction n with
  | zero => simp [meanGivenSuccess_one]
  | succ n ih =>
      have hlow := (meanGivenSuccess_mem h0 hp1 n).1
      rw [meanGivenSuccess_succ (pow_succ_ne_one h0 hp1 n),
        meanGivenSuccess_succ (pow_succ_ne_one hq0 h1 n)]
      exact mul_le_mul (firstFails_mono h0 hpq h1 le_rfl) (by linarith) (by linarith)
        (firstFails_mem hq0 h1 (n + 1)).1

/-- With one more attempt there are more failures before a success. -/
theorem meanGivenSuccess_le_succ (h0 : 0 ≤ p) (h1 : p < 1) (n : ℕ) :
    meanGivenSuccess p (n + 1) (fun outcome => failures outcome) ≤
      meanGivenSuccess p (n + 2) (fun outcome => failures outcome) := by
  induction n with
  | zero =>
      rw [meanGivenSuccess_one]
      exact (meanGivenSuccess_mem h0 h1 1).1
  | succ n ih =>
      have hlow := (meanGivenSuccess_mem h0 h1 n).1
      rw [meanGivenSuccess_succ (pow_succ_ne_one h0 h1 n),
        meanGivenSuccess_succ (pow_succ_ne_one h0 h1 (n + 1))]
      exact mul_le_mul (firstFails_mono h0 le_rfl h1 (Nat.le_succ _)) (by linarith)
        (by linarith) (firstFails_mem h0 h1 (n + 2)).1

/-- The mean number of failures before a success grows with the probability of a failure and
with the number of attempts. -/
theorem meanGivenSuccess_mono (h0 : 0 ≤ p) (hpq : p ≤ q) (h1 : q < 1) (hmn : m ≤ n) :
    meanGivenSuccess p (m + 1) (fun outcome => failures outcome) ≤
      meanGivenSuccess q (n + 1) (fun outcome => failures outcome) :=
  (meanGivenSuccess_mono_left h0 hpq h1 m).trans
    (monotone_nat_of_le_succ (meanGivenSuccess_le_succ (h0.trans hpq) h1) hmn)

end PTunes.Attempts
