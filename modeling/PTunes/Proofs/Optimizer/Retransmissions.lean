import PTunes.Lib.Attempts
import PTunes.Optimizer.Lpp
import PTunes.Optimizer.Xmac

/-!
# `PTunes.Proofs.Optimizer.Retransmissions`: the formulas of `Nrtx` and `Nftx`

`xmac.ecl` and `lpp.ecl` compute both numbers with the same formulas, from failure
probabilities of their own. `nrtxOf` and `nftxOf` are the formulas as functions of the failure
probability.

With `N` retransmissions a packet is sent at most `N + 1` times, and each of the first `N`
failures leads to a retransmission. So `Nrtx` is the mean number of failures of `N` attempts,
a truncated geometric sum, and `Nftx` the mean number of failures before the success of
`N + 1` attempts. The main result is `nrtx_nftx_isTruncatedMoment`.
-/

set_option autoImplicit false

namespace PTunes.Optimizer

open Attempts

/-- `Nrtx` of `perHopLatency`, `nodeLifetime` and `queuingRate`, from `Prtx`. -/
noncomputable def nrtxOf (prtx : ℝ) (n : ℤ) : ℝ := prtx * (1 - prtx ^ n) / (1 - prtx)

/-- `Nftx` of `perHopLatency`, from `Pf`. -/
noncomputable def nftxOf (pf : ℝ) (n : ℤ) : ℝ :=
  pf / (1 - pf) - (n + 1) * pf ^ (n + 1) / (1 - pf ^ (n + 1))

/-- The expected number of retransmissions, of which there are at most `n`. -/
noncomputable def expectedRetransmissions (p : ℝ) (n : ℕ) : ℝ :=
  mean p n fun outcome => failures outcome

/-- The expected number of failed transmissions before the first successful one, given that one
of `n + 1` transmissions is successful. -/
noncomputable def expectedFailures (p : ℝ) (n : ℕ) : ℝ :=
  meanGivenSuccess p (n + 1) fun outcome => failures outcome

/-- A formula computes a moment of a truncated distribution: a value between 0 and the number
`n` of retransmissions, which grows with the failure probability and with `n`. -/
structure IsTruncatedMoment (formula : ℝ → ℤ → ℝ) (moment : ℝ → ℕ → ℝ) : Prop where
  eq_moment : ∀ p ∈ Set.Ioo (0 : ℝ) 1, ∀ n : ℕ, formula p n = moment p n
  mem_Icc : ∀ p ∈ Set.Ioo (0 : ℝ) 1, ∀ n : ℕ, formula p n ∈ Set.Icc (0 : ℝ) n
  mono : ∀ p ∈ Set.Ioo (0 : ℝ) 1, ∀ q ∈ Set.Ioo (0 : ℝ) 1, p ≤ q →
    ∀ m n : ℕ, m ≤ n → formula p m ≤ formula q n

/-- The formula of `Nrtx`. -/
theorem nrtxOf_eq {p : ℝ} (hp : p ∈ Set.Ioo (0 : ℝ) 1) (n : ℕ) :
    nrtxOf p n = expectedRetransmissions p n := by
  rw [nrtxOf, expectedRetransmissions, mean_failures_eq hp.2.ne, zpow_natCast]

/-- The formula of `Nftx`. -/
theorem nftxOf_eq {p : ℝ} (hp : p ∈ Set.Ioo (0 : ℝ) 1) (n : ℕ) :
    nftxOf p n = expectedFailures p n := by
  have hexp : p ^ ((n : ℤ) + 1) = p ^ (n + 1) := by exact_mod_cast zpow_natCast p (n + 1)
  rw [nftxOf, expectedFailures,
    meanGivenSuccess_failures hp.2.ne (pow_succ_ne_one hp.1.le hp.2 n), hexp]
  push_cast
  rfl

/-- `Nrtx` is the expected number of retransmissions. -/
theorem isTruncatedMoment_nrtxOf : IsTruncatedMoment nrtxOf expectedRetransmissions where
  eq_moment _ hp n := nrtxOf_eq hp n
  mem_Icc p hp n := by
    rw [nrtxOf_eq hp]
    exact mean_failures_mem hp.1.le hp.2.le n
  mono p hp q hq hpq m n hmn := by
    rw [nrtxOf_eq hp, nrtxOf_eq hq]
    exact mean_failures_mono hp.1.le hpq hmn

/-- `Nftx` is the expected number of failures before the first success. -/
theorem isTruncatedMoment_nftxOf : IsTruncatedMoment nftxOf expectedFailures where
  eq_moment _ hp n := nftxOf_eq hp n
  mem_Icc p hp n := by
    rw [nftxOf_eq hp]
    exact meanGivenSuccess_mem hp.1.le hp.2 n
  mono p hp q hq hpq m n hmn := by
    rw [nftxOf_eq hp, nftxOf_eq hq]
    exact meanGivenSuccess_mono hp.1.le hpq hq.2 hmn

/-- The expected number of retransmissions is the sum of the probabilities that the first `k`
transmissions fail. -/
theorem expectedRetransmissions_eq_sum (p : ℝ) (n : ℕ) :
    expectedRetransmissions p n = ∑ k ∈ Finset.Icc 1 n, p ^ k := by
  rw [expectedRetransmissions, mean_failures]
  induction n with
  | zero => rfl
  | succ n ih => rw [Finset.sum_range_succ, Finset.sum_Icc_succ_top (by omega), ih]

/-- Both models compute `Nrtx` and `Nftx` by the formulas, and the formulas are the expected
number of retransmissions and the expected number of failures before the first success. -/
theorem nrtx_nftx_isTruncatedMoment :
    (∀ p v, Xmac.nrtx p v = nrtxOf (Xmac.prtx p v) v.n ∧
      Xmac.nftx p v = nftxOf (Xmac.pf p v) v.n) ∧
    (∀ p v, Lpp.nrtx p v = nrtxOf (Lpp.prtx p) v.n ∧
      Lpp.nftx p v = nftxOf (Lpp.pf p) v.n) ∧
    (IsTruncatedMoment nrtxOf expectedRetransmissions ∧
      ∀ p n, expectedRetransmissions p n = ∑ k ∈ Finset.Icc 1 n, p ^ k) ∧
    IsTruncatedMoment nftxOf expectedFailures :=
  ⟨fun _ _ => ⟨rfl, rfl⟩, fun _ _ => ⟨rfl, rfl⟩,
    ⟨isTruncatedMoment_nrtxOf, expectedRetransmissions_eq_sum⟩, isTruncatedMoment_nftxOf⟩

end PTunes.Optimizer
