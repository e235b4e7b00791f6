import PTunes.Proofs.Optimizer.Fallback
import PTunes.Proofs.Optimizer.Lpp
import PTunes.Proofs.Optimizer.Xmac

/-!
# `PTunes.Proofs.Optimizer.Reliability`: the fallback is the most reliable configuration

With X-MAC a hop gets more reliable when Tl or N grows: more strobes make it more likely that
one is received, and a packet is sent more often. The reliability of LPP depends on N alone.
The fallback has the greatest Tl and N of the domains, so no hop is more reliable with other
parameters. This carries over to the products along the paths and to their average
(`avgReliability_le_fallback`).
-/

set_option autoImplicit false

namespace PTunes.Optimizer

open PTunes.Controller PTunes.Probability

/-- `AvgR`: the mean of the end-to-end reliabilities. Without paths the source divides 0 by 0,
and this is 0. -/
noncomputable def avgReliability (M : MacModel) (t : Topology) (v : MacConfiguration) : ℝ :=
  (t.paths.map (endToEndReliability M t v)).sum / t.paths.length

/-- With some path, `AvgR` is determined by its constraint. -/
theorem eq_avgReliability_iff {M : MacModel} {t : Topology} {v : MacConfiguration}
    (h : t.paths ≠ []) {avgR : ℝ} :
    avgR * t.paths.length = (t.paths.map (endToEndReliability M t v)).sum ↔
      avgR = avgReliability M t v := by
  have hlen : (t.paths.length : ℝ) ≠ 0 := by
    exact_mod_cast fun hlen => h (List.length_eq_zero_iff.mp hlen)
  rw [avgReliability, eq_div_iff hlen]

/-! ### Hops -/

/-- More attempts, each with less failures, are more reliable. -/
theorem attempts_mono {q q' : ℝ} {m n : ℤ} (hq' : q' ∈ unitInterval) (hqq : q' ≤ q)
    (hm : 0 ≤ m) (hmn : m ≤ n) : 1 - q ^ (m + 1) ≤ 1 - q' ^ (n + 1) := by
  have hpow := zpow_le_zpow hq' hqq (m := m + 1) (n := n + 1) (by omega) (by omega)
  linarith

namespace Xmac

variable {v v' : MacConfiguration} {p : ℝ}

/-- A longer Tl has more strobes. -/
theorem k_mono (h : v.tl ≤ v'.tl) : k v ≤ k v' := by
  have hscale : (0 : ℝ) ≤ scale := by norm_num [scale]
  have htl : (scale : ℝ) * v.tl ≤ scale * v'.tl :=
    mul_le_mul_of_nonneg_left (by exact_mod_cast h) hscale
  exact div_le_div_of_nonneg_right (by linarith) (by norm_num [titer, tturn, tstr, tsl])

/-- More strobes are received more likely. -/
theorem ponestrobe_mono (hv : Usable v) (hp : p ∈ unitInterval) (h : v.tl ≤ v'.tl) :
    ponestrobe p v ≤ ponestrobe p v' := by
  have hpow := rpow_le_rpow (compl_mem hp) (k_pos hv).le (k_mono h)
  rw [ponestrobe, ponestrobe]
  linarith

/-- A hop gets more reliable when Tl or N grows. -/
theorem perHopReliability_mono {size : Nat} {node : Node size} (hv : Usable v)
    (hv' : Usable v') (hp : (node.prr : ℝ) ∈ unitInterval) (htl : v.tl ≤ v'.tl)
    (hn : v.n ≤ v'.n) : perHopReliability node v ≤ perHopReliability node v' := by
  have hp2 := pow_mem hp 2
  have hone := mul_le_mul_of_nonneg_right (ponestrobe_mono hv hp htl) hp2.1
  rw [perHopReliability, perHopReliability]
  split
  · exact le_refl 1
  · exact attempts_mono (compl_mem (unitInterval.mul_mem (ponestrobe_mem hv' hp) hp2))
      (by linarith) hv.2.2 hn

/-- The fallback has the greatest Tl and N of the domains. -/
theorem le_fallback (h : createVariables v = true) :
    v.tl ≤ optimizedForReliabilityParameters.tl ∧ v.n ≤ optimizedForReliabilityParameters.n := by
  have htl : optimizedForReliabilityParameters.tl = ubTl := rfl
  have hn : optimizedForReliabilityParameters.n = 10 := rfl
  simp only [createVariables, Bool.and_eq_true, decide_eq_true_eq] at h
  rw [htl, hn]
  exact ⟨h.1.1.2, h.2⟩

end Xmac

namespace Lpp

variable {v v' : MacConfiguration}

/-- A hop gets more reliable when N grows. -/
theorem perHopReliability_mono {size : Nat} {node : Node size} (hv : Usable v)
    (hp : (node.prr : ℝ) ∈ unitInterval) (hn : v.n ≤ v'.n) :
    perHopReliability node v ≤ perHopReliability node v' := by
  rw [perHopReliability, perHopReliability, poneprobe_eq]
  split
  · exact le_refl 1
  · exact attempts_mono (compl_mem (unitInterval.mul_mem hp hp)) le_rfl hv.2.2 hn

/-- The fallback has the greatest N of the domains. -/
theorem le_fallback (h : createVariables v = true) :
    v.n ≤ optimizedForReliabilityParameters.n := by
  have hn : optimizedForReliabilityParameters.n = 10 := rfl
  simp only [createVariables, Bool.and_eq_true, decide_eq_true_eq] at h
  rw [hn]
  exact h.2

end Lpp

/-! ### Paths and their average -/

section Average

variable {M : MacModel} {t : Topology} {v v' : MacConfiguration}

/-- A path gets more reliable with its hops. -/
theorem endToEndReliability_mono (h0 : ∀ i, 0 ≤ M.perHopReliability (t.node i) v)
    (h : ∀ i, M.perHopReliability (t.node i) v ≤ M.perHopReliability (t.node i) v')
    (path : List (Fin t.size)) :
    endToEndReliability M t v path ≤ endToEndReliability M t v' path :=
  List.prod_map_le_prod_map₀ _ _ (fun i _ => h0 i) fun i _ => h i

/-- The average gets greater with the reliabilities of the hops. -/
theorem avgReliability_mono (h0 : ∀ i, 0 ≤ M.perHopReliability (t.node i) v)
    (h : ∀ i, M.perHopReliability (t.node i) v ≤ M.perHopReliability (t.node i) v') :
    avgReliability M t v ≤ avgReliability M t v' := by
  refine div_le_div_of_nonneg_right ?_ (Nat.cast_nonneg _)
  exact List.sum_le_sum fun path _ => endToEndReliability_mono h0 h path

end Average

/-- With both MAC protocols, on every consistent topology and for all parameters in the domains:
the fallback has the greatest average reliability. -/
theorem avgReliability_le_fallback {M : MacModel} (hM : M ∈ [MacModel.xmac, MacModel.lpp])
    {t : Topology} (ht : t.Consistent) {v : MacConfiguration} (hv : M.createVariables v = true) :
    avgReliability M t v ≤ avgReliability M t M.optimizedForReliabilityParameters := by
  rcases List.mem_pair.mp hM with rfl | rfl
  · have hu := Xmac.usable_of_createVariables hv
    have hu' : Usable Xmac.optimizedForReliabilityParameters := by
      rw [optimizedForReliabilityParameters_xmac]
      decide
    obtain ⟨htl, hn⟩ := Xmac.le_fallback hv
    exact avgReliability_mono (fun i => (Xmac.perHopReliability_mem hu (prr_mem ht i)).1)
      fun i => Xmac.perHopReliability_mono hu hu' (prr_mem ht i) htl hn
  · -- Tl and Ts of the fallback do not matter here.
    have hu := Lpp.usable_of_createVariables hv
    exact avgReliability_mono (fun i => (Lpp.perHopReliability_mem hu (prr_mem ht i)).1)
      fun i => Lpp.perHopReliability_mono hu (prr_mem ht i) (Lpp.le_fallback hv)

/-- On the sample, the shortest Tl without retransmissions is no more reliable. -/
theorem avgReliability_le_fallback_busyLeaf :
    avgReliability .xmac busyLeaf ⟨6, 20, 0⟩ ≤ avgReliability .xmac busyLeaf ⟨16, 20, 10⟩ := by
  have hfallback : MacModel.xmac.optimizedForReliabilityParameters = ⟨16, 20, 10⟩ :=
    optimizedForReliabilityParameters_xmac
  rw [← hfallback]
  exact avgReliability_le_fallback (by simp) consistent_busyLeaf (by decide +kernel)

end PTunes.Optimizer
