import PTunes.Controller.EclipseDriver
import PTunes.Optimizer.E2e

/-!
# `PTunes.Proofs.Optimizer.Fallback`: the fallback and the optimum

`optimize` answers the parameters of `optimizedForReliabilityParameters` when the end-to-end
constraints are not satisfiable, and the triggers recognise this answer by its value. The
value of X-MAC is (16, 20, 10), the one that the triggers compare with, but it is also in
the domains of the search (`createVariables_xmacRel`), so an optimum can be taken for the
fallback. The value of LPP is (76, 60, 10), and the triggers compare with (71, 20, 10), so
it is never recognised; as no optimum of LPP has a recognised value either
(`not_isReliabilityFallback_lpp`), the test is always false there.

So the answer is recognised in the right cases exactly when (16, 20, 10) violates a constraint
of X-MAC or can be improved, and when the constraints of LPP are satisfiable
(`fallbackAgrees_iff`).
-/

set_option autoImplicit false

namespace PTunes.Optimizer

open PTunes.Controller

/-! ### The values -/

/-- The fallback of X-MAC has the value that the triggers compare with. -/
theorem optimizedForReliabilityParameters_xmac :
    Xmac.optimizedForReliabilityParameters = xmacRel := by
  decide +kernel

/-- The fallback of LPP. -/
theorem optimizedForReliabilityParameters_lpp :
    Lpp.optimizedForReliabilityParameters = ⟨76, 60, 10⟩ := by
  decide +kernel

/-- The bound of Tl in the search of X-MAC. -/
theorem ubTl_eq : Xmac.ubTl = 16 := by
  decide +kernel

/-- The difference of Tl and Ts in the search of LPP. -/
theorem fixed_eq : Lpp.fixed = 16 := by
  decide +kernel

/-- The fallback of X-MAC is in the domains of its search. -/
theorem createVariables_xmacRel : Xmac.createVariables xmacRel = true := by
  decide +kernel

/-- In the domains of X-MAC only its own fallback is recognised. -/
theorem isReliabilityFallback_xmac {v : MacConfiguration}
    (h : Xmac.createVariables v = true) :
    isReliabilityFallback v = true ↔ v = xmacRel := by
  rw [isReliabilityFallback_iff]
  constructor
  · rintro (hv | rfl)
    · exact hv
    · have htl : (71 : ℤ) ≤ Xmac.ubTl := by
        simp only [Xmac.createVariables, Bool.and_eq_true, decide_eq_true_eq] at h
        exact h.1.1.2
      rw [ubTl_eq] at htl
      omega
  · exact .inl

/-- In the domains of LPP nothing is recognised. -/
theorem not_isReliabilityFallback_lpp {v : MacConfiguration}
    (h : Lpp.createVariables v = true) : isReliabilityFallback v = false := by
  have htl : v.tl = 16 + v.ts := by
    simp only [Lpp.createVariables, Bool.and_eq_true, decide_eq_true_eq, beq_iff_eq,
      fixed_eq] at h
    exact h.1.1.2
  rw [← Bool.not_eq_true, isReliabilityFallback_iff]
  rintro (rfl | rfl)
  · exact absurd htl (by decide)
  · exact absurd htl (by decide)

/-! ### Answers of the two branches -/

section Answers

variable {M : MacModel} {ts : List Topology} {b : Bounds} {v : MacConfiguration}

/-- An answer of the solver satisfies the end-to-end constraints. -/
theorem Solve.setupEndToEnd (h : Solve M ts b v) : SetupEndToEnd M ts b v := by
  obtain ⟨_, ⟨hsetup, _⟩, _⟩ := h
  exact hsetup

/-- When the solver has an answer, `optimize` does not take its else branch. -/
theorem Solve.not_infeasible (h : Solve M ts b v) : ¬ Infeasible M ts b :=
  fun hinf => hinf ⟨v, h.setupEndToEnd⟩

/-- When the constraints are not satisfiable, the fallback is the answer. -/
theorem optimize_of_infeasible (h : Infeasible M ts b) :
    Optimize M ts b v ↔ v = M.optimizedForReliabilityParameters := by
  constructor
  · rintro (⟨hfeas, _⟩ | ⟨_, hv⟩)
    · exact absurd h hfeas
    · exact hv
  · intro hv
    exact .inr ⟨h, hv⟩

/-- When the constraints are satisfiable, the answer is what the solver finds. -/
theorem optimize_of_feasible (h : ¬ Infeasible M ts b) :
    Optimize M ts b v ↔ Solve M ts b v := by
  constructor
  · rintro (⟨_, hsolve⟩ | ⟨hinf, _⟩)
    · exact hsolve
    · exact absurd hinf h
  · intro hsolve
    exact .inl ⟨h, hsolve⟩

end Answers

/-! ### Agreement -/

/-- Every answer of `optimize` on the topologies of the controller is recognised as the
fallback exactly when `optimize` took its else branch. -/
def FallbackAgrees (M : MacModel) (infos : List TopologyInfo)
    (b : Bounds) : Prop :=
  ∀ ts, createTopologies infos = some ts → ∀ v, Optimize M ts b v →
    (isReliabilityFallback v = true ↔ Infeasible M ts b)

/-- The parameters `v` violate a constraint, or other parameters satisfy all of them and lower
the cost by `delta`. -/
def ViolatesOrImprovable (M : MacModel) (ts : List Topology)
    (b : Bounds) (v : MacConfiguration) : Prop :=
  ∀ c, Solution M ts b v c →
    ∃ v' c', Solution M ts b v' c' ∧ c' ≤ c - delta

/-- The solver stops at the parameters that satisfy the constraints and cannot be
improved. -/
theorem not_solve_iff {M : MacModel} {ts : List Topology}
    {b : Bounds} {v : MacConfiguration} :
    ¬ Solve M ts b v ↔ ViolatesOrImprovable M ts b v := by
  simp only [Solve, ViolatesOrImprovable, not_exists, not_and, not_forall, not_not,
    exists_prop]

variable (infos : List TopologyInfo) (b : Bounds)

/-- With X-MAC the test is right unless the value of the fallback is an optimum. -/
theorem fallbackAgrees_xmac_iff :
    FallbackAgrees .xmac infos b ↔
      ∀ ts, createTopologies infos = some ts → ¬ Solve .xmac ts b xmacRel := by
  constructor
  · intro h ts hts hsolve
    have hiff := h ts hts xmacRel (.inl ⟨hsolve.not_infeasible, hsolve⟩)
    exact hsolve.not_infeasible (hiff.mp (by decide))
  · intro h ts hts v hv
    by_cases hinf : Infeasible .xmac ts b
    · have hrel := (optimize_of_infeasible hinf).mp hv
      have hval : v = xmacRel := hrel.trans optimizedForReliabilityParameters_xmac
      simp only [hinf, iff_true, isReliabilityFallback_iff]
      exact .inl hval
    · have hsolve := (optimize_of_feasible hinf).mp hv
      simp only [hinf, iff_false]
      intro hrec
      have hval := (isReliabilityFallback_xmac hsolve.setupEndToEnd.1).mp hrec
      exact h ts hts (hval ▸ hsolve)

/-- With LPP the test is right only when the constraints are satisfiable. -/
theorem fallbackAgrees_lpp_iff :
    FallbackAgrees .lpp infos b ↔
      ∀ ts, createTopologies infos = some ts → ∃ v, SetupEndToEnd .lpp ts b v := by
  constructor
  · intro h ts hts
    by_contra hinf
    have hrel : Optimize .lpp ts b Lpp.optimizedForReliabilityParameters :=
      (optimize_of_infeasible hinf).mpr rfl
    have hrec := (h ts hts _ hrel).mpr hinf
    rw [optimizedForReliabilityParameters_lpp] at hrec
    exact absurd hrec (by decide)
  · intro h ts hts v hv
    have hfeas : ¬ Infeasible .lpp ts b := fun hinf => hinf (h ts hts)
    have hsolve := (optimize_of_feasible hfeas).mp hv
    simp only [hfeas, iff_false, not_isReliabilityFallback_lpp hsolve.setupEndToEnd.1]
    decide

/-- For every topology list and every pair of bounds: the answer is recognised exactly in
the infeasible case, with X-MAC if and only if (16, 20, 10) violates a constraint or can be
improved, and with LPP if and only if the end-to-end constraints are satisfiable. -/
theorem fallbackAgrees_iff :
    (FallbackAgrees .xmac infos b ↔
      ∀ ts, createTopologies infos = some ts →
        ViolatesOrImprovable .xmac ts b xmacRel) ∧
    (FallbackAgrees .lpp infos b ↔
      ∀ ts, createTopologies infos = some ts → ∃ v, SetupEndToEnd .lpp ts b v) := by
  refine ⟨?_, fallbackAgrees_lpp_iff infos b⟩
  simp only [fallbackAgrees_xmac_iff, not_solve_iff]

/-! ### A sample input -/

/-- Node 2 below the sink 1. -/
def sampleInfo : TopologyInfo where
  nodeIds := [1, 2]
  prrs := [1, 0.9]
  fs := [0, 0.1]
  parentList := [[], [1]]
  childrenList := [[2], []]
  pathList := [[2, 1]]

/-- No average reliability is above 1, so a bound of 1 cannot be satisfied. -/
theorem infeasible_of_one_le {M : MacModel} {ts : List Topology} {b : Bounds}
    (hts : ts ≠ []) (hb : 1 ≤ b.br) : Infeasible M ts b := by
  rintro ⟨v, _, hall⟩
  obtain ⟨t, ht⟩ := List.exists_mem_of_ne_nil ts hts
  obtain ⟨_, avgR, _, _, _, hgt, hle, _⟩ := hall t ht
  have hbr : (1 : ℝ) ≤ b.br := by exact_mod_cast hb
  linarith

/-- With the bound 1 on the reliability, the answer (76, 60, 10) of LPP is not recognised as
the fallback. -/
theorem not_forall_fallbackAgrees :
    ¬ ∀ M ∈ [MacModel.xmac, MacModel.lpp], ∀ (infos : List TopologyInfo) (b : Bounds),
        FallbackAgrees M infos b := by
  intro hall
  have hagree := hall .lpp (by simp) [sampleInfo] ⟨1, 1⟩
  obtain ⟨ts, hts⟩ : ∃ ts, createTopologies [sampleInfo] = some ts :=
    Option.isSome_iff_exists.mp (by decide +kernel)
  have hne : ts ≠ [] := by
    rintro rfl
    have hlen : (createTopologies [sampleInfo]).map List.length = some 1 := by decide +kernel
    rw [hts] at hlen
    cases hlen
  obtain ⟨v, hv⟩ := (fallbackAgrees_lpp_iff [sampleInfo] ⟨1, 1⟩).mp hagree ts hts
  exact infeasible_of_one_le hne (le_refl 1) ⟨v, hv⟩

end PTunes.Optimizer
