import PTunes.Controller.Topology

/-!
# `PTunes.Controller.EclipseDriver`: the parameters that stand for infeasibility

`EclipseDriver.java` names for each MAC protocol the parameters that the optimizer is
expected to answer when the end-to-end constraints are not satisfiable. The triggers compare
the answer of `optimize` with both triples.
-/

set_option autoImplicit false

namespace PTunes.Controller

/-- `XMAC_REL_TL`, `XMAC_REL_TS`, `XMAC_REL_N`. -/
def xmacRel : MacConfiguration := ⟨16, 20, 10⟩

/-- `LPP_REL_TL`, `LPP_REL_TS`, `LPP_REL_N`. -/
def lppRel : MacConfiguration := ⟨71, 20, 10⟩

/-- The test of `TimedPerformanceTrigger` and `InitialOptimizationTrigger` on the answer of
`optimize`: whether the parameters are the ones that are optimized for reliability. -/
def isReliabilityFallback (newConf : MacConfiguration) : Bool :=
  (newConf.tl == xmacRel.tl && newConf.ts == xmacRel.ts && newConf.n == xmacRel.n) ||
  (newConf.tl == lppRel.tl && newConf.ts == lppRel.ts && newConf.n == lppRel.n)

/-- The test compares the three parameters one by one, which is the same as comparing the
configurations. -/
theorem isReliabilityFallback_iff {newConf : MacConfiguration} :
    isReliabilityFallback newConf = true ↔ newConf = xmacRel ∨ newConf = lppRel := by
  rcases newConf with ⟨tl, ts, n⟩
  simp [isReliabilityFallback, xmacRel, lppRel, and_assoc]

end PTunes.Controller
