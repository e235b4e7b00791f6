import PTunes.Optimizer.Consistent

/-!
# `PTunes.Optimizer.Performance`: estimation of the performance

`determinePerformance` of `adaptmac-e2e.ecl`, in the form of the constraints of
`PTunes.Optimizer.E2e`, and the minimum that `createCost` makes its cost of. Both use the
outgoing rates of `packetsToSend` and the metrics of the same MAC protocol.
-/

set_option autoImplicit false

namespace PTunes.Optimizer

open PTunes.Controller

/-- `Performance`: what `outputPerformance` sends. -/
structure Performance where
  /-- The network lifetime. -/
  minT : EReal
  avgR : ℝ
  avgL : ℝ
  maxQ : EReal

/-- `ic:max` of a list. `none` is the error that it raises for an empty one. -/
noncomputable def icMax : List EReal → Option EReal
  | [] => none
  | x :: xs => some (xs.foldl max x)

section Performance

variable (M : MacModel) (t : Topology) (v : MacConfiguration)

/-- `determinePerformance` of a topology and parameters outputs `p`. -/
def DeterminePerformance (p : Performance) : Prop :=
  (∀ i, M.latencyDefined (t.node i) v) ∧ ∃ fout, PacketsToSend M t v fout ∧
    p.minT ∈ icMin ((List.finRange t.size).map fun i => M.nodeLifetime t fout i v) ∧
    p.maxQ ∈ icMax ((List.finRange t.size).map fun i => M.queuingRate t fout i v) ∧
    p.avgR * t.paths.length = (t.paths.map (endToEndReliability M t v)).sum ∧
    p.avgL * t.paths.length = (t.paths.map (endToEndLatency M t v)).sum

/-- `MinT` of `createCost`, when `t` is the most recent topology. -/
def CreateCost (minT : EReal) : Prop :=
  ∃ fout, PacketsToSend M t v fout ∧ minT ∈ icMin (lifetimes M t v fout)

end Performance

/-- Each leaf has a relay with the same PRR that generates packets at least as fast. -/
def Topology.LeavesDominated (t : Topology) : Prop :=
  ∀ i, t.IsLeaf i →
    ∃ j, t.IsRelay j ∧ (t.node j).prr = (t.node i).prr ∧ (t.node i).f ≤ (t.node j).f

/-- In the chain the relay generates packets as fast as the leaf, over a link of one quality. -/
theorem leavesDominated_relayChain : relayChain.LeavesDominated := by
  simp only [Topology.LeavesDominated, Topology.IsLeaf, Topology.IsRelay]
  decide +kernel

end PTunes.Optimizer
