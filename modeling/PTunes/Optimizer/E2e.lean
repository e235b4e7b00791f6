import PTunes.Optimizer.Lpp
import PTunes.Optimizer.Xmac

/-!
# `PTunes.Optimizer.E2e`: end-to-end constraints and optimization

`adaptmac-e2e.ecl`, with the model of a MAC protocol as a parameter (`MacModel`): the
predicates that `xmac.ecl` and `lpp.ecl` both export.

The constraint solver is taken as sound and complete over the real numbers, so a constraint
is a proposition and a predicate that posts constraints is their conjunction. A quotient
`a / b` in a constraint stands for the `x` with `x * b = a`: an average over no paths is not
determined, and a quotient with divisor 0 and another dividend makes the constraint false
(`latencyDefined`). `optimize` takes its else branch exactly when no parameters in the
domains satisfy the end-to-end constraints. In the other branch it answers what `solve`
finds, or fails when nothing satisfies the further constraints.

`bb_min` goes on from a solution to one whose cost is lower by at least its `delta`, so it
stops at a solution that cannot be improved by so much; its time limit is left out. For an
empty list `ic:min` raises an error (`ic_constraints.ecl`), which ends `optimize` without an
answer as a failure does.
-/

set_option autoImplicit false

namespace PTunes.Optimizer

open PTunes.Controller

/-- The predicates of the model of a MAC protocol. -/
structure MacModel where
  perHopReliability : {size : Nat} → Node size → MacConfiguration → ℝ
  perHopLatency : {size : Nat} → Node size → MacConfiguration → ℝ
  latencyDefined : {size : Nat} → Node size → MacConfiguration → Prop
  nodeLifetime : (t : Topology) → (Fin t.size → ℝ) → Fin t.size → MacConfiguration → EReal
  queuingRate : (t : Topology) → (Fin t.size → ℝ) → Fin t.size → MacConfiguration → EReal
  createVariables : MacConfiguration → Bool
  optimizedForReliabilityParameters : MacConfiguration

/-- `xmac.ecl` -/
noncomputable def MacModel.xmac : MacModel where
  perHopReliability := Xmac.perHopReliability
  perHopLatency := Xmac.perHopLatency
  latencyDefined := Xmac.LatencyDefined
  nodeLifetime := Xmac.nodeLifetime
  queuingRate := Xmac.queuingRate
  createVariables := Xmac.createVariables
  optimizedForReliabilityParameters := Xmac.optimizedForReliabilityParameters

/-- `lpp.ecl` -/
noncomputable def MacModel.lpp : MacModel where
  perHopReliability := Lpp.perHopReliability
  perHopLatency := Lpp.perHopLatency
  latencyDefined := Lpp.LatencyDefined
  nodeLifetime := Lpp.nodeLifetime
  queuingRate := Lpp.queuingRate
  createVariables := Lpp.createVariables
  optimizedForReliabilityParameters := Lpp.optimizedForReliabilityParameters

/-- The bounds on the average reliability and latency, `BR` and `BL`. -/
structure Bounds where
  br : ℚ
  bl : ℚ

section Constraints

variable (M : MacModel) (t : Topology) (v : MacConfiguration)

/-- `endToEndReliability`: the product over a path. -/
noncomputable def endToEndReliability (path : List (Fin t.size)) : ℝ :=
  (path.map fun i => M.perHopReliability (t.node i) v).prod

/-- `endToEndLatency`: the sum over a path. -/
noncomputable def endToEndLatency (path : List (Fin t.size)) : ℝ :=
  (path.map fun i => M.perHopLatency (t.node i) v).sum

/-- The end-to-end constraints on one topology. -/
def EndToEnd (b : Bounds) : Prop :=
  (∀ i, M.latencyDefined (t.node i) v) ∧
  ∃ avgR avgL : ℝ,
    avgR * t.paths.length = (t.paths.map (endToEndReliability M t v)).sum ∧
    avgL * t.paths.length = (t.paths.map (endToEndLatency M t v)).sum ∧
    avgR > b.br ∧ avgR ≤ 1 ∧ avgL < b.bl ∧ avgL ≥ 0

/-- `packetsToSend` on all nodes of a topology: `fout` are the outgoing packet rates. -/
def PacketsToSend (fout : Fin t.size → ℝ) : Prop :=
  ∀ i, fout i =
    if (t.node i).isSink then 0
    else ((t.node i).children.map fun c =>
      M.perHopReliability (t.node c) v * fout c).sum + (t.node i).f

/-- The queuing constraint on the nodes of a topology that are not the sink. -/
def Queuing (fout : Fin t.size → ℝ) : Prop :=
  ∀ i, (t.node i).isSink = false → M.queuingRate t fout i v ≤ 0

/-- The lifetimes that `createCost` collects: of the nodes with children and a parent. -/
noncomputable def lifetimes (fout : Fin t.size → ℝ) : List EReal :=
  ((List.finRange t.size).filter fun i =>
    !(t.node i).children.isEmpty && !(t.node i).isSink).map
      fun i => M.nodeLifetime t fout i v

end Constraints

/-- `ic:min` of a list. `none` is the error that it raises for an empty one. -/
noncomputable def icMin : List EReal → Option EReal
  | [] => none
  | x :: xs => some (xs.foldl min x)

section Optimize

variable (M : MacModel) (ts : List Topology) (b : Bounds)

/-- `setupEndToEndConstraints`, with the parameters in their domains. -/
def SetupEndToEnd (v : MacConfiguration) : Prop :=
  M.createVariables v = true ∧ ∀ t ∈ ts, EndToEnd M t v b

/-- The parameters `v` satisfy all constraints of the first branch with the cost `c`. The
queuing constraint and the cost are those of the most recent topology. -/
def Solution (v : MacConfiguration) (c : EReal) : Prop :=
  SetupEndToEnd M ts b v ∧ ∃ recent ∈ ts.head?, ∃ fout,
    PacketsToSend M recent v fout ∧ Queuing M recent v fout ∧
    ∃ minT ∈ icMin (lifetimes M recent v fout), c = -minT

/-- The option `delta` of `bb_min`. -/
noncomputable def delta : EReal := 3600

/-- `solve`: a solution that no other solution improves by `delta`. -/
def Solve (v : MacConfiguration) : Prop :=
  ∃ c, Solution M ts b v c ∧
    ∀ v' c', Solution M ts b v' c' → ¬ c' ≤ c - delta

/-- The end-to-end constraints are not satisfiable, so `optimize` takes its else branch. -/
def Infeasible : Prop := ¬ ∃ v, SetupEndToEnd M ts b v

/-- `optimize` answers `v`. -/
def Optimize (v : MacConfiguration) : Prop :=
  (¬ Infeasible M ts b ∧ Solve M ts b v) ∨
  (Infeasible M ts b ∧ v = M.optimizedForReliabilityParameters)

end Optimize

end PTunes.Optimizer
