import PTunes.Controller.Topology

/-!
# `PTunes.Controller.Paths`: paths to the sink

`AbstractTrigger.buildPathList` and `AdaptMac.computePRRStats` follow the parents from each
source node until they meet the node that `getSink` returns. The two loops differ in what
they do at each node and at the sink, so both are `followParents` with their own `visit` and
`finish`. A node or a sink that is missing is dereferenced, which ends the loop with an
exception.

`computePRRStats` computes with `double`. Its operations are a parameter (`DoubleOps`), since
the loop does not depend on them.
-/

set_option autoImplicit false

namespace PTunes.Controller

variable {ρ β γ R : Type}

/-- The source nodes: every node that is not a sink (`FROM_LEAVES` is false). -/
def Topology.sources (t : Topology ρ) : List (NodeTopologyInfo ρ) :=
  t.nodes.toList.filter (fun n => !n.isSink)

/-- One turn of `while (iterator.getNodeId() != t.getSink().getNodeId())` with its body, and
what follows the loop. -/
def Topology.followTurn (t : Topology ρ) (visit : β → NodeTopologyInfo ρ → β)
    (finish : β → NodeTopologyInfo ρ → γ) :
    Option (NodeTopologyInfo ρ) × β → Turn (Option (NodeTopologyInfo ρ) × β) γ
  | (none, _) => .fail
  | (some iterator, acc) =>
      match t.getSink with
      | none => .fail
      | some sink =>
          if iterator.nodeId ≠ sink.nodeId then
            .next (t.getNodeInfo iterator.parentId, visit acc iterator)
          else .done (finish acc sink)

/-- Follow the parents from the node `l` to the sink. -/
def Topology.followParents (t : Topology ρ) (visit : β → NodeTopologyInfo ρ → β)
    (finish : β → NodeTopologyInfo ρ → γ) (start : β) (fuel : Nat) (l : NodeTopologyInfo ρ) :
    Loop γ :=
  whileLoop (t.followTurn visit finish) fuel (t.getNodeInfo l.nodeId, start)

/-- The path from a source: the ids up to the sink. -/
def Topology.buildPath (t : Topology ρ) : Nat → NodeTopologyInfo ρ → Loop (List Int) :=
  t.followParents (fun path iterator => path ++ [iterator.nodeId])
    (fun path sink => path ++ [sink.nodeId]) []

/-- `AbstractTrigger.buildPathList`. -/
def Topology.buildPathList (t : Topology ρ) (fuel : Nat) : Loop (List (List Int)) :=
  Loop.mapLoop (t.buildPath fuel) t.sources

/-- The operations on `double` that `computePRRStats` uses. -/
structure DoubleOps (R : Type) where
  /-- `0.0` -/
  zero : R
  /-- `1.0` -/
  one : R
  /-- `Double.MAX_VALUE` -/
  maxValue : R
  /-- `Double.MIN_VALUE` -/
  minValue : R
  mul : R → R → R
  add : R → R → R
  lt : R → R → Bool
  /-- Division by an `int`. -/
  divCount : R → Nat → R
  /-- `Math.sqrt((double) prr / 1000.0)` -/
  sqrtPrr : Int → R

/-- The operations of the type `double`. -/
def DoubleOps.double : DoubleOps Float where
  zero := 0.0
  one := 1.0
  maxValue := 1.7976931348623157e308
  minValue := 4.9e-324
  mul a b := a * b
  add a b := a + b
  lt a b := a < b
  divCount a n := a / n.toFloat
  sqrtPrr prr := Float.sqrt (Float.ofInt prr / 1000.0)

/-- `AdaptMac.PRRStatistics`. -/
structure PRRStatistics (R : Type) where
  min : R
  max : R
  avg : R

/-- The PRR of the path from a source. -/
def Topology.pathPRR (t : Topology ρ) (D : DoubleOps R) : Nat → NodeTopologyInfo ρ → Loop R :=
  t.followParents (fun pathPRR iterator => D.mul pathPRR (D.sqrtPrr iterator.prr))
    (fun pathPRR sink => D.mul pathPRR (D.sqrtPrr sink.prr)) D.one

/-- Update of `sum`, `count`, `min` and `max` by one path. -/
def PRRStatistics.update (D : DoubleOps R) (s : R × Nat × R × R) (pathPRR : R) :
    R × Nat × R × R :=
  (D.add s.1 pathPRR, s.2.1 + 1, if D.lt pathPRR s.2.2.1 then pathPRR else s.2.2.1,
    if D.lt s.2.2.2 pathPRR then pathPRR else s.2.2.2)

/-- `AdaptMac.computePRRStats`. Each path PRR is used for the update alone, so the updates
can follow all the loops. -/
def Topology.computePRRStats (t : Topology ρ) (D : DoubleOps R) (fuel : Nat) :
    Loop (PRRStatistics R) :=
  (Loop.mapLoop (t.pathPRR D fuel) t.sources).bind fun pathPRRs =>
    let s := pathPRRs.foldl (PRRStatistics.update D) (D.zero, 0, D.maxValue, D.minValue)
    .returned ⟨s.2.2.1, s.2.2.2, D.divCount s.1 s.2.1⟩

end PTunes.Controller
