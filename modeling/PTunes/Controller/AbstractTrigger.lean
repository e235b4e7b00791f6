import PTunes.Controller.Paths
import PTunes.Optimizer.Tree

/-!
# `PTunes.Controller.AbstractTrigger`: the input of the optimizer

`AbstractTrigger.prepareTopologies` turns topologies into lists for ECLiPSe. Each list is built
by a traversal of its own of the `HashSet` of records, which nothing changes in between: the
caller holds the monitor of the history.
-/

set_option autoImplicit false

namespace PTunes.Controller

variable {ρ R : Type}

/-- What is sent of one topology. -/
structure TopologyLists (ρ R : Type) where
  duration : Int
  nodeIds : List Int
  prrs : List R
  fs : List ρ
  parentList : List (List Int)
  childrenList : List (List Int)
  pathList : List (List Int)
deriving DecidableEq, Repr

namespace Topology

variable (t : Topology ρ)

/-- `AbstractTrigger.buildNodeIds`. -/
def buildNodeIds : List Int := t.nodes.toList.map (·.nodeId)

/-- `AbstractTrigger.buildPRRs`. -/
def buildPRRs (D : DoubleOps R) : List R := t.nodes.toList.map fun n => D.sqrtPrr n.prr

/-- `AbstractTrigger.buildFs`. -/
def buildFs : List ρ := t.nodes.toList.map (·.pktRate)

/-- `AbstractTrigger.buildParents`. -/
def buildParents : List (List Int) :=
  t.nodes.toList.map fun n => if n.parentId ≠ n.nodeId then [n.parentId] else []

/-- `AbstractTrigger.buildChildrenList`. Two records are equal when their ids are. -/
def buildChildrenList : List (List Int) :=
  t.nodes.toList.map fun n =>
    (t.nodes.toList.filter fun m => m.nodeId ≠ n.nodeId ∧ m.parentId = n.nodeId).map (·.nodeId)

/-- The lists of one topology. -/
def buildLists (D : DoubleOps R) (fuel : Nat) : Loop (TopologyLists ρ R) :=
  (t.buildPathList fuel).bind fun pathList =>
    .returned
      { duration := t.currentTimestamp - t.initialTimestamp
        nodeIds := t.buildNodeIds
        prrs := t.buildPRRs D
        fs := t.buildFs
        parentList := t.buildParents
        childrenList := t.buildChildrenList
        pathList := pathList }

end Topology

/-- The loop over the history: the lists of the consistent topologies. -/
def prepareConsistent (D : DoubleOps R) (fuel : Nat) :
    List (Topology ρ) → Loop (List (TopologyLists ρ R))
  | [] => .returned []
  | t :: history =>
    (t.isConsistent fuel).bind fun ok =>
      if ok then
        (t.buildLists D fuel).bind fun topology =>
          (prepareConsistent D fuel history).bind fun topologies =>
            .returned (topology :: topologies)
      else prepareConsistent D fuel history

/-- `AbstractTrigger.prepareTopologies`, with a bound on the turns of each loop. -/
def prepareTopologies (D : DoubleOps R) (fuel : Nat) (topologyHistory : List (Topology ρ))
    (onlyCurrentTopology : Bool) : Loop (List (TopologyLists ρ R)) :=
  match topologyHistory with
  | [] => .returned []
  | currentTopology :: _ =>
    (currentTopology.isConsistent fuel).bind fun ok =>
      if ok then
        if onlyCurrentTopology then
          (currentTopology.buildLists D fuel).bind fun topology => .returned [topology]
        else prepareConsistent D fuel topologyHistory
      else .returned []

/-- What ECLiPSe receives. `value` and `rate` are the numbers of the `double`s. -/
def TopologyLists.toInfo (value : R → ℚ) (rate : ρ → ℚ) (l : TopologyLists ρ R) :
    Optimizer.TopologyInfo where
  nodeIds := l.nodeIds
  prrs := l.prrs.map value
  fs := l.fs.map rate
  parentList := l.parentList
  childrenList := l.childrenList
  pathList := l.pathList

end PTunes.Controller
