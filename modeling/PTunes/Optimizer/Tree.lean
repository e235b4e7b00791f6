import Mathlib.Data.Rat.Defs

/-!
# `PTunes.Optimizer.Tree`: the topologies of the optimizer

`createTopologies` of `adaptmac-e2e.ecl`. The controller sends a topology as lists that are
aligned by node (`TopologyInfo`), with ids as references. The predicate builds a `node`
struct for each id and resolves every reference to the struct, so here a reference is the
position of the node.

The numbers of the controller have the type `double`, so they are rational. The fields of
the struct that stand for unknowns (`fout`, the metrics) are functions in the modules of the
constraints. `weight` is left out, no constraint reads it.
-/

set_option autoImplicit false

namespace PTunes.Optimizer

/-- What the controller sends of one topology. -/
structure TopologyInfo where
  nodeIds : List Int
  prrs : List ℚ
  fs : List ℚ
  parentList : List (List Int)
  childrenList : List (List Int)
  pathList : List (List Int)

/-- The struct `node` of a topology with `size` nodes. -/
structure Node (size : Nat) where
  id : Int
  /-- Empty for the sink. -/
  parent : List (Fin size)
  children : List (Fin size)
  f : ℚ
  prr : ℚ

/-- The struct `topology`. -/
structure Topology where
  size : Nat
  node : Fin size → Node size
  paths : List (List (Fin size))

/-- `getNodeById`: the first node with the id. -/
def getNodeById (nodeIds : List Int) (nodeId : Int) : Option (Fin nodeIds.length) :=
  nodeIds.finIdxOf? nodeId

/-- Resolve a list of lists of ids. -/
def resolve (nodeIds : List Int) (l : List (List Int)) :
    Option (List (List (Fin nodeIds.length))) :=
  l.mapM (·.mapM (getNodeById nodeIds))

/-- The PRR of a struct: 1.0 is replaced, since the node lifetime metric divides by the
probability of a loss. -/
def createPrr (prr : ℚ) : ℚ := if prr = 1 then 0.9999999 else prr

/-- One turn of `createTopologies`. It fails when the lists have different lengths or a
reference is unknown. -/
def createTopology (info : TopologyInfo) : Option Topology :=
  let size := info.nodeIds.length
  if info.prrs.length = size ∧ info.fs.length = size ∧ info.parentList.length = size ∧
      info.childrenList.length = size then do
    let parents ← resolve info.nodeIds info.parentList
    let children ← resolve info.nodeIds info.childrenList
    let paths ← resolve info.nodeIds info.pathList
    return { size := size
             node := fun i =>
               { id := info.nodeIds.get i
                 parent := parents.getD i []
                 children := children.getD i []
                 f := info.fs.getD i 0
                 prr := createPrr (info.prrs.getD i 0) }
             paths := paths }
  else none

/-- `createTopologies`. -/
def createTopologies (infos : List TopologyInfo) : Option (List Topology) :=
  infos.mapM createTopology

/-- Whether a node is the sink: it has no parent. -/
def Node.isSink {size : Nat} (n : Node size) : Bool := n.parent.isEmpty

end PTunes.Optimizer
