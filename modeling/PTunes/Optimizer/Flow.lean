import PTunes.Lib.Forest
import PTunes.Optimizer.Consistent

/-!
# `PTunes.Optimizer.Flow`: posting the outgoing packet rates

`PacketsToSend` of `PTunes.Optimizer.E2e` has the equations of all nodes at once. The source
posts them one by one: `determinePerformance` and `createCost` call `packetsToSend` on each
node in the order of their list, and the rates of the children may still be unbound then. Here
the store of constraints is explicit, and the rates and the reliabilities of the nodes are
parameters.

A topology is a tree when its parents and its children describe the same links and following
the parents ends. This is the part of `Topology.Consistent` that is about the links.
-/

set_option autoImplicit false

namespace PTunes.Optimizer

/-- The links of a topology are those of a tree. -/
structure Topology.IsTree (t : Topology) : Prop where
  /-- A node has at most one parent. -/
  parent_length : ∀ i, (t.node i).parent.length ≤ 1
  mem_children : ∀ i j, j ∈ (t.node i).children ↔ i ∈ (t.node j).parent
  children_nodup : ∀ i, (t.node i).children.Nodup
  acyclic : ∃ depth : Fin t.size → Nat, ∀ i, ∀ p ∈ (t.node i).parent, depth p < depth i

/-- A consistent topology is a tree. -/
theorem Topology.Consistent.isTree {t : Topology} (ht : t.Consistent) : t.IsTree where
  parent_length := ht.parent_length
  mem_children := ht.mem_children
  children_nodup := ht.children_nodup
  acyclic := ht.acyclic

/-- The parents of a tree. -/
def Topology.IsTree.forest {t : Topology} (ht : t.IsTree) : Forest (Fin t.size) where
  parent i := (t.node i).parent.head?
  wellFounded := by
    obtain ⟨depth, hd⟩ := ht.acyclic
    apply Subrelation.wf (r := (measure depth).rel) _ (measure depth).wf
    intro p i hp
    exact hd i p (List.mem_of_mem_head? hp)

section Posting

variable (t : Topology) (R f : Fin t.size → ℝ)

/-- The constraint that `packetsToSend` posts for a node. -/
def packetsToSend (i : Fin t.size) (fout : Fin t.size → ℝ) : Prop :=
  fout i =
    if (t.node i).isSink then 0
    else if (t.node i).children.isEmpty then f i
    else ((t.node i).children.map fun c => R c * fout c).sum + f i

/-- The store of constraints after `packetsToSend` on the nodes of a list. -/
def postPacketsToSend (nodes : List (Fin t.size)) : (Fin t.size → ℝ) → Prop :=
  nodes.foldl (fun store i fout => store fout ∧ packetsToSend t R f i fout) fun _ => True

end Posting

end PTunes.Optimizer
