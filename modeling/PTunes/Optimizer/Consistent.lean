import PTunes.Optimizer.E2e

/-!
# `PTunes.Optimizer.Consistent`: consistent topologies and feasible parameters

What the callers of the optimizer send, and what its answer is for. A topology is consistent
when it is a tree with one sink: the parents and the children describe the same links, and
from each node that is not the sink one path follows the parents to the sink. Parameters are
feasible when they satisfy both groups of constraints, the end-to-end constraints on every
topology and the queuing constraint on the most recent one.

These definitions are statements about the topologies and the constraints. The predicates of
the source do not test them.
-/

set_option autoImplicit false

namespace PTunes.Optimizer

open PTunes.Controller

/-! ### Topologies -/

/-- A topology is a tree with a single sink, its links have probabilities and its rates are
not negative. -/
structure Topology.Consistent (t : Topology) : Prop where
  id_injective : Function.Injective fun i => (t.node i).id
  /-- A node has at most one parent. -/
  parent_length : ∀ i, (t.node i).parent.length ≤ 1
  sink_unique : ∃ s, ∀ i, (t.node i).isSink = true ↔ i = s
  mem_children : ∀ i j, j ∈ (t.node i).children ↔ i ∈ (t.node j).parent
  children_nodup : ∀ i, (t.node i).children.Nodup
  acyclic : ∃ depth : Fin t.size → Nat, ∀ i, ∀ p ∈ (t.node i).parent, depth p < depth i
  prr_mem : ∀ i, 0 ≤ (t.node i).prr ∧ (t.node i).prr ≤ 1
  f_nonneg : ∀ i, 0 ≤ (t.node i).f
  /-- A path follows the parents. -/
  paths_chain : ∀ path ∈ t.paths, path.IsChain fun i j => j ∈ (t.node i).parent
  /-- A path ends at the sink. -/
  paths_sink : ∀ path ∈ t.paths, ∃ s ∈ path.getLast?, (t.node s).isSink = true
  /-- Each node that is not the sink starts one path. -/
  paths_head : (t.paths.map List.head?).Perm
    (((List.finRange t.size).filter fun i => !(t.node i).isSink).map some)

/-- Some node is not the sink. -/
def Topology.HasSource (t : Topology) : Prop := ∃ i, (t.node i).isSink = false

/-- A node with children and a parent. -/
def Topology.IsRelay (t : Topology) (i : Fin t.size) : Prop :=
  (t.node i).children ≠ [] ∧ (t.node i).isSink = false

/-- A node that is not the sink and has no children. -/
def Topology.IsLeaf (t : Topology) (i : Fin t.size) : Prop :=
  (t.node i).children = [] ∧ (t.node i).isSink = false

/-- Some node has children and a parent. Without one the topology is a star. -/
def Topology.HasRelay (t : Topology) : Prop := ∃ i, t.IsRelay i

/-- A node that is not the sink is a relay or a leaf. -/
theorem Topology.isRelay_or_isLeaf {t : Topology} {i : Fin t.size}
    (h : (t.node i).isSink = false) : t.IsRelay i ∨ t.IsLeaf i := by
  by_cases hc : (t.node i).children = []
  · exact .inr ⟨hc, h⟩
  · exact .inl ⟨hc, h⟩

/-- A node and each of its children are one link apart. -/
theorem Topology.Consistent.depth_lt {t : Topology} {depth : Fin t.size → Nat}
    (ht : t.Consistent) (hd : ∀ i, ∀ p ∈ (t.node i).parent, depth p < depth i)
    {i c : Fin t.size} (hc : c ∈ (t.node i).children) : depth i < depth c :=
  hd c i ((ht.mem_children i c).mp hc)

/-! ### Parameters -/

section Parameters

variable (M : MacModel) (ts : List Topology) (b : Bounds)

/-- The parameters `v` are in their domains and satisfy the end-to-end constraints on every
topology and the queuing constraint on the most recent one. -/
def Feasible (v : MacConfiguration) : Prop :=
  SetupEndToEnd M ts b v ∧ ∃ recent ∈ ts.head?, ∃ fout,
    PacketsToSend M recent v fout ∧ Queuing M recent v fout

/-- The radio is switched on for some time, and the other parameters are not negative. This
is weaker than the domains of both MAC protocols. -/
def Usable (v : MacConfiguration) : Prop := 1 ≤ v.tl ∧ 0 ≤ v.ts ∧ 0 ≤ v.n

instance (v : MacConfiguration) : Decidable (Usable v) :=
  inferInstanceAs (Decidable (_ ∧ _ ∧ _))

/-- `optimize` has an answer, and an answer is feasible, or the fallback when nothing is
feasible. -/
def Answers : Prop :=
  (∃ v, Optimize M ts b v) ∧
  ∀ v, Optimize M ts b v → Feasible M ts b v ∨
    v = M.optimizedForReliabilityParameters ∧ ¬ ∃ v', Feasible M ts b v'

end Parameters

/-! ### Sample topologies -/

/-- Node 2 forwards the packets of node 3 to the sink 1. Node 4 is next to the sink and
generates far more packets. -/
def busyLeaf : Topology where
  size := 4
  node := ![{ id := 1, parent := [], children := [1, 3], f := 0, prr := 1 / 2 },
    { id := 2, parent := [0], children := [2], f := 1 / 1000, prr := 1 / 2 },
    { id := 3, parent := [1], children := [], f := 1 / 1000, prr := 1 / 2 },
    { id := 4, parent := [0], children := [], f := 1000, prr := 1 / 2 }]
  paths := [[1, 0], [2, 1, 0], [3, 0]]

/-- The sample is consistent. -/
theorem consistent_busyLeaf : busyLeaf.Consistent where
  id_injective := by decide
  parent_length := by decide
  sink_unique := ⟨⟨0, by decide⟩, by decide⟩
  mem_children := by decide
  children_nodup := by decide
  acyclic := ⟨fun i => [0, 1, 2, 1].getD i 0, by decide⟩
  prr_mem := by decide +kernel
  f_nonneg := by decide +kernel
  paths_chain := by decide
  paths_sink := by decide
  paths_head := by decide

/-- The busy leaf of the sample. -/
theorem exists_busy : ∃ i, busyLeaf.IsLeaf i ∧ (busyLeaf.node i).f = 1000 ∧
    (busyLeaf.node i).prr = 1 / 2 :=
  ⟨⟨3, by decide⟩, ⟨rfl, rfl⟩, rfl, rfl⟩

/-- The relay of the sample, and its child. -/
theorem exists_relay : ∃ j c, (∀ i, busyLeaf.IsRelay i ↔ i = j) ∧
    (busyLeaf.node j).children = [c] ∧ (busyLeaf.node j).isSink = false ∧ busyLeaf.IsLeaf c ∧
    (busyLeaf.node j).f = 1 / 1000 ∧ (busyLeaf.node c).f = 1 / 1000 ∧
    (busyLeaf.node j).prr = 1 / 2 ∧ (busyLeaf.node c).prr = 1 / 2 :=
  ⟨⟨1, by decide⟩, ⟨2, by decide⟩, by simp only [Topology.IsRelay]; decide, rfl, rfl,
    ⟨rfl, rfl⟩, rfl, rfl, rfl, rfl⟩

/-- Node 2 forwards the packets of node 3 to the sink 1. Both generate packets at one rate. -/
def relayChain : Topology where
  size := 3
  node := ![{ id := 1, parent := [], children := [1], f := 0, prr := 1 / 2 },
    { id := 2, parent := [0], children := [2], f := 1 / 1000, prr := 1 / 2 },
    { id := 3, parent := [1], children := [], f := 1 / 1000, prr := 1 / 2 }]
  paths := [[1, 0], [2, 1, 0]]

/-- The chain is consistent. -/
theorem consistent_relayChain : relayChain.Consistent where
  id_injective := by decide
  parent_length := by decide
  sink_unique := ⟨⟨0, by decide⟩, by decide⟩
  mem_children := by decide
  children_nodup := by decide
  acyclic := ⟨fun i => [0, 1, 2].getD i 0, by decide⟩
  prr_mem := by decide +kernel
  f_nonneg := by decide +kernel
  paths_chain := by decide
  paths_sink := by decide
  paths_head := by decide

end PTunes.Optimizer
