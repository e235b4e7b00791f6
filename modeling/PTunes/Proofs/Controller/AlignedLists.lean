import PTunes.Controller.AbstractTrigger
import PTunes.Proofs.Controller.Paths
import PTunes.Proofs.Optimizer.Resolve

/-!
# `PTunes.Proofs.Controller.AlignedLists`: the lists describe one tree

The optimizer reads the lists of `prepareTopologies` position by position. For a consistent
topology with one self-parented node, each position belongs to one node in all lists, the lists
of parents and of children are converse to each other, and each node that is not the sink
starts one path to it along the parents. So `createTopologies` finds every id.

* `describes_of_buildLists`: the lists of one topology.
* `createTopology_resolves`: such lists are resolved by the optimizer.
* `prepareTopologies_describes`: both, for all lists that are sent of a history.
-/

set_option autoImplicit false

namespace PTunes.Controller

variable {ρ R : Type}

/-- The lists describe the tree of `t` with the root `sink`. -/
structure Describes (D : DoubleOps R) (t : Topology ρ) (sink : NodeTopologyInfo ρ)
    (l : TopologyLists ρ R) : Prop where
  /-- No list is longer than the others. -/
  length : l.nodeIds.length = t.nodes.toList.length ∧ l.prrs.length = t.nodes.toList.length ∧
    l.fs.length = t.nodes.toList.length ∧ l.parentList.length = t.nodes.toList.length ∧
    l.childrenList.length = t.nodes.toList.length
  /-- A position belongs to one node. -/
  aligned : ∀ (i : Nat) (n : NodeTopologyInfo ρ), t.nodes.toList[i]? = some n →
    l.nodeIds[i]? = some n.nodeId ∧ l.prrs[i]? = some (D.sqrtPrr n.prr) ∧
      l.fs[i]? = some n.pktRate ∧
      l.parentList[i]? = some (if n.nodeId = sink.nodeId then [] else [n.parentId])
  nodup : l.nodeIds.Nodup
  /-- The children are the nodes whose parent is the node. -/
  converse : ∀ (i j : Nat) (n m : Int) (children parents : List Int),
    l.nodeIds[i]? = some n → l.childrenList[i]? = some children →
      l.nodeIds[j]? = some m → l.parentList[j]? = some parents →
        (m ∈ children ↔ n ∈ parents)
  parents_mem : ∀ parents ∈ l.parentList, ∀ m ∈ parents, m ∈ l.nodeIds
  children_mem : ∀ children ∈ l.childrenList, children.Nodup ∧ ∀ m ∈ children, m ∈ l.nodeIds
  /-- One path for each node that is not the sink, which begins there. -/
  heads : l.pathList.map List.head? = (l.nodeIds.filter fun i => i ≠ sink.nodeId).map some
  /-- A path ends at the sink. -/
  lasts : ∀ path ∈ l.pathList, path.getLast? = some sink.nodeId
  paths_mem : ∀ path ∈ l.pathList, ∀ m ∈ path, m ∈ l.nodeIds
  /-- Consecutive ids of a path are a node and its parent. -/
  chains : ∀ path ∈ l.pathList, path.IsChain fun a b =>
    ∃ (i : Nat) (parents : List Int),
      l.nodeIds[i]? = some a ∧ l.parentList[i]? = some parents ∧ b ∈ parents

/-- All references of the lists are known ids. -/
theorem Describes.resolvable {D : DoubleOps R} {t : Topology ρ} {sink : NodeTopologyInfo ρ}
    {l : TopologyLists ρ R} (h : Describes D t sink l) (value : R → ℚ) (rate : ρ → ℚ) :
    Optimizer.Resolvable (l.toInfo value rate) := by
  obtain ⟨hids, hprrs, hfs, hparents, hchildren⟩ := h.length
  exact {
    prrs := by simp [TopologyLists.toInfo, hids, hprrs]
    fs := by simp [TopologyLists.toInfo, hids, hfs]
    parentList := hparents.trans hids.symm
    childrenList := hchildren.trans hids.symm
    parents_mem := h.parents_mem
    children_mem := fun children hmem => (h.children_mem children hmem).2
    paths_mem := h.paths_mem }

namespace Topology

variable {t : Topology ρ} {sink : NodeTopologyInfo ρ}

/-- The topology has one self-parented record. -/
def OneSink (t : Topology ρ) (sink : NodeTopologyInfo ρ) : Prop :=
  ∀ n, n ∈ t.nodes.toList ∧ n.isSink = true ↔ n = sink

/-- The sink is a node of the topology. -/
theorem OneSink.mem (h : t.OneSink sink) : sink ∈ t.nodes.toList ∧ sink.isSink = true :=
  (h sink).mpr rfl

/-- A node that is a sink is this one. -/
theorem OneSink.isSink_eq (h : t.OneSink sink) {n : NodeTopologyInfo ρ}
    (hn : n ∈ t.nodes.toList) : n.isSink = true ↔ n = sink :=
  ⟨fun hs => (h n).mp ⟨hn, hs⟩, fun heq => heq ▸ h.mem.2⟩

/-- `getSink` returns the self-parented record. -/
theorem OneSink.getSink (h : t.OneSink sink) : t.getSink = some sink := by
  cases hs : t.getSink with
  | none =>
      have := List.find?_eq_none.mp hs sink h.mem.1
      exact absurd h.mem.2 this
  | some s =>
      have hspec := getSink_spec hs
      have hmem := (getNodeInfo_eq_some_iff.mp hspec.1).1
      rw [(h s).mp ⟨hmem, hspec.2⟩]

/-- A topology with one sink has one root: the sink is its own parent. -/
theorem OneSink.oneRoot (h : t.OneSink sink) : t.OneRoot sink := by
  intro n _ _ p hp hsink
  have hmem := (getNodeInfo_eq_some_iff.mp hp).1
  rw [(h p).mp ⟨hmem, hsink⟩]

/-- Two records with one id are the same. -/
theorem eq_of_nodeId {n m : NodeTopologyInfo ρ} (hn : n ∈ t.nodes.toList)
    (hm : m ∈ t.nodes.toList) (heq : n.nodeId = m.nodeId) : n = m :=
  List.inj_on_of_nodup_map t.nodes.nodup hn hm heq

/-- A record is the sink when it has the id of the sink. -/
theorem OneSink.nodeId_eq (h : t.OneSink sink) {n : NodeTopologyInfo ρ}
    (hn : n ∈ t.nodes.toList) : n.nodeId = sink.nodeId ↔ n.isSink = true := by
  rw [h.isSink_eq hn]
  exact ⟨fun heq => eq_of_nodeId hn h.mem.1 heq, fun heq => heq ▸ rfl⟩

/-! ### The lists of one topology -/

/-- The parent of each record that is not the sink. -/
theorem OneSink.buildParents (h : t.OneSink sink) :
    t.buildParents = t.nodes.toList.map fun n =>
      if n.nodeId = sink.nodeId then [] else [n.parentId] := by
  refine List.map_congr_left fun n hn => ?_
  have hiff : n.nodeId = sink.nodeId ↔ n.parentId = n.nodeId := by
    rw [h.nodeId_eq hn, NodeTopologyInfo.isSink_iff, eq_comm]
  by_cases hsink : n.nodeId = sink.nodeId
  · rw [if_neg (not_not.mpr (hiff.mp hsink)), if_pos hsink]
  · rw [if_pos (fun heq => hsink (hiff.mpr heq)), if_neg hsink]

/-- The ids of the source nodes. -/
theorem OneSink.map_sources (h : t.OneSink sink) :
    t.sources.map (·.nodeId) = t.buildNodeIds.filter fun i => i ≠ sink.nodeId := by
  rw [buildNodeIds, List.filter_map, sources]
  congr 1
  refine List.filter_congr fun n hn => ?_
  have hiff := h.nodeId_eq hn
  cases hsink : n.isSink with
  | true => simp [hiff.mpr hsink]
  | false =>
      have hne : n.nodeId ≠ sink.nodeId := by
        intro heq
        rw [hiff.mp heq] at hsink
        cases hsink
      simp [hne]

/-- The record at a position of the ids. -/
theorem exists_of_nodeIds {i : Nat} {a : Int} (h : t.buildNodeIds[i]? = some a) :
    ∃ n, t.nodes.toList[i]? = some n ∧ n ∈ t.nodes.toList ∧ n.nodeId = a := by
  rw [buildNodeIds, List.getElem?_map, Option.map_eq_some_iff] at h
  obtain ⟨n, hn, rfl⟩ := h
  exact ⟨n, hn, List.mem_of_getElem? hn, rfl⟩

/-- The lists of children and of parents are converse to each other. -/
theorem OneSink.mem_children_iff (h : t.OneSink sink) {i j : Nat} {a b : Int}
    {children parents : List Int} (hi : t.buildNodeIds[i]? = some a)
    (hchildren : t.buildChildrenList[i]? = some children)
    (hj : t.buildNodeIds[j]? = some b) (hparents : t.buildParents[j]? = some parents) :
    b ∈ children ↔ a ∈ parents := by
  obtain ⟨n, hn, _, rfl⟩ := exists_of_nodeIds hi
  obtain ⟨m, hm, hmem, rfl⟩ := exists_of_nodeIds hj
  rw [buildChildrenList, List.getElem?_map, hn] at hchildren
  rw [h.buildParents, List.getElem?_map, hm] at hparents
  cases hchildren
  cases hparents
  have hsink := h.nodeId_eq hmem
  rw [NodeTopologyInfo.isSink_iff] at hsink
  simp only [List.mem_map, List.mem_filter, decide_eq_true_eq]
  constructor
  · -- A child is another node with this parent, so it is not the sink.
    rintro ⟨m', ⟨hm', hne, hparent⟩, hid⟩
    have heq : m' = m := eq_of_nodeId hm' hmem hid
    rw [heq] at hne hparent
    rw [if_neg fun hs => hne ((hsink.mp hs).trans hparent)]
    exact List.mem_singleton.mpr hparent.symm
  · intro ha
    split at ha
    · exact absurd ha List.not_mem_nil
    · rename_i hs
      have hparent : n.nodeId = m.parentId := List.mem_singleton.mp ha
      refine ⟨m, ⟨hmem, fun heq => hs (hsink.mpr (heq.trans hparent)), hparent.symm⟩, rfl⟩

/-- The children are distinct ids of the topology. -/
theorem mem_buildChildrenList {children : List Int} (h : children ∈ t.buildChildrenList) :
    children.Nodup ∧ ∀ m ∈ children, m ∈ t.buildNodeIds := by
  obtain ⟨n, _, rfl⟩ := List.mem_map.mp h
  have hsub := (t.nodes.toList.filter_sublist
    (p := fun m => m.nodeId ≠ n.nodeId ∧ m.parentId = n.nodeId)).map (·.nodeId)
  exact ⟨t.nodes.nodup.sublist hsub, fun m hm => hsub.subset hm⟩

/-- A link of a path, as the lists have it. The sink is its own parent, so a path that goes on
does not go on from the sink. -/
theorem OneSink.link (h : t.OneSink sink) {n : NodeTopologyInfo ρ} {a b : Int}
    (hn : t.getNodeInfo a = some n) (hparent : n.parentId = b) (hne : a ≠ b) :
    ∃ (i : Nat) (parents : List Int), t.buildNodeIds[i]? = some a ∧
      t.buildParents[i]? = some parents ∧ b ∈ parents := by
  obtain ⟨hmem, rfl⟩ := getNodeInfo_eq_some_iff.mp hn
  have hsource : n.nodeId ≠ sink.nodeId := by
    intro hs
    have hself := NodeTopologyInfo.isSink_iff.mp ((h.nodeId_eq hmem).mp hs)
    exact hne (hself.trans hparent)
  obtain ⟨i, hi⟩ := List.mem_iff_getElem?.mp hmem
  refine ⟨i, [n.parentId], ?_, ?_, ?_⟩
  · rw [buildNodeIds, List.getElem?_map, hi]
    rfl
  · rw [h.buildParents, List.getElem?_map, hi, Option.map_some, if_neg hsource]
  · exact List.mem_singleton.mpr hparent.symm

/-- In a list without repetitions, a chain of links is one of links between different ids. -/
theorem isChain_of_nodup {P Q : Int → Int → Prop} (himp : ∀ a b, a ≠ b → P a b → Q a b)
    {l : List Int} (hl : l.Nodup) (h : l.IsChain P) : l.IsChain Q := by
  induction h with
  | nil => exact .nil
  | singleton a => exact .singleton a
  | cons_cons hab _ ih =>
      obtain ⟨hnot, hl'⟩ := List.nodup_cons.mp hl
      exact .cons_cons (himp _ _ (fun heq => hnot (heq ▸ List.mem_cons_self)) hab) (ih hl')

/-- The heads of the paths are the sources, in their order. -/
theorem heads_of_forall₂ {sources : List (NodeTopologyInfo ρ)} {pathList : List (List Int)}
    {j : Int} (h : List.Forall₂ (fun n path => t.IsParentChain n.nodeId j path) sources
      pathList) : pathList.map List.head? = (sources.map (·.nodeId)).map some := by
  induction h with
  | nil => rfl
  | cons hpath _ ih => rw [List.map_cons, hpath.head, ih, List.map_cons, List.map_cons]

/-- Each path of the list is the chain of parents of one of the sources. -/
theorem exists_isParentChain {sources : List (NodeTopologyInfo ρ)} {pathList : List (List Int)}
    {j : Int} (h : List.Forall₂ (fun n path => t.IsParentChain n.nodeId j path) sources
      pathList) {path : List Int} (hmem : path ∈ pathList) : ∃ i, t.IsParentChain i j path := by
  induction h with
  | nil => exact absurd hmem List.not_mem_nil
  | cons hpath _ ih =>
      rcases List.mem_cons.mp hmem with rfl | hmem
      · exact ⟨_, hpath⟩
      · exact ih hmem

/-- The elements of a chain are those with a successor and the last one. -/
theorem mem_of_isChain {P : Int → Int → Prop} {ids : List Int}
    (hP : ∀ a b, P a b → a ∈ ids) {l : List Int} (hlast : ∀ a ∈ l.getLast?, a ∈ ids)
    (h : l.IsChain P) : ∀ a ∈ l, a ∈ ids := by
  induction h with
  | nil => exact fun a ha => absurd ha List.not_mem_nil
  | singleton a =>
      intro b hb
      rw [List.mem_singleton] at hb
      exact hlast b (hb ▸ rfl)
  | cons_cons hab _ ih =>
      intro c hc
      rcases List.mem_cons.mp hc with rfl | hc
      · exact hP _ _ hab
      · exact ih (by simpa using hlast) c hc

/-- The lists of a consistent topology with one self-parented record describe it. -/
theorem describes_of_buildLists {fuel : Nat} (h : t.isConsistent fuel = .returned true)
    (hone : t.OneSink sink) (D : DoubleOps R) :
    ∃ l, t.buildLists D (t.nodes.toList.length + 1) = .returned l ∧ Describes D t sink l := by
  obtain ⟨pathList, hreturned, hpaths⟩ :=
    Loop.exists_mapLoop fun n hn => exists_buildPath h hone.getSink hone.oneRoot hn
  refine ⟨_, Loop.bind_eq_returned.mpr ⟨pathList, hreturned, rfl⟩, ?_⟩
  exact {
    length := by simp [buildNodeIds, buildPRRs, buildFs, buildParents, buildChildrenList]
    aligned := by
      intro i n hn
      rw [hone.buildParents]
      simp [buildNodeIds, buildPRRs, buildFs, hn]
    nodup := t.nodes.nodup
    converse := fun i j n m children parents hn hchildren hm hparents =>
      hone.mem_children_iff hn hchildren hm hparents
    parents_mem := by
      intro parents hparents m hm
      obtain ⟨n, hn, rfl⟩ := List.mem_map.mp hparents
      split at hm
      · rename_i hne
        rw [List.mem_singleton] at hm
        have hsource : n.isSink = false := beq_eq_false_iff_ne.mpr (Ne.symm hne)
        obtain ⟨p, hp, hid⟩ := parent_mem_of_isConsistent h hn hsource
        exact hm ▸ hid ▸ List.mem_map_of_mem hp
      · exact absurd hm List.not_mem_nil
    children_mem := fun children hmem => mem_buildChildrenList hmem
    heads := by
      show pathList.map List.head? = _
      rw [heads_of_forall₂ hpaths, hone.map_sources]
    lasts := by
      intro path hmem
      obtain ⟨i, hchain⟩ := exists_isParentChain hpaths hmem
      exact hchain.last
    paths_mem := by
      intro path hmem m hm
      obtain ⟨i, hchain⟩ := exists_isParentChain hpaths hmem
      -- An id with a successor has a record, and the last one is the id of the sink.
      refine mem_of_isChain (fun a b hab => ?_) ?_ hchain.parents m hm
      · obtain ⟨n, hn, _⟩ := hab
        obtain ⟨hn', rfl⟩ := getNodeInfo_eq_some_iff.mp hn
        exact List.mem_map_of_mem hn'
      · intro a ha
        rw [hchain.last] at ha
        cases ha
        exact List.mem_map_of_mem hone.mem.1
    chains := by
      intro path hmem
      obtain ⟨i, hchain⟩ := exists_isParentChain hpaths hmem
      refine isChain_of_nodup ?_ hchain.nodup hchain.parents
      rintro a b hne ⟨n, hn, hparent⟩
      exact hone.link hn hparent hne }

end Topology

/-! ### The lists of a history -/

namespace Topology

variable {t : Topology ρ}

/-- The result of `isConsistent`. -/
def consistent (t : Topology ρ) : Bool :=
  t.isConsistent (t.nodes.toList.length + 1) = .returned true

/-- With more fuel than there are nodes, the loops of `isConsistent` return. -/
theorem isConsistent_eq {fuel : Nat} (hle : t.nodes.toList.length + 1 ≤ fuel) :
    t.isConsistent fuel = .returned t.consistent := by
  obtain ⟨ok, hok⟩ := isConsistent_returns t
  have hconsistent : t.consistent = ok := by
    rw [consistent, hok]
    cases ok <;> decide
  rw [isConsistent_mono hle hok, hconsistent]

/-- So the check of a consistent topology returns true. -/
theorem isConsistent_of_consistent (h : t.consistent = true) :
    t.isConsistent (t.nodes.toList.length + 1) = .returned true := of_decide_eq_true h

/-- The lists of a topology, with any bound that is large enough. -/
theorem exists_buildLists {fuel : Nat} (hle : t.nodes.toList.length + 1 ≤ fuel)
    (h : t.consistent = true) {sink : NodeTopologyInfo ρ} (hone : t.OneSink sink)
    (D : DoubleOps R) : ∃ l, t.buildLists D fuel = .returned l ∧ Describes D t sink l := by
  obtain ⟨l, hl, hdescribes⟩ := describes_of_buildLists (isConsistent_of_consistent h) hone D
  obtain ⟨pathList, hpathList, heq⟩ := Loop.bind_eq_returned.mp hl
  exact ⟨l, Loop.bind_eq_returned.mpr ⟨pathList, buildPathList_mono hle hpathList, heq⟩,
    hdescribes⟩

end Topology

/-- The topologies of a history that are sent. -/
def sent (topologyHistory : List (Topology ρ)) (onlyCurrentTopology : Bool) :
    List (Topology ρ) :=
  match topologyHistory with
  | [] => []
  | t :: _ =>
    if t.consistent then
      if onlyCurrentTopology then [t] else topologyHistory.filter (·.consistent)
    else []

/-- The lists describe the topology, which has one self-parented record. -/
def DescribesTree (D : DoubleOps R) (t : Topology ρ) (l : TopologyLists ρ R) : Prop :=
  ∃ sink, t.OneSink sink ∧ Describes D t sink l

variable {D : DoubleOps R} {fuel : Nat}

/-- Each element of the list of lists describes one of the topologies. -/
theorem exists_describes {ts : List (Topology ρ)} {lists : List (TopologyLists ρ R)}
    (h : List.Forall₂ (DescribesTree D) ts lists) {l : TopologyLists ρ R} (hl : l ∈ lists) :
    ∃ t sink, t.OneSink sink ∧ Describes D t sink l := by
  induction h with
  | nil => exact absurd hl List.not_mem_nil
  | cons hdescribes _ ih =>
      rcases List.mem_cons.mp hl with rfl | hl
      · exact ⟨_, hdescribes⟩
      · exact ih hl

/-- The loop over the history. -/
theorem prepareConsistent_describes {topologyHistory : List (Topology ρ)}
    (hfuel : ∀ t ∈ topologyHistory, t.nodes.toList.length + 1 ≤ fuel)
    (hone : ∀ t ∈ topologyHistory, t.consistent = true → ∃ sink, t.OneSink sink) :
    ∃ lists, prepareConsistent D fuel topologyHistory = .returned lists ∧
      List.Forall₂ (DescribesTree D) (topologyHistory.filter (·.consistent)) lists := by
  induction topologyHistory with
  | nil => exact ⟨[], rfl, .nil⟩
  | cons t history ih =>
      obtain ⟨lists, hlists, hdescribe⟩ :=
        ih (fun t' ht' => hfuel t' (List.mem_cons_of_mem _ ht'))
          (fun t' ht' => hone t' (List.mem_cons_of_mem _ ht'))
      have hle := hfuel t List.mem_cons_self
      rw [prepareConsistent, Topology.isConsistent_eq hle, Loop.bind]
      cases hc : t.consistent with
      | false =>
          rw [List.filter_cons_of_neg (by simp [hc]), if_neg Bool.false_ne_true]
          exact ⟨lists, hlists, hdescribe⟩
      | true =>
          obtain ⟨sink, hsink⟩ := hone t List.mem_cons_self hc
          obtain ⟨l, hl, hdescribes⟩ := Topology.exists_buildLists hle hc hsink D
          rw [List.filter_cons_of_pos hc, if_pos rfl, hl, Loop.bind, hlists]
          exact ⟨l :: lists, rfl, .cons ⟨sink, hsink, hdescribes⟩ hdescribe⟩

/-- A bound that is large enough for every topology of a history. -/
theorem exists_fuel (topologyHistory : List (Topology ρ)) :
    ∃ fuel, ∀ t ∈ topologyHistory, t.nodes.toList.length + 1 ≤ fuel := by
  induction topologyHistory with
  | nil => exact ⟨0, fun t ht => absurd ht List.not_mem_nil⟩
  | cons t history ih =>
      obtain ⟨fuel, hfuel⟩ := ih
      refine ⟨fuel + (t.nodes.toList.length + 1), fun t' ht' => ?_⟩
      rcases List.mem_cons.mp ht' with rfl | ht'
      · omega
      · have := hfuel t' ht'
        omega

/-- When each consistent topology of the history has one self-parented record,
`prepareTopologies` returns, the lists describe the topologies that are sent, and
`createTopologies` resolves all of them. -/
theorem prepareTopologies_describes (D : DoubleOps R) (value : R → ℚ) (rate : ρ → ℚ)
    (topologyHistory : List (Topology ρ)) (onlyCurrentTopology : Bool)
    (hone : ∀ t ∈ topologyHistory, t.consistent = true → ∃ sink, t.OneSink sink) :
    ∃ fuel lists,
      prepareTopologies D fuel topologyHistory onlyCurrentTopology = .returned lists ∧
      List.Forall₂ (DescribesTree D) (sent topologyHistory onlyCurrentTopology) lists ∧
      ∃ ts, Optimizer.createTopologies (lists.map (·.toInfo value rate)) = some ts ∧
        List.Forall₂ Optimizer.Resolved (lists.map (·.toInfo value rate)) ts := by
  obtain ⟨fuel, hfuel⟩ := exists_fuel topologyHistory
  obtain ⟨lists, hlists, hdescribe⟩ : ∃ lists,
      prepareTopologies D fuel topologyHistory onlyCurrentTopology = .returned lists ∧
        List.Forall₂ (DescribesTree D) (sent topologyHistory onlyCurrentTopology) lists := by
    cases topologyHistory with
    | nil => exact ⟨[], rfl, .nil⟩
    | cons t history =>
        have hle := hfuel t List.mem_cons_self
        rw [prepareTopologies, Topology.isConsistent_eq hle, Loop.bind, sent]
        -- Nothing is sent when the current topology is not consistent.
        cases hc : t.consistent with
        | false => exact ⟨[], rfl, .nil⟩
        | true =>
            cases onlyCurrentTopology with
            | true =>
                obtain ⟨sink, hsink⟩ := hone t List.mem_cons_self hc
                obtain ⟨l, hl, hdescribes⟩ := Topology.exists_buildLists hle hc hsink D
                rw [if_pos rfl, if_pos rfl, hl]
                exact ⟨[l], rfl, .cons ⟨sink, hsink, hdescribes⟩ .nil⟩
            | false => exact prepareConsistent_describes hfuel hone
  refine ⟨fuel, lists, hlists, hdescribe, Optimizer.createTopologies_resolves fun info hinfo => ?_⟩
  -- `createTopologies` resolves what describes a tree.
  obtain ⟨l, hl, rfl⟩ := List.mem_map.mp hinfo
  obtain ⟨t, sink, _, hdescribes⟩ := exists_describes hdescribe hl
  exact hdescribes.resolvable value rate

/-- Rational numbers in the place of `double`, exact for the PRRs 0 and 1000. -/
def sampleOps : DoubleOps ℚ where
  zero := 0
  one := 1
  maxValue := 10 ^ 308
  minValue := 0
  mul a b := a * b
  add a b := a + b
  lt a b := a < b
  divCount a n := a / n
  sqrtPrr prr := prr / 1000

/-- The chain 3 - 2 - 1 is sent. -/
theorem prepareTopologies_describes_sample :
    (∀ t ∈ [sampleChain], t.consistent = true → ∃ sink, t.OneSink sink) ∧
    ∃ fuel lists, prepareTopologies sampleOps fuel [sampleChain] false = .returned lists ∧
      List.Forall₂ (DescribesTree sampleOps) (sent [sampleChain] false) lists ∧
      ∃ ts, Optimizer.createTopologies (lists.map (·.toInfo id id)) = some ts ∧
        List.Forall₂ Optimizer.Resolved (lists.map (·.toInfo id id)) ts := by
  have hone : ∀ t ∈ [sampleChain], t.consistent = true → ∃ sink, t.OneSink sink := by
    intro t ht _
    rw [List.mem_singleton] at ht
    subst ht
    refine ⟨sampleNode 1 1, fun n => ⟨?_, fun heq => heq ▸ by decide⟩⟩
    rintro ⟨hmem, hsink⟩
    simp only [sampleChain, List.mem_cons, List.not_mem_nil, or_false] at hmem
    rcases hmem with rfl | rfl | rfl
    · exact absurd hsink (by decide)
    · rfl
    · exact absurd hsink (by decide)
  exact ⟨hone, prepareTopologies_describes sampleOps id id [sampleChain] false hone⟩

end PTunes.Controller
