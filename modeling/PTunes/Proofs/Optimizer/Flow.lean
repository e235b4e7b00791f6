import PTunes.Optimizer.Flow

/-!
# `PTunes.Proofs.Optimizer.Flow`: the outgoing rates are sums over paths

Whatever the order in which the nodes post their constraints, a node that is not the sink sends
on what its subtree generates, each rate times the reliabilities on the path
(`postPacketsToSend_flow`). So it sends at most what its subtree generates, and never less when
a rate or a reliability grows.

The constraints of a tree are the equations of a flow in `PTunes.Lib.Forest`, except at the
sink, where the rate is 0.
-/

set_option autoImplicit false

namespace PTunes.Optimizer

open PTunes.Controller

variable {t : Topology} {R R' f f' fout : Fin t.size → ℝ} {nodes : List (Fin t.size)}

/-! ### The store -/

/-- The store has the constraints of the nodes. -/
theorem postPacketsToSend_iff :
    postPacketsToSend t R f nodes fout ↔ ∀ i ∈ nodes, packetsToSend t R f i fout := by
  -- The fold starts from the empty store, so generalise over what is in it already.
  have hfold : ∀ store : (Fin t.size → ℝ) → Prop,
      nodes.foldl (fun store i fout => store fout ∧ packetsToSend t R f i fout) store fout ↔
        store fout ∧ ∀ i ∈ nodes, packetsToSend t R f i fout := by
    induction nodes with
    | nil => simp
    | cons i nodes ih =>
        intro store
        rw [List.foldl_cons, ih, List.forall_mem_cons, and_assoc]
  exact (hfold fun _ => True).trans (by rw [true_and])

/-- The order of the nodes does not matter. -/
theorem postPacketsToSend_of_perm (h : nodes.Perm (List.finRange t.size)) :
    postPacketsToSend t R f nodes fout ↔ ∀ i, packetsToSend t R f i fout := by
  rw [postPacketsToSend_iff]
  exact ⟨fun hall i => hall i (h.mem_iff.mpr (List.mem_finRange i)), fun hall i _ => hall i⟩

/-- A node without children adds nothing to its own rate. -/
theorem packetsToSend_iff {i : Fin t.size} : packetsToSend t R f i fout ↔ fout i =
    if (t.node i).isSink then 0
    else ((t.node i).children.map fun c => R c * fout c).sum + f i := by
  rw [packetsToSend]
  cases hc : (t.node i).children <;> simp

/-- The equations of all nodes are what they post with the reliabilities of a MAC protocol. -/
theorem packetsToSend_iff_post {M : MacModel} {v : MacConfiguration}
    (h : nodes.Perm (List.finRange t.size)) :
    PacketsToSend M t v fout ↔ postPacketsToSend t
      (fun i => M.perHopReliability (t.node i) v) (fun i => (t.node i).f) nodes fout := by
  simp only [postPacketsToSend_of_perm h, packetsToSend_iff, PacketsToSend]

/-! ### The flow of a tree -/

section Tree

variable (ht : t.IsTree)

include ht

/-- The children are the nodes with this parent. -/
theorem Topology.IsTree.mem_children_iff (i c : Fin t.size) :
    c ∈ (t.node i).children ↔ ht.forest.parent c = some i := by
  rw [ht.mem_children]
  have hlen := ht.parent_length c
  show i ∈ (t.node c).parent ↔ (t.node c).parent.head? = some i
  -- There is at most one parent, so the first one is the only one.
  generalize (t.node c).parent = parents at hlen ⊢
  rcases parents with _ | ⟨p, _ | _⟩
  · simp
  · simp [eq_comm]
  · simp at hlen

/-- What a node receives, as a sum over its children. -/
theorem Topology.IsTree.sum_children (i : Fin t.size) (x : Fin t.size → ℝ) :
    ((t.node i).children.map x).sum = ∑ c with ht.forest.parent c = some i, x c := by
  rw [← List.sum_toFinset x (ht.children_nodup i)]
  refine Finset.sum_congr ?_ fun _ _ => rfl
  ext c
  simp [ht.mem_children_iff]

/-- A child is not the sink. -/
theorem Topology.IsTree.isSink_child {i c : Fin t.size} (h : ht.forest.parent c = some i) :
    (t.node c).isSink = false := by
  rw [Node.isSink]
  have hmem : i ∈ (t.node c).parent := List.mem_of_mem_head? h
  cases hp : (t.node c).parent with
  | nil => rw [hp] at hmem; cases hmem
  | cons _ _ => rfl

/-- What a node that is not the sink receives, when its children send the sums over the
paths. -/
theorem Topology.IsTree.pathSum_children (i : Fin t.size)
    (hchildren : ∀ c, ht.forest.parent c = some i → fout c = ht.forest.pathSum R f c) :
    ((t.node i).children.map fun c => R c * fout c).sum + f i = ht.forest.pathSum R f i := by
  rw [ht.sum_children, Forest.pathSum_eq]
  refine congrArg (· + f i) (Finset.sum_congr rfl fun c hc => ?_)
  rw [hchildren c (Finset.mem_filter.mp hc).2]

/-- The outgoing rates: 0 at the sink, and the sums over the paths at the other nodes. -/
noncomputable def Topology.IsTree.outgoing (R f : Fin t.size → ℝ) (i : Fin t.size) : ℝ :=
  if (t.node i).isSink then 0 else ht.forest.pathSum R f i

/-- The outgoing rate of a node that is not the sink. -/
theorem Topology.IsTree.outgoing_of_not_sink {i : Fin t.size} (h : (t.node i).isSink = false) :
    ht.outgoing R f i = ht.forest.pathSum R f i :=
  if_neg (by simp [h])

/-- The outgoing rates are the only ones that satisfy the constraints. -/
theorem Topology.IsTree.packetsToSend_iff_outgoing :
    (∀ i, packetsToSend t R f i fout) ↔ fout = ht.outgoing R f := by
  constructor
  · intro h
    funext i
    have hi := packetsToSend_iff.mp (h i)
    rw [outgoing]
    split
    · next hsink => rw [hi, if_pos hsink]
    · next hsink =>
        -- The nodes that are not the sink are closed under children.
        refine Forest.eq_pathSum (S := fun n => ¬ (t.node n).isSink = true)
          (fun c n hc _ => ?_) (fun n hn => ?_) hsink
        · rw [ht.isSink_child hc]
          exact Bool.false_ne_true
        · rw [packetsToSend_iff.mp (h n), if_neg hn, ht.sum_children]
  · rintro rfl i
    rw [packetsToSend_iff, ht.pathSum_children i fun c hc =>
      ht.outgoing_of_not_sink (ht.isSink_child hc)]
    rfl

/-- Whatever the order of the nodes, the store determines the outgoing rates. -/
theorem Topology.IsTree.postPacketsToSend_iff_outgoing
    (hperm : nodes.Perm (List.finRange t.size)) :
    postPacketsToSend t R f nodes fout ↔ fout = ht.outgoing R f := by
  rw [postPacketsToSend_of_perm hperm, ht.packetsToSend_iff_outgoing]

/-- The outgoing rates grow with the sums over the paths. -/
theorem Topology.IsTree.outgoing_mono
    (h : ∀ n, ht.forest.pathSum R f n ≤ ht.forest.pathSum R' f' n) (n : Fin t.size) :
    ht.outgoing R f n ≤ ht.outgoing R' f' n := by
  rw [outgoing, outgoing]
  split
  · exact le_refl 0
  · exact h n

/-- For every tree and every order of its nodes, the constraints have one solution. In it a node
that is not the sink sends each rate of its subtree times the reliabilities of the nodes on the
path. This is at most the sum of the rates, and it grows with each rate and each
reliability. -/
theorem postPacketsToSend_flow (hperm : nodes.Perm (List.finRange t.size))
    (hR : ∀ i, R i ∈ Set.Icc (0 : ℝ) 1) :
    ∃ fout, (∀ x, postPacketsToSend t R f nodes x ↔ x = fout) ∧
      (∀ n, (t.node n).isSink = false →
        fout n = ∑ m ∈ ht.forest.subtree n, f m * ((ht.forest.between m n).map R).prod) ∧
      ((∀ m, 0 ≤ f m) → ∀ n, (t.node n).isSink = false →
        fout n ≤ ∑ m ∈ ht.forest.subtree n, f m) ∧
      (∀ f' nodes' fout', nodes'.Perm (List.finRange t.size) →
        postPacketsToSend t R f' nodes' fout' → (∀ m, f m ≤ f' m) →
        ∀ n, fout n ≤ fout' n) ∧
      ((∀ m, 0 ≤ f m) → ∀ R' nodes' fout', nodes'.Perm (List.finRange t.size) →
        postPacketsToSend t R' f nodes' fout' → (∀ m, R m ≤ R' m) →
        ∀ n, fout n ≤ fout' n) := by
  have hR0 : ∀ i, 0 ≤ R i := fun i => (hR i).1
  refine ⟨ht.outgoing R f, fun x => ht.postPacketsToSend_iff_outgoing hperm,
    fun n hn => ht.outgoing_of_not_sink hn, fun hf n hn => ?_, ?_, ?_⟩
  · rw [ht.outgoing_of_not_sink hn]
    exact Forest.pathSum_le hR0 (fun i => (hR i).2) hf n
  · intro f' nodes' fout' hperm' hpost hff n
    rw [(ht.postPacketsToSend_iff_outgoing hperm').mp hpost]
    exact ht.outgoing_mono (Forest.pathSum_mono_left hR0 hff) n
  · intro hf R' nodes' fout' hperm' hpost hRR n
    rw [(ht.postPacketsToSend_iff_outgoing hperm').mp hpost]
    exact ht.outgoing_mono (Forest.pathSum_mono_right hR0 hRR hf) n

end Tree

/-- The nodes of the sample post their constraints from the last to the first. -/
theorem postPacketsToSend_flow_busyLeaf :
    ∃ fout, (∀ x, postPacketsToSend busyLeaf (fun _ => 1 / 2) (fun _ => 1)
        (List.finRange busyLeaf.size).reverse x ↔ x = fout) ∧
      ∀ n, (busyLeaf.node n).isSink = false →
        fout n ≤ ∑ _m ∈ consistent_busyLeaf.isTree.forest.subtree n, 1 := by
  obtain ⟨fout, hiff, _, hle, _⟩ := postPacketsToSend_flow (f := fun _ => 1)
    (R := fun _ => 1 / 2) consistent_busyLeaf.isTree (List.reverse_perm _)
    fun _ => ⟨by norm_num, by norm_num⟩
  exact ⟨fout, hiff, hle fun _ => zero_le_one⟩

/-- With every MAC protocol, the equations of a tree have the outgoing rates as their only
solution. -/
theorem Topology.IsTree.packetsToSend_iff_eq {M : MacModel} (ht : t.IsTree)
    {v : MacConfiguration} : PacketsToSend M t v fout ↔
      fout = ht.outgoing (fun i => M.perHopReliability (t.node i) v) (fun i => (t.node i).f) := by
  rw [packetsToSend_iff_post (List.Perm.refl _),
    ht.postPacketsToSend_iff_outgoing (List.Perm.refl _)]

end PTunes.Optimizer
