import Mathlib.Data.List.Perm.Subperm
import Mathlib.Data.Rat.Defs
import PTunes.Controller.Paths

/-!
# `PTunes.Proofs.Controller.Paths`: consistent topologies and paths

`Ascends t n r below` says what a walk up from `n` finds: the records of `below` are no
sinks, each is the parent of the one before it, the first is `n`, and the parent of the last
is the sink `r`. It is deterministic, so no record can occur twice in it
(`Ascends.nodup`).

`isConsistent` always returns (`isConsistent_returns`), and when it returns true, every node
that is not a sink ascends to some sink (`ascends_of_isConsistent`). The loops of
`buildPathList` and `computePRRStats` stop only at the sink that `getSink` returns. So they
terminate with the chain of parents exactly when all nodes ascend to that one
(`buildPathList_iff`); from a node below another self-parented node they run forever.
-/

set_option autoImplicit false

namespace PTunes.Controller

variable {ρ β γ R : Type}

namespace Topology

/-! ### Walks up to a sink -/

/-- The records `below` lead from `n` up to the sink `r`. -/
inductive Ascends (t : Topology ρ) :
    NodeTopologyInfo ρ → NodeTopologyInfo ρ → List (NodeTopologyInfo ρ) → Prop
  | top {n r : NodeTopologyInfo ρ} (hn : t.getNodeInfo n.nodeId = some n)
      (hsource : n.isSink = false) (hparent : t.getNodeInfo n.parentId = some r)
      (hsink : r.isSink = true) : Ascends t n r [n]
  | step {n p r : NodeTopologyInfo ρ} {below : List (NodeTopologyInfo ρ)}
      (hn : t.getNodeInfo n.nodeId = some n) (hsource : n.isSink = false)
      (hparent : t.getNodeInfo n.parentId = some p) (h : Ascends t p r below) :
      Ascends t n r (n :: below)

variable {t : Topology ρ} {n r sink : NodeTopologyInfo ρ} {below : List (NodeTopologyInfo ρ)}

/-- A record that is found is found under its own id. -/
theorem getNodeInfo_self {i : Int} (h : t.getNodeInfo i = some n) :
    t.getNodeInfo n.nodeId = some n := by
  rw [(getNodeInfo_eq_some_iff.mp h).2]
  exact h

/-- `getSink` returns a self-parented record of the topology. -/
theorem getSink_spec (h : t.getSink = some sink) :
    t.getNodeInfo sink.nodeId = some sink ∧ sink.isSink = true :=
  ⟨getNodeInfo_eq_some_iff.mpr ⟨List.mem_of_find?_eq_some h, rfl⟩, List.find?_some h⟩

namespace Ascends

/-- A node from which a path ascends is not the sink. -/
theorem source (h : t.Ascends n r below) : n.isSink = false := by
  cases h with
  | top _ hsource => exact hsource
  | step _ hsource => exact hsource

/-- The top of a walk is a self-parented record of the topology. -/
theorem root (h : t.Ascends n r below) :
    t.getNodeInfo r.nodeId = some r ∧ r.isSink = true := by
  induction h with
  | top _ _ hparent hsink => exact ⟨getNodeInfo_self hparent, hsink⟩
  | step _ _ _ _ ih => exact ih

/-- A walk has one result only. -/
theorem unique {r' : NodeTopologyInfo ρ} {below' : List (NodeTopologyInfo ρ)}
    (h : t.Ascends n r below) (h' : t.Ascends n r' below') : below = below' := by
  induction h generalizing r' below' with
  | top _ _ hparent hsink =>
      cases h' with
      | top => rfl
      | step _ _ hparent' h' =>
          rw [hparent] at hparent'
          cases hparent'
          rw [h'.source] at hsink
          cases hsink
  | step _ _ hparent h ih =>
      cases h' with
      | top _ _ hparent' hsink =>
          rw [hparent] at hparent'
          cases hparent'
          rw [h.source] at hsink
          cases hsink
      | step _ _ hparent' h' =>
          rw [hparent] at hparent'
          cases hparent'
          rw [ih h']

/-- From each record of a walk the rest of the walk goes up to the same sink. -/
theorem of_mem (h : t.Ascends n r below) {m : NodeTopologyInfo ρ} (hm : m ∈ below) :
    t.getNodeInfo m.nodeId = some m ∧
      ∃ below', t.Ascends m r below' ∧ below'.length ≤ below.length := by
  induction h with
  | top hn hsource hparent hsink =>
      rw [List.mem_singleton] at hm
      subst hm
      exact ⟨hn, _, .top hn hsource hparent hsink, Nat.le_refl _⟩
  | step hn hsource hparent h ih =>
      rcases List.mem_cons.mp hm with rfl | hm
      · exact ⟨hn, _, .step hn hsource hparent h, Nat.le_refl _⟩
      · obtain ⟨hself, below', hasc, hle⟩ := ih hm
        exact ⟨hself, below', hasc, Nat.le_succ_of_le hle⟩

/-- No id occurs twice in a walk: the walk from the second occurrence would be the same and
shorter. -/
theorem nodup (h : t.Ascends n r below) : (below.map (·.nodeId)).Nodup := by
  induction h with
  | top => exact List.nodup_singleton _
  | step hn hsource hparent h ih =>
      rw [List.map_cons, List.nodup_cons]
      refine ⟨fun hmem => ?_, ih⟩
      obtain ⟨m, hm, hid⟩ := List.mem_map.mp hmem
      obtain ⟨hself, below', hasc, hle⟩ := h.of_mem hm
      have hmn : m = _ := Option.some.inj (hself.symm.trans (hid ▸ hn))
      subst hmn
      have heq := hasc.unique (.step hn hsource hparent h)
      rw [heq, List.length_cons] at hle
      omega

/-- The id of the sink does not occur below it. -/
theorem root_notMem (h : t.Ascends n r below) : r.nodeId ∉ below.map (·.nodeId) := by
  intro hmem
  obtain ⟨m, hm, hid⟩ := List.mem_map.mp hmem
  obtain ⟨hself, below', hasc, _⟩ := h.of_mem hm
  obtain ⟨hroot, hsink⟩ := h.root
  have hmr : m = r := Option.some.inj (hself.symm.trans (hid ▸ hroot))
  rw [← hmr, hasc.source] at hsink
  cases hsink

end Ascends

/-! ### The consistency check -/

/-- Where a walk of `isConsistent` stands: at a record of the topology that it has visited,
with the ids of distinct records behind it. -/
structure Walking (t : Topology ρ) (s : NodeTopologyInfo ρ × List Int) : Prop where
  current : t.getNodeInfo s.1.nodeId = some s.1
  source : s.1.isSink = false
  nodup : s.2.Nodup
  visited : ∀ i ∈ s.2, i ∈ t.nodes.toList.map (·.nodeId)

/-- Distinct ids of a topology are at most as many as its records. -/
theorem Walking.length_le {s : NodeTopologyInfo ρ × List Int} (h : t.Walking s) :
    s.2.length ≤ t.nodes.toList.length := by
  have hsub := h.nodup.subperm h.visited
  simpa using hsub.length_le

/-- A walk starts at a source. -/
theorem walking_start (hmem : n ∈ t.nodes.toList) (hn : n.isSink = false) :
    t.Walking (n, [n.nodeId]) where
  current := getNodeInfo_eq_some_iff.mpr ⟨hmem, rfl⟩
  source := hn
  nodup := List.nodup_singleton _
  visited i hi := by
    rw [List.mem_singleton] at hi
    exact hi ▸ List.mem_map_of_mem hmem

/-- What a turn of a walk does that goes on. -/
theorem walkTurn_next {s s' : NodeTopologyInfo ρ × List Int}
    (h : t.walkTurn s = .next s') :
    t.getNodeInfo s.1.parentId = some s'.1 ∧ s'.1.isSink = false ∧ s.1.parentId ∉ s.2 ∧
      s'.2 = s'.1.nodeId :: s.2 := by
  obtain ⟨currentNode, visitedNodes⟩ := s
  simp only [walkTurn] at h
  cases hp : t.getNodeInfo currentNode.parentId with
  | none => simp [hp] at h
  | some parent =>
      simp only [hp] at h
      split at h
      · cases h
      · split at h
        · cases h
        · rename_i hsink hvisited
          cases h
          exact ⟨rfl, by simpa using hsink, by simpa using hvisited, rfl⟩

/-- What a turn of a walk does that ends it with `true`. -/
theorem walkTurn_done_true {s : NodeTopologyInfo ρ × List Int}
    (h : t.walkTurn s = .done true) :
    ∃ r, t.getNodeInfo s.1.parentId = some r ∧ r.isSink = true := by
  obtain ⟨currentNode, visitedNodes⟩ := s
  simp only [walkTurn] at h
  cases hp : t.getNodeInfo currentNode.parentId with
  | none => simp [hp] at h
  | some parent =>
      simp only [hp] at h
      split at h
      · rename_i hsink
        exact ⟨parent, rfl, hsink⟩
      · split at h <;> cases h

/-- A turn keeps the invariant, and it visits one more record. -/
theorem Walking.next {s s' : NodeTopologyInfo ρ × List Int} (h : t.Walking s)
    (hs : t.walkTurn s = .next s') : t.Walking s' ∧ s'.2.length = s.2.length + 1 := by
  obtain ⟨hp, hsink, hnot, hvisited⟩ := walkTurn_next hs
  obtain ⟨hmem, hid⟩ := getNodeInfo_eq_some_iff.mp hp
  refine ⟨⟨getNodeInfo_self hp, hsink, ?_, ?_⟩, by rw [hvisited, List.length_cons]⟩
  · rw [hvisited, List.nodup_cons, hid]
    exact ⟨hnot, h.nodup⟩
  · rw [hvisited]
    intro i hi
    rcases List.mem_cons.mp hi with rfl | hi
    · exact List.mem_map_of_mem hmem
    · exact h.visited i hi

/-- When every parent is known, no turn of a walk dereferences a missing record. -/
theorem walkTurn_ne_fail (hparents : ∀ n ∈ t.nodes.toList, n.isSink = false →
      (t.getNodeInfo n.parentId).isSome = true)
    {s : NodeTopologyInfo ρ × List Int} (hs : t.Walking s) : t.walkTurn s ≠ .fail := by
  intro hfail
  have hsome := hparents s.1 (getNodeInfo_eq_some_iff.mp hs.current).1 hs.source
  obtain ⟨p, hp⟩ := Option.isSome_iff_exists.mp hsome
  simp only [walkTurn, hp] at hfail
  split at hfail
  · cases hfail
  · split at hfail <;> cases hfail

/-- A walk ends after at most as many turns as there are records. -/
theorem walk_returns (hparents : ∀ n ∈ t.nodes.toList, n.isSink = false →
      (t.getNodeInfo n.parentId).isSome = true)
    {s : NodeTopologyInfo ρ × List Int} (hs : t.Walking s) :
    ∃ ok, whileLoop t.walkTurn (t.nodes.toList.length + 1) s = .returned ok := by
  -- The variant is the number of records that the walk has not visited.
  obtain ⟨ok, hok, _⟩ := whileLoop_rule t.Walking (fun s => t.nodes.toList.length - s.2.length)
    (fun _ => True) (fun s hs => walkTurn_ne_fail hparents hs)
    (fun s s' hs hnext => by
      obtain ⟨hs', hlen⟩ := hs.next hnext
      have hle := hs'.length_le
      exact ⟨hs', by omega⟩)
    (fun _ _ _ _ => trivial) hs (Nat.lt_succ_of_le (Nat.sub_le t.nodes.toList.length s.2.length))
  exact ⟨ok, hok⟩

/-- A walk that meets no cycle has gone up to a sink. -/
theorem ascends_of_walk {fuel : Nat} {s : NodeTopologyInfo ρ × List Int} (hs : t.Walking s)
    (h : whileLoop t.walkTurn fuel s = .returned true) : ∃ r below, t.Ascends s.1 r below := by
  induction fuel generalizing s with
  | zero => cases h
  | succ fuel ih =>
      cases ht : t.walkTurn s with
      | fail =>
          rw [whileLoop_fail ht] at h
          cases h
      | done ok =>
          rw [whileLoop_done ht] at h
          cases h
          obtain ⟨r, hr, hsink⟩ := walkTurn_done_true ht
          exact ⟨r, [s.1], .top hs.current hs.source hr hsink⟩
      | next s' =>
          rw [whileLoop_next ht] at h
          obtain ⟨r, below, hasc⟩ := ih (hs.next ht).1 h
          exact ⟨r, s.1 :: below, .step hs.current hs.source (walkTurn_next ht).1 hasc⟩

/-- The loop over the nodes returns when each walk does. -/
theorem walkAll_returns {fuel : Nat} {l : List (NodeTopologyInfo ρ)}
    (h : ∀ n ∈ l, n.isSink = false → ∃ ok, whileLoop t.walkTurn fuel (n, [n.nodeId]) =
      .returned ok) : ∃ ok, t.walkAll fuel l = .returned ok := by
  induction l with
  | nil => exact ⟨true, rfl⟩
  | cons n l ih =>
      have hrest := ih fun m hm => h m (List.mem_cons_of_mem _ hm)
      cases hn : n.isSink with
      | true =>
          rw [walkAll, if_pos hn]
          exact hrest
      | false =>
          obtain ⟨ok, hok⟩ := h n List.mem_cons_self hn
          rw [walkAll, if_neg (by simp [hn]), hok]
          cases ok with
          | true => exact hrest
          | false => exact ⟨false, rfl⟩

/-- When the loop over the nodes returns `true`, each walk has. -/
theorem walk_of_walkAll {fuel : Nat} {l : List (NodeTopologyInfo ρ)}
    (h : t.walkAll fuel l = .returned true) (hmem : n ∈ l) (hn : n.isSink = false) :
    whileLoop t.walkTurn fuel (n, [n.nodeId]) = .returned true := by
  induction l with
  | nil => cases hmem
  | cons m l ih =>
      rw [walkAll] at h
      split at h
      · rename_i hm
        rcases List.mem_cons.mp hmem with rfl | hmem
        · rw [hn] at hm
          cases hm
        · exact ih h hmem
      · obtain ⟨ok, hok, h⟩ := Loop.bind_eq_returned.mp h
        cases ok with
        | false => cases h
        | true =>
            rcases List.mem_cons.mp hmem with rfl | hmem
            · exact hok
            · exact ih h hmem

/-- `isConsistent` returns, whatever the parents are. -/
theorem isConsistent_returns (t : Topology ρ) :
    ∃ ok, t.isConsistent (t.nodes.toList.length + 1) = .returned ok := by
  rw [isConsistent]
  split
  · rename_i hparents
    refine walkAll_returns fun n hmem hn => walk_returns (fun m hm hsource => ?_)
      (walking_start hmem hn)
    simpa [hsource] using List.all_eq_true.mp hparents m hm
  · exact ⟨false, rfl⟩

/-- The fuel is only a bound on the walks. -/
theorem walkAll_mono {fuel fuel' : Nat} (hle : fuel ≤ fuel') {l : List (NodeTopologyInfo ρ)}
    {b : Bool} (h : t.walkAll fuel l = .returned b) : t.walkAll fuel' l = .returned b := by
  induction l with
  | nil => exact h
  | cons n l ih =>
      rw [walkAll] at h ⊢
      split at h
      · rw [if_pos ‹_›]
        exact ih h
      · rw [if_neg ‹_›]
        obtain ⟨ok, hwalk, hrest⟩ := Loop.bind_eq_returned.mp h
        rw [whileLoop_mono hle (by rw [hwalk]; simp), hwalk]
        cases ok with
        | true => exact ih hrest
        | false => exact hrest

/-- More fuel does not change what has been returned. -/
theorem isConsistent_mono {fuel fuel' : Nat} (hle : fuel ≤ fuel') {b : Bool}
    (h : t.isConsistent fuel = .returned b) : t.isConsistent fuel' = .returned b := by
  rw [isConsistent] at h ⊢
  split at h
  · rw [if_pos ‹_›]
    exact walkAll_mono hle h
  · rw [if_neg ‹_›]
    exact h

/-- In a consistent topology the parent of each node that is not a sink is one of the nodes. -/
theorem parent_mem_of_isConsistent {fuel : Nat} (h : t.isConsistent fuel = .returned true)
    (hmem : n ∈ t.nodes.toList) (hn : n.isSink = false) :
    ∃ p ∈ t.nodes.toList, p.nodeId = n.parentId := by
  rw [isConsistent] at h
  split at h
  · rename_i hparents
    have hsome : (t.getNodeInfo n.parentId).isSome = true := by
      simpa [hn] using List.all_eq_true.mp hparents n hmem
    obtain ⟨p, hp⟩ := Option.isSome_iff_exists.mp hsome
    exact ⟨p, getNodeInfo_eq_some_iff.mp hp⟩
  · cases h

/-- In a consistent topology every node that is not a sink ascends to a sink. -/
theorem ascends_of_isConsistent {fuel : Nat} (h : t.isConsistent fuel = .returned true)
    (hmem : n ∈ t.nodes.toList) (hn : n.isSink = false) : ∃ r below, t.Ascends n r below := by
  rw [isConsistent] at h
  split at h
  · exact ascends_of_walk (walking_start hmem hn) (walk_of_walkAll h hmem hn)
  · cases h

/-! ### Following the parents -/

variable {visit : β → NodeTopologyInfo ρ → β} {finish : β → NodeTopologyInfo ρ → γ}

/-- A turn at a record that is not the sink. -/
theorem followTurn_next (hs : t.getSink = some sink) (hne : n.nodeId ≠ sink.nodeId) (acc : β) :
    t.followTurn visit finish (some n, acc) =
      .next (t.getNodeInfo n.parentId, visit acc n) := by
  simp [followTurn, hs, hne]

/-- The turn at the sink. -/
theorem followTurn_done (hs : t.getSink = some sink) (acc : β) :
    t.followTurn visit finish (some sink, acc) = .done (finish acc sink) := by
  simp [followTurn, hs]

/-- A node that is not self-parented is not the sink. -/
theorem nodeId_ne_sink (hs : t.getSink = some sink) (hn : t.getNodeInfo n.nodeId = some n)
    (hsource : n.isSink = false) : n.nodeId ≠ sink.nodeId := by
  intro heq
  obtain ⟨hself, hsink⟩ := getSink_spec hs
  rw [← heq, hn] at hself
  cases hself
  rw [hsource] at hsink
  cases hsink

/-- From a node that ascends to the sink of `getSink` the loop visits the records below it. -/
theorem whileLoop_followTurn (hs : t.getSink = some sink) (h : t.Ascends n sink below)
    (acc : β) : whileLoop (t.followTurn visit finish) (below.length + 1) (some n, acc) =
      .returned (finish (below.foldl visit acc) sink) := by
  induction h generalizing acc with
  | top hn hsource hparent _ =>
      rw [whileLoop_next (followTurn_next hs (nodeId_ne_sink hs hn hsource) acc), hparent]
      exact whileLoop_done (followTurn_done hs _) 0
  | step hn hsource hparent _ ih =>
      rw [whileLoop_next (followTurn_next hs (nodeId_ne_sink hs hn hsource) acc), hparent]
      exact ih hs _

/-- Below a self-parented node that is not the sink the loop runs forever. -/
theorem whileLoop_followTurn_diverges {p : NodeTopologyInfo ρ} (hs : t.getSink = some sink)
    (hself : t.getNodeInfo p.nodeId = some p) (hp : p.isSink = true)
    (hne : p.nodeId ≠ sink.nodeId) (fuel : Nat) (acc : β) :
    whileLoop (t.followTurn visit finish) fuel (some p, acc) = .running := by
  refine whileLoop_diverges (fun s => s.1 = some p) (fun s hs' => ?_) fuel rfl
  obtain ⟨iterator, acc'⟩ := s
  subst hs'
  have hparent : t.getNodeInfo p.parentId = some p := by
    rw [← NodeTopologyInfo.isSink_iff.mp hp]
    exact hself
  exact ⟨_, followTurn_next hs hne acc', hparent⟩

/-! ### The paths -/

/-- `path` is the simple chain of parents from the id `i` to the id `j`. -/
structure IsParentChain (t : Topology ρ) (i j : Int) (path : List Int) : Prop where
  head : path.head? = some i
  last : path.getLast? = some j
  nodup : path.Nodup
  parents : path.IsChain (fun a b => ∃ n, t.getNodeInfo a = some n ∧ n.parentId = b)

/-- The ids of a walk are the chain of parents. -/
theorem Ascends.isParentChain (h : t.Ascends n r below) :
    t.IsParentChain n.nodeId r.nodeId (below.map (·.nodeId) ++ [r.nodeId]) where
  head := by cases h <;> rfl
  last := List.getLast?_concat
  nodup := by
    rw [List.nodup_append]
    refine ⟨h.nodup, List.nodup_singleton _, ?_⟩
    rintro i hi j hj rfl
    rw [List.mem_singleton] at hj
    exact h.root_notMem (hj ▸ hi)
  parents := by
    induction h with
    | top hn _ hparent _ =>
        exact .cons_cons ⟨_, hn, (getNodeInfo_eq_some_iff.mp hparent).2.symm⟩ (.singleton _)
    | step hn _ hparent h ih =>
        have hid := (getNodeInfo_eq_some_iff.mp hparent).2
        cases h with
        | top => exact .cons_cons ⟨_, hn, hid.symm⟩ ih
        | step => exact .cons_cons ⟨_, hn, hid.symm⟩ ih

/-- The loop of `buildPathList` collects the ids. -/
theorem foldl_path (path : List Int) (below : List (NodeTopologyInfo ρ)) :
    below.foldl (fun path iterator => path ++ [iterator.nodeId]) path =
      path ++ below.map (·.nodeId) := by
  induction below generalizing path with
  | nil => exact (List.append_nil _).symm
  | cons n below ih =>
      rw [List.foldl_cons, ih, List.map_cons, List.append_assoc, List.singleton_append]

/-- The records of a walk are distinct records of the topology. -/
theorem Ascends.length_le (h : t.Ascends n r below) : below.length ≤ t.nodes.toList.length := by
  have hmem : ∀ i ∈ below.map (·.nodeId), i ∈ t.nodes.toList.map (·.nodeId) := by
    intro i hi
    obtain ⟨m, hm, rfl⟩ := List.mem_map.mp hi
    exact List.mem_map_of_mem (getNodeInfo_eq_some_iff.mp (h.of_mem hm).1).1
  simpa using (h.nodup.subperm hmem).length_le

/-- Following the parents of a node that ascends to the sink of `getSink` takes at most one
turn for each record and one for the sink. -/
theorem followParents_returned (hs : t.getSink = some sink) (h : t.Ascends n sink below)
    (acc : β) : t.followParents visit finish acc (t.nodes.toList.length + 1) n =
      .returned (finish (below.foldl visit acc) sink) := by
  have hself : t.getNodeInfo n.nodeId = some n := by
    cases h with
    | top hn => exact hn
    | step hn => exact hn
  have hloop : whileLoop (t.followTurn visit finish) (below.length + 1) (some n, acc) = _ :=
    whileLoop_followTurn hs h acc
  rw [followParents, hself, whileLoop_mono (Nat.succ_le_succ h.length_le) (by rw [hloop]; simp),
    hloop]

/-- Every self-parented record that is the parent of another node is the one that `getSink`
returns. -/
def OneRoot (t : Topology ρ) (sink : NodeTopologyInfo ρ) : Prop :=
  ∀ n ∈ t.nodes.toList, n.isSink = false → ∀ p, t.getNodeInfo n.parentId = some p →
    p.isSink = true → p.nodeId = sink.nodeId

/-- When there is one root, every walk ends at it. -/
theorem Ascends.root_eq (h : t.Ascends n r below) (hs : t.getSink = some sink)
    (hone : t.OneRoot sink) : r = sink := by
  have hself := (getSink_spec hs).1
  induction h with
  | top hn hsource hparent hsink =>
      have hid := hone _ (getNodeInfo_eq_some_iff.mp hn).1 hsource _ hparent hsink
      rw [← hid, getNodeInfo_self hparent] at hself
      exact Option.some.inj hself
  | step _ _ _ _ ih => exact ih

/-- The sources are the nodes but the sink. -/
theorem mem_sources : n ∈ t.sources ↔ n ∈ t.nodes.toList ∧ n.isSink = false := by
  simp [sources]

/-- In a consistent topology with one root every source ascends to it. -/
theorem ascends_sink {fuel : Nat} (h : t.isConsistent fuel = .returned true)
    (hs : t.getSink = some sink) (hone : t.OneRoot sink) (hn : n ∈ t.sources) :
    ∃ below, t.Ascends n sink below := by
  obtain ⟨hmem, hsource⟩ := mem_sources.mp hn
  obtain ⟨r, below, hasc⟩ := ascends_of_isConsistent h hmem hsource
  exact ⟨below, hasc.root_eq hs hone ▸ hasc⟩

/-- `buildPathList` and `computePRRStats` terminate without a missing record, and the paths
are the simple chains of parents from the sources to the sink. -/
def PathsExtracted (t : Topology ρ) (sink : NodeTopologyInfo ρ) (D : DoubleOps R) : Prop :=
  (∃ fuel pathList, t.buildPathList fuel = .returned pathList ∧
    List.Forall₂ (fun n path => t.IsParentChain n.nodeId sink.nodeId path) t.sources
      pathList) ∧
  ∃ fuel stats, t.computePRRStats D fuel = .returned stats

/-- With one root the loop from a source terminates and gives the chain of parents. One bound is
enough for every source. -/
theorem exists_buildPath {fuel : Nat} (h : t.isConsistent fuel = .returned true)
    (hs : t.getSink = some sink) (hone : t.OneRoot sink) (hn : n ∈ t.sources) :
    ∃ path, t.buildPath (t.nodes.toList.length + 1) n = .returned path ∧
      t.IsParentChain n.nodeId sink.nodeId path := by
  obtain ⟨below, hasc⟩ := ascends_sink h hs hone hn
  refine ⟨below.map (·.nodeId) ++ [sink.nodeId], ?_, hasc.isParentChain⟩
  rw [buildPath, followParents_returned hs hasc, foldl_path, List.nil_append]

/-- More fuel does not change the list of paths. -/
theorem buildPathList_mono {fuel fuel' : Nat} (hle : fuel ≤ fuel') {pathList : List (List Int)}
    (h : t.buildPathList fuel = .returned pathList) :
    t.buildPathList fuel' = .returned pathList := by
  refine Loop.mapLoop_mono (fun n path hpath => ?_) h
  rw [buildPath, followParents] at hpath ⊢
  rw [whileLoop_mono hle (by rw [hpath]; simp), hpath]

/-- With one root the loops terminate and give the paths. -/
theorem pathsExtracted_of_oneRoot {fuel : Nat} (h : t.isConsistent fuel = .returned true)
    (hs : t.getSink = some sink) (hone : t.OneRoot sink) (D : DoubleOps R) :
    t.PathsExtracted sink D := by
  have hprr : ∀ n ∈ t.sources, ∃ prr,
      t.pathPRR D (t.nodes.toList.length + 1) n = .returned prr ∧ True := by
    intro n hn
    obtain ⟨below, hasc⟩ := ascends_sink h hs hone hn
    exact ⟨_, followParents_returned hs hasc _, trivial⟩
  obtain ⟨pathList, hpaths⟩ := Loop.exists_mapLoop fun n hn => exists_buildPath h hs hone hn
  obtain ⟨pathPRRs, hprrs, _⟩ := Loop.exists_mapLoop hprr
  refine ⟨⟨_, pathList, hpaths⟩, _, _, Loop.bind_eq_returned.mpr ⟨pathPRRs, hprrs, rfl⟩⟩

/-- The loops terminate only when there is one root. -/
theorem oneRoot_of_buildPathList (hs : t.getSink = some sink) {fuel : Nat}
    {pathList : List (List Int)} (h : t.buildPathList fuel = .returned pathList) :
    t.OneRoot sink := by
  intro n hmem hsource p hparent hp
  by_contra hne
  have hself := getNodeInfo_eq_some_iff.mpr ⟨hmem, rfl⟩
  obtain ⟨path, hpath⟩ := Loop.exists_of_mapLoop h (mem_sources.mpr ⟨hmem, hsource⟩)
  rw [buildPath, followParents, hself] at hpath
  cases fuel with
  | zero => cases hpath
  | succ fuel =>
      rw [whileLoop_next (followTurn_next hs (nodeId_ne_sink hs hself hsource) _), hparent,
        whileLoop_followTurn_diverges hs (getNodeInfo_self hparent) hp hne] at hpath
      cases hpath

/-- In a consistent topology with a sink, the loops that follow the parents terminate and
give the simple chains of parents exactly when every self-parented parent is the sink that
`getSink` returns. -/
theorem pathsExtracted_iff {fuel : Nat} (h : t.isConsistent fuel = .returned true)
    (hs : t.getSink = some sink) (D : DoubleOps R) :
    t.PathsExtracted sink D ↔ t.OneRoot sink := by
  constructor
  · rintro ⟨⟨_, _, hpaths, _⟩, _⟩
    exact oneRoot_of_buildPathList hs hpaths
  · intro hone
    exact pathsExtracted_of_oneRoot h hs hone D

end Topology

/-! ### Sample topologies -/

/-- A record of the node `i` with the parent `p`. -/
def sampleNode (i p : Int) : NodeTopologyInfo ℚ := ⟨0, i, p, 1000, 6, ⟨16, 100, 3⟩⟩

/-- The chain 3 - 2 - 1, with the sink 1. -/
def sampleChain : Topology ℚ :=
  ⟨0, 0, ⟨[sampleNode 3 2, sampleNode 1 1, sampleNode 2 1], by decide⟩⟩

/-- Two self-parented nodes, 1 and 2, and node 3 below 2. -/
def sampleTwoRoots : Topology ℚ :=
  ⟨0, 0, ⟨[sampleNode 1 1, sampleNode 2 2, sampleNode 3 2], by decide⟩⟩

/-- The chain is consistent, and its paths are extracted since it has one root. -/
theorem pathsExtracted_iff_sample :
    sampleChain.isConsistent 4 = .returned true ∧
    sampleChain.getSink = some (sampleNode 1 1) ∧
    (sampleChain.PathsExtracted (sampleNode 1 1) DoubleOps.double ↔
      sampleChain.OneRoot (sampleNode 1 1)) :=
  ⟨by decide, by decide, Topology.pathsExtracted_iff (by decide : sampleChain.isConsistent 4 = _)
    (by decide) _⟩

example : sampleChain.buildPathList 4 = .returned [[3, 2, 1], [2, 1]] := by decide

/-- `isConsistent` accepts the two roots, `getSink` returns node 1, and the loop from node 3
never meets it. -/
theorem not_forall_pathsExtracted :
    ¬ ∀ (t : Topology ℚ) (fuel : Nat) (sink : NodeTopologyInfo ℚ),
        t.isConsistent fuel = .returned true → t.getSink = some sink →
        t.PathsExtracted sink DoubleOps.double := by
  intro hall
  have hsink : sampleTwoRoots.getSink = some (sampleNode 1 1) := by decide
  obtain ⟨⟨_, _, hpaths, _⟩, _⟩ := hall sampleTwoRoots 4 (sampleNode 1 1) (by decide) hsink
  have hone := Topology.oneRoot_of_buildPathList hsink hpaths
  have hid := hone (sampleNode 3 2) (by decide) (by decide) (sampleNode 2 2) (by decide)
    (by decide)
  exact absurd hid (by decide)

end PTunes.Controller
