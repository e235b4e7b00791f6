import PTunes.Optimizer.Tree
import Mathlib.Data.List.Forall2

/-!
# `PTunes.Proofs.Optimizer.Resolve`: `createTopologies` finds the ids

`createTopologies` fails when two lists have different lengths or an id is unknown. When all
references are known ids, it builds a topology whose nodes are the positions of the lists.

* `createTopology_resolves`: one topology.
* `createTopologies_resolves`: all of them.
-/

set_option autoImplicit false

namespace PTunes.Optimizer

/-- The lists have the same length, and every reference is one of the ids. -/
structure Resolvable (info : TopologyInfo) : Prop where
  prrs : info.prrs.length = info.nodeIds.length
  fs : info.fs.length = info.nodeIds.length
  parentList : info.parentList.length = info.nodeIds.length
  childrenList : info.childrenList.length = info.nodeIds.length
  parents_mem : ∀ row ∈ info.parentList, ∀ id ∈ row, id ∈ info.nodeIds
  children_mem : ∀ row ∈ info.childrenList, ∀ id ∈ row, id ∈ info.nodeIds
  paths_mem : ∀ row ∈ info.pathList, ∀ id ∈ row, id ∈ info.nodeIds

/-- The topology is the one of the lists: the nodes are the positions, and the references of a
node have the ids at its position. -/
structure Resolved (info : TopologyInfo) (t : Topology) : Prop where
  size : t.size = info.nodeIds.length
  id : ∀ i, info.nodeIds[i.val]? = some (t.node i).id
  prr : ∀ i, (info.prrs[i.val]?).map createPrr = some (t.node i).prr
  f : ∀ i, info.fs[i.val]? = some (t.node i).f
  parent : ∀ i, info.parentList[i.val]? = some ((t.node i).parent.map fun j => (t.node j).id)
  children : ∀ i,
    info.childrenList[i.val]? = some ((t.node i).children.map fun j => (t.node j).id)
  paths : info.pathList = t.paths.map (·.map fun j => (t.node j).id)

/-- An id that occurs is found at a position with this id. -/
theorem getNodeById_of_mem {nodeIds : List Int} {id : Int} (h : id ∈ nodeIds) :
    ∃ i, getNodeById nodeIds id = some i ∧ nodeIds.get i = id := by
  cases hi : getNodeById nodeIds id with
  | none => exact absurd h (List.finIdxOf?_eq_none_iff.mp hi)
  | some i => exact ⟨i, rfl, (List.finIdxOf?_eq_some_iff.mp hi).1⟩

/-- A row of known ids is resolved. -/
theorem mapM_getNodeById {nodeIds row : List Int} (h : ∀ id ∈ row, id ∈ nodeIds) :
    ∃ r, row.mapM (getNodeById nodeIds) = some r ∧ r.map nodeIds.get = row := by
  induction row with
  | nil => exact ⟨[], rfl, rfl⟩
  | cons id row ih =>
      obtain ⟨i, hi, hget⟩ := getNodeById_of_mem (h id List.mem_cons_self)
      obtain ⟨r, hr, hmap⟩ := ih fun id' hid' => h id' (List.mem_cons_of_mem _ hid')
      refine ⟨i :: r, ?_, ?_⟩
      · rw [List.mapM_cons, hi, hr]
        rfl
      · rw [List.map_cons, hget, hmap]

/-- A list of such rows is resolved. -/
theorem resolve_spec {nodeIds : List Int} {l : List (List Int)}
    (h : ∀ row ∈ l, ∀ id ∈ row, id ∈ nodeIds) :
    ∃ r, resolve nodeIds l = some r ∧ r.map (·.map nodeIds.get) = l := by
  induction l with
  | nil => exact ⟨[], rfl, rfl⟩
  | cons row l ih =>
      obtain ⟨r, hr, hmap⟩ := mapM_getNodeById (h row List.mem_cons_self)
      obtain ⟨rs, hrs, hmaps⟩ := ih fun row' hrow' => h row' (List.mem_cons_of_mem _ hrow')
      refine ⟨r :: rs, ?_, ?_⟩
      · rw [resolve] at hrs ⊢
        rw [List.mapM_cons, hr, hrs]
        rfl
      · rw [List.map_cons, hmap, hmaps]

/-- A resolved list at a position. -/
theorem getElem?_of_resolve {nodeIds : List Int} {l : List (List Int)}
    {r : List (List (Fin nodeIds.length))} (hmap : r.map (·.map nodeIds.get) = l)
    (hlen : l.length = nodeIds.length) (i : Fin nodeIds.length) :
    l[i.val]? = some ((r.getD i []).map nodeIds.get) := by
  have hi : i.val < r.length := by
    rw [← hmap, List.length_map] at hlen
    rw [hlen]
    exact i.isLt
  rw [← hmap, List.getElem?_map, List.getD_eq_getElem?_getD, List.getElem?_eq_getElem hi]
  rfl

/-- A list of the right length has an entry for every node. -/
theorem getElem?_eq_getD {l : List ℚ} {n : Nat} (hlen : l.length = n) (i : Fin n) :
    l[i.val]? = some (l.getD i 0) := by
  have hi : i.val < l.length := hlen ▸ i.isLt
  rw [List.getD_eq_getElem?_getD, List.getElem?_eq_getElem hi]
  rfl

/-- Lists whose references are known are resolved. -/
theorem createTopology_resolves {info : TopologyInfo} (h : Resolvable info) :
    ∃ t, createTopology info = some t ∧ Resolved info t := by
  obtain ⟨parents, hparents, hparentsMap⟩ := resolve_spec h.parents_mem
  obtain ⟨children, hchildren, hchildrenMap⟩ := resolve_spec h.children_mem
  obtain ⟨paths, hpaths, hpathsMap⟩ := resolve_spec h.paths_mem
  let node := fun i : Fin info.nodeIds.length =>
    ({ id := info.nodeIds.get i
       parent := parents.getD i []
       children := children.getD i []
       f := info.fs.getD i 0
       prr := createPrr (info.prrs.getD i 0) } : Node info.nodeIds.length)
  refine ⟨⟨info.nodeIds.length, node, paths⟩, ?_, ?_⟩
  · rw [createTopology, if_pos ⟨h.prrs, h.fs, h.parentList, h.childrenList⟩, hparents, hchildren,
      hpaths]
    rfl
  · exact {
      size := rfl
      id := fun i => List.getElem?_eq_getElem i.isLt
      prr := fun i => by
        rw [getElem?_eq_getD h.prrs i]
        rfl
      f := fun i => getElem?_eq_getD h.fs i
      parent := fun i => getElem?_of_resolve hparentsMap h.parentList i
      children := fun i => getElem?_of_resolve hchildrenMap h.childrenList i
      paths := hpathsMap.symm }

/-- All topologies are resolved. -/
theorem createTopologies_resolves {infos : List TopologyInfo}
    (h : ∀ info ∈ infos, Resolvable info) :
    ∃ ts, createTopologies infos = some ts ∧ List.Forall₂ Resolved infos ts := by
  induction infos with
  | nil => exact ⟨[], rfl, .nil⟩
  | cons info infos ih =>
      obtain ⟨t, ht, hresolved⟩ := createTopology_resolves (h info List.mem_cons_self)
      obtain ⟨ts, hts, hall⟩ := ih fun info' hinfo' => h info' (List.mem_cons_of_mem _ hinfo')
      refine ⟨t :: ts, ?_, .cons hresolved hall⟩
      rw [createTopologies] at hts ⊢
      rw [List.mapM_cons, ht, hts]
      rfl

end PTunes.Optimizer
