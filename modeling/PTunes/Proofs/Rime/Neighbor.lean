import PTunes.Rime.Neighbor

/-!
# `PTunes.Proofs.Rime.Neighbor`: the parent is an entry of the table

`IsEntry t i` says that the block `i` is on `neighbors_list` with a non-null address. The
parent that `neighbor_best` returns is either the lowest-cost entry, which satisfies
`IsEntry`, or the pointer `last_best` of an earlier call. `ParentInv` says that
`last_best` satisfies `IsEntry` too, and that the list holds exactly the allocated blocks.

Two operations break it. `periodic` frees the block of `last_best` when its entry reaches
the lifetime, and does not touch `last_best`. `neighbor_remove` clears `last_best` only
when the removed address equals the two bytes of the pointer. `KeepsParent` excludes these
two steps, and `parent_isEntry` proves that the parent is an entry in every run without
them. `not_isEntry_of_not_keepsParent` is the other direction for one step: a step that
`KeepsParent` excludes leaves `last_best` on a block that is off the list.
-/

set_option autoImplicit false

namespace PTunes.Rime

open PTunes.Core

/-- The block is on `neighbors_list` with a non-null address. -/
def IsEntry (t : NeighborTable) (i : NeighborPtr) : Prop :=
  i ∈ t.neighborsList ∧ (t.get i).addr ≠ rimeaddrNull

/-- `periodic` frees this block: its time is one below the lifetime. -/
def agesOut (t : NeighborTable) (i : NeighborPtr) : Bool :=
  let n := t.get i
  !rimeaddrCmp n.addr rimeaddrNull && n.time < t.maxTime && n.time + 1 = t.maxTime

/-- The list holds exactly the allocated blocks, and `last_best` is an entry. -/
structure ParentInv (t : NeighborTable) : Prop where
  owns : Memb.Owns t.neighborsMem t.neighborsList
  parent : ∀ l, t.lastBest = some l → IsEntry t l

namespace NeighborTable

/-- What has been written is read back. -/
@[simp] theorem get_write_self (t : NeighborTable) (i : NeighborPtr) (n : Neighbor) :
    (t.write i n).get i = n := Memb.block_write_self _ _ _

/-- A write to one block leaves the others. -/
theorem get_write_ne (t : NeighborTable) {i j : NeighborPtr} (n : Neighbor) (h : i ≠ j) :
    (t.write i n).get j = t.get j := Memb.block_write_ne _ _ h

/-- Writing back what a block holds changes nothing. -/
@[simp] theorem write_get (t : NeighborTable) (i : NeighborPtr) : t.write i (t.get i) = t := by
  simp [write, get, Memb.write, Memb.block]

/-- Freeing a block leaves its contents. -/
theorem get_unlink (t : NeighborTable) (i j : NeighborPtr) : (t.unlink i).get j = t.get j :=
  Memb.block_membFree _ _ _

end NeighborTable

/-- An entry that is found has the address. -/
theorem neighborFind_some {t : NeighborTable} {addr : RimeAddr} {i : NeighborPtr}
    (h : neighborFind t addr = some i) : i ∈ t.neighborsList ∧ (t.get i).addr = addr :=
  ⟨List.mem_of_find?_eq_some h, by simpa using List.find?_some h⟩

/-- When no entry has the address, no entry on the list has it. -/
theorem neighborFind_none {t : NeighborTable} {addr : RimeAddr} (h : neighborFind t addr = none)
    {i : NeighborPtr} (hi : i ∈ t.neighborsList) : (t.get i).addr ≠ addr := by
  simpa using List.find?_eq_none.mp h i hi

/-- A write keeps an entry when it keeps the address, or writes a non-null address. -/
theorem IsEntry.write {t : NeighborTable} {l : NeighborPtr} (h : IsEntry t l)
    (i : NeighborPtr) (n : Neighbor) (hn : n.addr = (t.get i).addr ∨ n.addr ≠ rimeaddrNull) :
    IsEntry (t.write i n) l := by
  refine ⟨h.1, ?_⟩
  by_cases hi : i = l
  · subst hi
    rw [NeighborTable.get_write_self]
    rcases hn with hn | hn
    · rw [hn]
      exact h.2
    · exact hn
  · rw [t.get_write_ne n hi]
    exact h.2

/-- A write keeps the invariant when it keeps the address, or writes a non-null address. -/
theorem ParentInv.write {t : NeighborTable} (h : ParentInv t) (i : NeighborPtr) (n : Neighbor)
    (hn : n.addr = (t.get i).addr ∨ n.addr ≠ rimeaddrNull) : ParentInv (t.write i n) where
  owns := h.owns.write n
  parent l hl := (h.parent l hl).write i n hn

/-- An entry other than the unlinked one stays. -/
theorem IsEntry.unlink {t : NeighborTable} {l : NeighborPtr} (h : IsEntry t l)
    {i : NeighborPtr} (hi : i ≠ l) : IsEntry (t.unlink i) l := by
  refine ⟨(List.mem_erase_of_ne (Ne.symm hi)).mpr h.1, ?_⟩
  rw [NeighborTable.get_unlink]
  exact h.2

/-- Unlinking an entry gives its block back to the pool. -/
theorem owns_unlink {t : NeighborTable} (h : Memb.Owns t.neighborsMem t.neighborsList)
    {i : NeighborPtr} (hi : i ∈ t.neighborsList) :
    Memb.Owns (t.unlink i).neighborsMem (t.unlink i).neighborsList :=
  h.free_erase hi

/-- An unlinked entry is off the list. -/
theorem notMem_unlink {t : NeighborTable} (h : Memb.Owns t.neighborsMem t.neighborsList)
    (i : NeighborPtr) : i ∉ (t.unlink i).neighborsList :=
  h.nodup.not_mem_erase

/-- A write to a block other than that of `last_best` keeps the invariant. -/
theorem ParentInv.write_ne {t : NeighborTable} (h : ParentInv t) (i : NeighborPtr)
    (n : Neighbor) (hi : t.lastBest ≠ some i) : ParentInv (t.write i n) where
  owns := h.owns.write n
  parent l hl := by
    have hil : i ≠ l := fun hc => hi (hc ▸ hl)
    refine ⟨(h.parent l hl).1, ?_⟩
    rw [t.get_write_ne n hil]
    exact (h.parent l hl).2

/-! ### The lowest-cost entry -/

/-- The running best of the loop in `neighbor_best` is an entry with the running metric,
below `RTMETRIC_MAX`. -/
def IsLowest (t : NeighborTable) (acc : UInt16 × Option NeighborPtr) : Prop :=
  ∀ i, acc.2 = some i → IsEntry t i ∧ acc.1 = (t.get i).cost ∧ acc.1 < rtmetricMax

/-- What the loop in `neighbor_best` keeps. -/
theorem bestEntry_isLowest {t : NeighborTable} {acc : UInt16 × Option NeighborPtr}
    {i : NeighborPtr} (hi : i ∈ t.neighborsList)
    (h : IsLowest t acc ∧ acc.1 ≤ rtmetricMax) :
    IsLowest t (bestEntry t acc i) ∧ (bestEntry t acc i).1 ≤ rtmetricMax := by
  simp only [bestEntry]
  split
  · rename_i hc
    rw [Bool.and_eq_true, Bool.not_eq_true', rimeaddrCmp_eq_false, decide_eq_true_iff] at hc
    have hlt : (t.get i).cost < rtmetricMax := UInt16.lt_of_lt_of_le hc.2 h.2
    refine ⟨?_, UInt16.le_of_lt hlt⟩
    intro j hj
    cases hj
    exact ⟨⟨hi, hc.1⟩, rfl, hlt⟩
  · exact h

/-- `lowest` returns an entry with its cost, below `RTMETRIC_MAX`, or none. -/
theorem lowest_isLowest (t : NeighborTable) :
    IsLowest t (lowest t) ∧ (lowest t).1 ≤ rtmetricMax := by
  refine List.foldlRecOn t.neighborsList (bestEntry t)
    (motive := fun acc => IsLowest t acc ∧ acc.1 ≤ rtmetricMax) ⟨?_, UInt16.le_refl _⟩ ?_
  · intro i hi
    cases hi
  · intro acc h i hi
    exact bestEntry_isLowest hi h

/-- The results of `neighbor_best`. It keeps the parent of the last call. Or it takes the
lowest-cost entry, as the first parent or as an improvement. -/
theorem neighborBest_cases (t : NeighborTable) :
    (∃ l, t.lastBest = some l ∧ ¬ (lowest t).1 + 2 < (t.get l).cost ∧
      neighborBest t = (some l, t)) ∨
    (neighborBest t = ((lowest t).2, { t with lastBest := (lowest t).2 }) ∧
      ∀ l, t.lastBest = some l → (lowest t).1 + 2 < (t.get l).cost) := by
  unfold neighborBest
  cases hl : t.lastBest with
  | none => exact Or.inr ⟨rfl, fun l hc => nomatch hc⟩
  | some l =>
      by_cases hc : (lowest t).1 + 2 < (t.get l).cost
      · refine Or.inr ⟨by simp [hc], ?_⟩
        intro l' hl'
        cases hl'
        exact hc
      · exact Or.inl ⟨l, rfl, hc, by simp [hc]⟩

/-- `neighbor_best` stores the parent it returns in `last_best`. -/
theorem neighborBest_lastBest (t : NeighborTable) :
    (neighborBest t).2 = { t with lastBest := (neighborBest t).1 } := by
  rcases neighborBest_cases t with ⟨l, hl, _, he⟩ | ⟨he, _⟩
  · rw [he, ← hl]
  · rw [he]

/-- The cost of the parent is at most 2 above `RTMETRIC_MAX`. -/
theorem neighborBest_cost_le {t : NeighborTable} {i : NeighborPtr}
    (hi : (neighborBest t).1 = some i) : (t.get i).cost.toNat ≤ 257 := by
  obtain ⟨hlow, hmax⟩ := lowest_isLowest t
  rw [UInt16.le_iff_toNat_le] at hmax
  have h255 : rtmetricMax.toNat = 255 := rfl
  rcases neighborBest_cases t with ⟨l, _, hkeep, he⟩ | ⟨he, _⟩
  · rw [he] at hi
    cases hi
    rw [UInt16.lt_iff_toNat_lt, UInt16.toNat_add] at hkeep
    have h2 : (2 : UInt16).toNat = 2 := rfl
    omega
  · rw [he] at hi
    have hlt := (hlow i hi).2.2
    rw [(hlow i hi).2.1, UInt16.lt_iff_toNat_lt] at hlt
    omega

/-- Under the invariant, `neighbor_best` returns an entry or `NULL`. -/
theorem neighborBest_isEntry {t : NeighborTable} (h : ParentInv t) {i : NeighborPtr}
    (hi : (neighborBest t).1 = some i) : IsEntry t i := by
  rcases neighborBest_cases t with ⟨l, hl, _, he⟩ | ⟨he, _⟩
  · rw [he] at hi
    cases hi
    exact h.parent i hl
  · rw [he] at hi
    exact ((lowest_isLowest t).1 i hi).1

/-- `neighbor_best` sets `last_best` to an entry, or leaves it. -/
theorem ParentInv.neighborBest {t : NeighborTable} (h : ParentInv t) :
    ParentInv (neighborBest t).2 := by
  rw [neighborBest_lastBest]
  exact ⟨h.owns, fun l hl => neighborBest_isEntry h hl⟩

/-! ### `periodic` -/

/-- The two results of one entry of the loop in `periodic`. The block is written with the
same address, or the entry ages out and is unlinked. -/
theorem periodicEntry_cases (t : NeighborTable) (i : NeighborPtr) :
    (agesOut t i = false ∧
      ∃ n, n.addr = (t.get i).addr ∧ periodicEntry t i = t.write i n) ∨
    (agesOut t i = true ∧ ∃ n, periodicEntry t i = (t.write i n).unlink i) := by
  unfold periodicEntry agesOut
  by_cases hc : (!rimeaddrCmp (t.get i).addr rimeaddrNull
      && (t.get i).time < t.maxTime) = true
  · by_cases hm : (t.get i).time + 1 = t.maxTime
    · refine Or.inr ⟨by simp [hc, hm], ?_⟩
      simp only [hc, hm, if_true]
      exact ⟨_, rfl⟩
    · refine Or.inl ⟨by simp [hm], { t.get i with time := (t.get i).time + 1 }, rfl, ?_⟩
      simp only [hc, hm, if_true, if_false]
  · rw [Bool.not_eq_true] at hc
    refine Or.inl ⟨by simp only [hc, Bool.false_and], t.get i, rfl, ?_⟩
    simp only [hc, Bool.false_eq_true, if_false, NeighborTable.write_get]

/-- An entry the loop does not visit stays. -/
theorem periodicEntry_isEntry_ne {t : NeighborTable} {i l : NeighborPtr} (h : IsEntry t l)
    (hil : i ≠ l) : IsEntry (periodicEntry t i) l := by
  have hw : ∀ n, IsEntry (t.write i n) l := by
    intro n
    refine ⟨h.1, ?_⟩
    rw [t.get_write_ne n hil]
    exact h.2
  rcases periodicEntry_cases t i with ⟨_, n, _, he⟩ | ⟨_, n, he⟩ <;> rw [he]
  · exact hw n
  · exact (hw n).unlink hil

/-- One entry of the loop does not touch the other blocks, `last_best` and the lifetime. -/
theorem periodicEntry_frame (t : NeighborTable) (i : NeighborPtr) :
    (∀ j, i ≠ j → (periodicEntry t i).get j = t.get j) ∧
    (periodicEntry t i).lastBest = t.lastBest ∧ (periodicEntry t i).maxTime = t.maxTime := by
  rcases periodicEntry_cases t i with ⟨_, n, _, he⟩ | ⟨_, n, he⟩ <;> rw [he]
  · exact ⟨fun j hj => t.get_write_ne n hj, rfl, rfl⟩
  · refine ⟨fun j hj => ?_, rfl, rfl⟩
    rw [NeighborTable.get_unlink, t.get_write_ne n hj]

/-- The part of the list the loop of `periodic` still has to visit: without repetition, and
on the list. -/
def Unvisited (t : NeighborTable) (todo : List NeighborPtr) : Prop :=
  todo.Nodup ∧ ∀ i ∈ todo, i ∈ t.neighborsList

/-- One entry of the loop keeps the pool, and the rest of the list stays on the list. -/
theorem periodicEntry_owns {t : NeighborTable} {i : NeighborPtr} {todo : List NeighborPtr}
    (h : Memb.Owns t.neighborsMem t.neighborsList) (hu : Unvisited t (i :: todo)) :
    Memb.Owns (periodicEntry t i).neighborsMem (periodicEntry t i).neighborsList ∧
    Unvisited (periodicEntry t i) todo := by
  obtain ⟨hnd, hsub⟩ := hu
  obtain ⟨hi, hnd⟩ := List.nodup_cons.mp hnd
  have hrest : ∀ j ∈ todo, j ∈ t.neighborsList := fun j hj =>
    hsub j (List.mem_cons_of_mem i hj)
  rcases periodicEntry_cases t i with ⟨_, n, _, he⟩ | ⟨_, n, he⟩ <;> rw [he]
  · exact ⟨h.write n, hnd, hrest⟩
  · refine ⟨owns_unlink (t := t.write i n) (h.write n) (hsub i List.mem_cons_self), hnd, ?_⟩
    intro j hj
    have hji : j ≠ i := fun hc => hi (hc ▸ hj)
    exact (List.mem_erase_of_ne hji).mpr (hrest j hj)

/-- The whole loop keeps the pool and does not touch `last_best`. -/
theorem periodicLoop_owns {todo : List NeighborPtr} {t : NeighborTable}
    (h : Memb.Owns t.neighborsMem t.neighborsList) (hu : Unvisited t todo) :
    Memb.Owns (todo.foldl periodicEntry t).neighborsMem
      (todo.foldl periodicEntry t).neighborsList ∧
    (todo.foldl periodicEntry t).lastBest = t.lastBest := by
  induction todo generalizing t with
  | nil => exact ⟨h, rfl⟩
  | cons i todo ih =>
      obtain ⟨ho, hu'⟩ := periodicEntry_owns h hu
      obtain ⟨ho', hl⟩ := ih ho hu'
      exact ⟨ho', hl.trans (periodicEntry_frame t i).2.1⟩

/-- The loop keeps an entry that it does not visit. -/
theorem periodicLoop_unvisited {todo : List NeighborPtr} {t : NeighborTable}
    {l : NeighborPtr} (hl : l ∉ todo) (h : IsEntry t l) :
    IsEntry (todo.foldl periodicEntry t) l := by
  induction todo generalizing t with
  | nil => exact h
  | cons i todo ih =>
      rw [List.mem_cons, not_or] at hl
      exact ih hl.2 (periodicEntry_isEntry_ne h (Ne.symm hl.1))

/-- The whole loop keeps an entry that does not age out. -/
theorem periodicLoop_isEntry {todo : List NeighborPtr} {t : NeighborTable} {l : NeighborPtr}
    (hnd : todo.Nodup) (h : IsEntry t l) (hl : agesOut t l = false) :
    IsEntry (todo.foldl periodicEntry t) l := by
  induction todo generalizing t with
  | nil => exact h
  | cons i todo ih =>
      obtain ⟨hi, hnd⟩ := List.nodup_cons.mp hnd
      rw [List.foldl_cons]
      by_cases hil : i = l
      · -- The loop is at the entry `l` itself: it is written with the same address, and the
        -- rest of the loop does not visit it again.
        subst hil
        rcases periodicEntry_cases t i with ⟨_, n, hn, he⟩ | ⟨ha, _⟩
        · rw [he]
          exact periodicLoop_unvisited hi (h.write i n (Or.inl hn))
        · rw [hl] at ha
          cases ha
      · obtain ⟨hget, _, hmax⟩ := periodicEntry_frame t i
        refine ih hnd ?_ ?_
        · exact periodicEntry_isEntry_ne h hil
        · simpa only [agesOut, hget l hil, hmax] using hl

/-- The loop puts nothing on the list. -/
theorem mem_of_mem_periodicLoop {todo : List NeighborPtr} {t : NeighborTable}
    {l : NeighborPtr} (h : l ∈ (todo.foldl periodicEntry t).neighborsList) :
    l ∈ t.neighborsList := by
  induction todo generalizing t with
  | nil => exact h
  | cons i todo ih =>
      have hl := ih h
      rcases periodicEntry_cases t i with ⟨_, n, _, he⟩ | ⟨_, n, he⟩ <;> rw [he] at hl
      · exact hl
      · exact List.mem_of_mem_erase hl

/-- The whole loop takes an entry that ages out off the list. -/
theorem periodicLoop_agesOut {todo : List NeighborPtr} {t : NeighborTable} {l : NeighborPtr}
    (h : Memb.Owns t.neighborsMem t.neighborsList) (hu : Unvisited t todo)
    (hmem : l ∈ todo) (hl : agesOut t l = true) :
    l ∉ (todo.foldl periodicEntry t).neighborsList := by
  induction todo generalizing t with
  | nil => cases hmem
  | cons i todo ih =>
      rw [List.foldl_cons]
      by_cases hil : i = l
      · subst hil
        rcases periodicEntry_cases t i with ⟨ha, _⟩ | ⟨_, n, he⟩
        · rw [hl] at ha
          cases ha
        · rw [he]
          intro hc
          exact notMem_unlink (t := t.write i n) (h.write n) i
            (mem_of_mem_periodicLoop hc)
      · obtain ⟨ho, hu'⟩ := periodicEntry_owns h hu
        obtain ⟨hget, _, hmax⟩ := periodicEntry_frame t i
        refine ih ho hu' ((List.mem_cons.mp hmem).resolve_left (Ne.symm hil)) ?_
        simpa only [agesOut, hget l hil, hmax] using hl

/-- Every block starts on the unvisited part of its own list. -/
theorem unvisited_self {t : NeighborTable} (h : Memb.Owns t.neighborsMem t.neighborsList) :
    Unvisited t t.neighborsList :=
  ⟨h.nodup, fun _ hi => hi⟩

/-! ### `neighbor_add` and `neighbor_remove` -/

/-- The entry to recycle is on the list, and its address is not that of `last_best`. -/
theorem recycle_some {P : Platform} {t : NeighborTable} {i : NeighborPtr}
    (h : recycle P t = some i) :
    i ∈ t.neighborsList ∧ ∀ l, t.lastBest = some l → i ≠ l := by
  refine List.foldlRecOn t.neighborsList (recycleEntry P t)
    (motive := fun acc => ∀ i, acc.2.2 = some i →
      i ∈ t.neighborsList ∧ ∀ l, t.lastBest = some l → i ≠ l) ?_ ?_ i h
  · intro i hi
    cases hi
  · intro acc hacc j hj
    simp only [recycleEntry]
    split
    · rename_i hc
      rw [Bool.and_eq_true, Bool.not_eq_true', Bool.not_eq_true', rimeaddrCmp_eq_false,
        rimeaddrCmp_eq_false] at hc
      have hnew : ∀ i, some j = some i →
          i ∈ t.neighborsList ∧ ∀ l, t.lastBest = some l → i ≠ l := by
        intro i hi
        cases hi
        refine ⟨hj, fun l hl hjl => hc.2 ?_⟩
        rw [lastBestAddr, hl, hjl]
      split
      · exact hnew
      · split
        · exact hnew
        · exact hacc
    · exact hacc

/-- The four results of `neighbor_add`: it reuses the first entry with a null address or the
added one, takes a fresh block, recycles an entry other than `last_best`, or gives up. -/
theorem neighborAdd_cases (P : Platform) (t : NeighborTable) (addr : RimeAddr)
    (rtmetric etx : UInt8) :
    (∃ i ∈ t.neighborsList, ((t.get i).addr = rimeaddrNull ∨ (t.get i).addr = addr) ∧
      neighborAdd P t addr rtmetric etx = t.write i (freshNeighbor addr rtmetric etx)) ∨
    (∃ i m, t.neighborsMem.membAlloc = some (i, m) ∧
      neighborAdd P t addr rtmetric etx =
        { t with
          neighborsMem := m.write i (freshNeighbor addr rtmetric etx)
          neighborsList := t.neighborsList ++ [i] }) ∨
    (∃ i ∈ t.neighborsList, (∀ l, t.lastBest = some l → i ≠ l) ∧
      neighborAdd P t addr rtmetric etx = t.write i (freshNeighbor addr rtmetric etx)) ∨
    neighborAdd P t addr rtmetric etx = t := by
  simp only [neighborAdd]
  split
  · rename_i i hfind
    have hp := List.find?_some hfind
    rw [Bool.or_eq_true, rimeaddrCmp_iff, rimeaddrCmp_iff] at hp
    exact Or.inl ⟨i, List.mem_of_find?_eq_some hfind, hp, rfl⟩
  · split
    · rename_i i m halloc
      exact Or.inr (Or.inl ⟨i, m, halloc, rfl⟩)
    · split
      · rename_i i hrec
        obtain ⟨hi, hne⟩ := recycle_some hrec
        exact Or.inr (Or.inr (Or.inl ⟨i, hi, hne, rfl⟩))
      · exact Or.inr (Or.inr (Or.inr rfl))

/-- `neighbor_add` reuses or recycles an entry, or appends a block that was free. -/
theorem ParentInv.neighborAdd {t : NeighborTable} (h : ParentInv t) (P : Platform)
    (addr : RimeAddr) (rtmetric etx : UInt8) :
    ParentInv (neighborAdd P t addr rtmetric etx) := by
  rcases neighborAdd_cases P t addr rtmetric etx with
    ⟨i, _, ha, he⟩ | ⟨i, m, halloc, he⟩ | ⟨i, _, hne, he⟩ | he <;> rw [he]
  · by_cases hnull : addr = rimeaddrNull
    · -- A null address goes to an entry with a null address, so not to that of `last_best`.
      have hi : (t.get i).addr = rimeaddrNull := by
        rcases ha with ha | ha
        · exact ha
        · exact ha.trans hnull
      exact h.write_ne i _ fun hl => (h.parent i hl).2 hi
    · exact h.write i _ (Or.inr hnull)
  · obtain ⟨hi, hm⟩ := h.owns.alloc halloc
    refine ⟨(hm.write _).perm (List.perm_append_singleton i t.neighborsList).symm, ?_⟩
    intro l hl
    obtain ⟨hmem, haddr⟩ := h.parent l hl
    have hil : i ≠ l := fun hc => hi (hc ▸ hmem)
    refine ⟨List.mem_append_left _ hmem, ?_⟩
    obtain ⟨_, rfl⟩ := Memb.membAlloc_some halloc
    show (Memb.block (Memb.write _ i (freshNeighbor addr rtmetric etx)) l).addr ≠ _
    rw [Memb.block_write_ne _ _ hil]
    exact haddr
  · exact h.write_ne i _ fun hl => hne i hl rfl
  · exact h

/-- What `neighbor_remove` does to the first entry with the address. -/
theorem neighborRemove_cases (P : Platform) (t : NeighborTable) (addr : RimeAddr) :
    (neighborFind t addr = none ∧ neighborRemove P t addr = t) ∨
    (∃ i n, neighborFind t addr = some i ∧ i ∈ t.neighborsList ∧ (t.get i).addr = addr ∧
      neighborRemove P t addr =
        ({ t with lastBest := t.lastBest.filter (fun l => addr ≠ P.ptrBytes l) }.write i
          n).unlink i) := by
  cases hf : neighborFind t addr with
  | none => exact Or.inl ⟨rfl, by simp only [neighborRemove, hf]⟩
  | some i =>
      have ha : (t.get i).addr = addr := by
        simpa only [rimeaddrCmp_iff] using List.find?_some hf
      refine Or.inr ⟨i, { t.get i with addr := rimeaddrNull, rtmetric := rtmetricMax }, rfl,
        List.mem_of_find?_eq_some hf, ha, ?_⟩
      simp only [neighborRemove, hf, ha]
      cases t.lastBest with
      | none => rfl
      | some l =>
          by_cases hp : addr = P.ptrBytes l
          · simp [Option.filter, hp]
          · simp [Option.filter, hp]

/-! ### Runs -/

/-- The step does not take the parent off the list behind its back: `periodic` does not age
out the block of `last_best`, and `neighbor_remove` does not remove it, unless the address
happens to equal the bytes of the pointer, in which case `last_best` is cleared. -/
def KeepsParent (P : Platform) (t : NeighborTable) : NeighborOp → Prop
  | .periodic => ∀ l, t.lastBest = some l → agesOut t l = false
  | .remove addr => ∀ l, t.lastBest = some l → neighborFind t addr = some l →
      addr = P.ptrBytes l
  | _ => True

instance (P : Platform) (t : NeighborTable) : DecidablePred (KeepsParent P t)
  | .periodic =>
    inferInstanceAs (Decidable (∀ l, t.lastBest = some l → agesOut t l = false))
  | .remove addr => inferInstanceAs (Decidable (∀ l, t.lastBest = some l →
      neighborFind t addr = some l → addr = P.ptrBytes l))
  | .add _ _ _ | .update _ _ | .updateEtx _ _ | .timedoutEtx _ _ | .best | .setLifetime _ =>
    .isTrue trivial

/-- What a step that `KeepsParent` admits keeps. -/
theorem ParentInv.step {P : Platform} {t : NeighborTable} {op : NeighborOp}
    (h : ParentInv t) (hk : KeepsParent P t op) : ParentInv (applyNeighborOp P t op) := by
  cases op with
  | add addr rtmetric etx => exact h.neighborAdd P addr rtmetric etx
  | update n rtmetric =>
      cases n with
      | none => exact h
      -- The address of the entry stays.
      | some i => exact h.write i _ (Or.inl rfl)
  | updateEtx n etx =>
      cases n with
      | none => exact h
      | some i => exact h.write i _ (Or.inl rfl)
  | timedoutEtx n etx =>
      cases n with
      | none => exact h
      | some i => exact h.write i _ (Or.inl rfl)
  | periodic =>
      obtain ⟨ho, hlast⟩ := periodicLoop_owns h.owns (unvisited_self h.owns)
      refine ⟨ho, fun l hl => ?_⟩
      have hl' : t.lastBest = some l := hlast ▸ hl
      exact periodicLoop_isEntry h.owns.nodup (h.parent l hl') (hk l hl')
  | remove addr =>
      rcases neighborRemove_cases P t addr with ⟨_, he⟩ | ⟨i, n, hf, hi, ha, he⟩ <;>
        rw [applyNeighborOp, he]
      · exact h
      · refine ⟨owns_unlink (h.owns.write n) hi, fun l hl => ?_⟩
        obtain ⟨hlast, hne⟩ := Option.filter_eq_some_iff.mp hl
        rw [decide_eq_true_iff] at hne
        -- The parent is not the one that is removed.
        have hil : i ≠ l := fun hc => hne (hk l hlast (hc ▸ hf))
        have hw := (h.parent l hlast)
        refine IsEntry.unlink (t := NeighborTable.write _ i n) ⟨hw.1, ?_⟩ hil
        rw [NeighborTable.get_write_ne _ n hil]
        exact hw.2
  | best => exact h.neighborBest
  | setLifetime seconds => exact ⟨h.owns, h.parent⟩

/-- A step that `KeepsParent` excludes leaves `last_best` on a block off the list. -/
theorem not_isEntry_of_not_keepsParent {P : Platform} {t : NeighborTable} {op : NeighborOp}
    (h : ParentInv t) (hk : ¬ KeepsParent P t op) :
    ∃ l, (applyNeighborOp P t op).lastBest = some l ∧
      l ∉ (applyNeighborOp P t op).neighborsList := by
  cases op with
  | periodic =>
      simp only [KeepsParent, not_forall, Bool.not_eq_false] at hk
      obtain ⟨l, hl, ha⟩ := hk
      obtain ⟨_, hlast⟩ := periodicLoop_owns h.owns (unvisited_self h.owns)
      exact ⟨l, hlast.trans hl, periodicLoop_agesOut h.owns (unvisited_self h.owns)
        (h.parent l hl).1 ha⟩
  | remove addr =>
      simp only [KeepsParent, not_forall] at hk
      obtain ⟨l, hl, hf, hne⟩ := hk
      rcases neighborRemove_cases P t addr with ⟨hf', _⟩ | ⟨i, n, hf', _, _, he⟩
      · rw [hf] at hf'
        cases hf'
      · rw [hf] at hf'
        cases hf'
        refine ⟨l, ?_, ?_⟩
        · rw [applyNeighborOp, he]
          show t.lastBest.filter _ = some l
          rw [hl]
          simp [Option.filter, hne]
        · rw [applyNeighborOp, he]
          exact notMem_unlink (t := NeighborTable.write _ l n) (h.owns.write n) l
  | _ => exact absurd trivial hk

/-- The table is empty at first, and there is no parent. -/
theorem parentInv_neighborInit : ParentInv neighborInit where
  owns := Memb.owns_membInit _
  parent l hl := by cases hl

/-- In every run whose steps all satisfy `KeepsParent`, every call of `neighbor_best`
returns `NULL` or an entry on the list with a non-null address. -/
theorem parent_isEntry (P : Platform) (t : NeighborTable)
    (h : (neighborMachine P).ReachableIf (KeepsParent P) t) (i : NeighborPtr)
    (hi : (neighborBest t).1 = some i) : IsEntry (neighborBest t).2 i := by
  have hinv : ParentInv t := by
    refine h.invariant ParentInv parentInv_neighborInit ?_
    intro s op s' hs hk hst
    cases hst
    exact hs.step hk
  rw [neighborBest_lastBest]
  exact neighborBest_isEntry hinv hi

/-- A platform for concrete runs. -/
def samplePlatform : Platform where
  neighborsMem := 0x1100
  nullAddr := rimeaddrNull

/-- The parent survives an aging step that does not reach its lifetime. -/
theorem parent_isEntry_sample :
    ∃ t, (neighborMachine samplePlatform).ReachableIf (KeepsParent samplePlatform) t ∧
      (neighborBest t).1 = some 0 ∧ IsEntry (neighborBest t).2 0 := by
  have hrun := Machine.reachableIf_of_runIf (M := neighborMachine samplePlatform)
    (KeepsParent samplePlatform) [.add ⟨2, 0⟩ 0 1, .best, .periodic] rfl
  exact ⟨_, hrun, by decide, parent_isEntry samplePlatform _ hrun 0 (by decide)⟩

/-- A parent that `neighbor_remove` has taken off the list is returned again. -/
theorem not_forall_parent_isEntry :
    ¬ ∀ (P : Platform) (t : NeighborTable), (neighborMachine P).Reachable t →
      ∀ i, (neighborBest t).1 = some i → IsEntry (neighborBest t).2 i := by
  intro h
  refine Machine.not_forall_reachable [.add ⟨2, 0⟩ 0 1, .best, .remove ⟨2, 0⟩] rfl ?_
    (h samplePlatform)
  intro hentry
  exact absurd (hentry 0 (by decide)).1 (by decide)

/-- The same for a parent that `periodic` has aged out. -/
example : ((neighborMachine samplePlatform).run
    [.setLifetime 1, .add ⟨2, 0⟩ 0 1, .best, .periodic]).map
      (fun t => ((neighborBest t).1, t.neighborsList)) = some (some 0, []) := by
  decide

end PTunes.Rime
