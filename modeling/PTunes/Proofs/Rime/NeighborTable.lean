import PTunes.Proofs.Rime.Neighbor
import Mathlib.Data.List.Find

/-!
# `PTunes.Proofs.Rime.NeighborTable`: the list, the pool and the addresses

`WellFormed t` is what links the three parts of the table. The blocks on `neighbors_list`
are exactly the allocated blocks of `neighbors_mem`, no two entries have the same address,
no entry has the null address, and every block's `etxptr` is a slot number. The empty table
is well formed, and every operation with a non-null address keeps it
(`WellFormed.step`, `wellFormed_of_reachable`).

`neighbor_add` obtains its slot in three ways, and the address that it writes is new to the
list in two of them. In a well-formed table the entry that `neighbor_add` looks up first, one
with a null address or the added one, is the entry that `neighbor_find` returns
(`WellFormed.find_reusable`), so a free or a recycled slot is taken only for an unknown
address. `ChangesOnly` says that at most one block differs between two tables with the
same list, and `neighborTable_wellFormed` puts the parts together.
-/

set_option autoImplicit false

namespace PTunes.Rime

open PTunes.Core

/-- The operation adds no null address. -/
def NonNull (_ : NeighborTable) : NeighborOp → Prop
  | .add addr _ _ => addr ≠ rimeaddrNull
  | _ => True

instance (t : NeighborTable) : DecidablePred (NonNull t)
  | .add addr _ _ => inferInstanceAs (Decidable (addr ≠ rimeaddrNull))
  | .update _ _ | .updateEtx _ _ | .timedoutEtx _ _ | .periodic | .remove _ | .best
  | .setLifetime _ => .isTrue trivial

/-- The list is the allocated part of the pool, its addresses are pairwise distinct and
non-null, and every `etxptr` is a slot number. -/
structure WellFormed (t : NeighborTable) : Prop where
  owns : Memb.Owns t.neighborsMem t.neighborsList
  addr_ne_null : ∀ i ∈ t.neighborsList, (t.get i).addr ≠ rimeaddrNull
  addr_inj : ∀ i ∈ t.neighborsList, ∀ j ∈ t.neighborsList,
    (t.get i).addr = (t.get j).addr → i = j
  etxptr_lt : ∀ i, (t.get i).etxptr.toNat < neighborNumEtxs

/-- The tables have the same list and the same allocated blocks, and differ at most in the
block `i`. -/
structure ChangesOnly (t t' : NeighborTable) (i : NeighborPtr) : Prop where
  list : t'.neighborsList = t.neighborsList
  count : t'.neighborsMem.count = t.neighborsMem.count
  get : ∀ j, j ≠ i → t'.get j = t.get j

/-- A write changes one block. -/
theorem changesOnly_write (t : NeighborTable) (i : NeighborPtr) (n : Neighbor) :
    ChangesOnly t (t.write i n) i where
  list := rfl
  count := rfl
  get _ hj := t.get_write_ne n (Ne.symm hj)

/-! ### Writing and unlinking a block -/

/-- A write keeps the table well formed when the written `etxptr` is a slot number and, for a
block on the list, the written address is non-null and no other entry has it. -/
theorem WellFormed.write {t : NeighborTable} (h : WellFormed t) (i : NeighborPtr)
    {n : Neighbor} (hp : n.etxptr.toNat < neighborNumEtxs)
    (hn : i ∈ t.neighborsList → n.addr ≠ rimeaddrNull)
    (hd : ∀ j ∈ t.neighborsList, j ≠ i → (t.get j).addr ≠ n.addr) :
    WellFormed (t.write i n) where
  owns := h.owns.write n
  addr_ne_null j hj := by
    by_cases hji : j = i
    · subst hji
      rw [NeighborTable.get_write_self]
      exact hn hj
    · rw [t.get_write_ne n (Ne.symm hji)]
      exact h.addr_ne_null j hj
  addr_inj j hj k hk hjk := by
    -- Two entries with one address: both are written, one is, or none.
    by_cases hji : j = i <;> by_cases hki : k = i
    · rw [hji, hki]
    · subst hji
      rw [NeighborTable.get_write_self, t.get_write_ne n (Ne.symm hki)] at hjk
      exact absurd hjk.symm (hd k hk hki)
    · subst hki
      rw [NeighborTable.get_write_self, t.get_write_ne n (Ne.symm hji)] at hjk
      exact absurd hjk (hd j hj hji)
    · rw [t.get_write_ne n (Ne.symm hji), t.get_write_ne n (Ne.symm hki)] at hjk
      exact h.addr_inj j hj k hk hjk
  etxptr_lt j := by
    by_cases hji : j = i
    · subst hji
      rw [NeighborTable.get_write_self]
      exact hp
    · rw [t.get_write_ne n (Ne.symm hji)]
      exact h.etxptr_lt j

/-- A write that keeps the address of a block keeps the table well formed, wherever the
pointer points to. -/
theorem WellFormed.write_same {t : NeighborTable} (h : WellFormed t) (i : NeighborPtr)
    {n : Neighbor} (hp : n.etxptr.toNat < neighborNumEtxs) (ha : n.addr = (t.get i).addr) :
    WellFormed (t.write i n) := by
  by_cases hi : i ∈ t.neighborsList
  · refine h.write i hp (fun _ => ha ▸ h.addr_ne_null i hi) ?_
    intro j hj hji hc
    exact hji (h.addr_inj j hj i hi (hc.trans ha))
  · -- The block is free, so the write is invisible on the list.
    have hget : ∀ j ∈ t.neighborsList, (t.write i n).get j = t.get j := by
      intro j hj
      exact t.get_write_ne n fun hc => hi (hc ▸ hj)
    refine ⟨h.owns.write n, ?_, ?_, ?_⟩
    · intro j hj
      rw [hget j hj]
      exact h.addr_ne_null j hj
    · intro j hj k hk hjk
      rw [hget j hj, hget k hk] at hjk
      exact h.addr_inj j hj k hk hjk
    · intro j
      by_cases hji : j = i
      · subst hji
        rw [NeighborTable.get_write_self]
        exact hp
      · rw [t.get_write_ne n (Ne.symm hji)]
        exact h.etxptr_lt j

/-- Releasing an entry keeps the table well formed, whatever address it is given first. -/
theorem WellFormed.unlink_write {t : NeighborTable} (h : WellFormed t) {i : NeighborPtr}
    (hi : i ∈ t.neighborsList) {n : Neighbor} (hp : n.etxptr.toNat < neighborNumEtxs) :
    WellFormed ((t.write i n).unlink i) := by
  have hmem : ∀ j ∈ ((t.write i n).unlink i).neighborsList, j ∈ t.neighborsList ∧ j ≠ i := by
    intro j hj
    exact ⟨List.mem_of_mem_erase hj, fun hc => h.owns.nodup.not_mem_erase (hc ▸ hj)⟩
  have hget : ∀ j, j ≠ i → ((t.write i n).unlink i).get j = t.get j := by
    intro j hj
    rw [NeighborTable.get_unlink, t.get_write_ne n (Ne.symm hj)]
  refine ⟨owns_unlink (t := t.write i n) (h.owns.write n) hi, ?_, ?_, ?_⟩
  · intro j hj
    obtain ⟨hj, hji⟩ := hmem j hj
    rw [hget j hji]
    exact h.addr_ne_null j hj
  · intro j hj k hk hjk
    obtain ⟨hj, hji⟩ := hmem j hj
    obtain ⟨hk, hki⟩ := hmem k hk
    rw [hget j hji, hget k hki] at hjk
    exact h.addr_inj j hj k hk hjk
  · intro j
    by_cases hji : j = i
    · subst hji
      rw [NeighborTable.get_unlink, NeighborTable.get_write_self]
      exact hp
    · rw [hget j hji]
      exact h.etxptr_lt j

/-- `last_best` and `max_time` are no part of it. -/
theorem WellFormed.congr {t t' : NeighborTable} (h : WellFormed t)
    (hm : t'.neighborsMem = t.neighborsMem) (hl : t'.neighborsList = t.neighborsList) :
    WellFormed t' := by
  obtain ⟨mem, list, last, max⟩ := t
  obtain ⟨mem', list', last', max'⟩ := t'
  cases hm
  cases hl
  exact ⟨h.owns, h.addr_ne_null, h.addr_inj, h.etxptr_lt⟩

/-- The pointer into the ring stays within the ring. -/
theorem nextEtxptr_lt (p : UInt8) : (nextEtxptr p).toNat < neighborNumEtxs := by
  have hmod : (p.toNat + 1) % neighborNumEtxs < neighborNumEtxs := Nat.mod_lt _ (by decide)
  simp only [nextEtxptr, UInt8.toNat_ofNat']
  omega

/-! ### `periodic` -/

/-- One entry of the loop writes `time` only, or releases the entry. -/
theorem WellFormed.ageEntry {t : NeighborTable} (h : WellFormed t) {i : NeighborPtr}
    (hi : i ∈ t.neighborsList) : WellFormed (periodicEntry t i) := by
  have hp := h.etxptr_lt i
  simp only [periodicEntry]
  split
  · split
    · exact h.unlink_write hi hp
    · exact h.write_same i hp rfl
  · exact h

/-- The loop keeps the table well formed as long as what it still visits is on the list. -/
theorem WellFormed.ageEntries {todo : List NeighborPtr} {t : NeighborTable}
    (h : WellFormed t) (hu : Unvisited t todo) :
    WellFormed (todo.foldl periodicEntry t) := by
  induction todo generalizing t with
  | nil => exact h
  | cons i todo ih =>
      have hi : i ∈ t.neighborsList := hu.2 i List.mem_cons_self
      exact ih (h.ageEntry hi) (periodicEntry_owns h.owns hu).2

/-! ### `neighbor_add` -/

/-- In a well-formed table, the entry that `neighbor_add` reuses is the one that
`neighbor_find` returns: no entry has a null address. -/
theorem WellFormed.find_reusable {t : NeighborTable} (h : WellFormed t) (addr : RimeAddr) :
    t.neighborsList.find? (fun i =>
      rimeaddrCmp (t.get i).addr rimeaddrNull || rimeaddrCmp (t.get i).addr addr)
      = neighborFind t addr := by
  refine List.find?_congr ?_
  intro i hi
  have hnull := (rimeaddrCmp_eq_false _ _).mpr (h.addr_ne_null i hi)
  simp only [hnull, Bool.false_or]

/-- `neighbor_add` of a known address writes the entry that has it. -/
theorem WellFormed.add_known {t : NeighborTable} (h : WellFormed t) (P : Platform)
    {addr : RimeAddr} (rtmetric etx : UInt8) {i : NeighborPtr}
    (hf : neighborFind t addr = some i) :
    neighborAdd P t addr rtmetric etx = t.write i (freshNeighbor addr rtmetric etx) := by
  simp only [neighborAdd, h.find_reusable, hf]

/-- `neighbor_add` of an unknown address appends a fresh block, recycles an entry when the
pool is exhausted, or gives up. -/
theorem WellFormed.add_unknown {t : NeighborTable} (h : WellFormed t) (P : Platform)
    {addr : RimeAddr} (rtmetric etx : UInt8) (hf : neighborFind t addr = none) :
    (∃ i m, t.neighborsMem.membAlloc = some (i, m) ∧
      neighborAdd P t addr rtmetric etx =
        { t with
          neighborsMem := m.write i (freshNeighbor addr rtmetric etx)
          neighborsList := t.neighborsList ++ [i] }) ∨
    (∃ i ∈ t.neighborsList, t.neighborsMem.membAlloc = none ∧
      neighborAdd P t addr rtmetric etx = t.write i (freshNeighbor addr rtmetric etx)) ∨
    (t.neighborsMem.membAlloc = none ∧ neighborAdd P t addr rtmetric etx = t) := by
  simp only [neighborAdd, h.find_reusable, hf]
  cases halloc : t.neighborsMem.membAlloc with
  | some im => exact Or.inl ⟨im.1, im.2, rfl, rfl⟩
  | none =>
      cases hrec : recycle P t with
      | some i => exact Or.inr (Or.inl ⟨i, (recycle_some hrec).1, rfl, rfl⟩)
      | none => exact Or.inr (Or.inr ⟨rfl, rfl⟩)

/-- Writing a fresh entry for an address that no other entry has. -/
theorem WellFormed.write_fresh {t : NeighborTable} (h : WellFormed t) (i : NeighborPtr)
    {addr : RimeAddr} (hnull : addr ≠ rimeaddrNull) (rtmetric etx : UInt8)
    (hd : ∀ j ∈ t.neighborsList, j ≠ i → (t.get j).addr ≠ addr) :
    WellFormed (t.write i (freshNeighbor addr rtmetric etx)) :=
  h.write i (show (0 : UInt8).toNat < neighborNumEtxs by decide) (fun _ => hnull) hd

/-- A block taken from the pool and written before it is appended. -/
theorem WellFormed.append {t : NeighborTable} (h : WellFormed t) {i : NeighborPtr}
    {m : Memb Neighbor maxNeighbors} (halloc : t.neighborsMem.membAlloc = some (i, m))
    {n : Neighbor} (hp : n.etxptr.toNat < neighborNumEtxs) (hnull : n.addr ≠ rimeaddrNull)
    (hd : ∀ j ∈ t.neighborsList, (t.get j).addr ≠ n.addr) :
    WellFormed { t with
      neighborsMem := m.write i n
      neighborsList := t.neighborsList ++ [i] } := by
  obtain ⟨hi, hm⟩ := h.owns.alloc halloc
  obtain ⟨_, rfl⟩ := Memb.membAlloc_some halloc
  -- Allocation and the append do not show in `get`, so the table reads as after the write.
  have hw : WellFormed (t.write i n) :=
    h.write i hp (fun hc => absurd hc hi) fun j hj _ => hd j hj
  have hself : (t.write i n).get i = n := t.get_write_self i n
  have hother : ∀ j ∈ t.neighborsList, ((t.write i n).get j).addr ≠ n.addr := by
    intro j hj
    have hij : i ≠ j := fun hc => hi (hc ▸ hj)
    rw [t.get_write_ne n hij]
    exact hd j hj
  refine ⟨(hm.write n).perm (List.perm_append_singleton i t.neighborsList).symm, ?_, ?_,
    hw.etxptr_lt⟩
  · intro j hj
    show ((t.write i n).get j).addr ≠ rimeaddrNull
    rcases List.mem_append.mp hj with hj | hj
    · exact hw.addr_ne_null j hj
    · rw [List.mem_singleton.mp hj, hself]
      exact hnull
  · intro j hj k hk hjk
    replace hjk : ((t.write i n).get j).addr = ((t.write i n).get k).addr := hjk
    rcases List.mem_append.mp hj with hj | hj <;> rcases List.mem_append.mp hk with hk | hk
    · exact hw.addr_inj j hj k hk hjk
    · rw [List.mem_singleton.mp hk, hself] at hjk
      exact absurd hjk (hother j hj)
    · rw [List.mem_singleton.mp hj, hself] at hjk
      exact absurd hjk.symm (hother k hk)
    · rw [List.mem_singleton.mp hj, List.mem_singleton.mp hk]

/-- `neighbor_add` keeps the table well formed for an address that is not null. -/
theorem WellFormed.add {t : NeighborTable} (h : WellFormed t) (P : Platform)
    {addr : RimeAddr} (hnull : addr ≠ rimeaddrNull) (rtmetric etx : UInt8) :
    WellFormed (neighborAdd P t addr rtmetric etx) := by
  cases hf : neighborFind t addr with
  | some i =>
      obtain ⟨hi, ha⟩ := neighborFind_some hf
      rw [h.add_known P rtmetric etx hf]
      refine h.write_fresh i hnull rtmetric etx ?_
      intro j hj hji hc
      exact hji (h.addr_inj j hj i hi (hc.trans ha.symm))
  | none =>
      have hnew : ∀ j ∈ t.neighborsList, (t.get j).addr ≠ addr := fun j hj =>
        neighborFind_none hf hj
      rcases h.add_unknown P rtmetric etx hf with
        ⟨i, m, halloc, he⟩ | ⟨i, _, _, he⟩ | ⟨_, he⟩ <;> rw [he]
      · exact h.append halloc (show (0 : UInt8).toNat < neighborNumEtxs by decide) hnull hnew
      · exact h.write_fresh i hnull rtmetric etx fun j hj _ => hnew j hj
      · exact h

/-- In a full table, `neighbor_add` of an unknown address replaces one entry or none. -/
theorem WellFormed.add_full {t : NeighborTable} (h : WellFormed t) (P : Platform)
    {addr : RimeAddr} (rtmetric etx : UInt8) (hf : neighborFind t addr = none)
    (hfull : t.neighborsList.length = maxNeighbors) :
    neighborAdd P t addr rtmetric etx = t ∨
    ∃ i ∈ t.neighborsList,
      neighborAdd P t addr rtmetric etx = t.write i (freshNeighbor addr rtmetric etx) := by
  rcases h.add_unknown P rtmetric etx hf with
    ⟨i, m, halloc, _⟩ | ⟨i, hi, _, he⟩ | ⟨_, he⟩
  · -- A block from the pool would be the seventeenth owned one.
    have hle := (h.owns.alloc halloc).2.length_le
    rw [List.length_cons, hfull] at hle
    omega
  · exact Or.inr ⟨i, hi, he⟩
  · exact Or.inl he

/-! ### Runs -/

/-- Every operation that adds no null address keeps the table well formed. -/
theorem WellFormed.step {P : Platform} {t : NeighborTable} {op : NeighborOp}
    (h : WellFormed t) (hn : NonNull t op) : WellFormed (applyNeighborOp P t op) := by
  cases op with
  | add addr rtmetric etx => exact h.add P hn rtmetric etx
  | update n rtmetric =>
      cases n with
      | none => exact h
      | some i => exact h.write_same i (h.etxptr_lt i) rfl
  | updateEtx n etx =>
      cases n with
      | none => exact h
      | some i => exact h.write_same i (nextEtxptr_lt _) rfl
  | timedoutEtx n etx =>
      cases n with
      | none => exact h
      | some i => exact h.write_same i (nextEtxptr_lt _) rfl
  | periodic => exact h.ageEntries (unvisited_self h.owns)
  | remove addr =>
      rw [applyNeighborOp]
      cases hf : neighborFind t addr with
      | none =>
          simp only [neighborRemove, hf]
          exact h
      | some i =>
          simp only [neighborRemove, hf]
          -- The metric is written before the entry leaves the list.
          apply WellFormed.unlink_write
          · exact h.congr rfl rfl
          · exact (neighborFind_some hf).1
          · exact h.etxptr_lt i
  | best =>
      rw [applyNeighborOp, neighborBest_lastBest]
      exact h.congr rfl rfl
  | setLifetime seconds => exact h.congr rfl rfl

/-- The empty table is well formed. -/
theorem wellFormed_neighborInit : WellFormed neighborInit where
  owns := Memb.owns_membInit _
  addr_ne_null i hi := nomatch hi
  addr_inj i hi := nomatch hi
  etxptr_lt i := by
    simp [neighborInit, NeighborTable.get, Memb.block, Memb.membInit, Neighbor.zero]

/-- In every run with addresses that are not null the table is well formed. -/
theorem wellFormed_of_reachable {P : Platform} {t : NeighborTable}
    (h : (neighborMachine P).ReachableIf NonNull t) : WellFormed t := by
  refine h.invariant WellFormed wellFormed_neighborInit ?_
  intro s op s' hs hn hst
  cases hst
  exact hs.step hn

/-- In every run that adds no null address, the table has at most `MAX_NEIGHBORS` entries
and is well formed. Adding a known address changes the entry that has it and no other.
Adding an unknown address to a full table changes nothing, or the one entry that has the
address afterwards. -/
theorem neighborTable_wellFormed (P : Platform) (t : NeighborTable)
    (h : (neighborMachine P).ReachableIf NonNull t) :
    t.neighborsList.length ≤ maxNeighbors ∧ WellFormed t ∧
    ∀ addr ≠ rimeaddrNull, ∀ rtmetric etx : UInt8,
      (∀ i, neighborFind t addr = some i →
        ChangesOnly t (neighborAdd P t addr rtmetric etx) i) ∧
      (neighborFind t addr = none → t.neighborsList.length = maxNeighbors →
        neighborAdd P t addr rtmetric etx = t ∨
        ∃ i ∈ t.neighborsList, ChangesOnly t (neighborAdd P t addr rtmetric etx) i ∧
          ((neighborAdd P t addr rtmetric etx).get i).addr = addr) := by
  have hw := wellFormed_of_reachable h
  refine ⟨hw.owns.length_le, hw, fun addr _ rtmetric etx => ⟨?_, ?_⟩⟩
  · intro i hf
    rw [hw.add_known P rtmetric etx hf]
    exact changesOnly_write t i _
  · intro hf hfull
    rcases hw.add_full P rtmetric etx hf hfull with he | ⟨i, hi, he⟩
    · exact Or.inl he
    · refine Or.inr ⟨i, hi, ?_⟩
      rw [he]
      exact ⟨changesOnly_write t i _, by rw [NeighborTable.get_write_self]; rfl⟩

/-- The table after an entry was added, aged and timed out, and another one added. -/
theorem neighborTable_wellFormed_sample :
    ∃ t, (neighborMachine samplePlatform).ReachableIf NonNull t ∧
      t.neighborsList = [0, 1] ∧ WellFormed t := by
  have hrun := Machine.reachableIf_of_runIf (M := neighborMachine samplePlatform) NonNull
    [.add ⟨2, 0⟩ 0 1, .periodic, .timedoutEtx (some 0) 11, .add ⟨3, 0⟩ 0 1] rfl
  exact ⟨_, hrun, rfl, (neighborTable_wellFormed samplePlatform _ hrun).2.1⟩

end PTunes.Rime
