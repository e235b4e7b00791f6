import PTunes.Proofs.Rime.Neighbor

/-!
# `PTunes.Proofs.Rime.ParentChoice`: the sticky parent of `neighbor_best`

`neighbor_best` compares the lowest cost of the table with the cost of the last parent, and
takes the lowest-cost entry only when the parent costs more than 2 above it. The search
starts at `RTMETRIC_MAX`, so where no entry costs less, the sentinel itself is what the
parent is compared with and the result of the search is `NULL`.

`lowest_le` says that the search ends at or below the cost of every entry and at or
below the sentinel. `neighborBest_hysteresis` derives from it the bound of 2, the reasons
for which a parent is given up, and that a second call changes nothing. A parent can also be
given up for `NULL`: no entry then costs less than `RTMETRIC_MAX`, and the parent costs more
than `RTMETRIC_MAX + 2`.

A cost is a sum in 16 bits. `cost_toNat_of_reachable` shows that it never wraps: every
function that writes a metric writes an 8-bit value.
-/

set_option autoImplicit false

namespace PTunes.Rime

open PTunes.Core

/-! ### The search for the lowest cost -/

/-- One entry of the search never raises the running cost, and ends at or below the cost of
the entry. -/
theorem bestEntry_le (t : NeighborTable) (acc : UInt16 × Option NeighborPtr) (i : NeighborPtr) :
    (bestEntry t acc i).1 ≤ acc.1 ∧
    ((t.get i).addr ≠ rimeaddrNull → (bestEntry t acc i).1 ≤ (t.get i).cost) := by
  simp only [bestEntry]
  split
  · rename_i hc
    rw [Bool.and_eq_true, decide_eq_true_iff] at hc
    exact ⟨UInt16.le_of_lt hc.2, fun _ => UInt16.le_refl _⟩
  · rename_i hc
    refine ⟨UInt16.le_refl _, fun haddr => ?_⟩
    simpa [haddr] using hc

/-- The whole search ends at or below its start and the cost of every visited entry. -/
theorem bestEntries_le (t : NeighborTable) (todo : List NeighborPtr)
    (acc : UInt16 × Option NeighborPtr) :
    (todo.foldl (bestEntry t) acc).1 ≤ acc.1 ∧
    ∀ i ∈ todo, (t.get i).addr ≠ rimeaddrNull →
      (todo.foldl (bestEntry t) acc).1 ≤ (t.get i).cost := by
  induction todo generalizing acc with
  | nil => exact ⟨UInt16.le_refl _, fun i hi => nomatch hi⟩
  | cons i todo ih =>
      obtain ⟨hacc, hi⟩ := bestEntry_le t acc i
      obtain ⟨hrest, hmem⟩ := ih (bestEntry t acc i)
      refine ⟨UInt16.le_trans hrest hacc, fun j hj haddr => ?_⟩
      rcases List.mem_cons.mp hj with rfl | hj
      · exact UInt16.le_trans hrest (hi haddr)
      · exact hmem j hj haddr

/-- The lowest cost is at most the cost of every entry. -/
theorem lowest_le {t : NeighborTable} {i : NeighborPtr} (hi : IsEntry t i) :
    (lowest t).1 ≤ (t.get i).cost :=
  (bestEntries_le t t.neighborsList (rtmetricMax, none)).2 i hi.1 hi.2

/-- One entry of the search leaves the sentinel only together with `NULL`. -/
theorem bestEntry_none {t : NeighborTable} {acc : UInt16 × Option NeighborPtr}
    {i : NeighborPtr} (h : acc.2 = none → acc.1 = rtmetricMax) :
    (bestEntry t acc i).2 = none → (bestEntry t acc i).1 = rtmetricMax := by
  simp only [bestEntry]
  split
  · intro hc
    cases hc
  · exact h

/-- When the search finds no entry, the lowest cost is the sentinel. -/
theorem lowest_none {t : NeighborTable} (h : (lowest t).2 = none) :
    (lowest t).1 = rtmetricMax := by
  refine List.foldlRecOn t.neighborsList (bestEntry t)
    (motive := fun acc => acc.2 = none → acc.1 = rtmetricMax) (fun _ => rfl) ?_ h
  intro acc hacc i _
  exact bestEntry_none hacc

/-- Adding 2 to the lowest cost does not wrap. -/
theorem lowest_add_two_toNat (t : NeighborTable) :
    ((lowest t).1 + 2).toNat = (lowest t).1.toNat + 2 := by
  have hmax := (lowest_isLowest t).2
  rw [UInt16.le_iff_toNat_le] at hmax
  have h255 : rtmetricMax.toNat = 255 := rfl
  have h2 : (2 : UInt16).toNat = 2 := rfl
  rw [UInt16.toNat_add, h2]
  omega

/-! ### The parent -/

/-- Where some entry costs less than `RTMETRIC_MAX`, the parent is an entry and costs at most
2 more than any other. -/
theorem neighborBest_near_lowest {t : NeighborTable}
    (h : ∀ l, t.lastBest = some l → IsEntry t l)
    {j : NeighborPtr} (hj : IsEntry t j) (hcost : (t.get j).cost < rtmetricMax) :
    ∃ i, (neighborBest t).1 = some i ∧ IsEntry t i ∧
      ∀ k, IsEntry t k → (t.get i).cost.toNat ≤ (t.get k).cost.toNat + 2 := by
  have hle : ∀ k, IsEntry t k → (lowest t).1.toNat ≤ (t.get k).cost.toNat := fun k hk =>
    UInt16.le_iff_toNat_le.mp (lowest_le hk)
  rcases neighborBest_cases t with ⟨l, hl, hkeep, he⟩ | ⟨he, _⟩ <;> rw [he]
  · -- The parent is kept, because it costs at most 2 more than the lowest cost.
    refine ⟨l, rfl, h l hl, fun k hk => ?_⟩
    rw [UInt16.lt_iff_toNat_lt, lowest_add_two_toNat] at hkeep
    have := hle k hk
    omega
  · cases hb : (lowest t).2 with
    | none =>
        -- The entry `j` keeps the search below the sentinel.
        have hlt := UInt16.lt_of_le_of_lt (lowest_le hj) hcost
        rw [lowest_none hb] at hlt
        exact absurd hlt (UInt16.lt_irrefl _)
    | some i =>
        obtain ⟨hi, hcosti, _⟩ := (lowest_isLowest t).1 i hb
        refine ⟨i, rfl, hi, fun k hk => ?_⟩
        have := hle k hk
        rw [← hcosti]
        omega

/-- A parent is given up for an entry that costs more than 2 less. Or it is given up for
`NULL`: no entry costs less than `RTMETRIC_MAX`, and the parent more than `RTMETRIC_MAX + 2`. -/
theorem neighborBest_gives_up {t : NeighborTable} {l : NeighborPtr} (hl : t.lastBest = some l)
    (hne : (neighborBest t).1 ≠ some l) :
    (∃ i, (neighborBest t).1 = some i ∧ IsEntry t i ∧
      (t.get i).cost.toNat + 2 < (t.get l).cost.toNat) ∨
    ((neighborBest t).1 = none ∧ (∀ k, IsEntry t k → rtmetricMax ≤ (t.get k).cost) ∧
      rtmetricMax.toNat + 2 < (t.get l).cost.toNat) := by
  rcases neighborBest_cases t with ⟨l', hl', _, he⟩ | ⟨he, hlow⟩ <;> rw [he] at hne ⊢
  · rw [hl] at hl'
    cases hl'
    exact absurd rfl hne
  · have hlt := hlow l hl
    rw [UInt16.lt_iff_toNat_lt, lowest_add_two_toNat] at hlt
    cases hb : (lowest t).2 with
    | none =>
        refine Or.inr ⟨rfl, fun k hk => ?_, ?_⟩
        · rw [← lowest_none hb]
          exact lowest_le hk
        · rwa [lowest_none hb] at hlt
    | some i =>
        obtain ⟨hi, hcosti, _⟩ := (lowest_isLowest t).1 i hb
        refine Or.inl ⟨i, rfl, hi, ?_⟩
        rwa [← hcosti]

/-- A second call without a change of the table returns the same parent and changes
nothing. -/
theorem neighborBest_neighborBest (t : NeighborTable) :
    neighborBest (neighborBest t).2 = neighborBest t := by
  rcases neighborBest_cases t with ⟨l, _, _, he⟩ | ⟨he, _⟩
  · -- The table is unchanged.
    have hsame : (neighborBest t).2 = t := by rw [he]
    rw [hsame]
  · rw [he]
    have hlowest : lowest { t with lastBest := (lowest t).2 } = lowest t := rfl
    simp only [neighborBest, hlowest]
    cases hb : (lowest t).2 with
    | none => rfl
    | some i =>
        -- The new parent costs exactly the lowest cost, so it is kept.
        have hcosti := ((lowest_isLowest t).1 i hb).2.1
        have hkeep : ¬ (lowest t).1 + 2 < (t.get i).cost := by
          rw [← hcosti, UInt16.lt_iff_toNat_lt, lowest_add_two_toNat]
          omega
        have hget : NeighborTable.get { t with lastBest := some i } i = t.get i := rfl
        simp [hget, hkeep]

/-- For every table whose last parent is `NULL` or an entry: the parent costs at most 2 more
than the lowest cost when that is below `RTMETRIC_MAX`, it is given up only for an entry
that costs more than 2 less or for `NULL` when no entry is usable, and a second call returns
the same. -/
theorem neighborBest_hysteresis (t : NeighborTable)
    (h : ∀ l, t.lastBest = some l → IsEntry t l) :
    (∀ j, IsEntry t j → (t.get j).cost < rtmetricMax →
      ∃ i, (neighborBest t).1 = some i ∧ IsEntry t i ∧
        ∀ k, IsEntry t k → (t.get i).cost.toNat ≤ (t.get k).cost.toNat + 2) ∧
    (∀ l, t.lastBest = some l → (neighborBest t).1 ≠ some l →
      (∃ i, (neighborBest t).1 = some i ∧ IsEntry t i ∧
        (t.get i).cost.toNat + 2 < (t.get l).cost.toNat) ∨
      ((neighborBest t).1 = none ∧ (∀ k, IsEntry t k → rtmetricMax ≤ (t.get k).cost) ∧
        rtmetricMax.toNat + 2 < (t.get l).cost.toNat)) ∧
    neighborBest (neighborBest t).2 = neighborBest t :=
  ⟨fun _ hj hcost => neighborBest_near_lowest h hj hcost,
    fun _ hl hne => neighborBest_gives_up hl hne,
    neighborBest_neighborBest t⟩

/-- Node 2 is the parent, with the cost 13. Node 3 comes later and costs only 11. -/
def cheaperNeighborTable : NeighborTable :=
  neighborAdd samplePlatform
    (neighborBest (neighborAdd samplePlatform neighborInit ⟨2, 0⟩ 3 10)).2 ⟨3, 0⟩ 1 10

/-- `neighborBest_hysteresis` with a parent that is not the cheapest neighbor. It is not given up
for one that costs 2 less. -/
theorem neighborBest_hysteresis_sample :
    cheaperNeighborTable.lastBest = some 0 ∧ IsEntry cheaperNeighborTable 1 ∧
      (cheaperNeighborTable.get 1).cost < (cheaperNeighborTable.get 0).cost ∧
      (neighborBest cheaperNeighborTable).1 = some 0 := by
  have hparent : cheaperNeighborTable.lastBest = some 0 := by decide
  have hlist : cheaperNeighborTable.neighborsList = [0, 1] := by decide
  have hentry : ∀ l, cheaperNeighborTable.lastBest = some l → IsEntry cheaperNeighborTable l := by
    intro l hl
    obtain rfl : 0 = l := Option.some.inj (hparent.symm.trans hl)
    exact ⟨by decide, by decide⟩
  obtain ⟨_, hgives, _⟩ := neighborBest_hysteresis cheaperNeighborTable hentry
  refine ⟨hparent, ⟨by decide, by decide⟩, by decide, ?_⟩
  by_contra hne
  rcases hgives 0 hparent hne with ⟨i, _, hi, hcost⟩ | ⟨_, hall, _⟩
  · -- No entry costs more than 2 less than 13.
    have hmem : i ∈ [0, 1] := hlist ▸ hi.1
    have hleast : ∀ j ∈ [(0 : NeighborPtr), 1], 11 ≤ (cheaperNeighborTable.get j).cost.toNat := by
      decide
    have hi' := hleast i hmem
    have h13 : (cheaperNeighborTable.get 0).cost.toNat = 13 := by decide
    omega
  · have hsmall : ¬ rtmetricMax ≤ (cheaperNeighborTable.get 0).cost := by decide
    exact hsmall (hall 0 (hentry 0 hparent))

/-- A table with a parent, where the estimate of the parent gets worse. -/
def sampleParentTable (rtmetric : UInt8) : NeighborTable :=
  neighborUpdate (neighborBest (neighborAdd samplePlatform neighborInit ⟨2, 0⟩ 0 10)).2
    (some 0) rtmetric

/-- The only neighbor is the parent. When its cost rises to 260, it is given up for `NULL`. -/
theorem not_forall_parent_change_improves :
    ¬ ∀ t : NeighborTable, (∀ l, t.lastBest = some l → IsEntry t l) →
      ∀ l, t.lastBest = some l → (neighborBest t).1 ≠ some l →
        ∃ i, (neighborBest t).1 = some i ∧ IsEntry t i ∧
          (t.get i).cost.toNat + 2 < (t.get l).cost.toNat := by
  intro h
  obtain ⟨i, hi, _⟩ := h (sampleParentTable 250) (by
    intro l hl
    have hl' : some (0 : NeighborPtr) = some l := hl
    cases hl'
    exact ⟨by decide, by decide⟩) 0 (by decide) (by decide)
  have hnone : (neighborBest (sampleParentTable 250)).1 = none := by decide
  rw [hnone] at hi
  cases hi

/-! ### Costs do not wrap -/

/-- Every stored metric fits 8 bits. -/
def MetricsFit (t : NeighborTable) : Prop :=
  ∀ i, (t.get i).rtmetric.toNat ≤ 255

/-- A write keeps the bound when it writes a metric of 8 bits. -/
theorem MetricsFit.write {t : NeighborTable} (h : MetricsFit t) (i : NeighborPtr)
    {n : Neighbor} (hn : n.rtmetric.toNat ≤ 255) : MetricsFit (t.write i n) := by
  intro j
  by_cases hij : i = j
  · subst hij
    rw [NeighborTable.get_write_self]
    exact hn
  · rw [t.get_write_ne n hij]
    exact h j

/-- A freed block keeps its metric. -/
theorem MetricsFit.unlink {t : NeighborTable} (h : MetricsFit t) (i : NeighborPtr) :
    MetricsFit (t.unlink i) := by
  intro j
  rw [NeighborTable.get_unlink]
  exact h j

/-- A value of 8 bits fits. -/
theorem toUInt16_toNat_le (x : UInt8) : x.toUInt16.toNat ≤ 255 := by
  rw [UInt8.toNat_toUInt16]
  exact Nat.le_of_lt_succ x.toNat_lt

/-- So does `RTMETRIC_MAX`. -/
theorem rtmetricMax_toNat_le : rtmetricMax.toNat ≤ 255 := by decide

/-- An entry grows older, or it reaches the lifetime and gets `RTMETRIC_MAX`. -/
theorem MetricsFit.ageEntry {t : NeighborTable} (h : MetricsFit t) (i : NeighborPtr) :
    MetricsFit (periodicEntry t i) := by
  simp only [periodicEntry]
  split
  · split
    · refine (h.write i ?_).unlink i
      exact rtmetricMax_toNat_le
    · exact h.write i (h i)
  · exact h

/-- `neighbor_add` stores a metric of 8 bits. -/
theorem MetricsFit.add {t : NeighborTable} (h : MetricsFit t) (P : Platform)
    (addr : RimeAddr) (rtmetric etx : UInt8) : MetricsFit (neighborAdd P t addr rtmetric etx) := by
  have hfresh : (freshNeighbor addr rtmetric etx).rtmetric.toNat ≤ 255 :=
    toUInt16_toNat_le rtmetric
  rcases neighborAdd_cases P t addr rtmetric etx with
    ⟨i, _, _, he⟩ | ⟨i, m, halloc, he⟩ | ⟨i, _, _, he⟩ | he <;> rw [he]
  · exact h.write i hfresh
  · obtain ⟨_, rfl⟩ := Memb.membAlloc_some halloc
    exact h.write i hfresh
  · exact h.write i hfresh
  · exact h

/-- Every operation keeps all metrics at 8 bits. -/
theorem MetricsFit.step {P : Platform} {t : NeighborTable} {op : NeighborOp}
    (h : MetricsFit t) : MetricsFit (applyNeighborOp P t op) := by
  cases op with
  | add addr rtmetric etx => exact h.add P addr rtmetric etx
  | update n rtmetric =>
      cases n with
      | none => exact h
      | some i => exact h.write i (toUInt16_toNat_le rtmetric)
  | updateEtx n etx =>
      cases n with
      | none => exact h
      | some i => exact h.write i (h i)
  | timedoutEtx n etx =>
      cases n with
      | none => exact h
      | some i => exact h.write i (h i)
  | periodic =>
      -- By induction on the entries that the loop ages.
      refine List.foldlRecOn t.neighborsList periodicEntry (motive := MetricsFit) h ?_
      intro s hs i _
      exact hs.ageEntry i
  | remove addr =>
      rw [applyNeighborOp]
      simp only [neighborRemove]
      cases neighborFind t addr with
      | none => exact h
      | some i =>
          refine (MetricsFit.write (t := { t with lastBest := _ }) h i ?_).unlink i
          -- A removed entry gets the largest metric.
          exact rtmetricMax_toNat_le
  | best =>
      rw [applyNeighborOp, neighborBest_lastBest]
      exact h
  | setLifetime seconds => exact h

/-- In every run, the 16-bit cost of a neighbor is the sum of its metric and its estimate. -/
theorem cost_toNat_of_reachable {P : Platform} {t : NeighborTable}
    (h : (neighborMachine P).Reachable t) (i : NeighborPtr) :
    (t.get i).cost.toNat = (t.get i).rtmetric.toNat + (neighborEtx (t.get i)).toNat := by
  have hfit : MetricsFit t := by
    refine h.invariant MetricsFit ?_ ?_
    · intro i
      simp [neighborMachine, neighborInit, NeighborTable.get, Memb.block, Memb.membInit,
        Neighbor.zero]
    · intro s op s' hs hst
      cases hst
      exact hs.step
  have hmetric := hfit i
  have hetx := (neighborEtx (t.get i)).toNat_lt
  rw [Neighbor.cost, UInt16.toNat_add, UInt8.toNat_toUInt16]
  omega

end PTunes.Rime
