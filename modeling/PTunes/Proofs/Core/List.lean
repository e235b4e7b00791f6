import PTunes.Core.List

/-!
# `PTunes.Proofs.Core.List`: what the lists stand for

`Represents m s` says that the memory holds the lists `s`, and that no cell is on two of them.
`ListCall.spec` says what a call is for, on the lists themselves.

The memory refines it (`listCalls_eq`): in every sequence of calls that put on a list only cells
that are on none, every call returns, with the result that it is meant to have, and the memory
holds the lists that it is meant to hold.

`list_add` neither checks this nor removes the cell first. A cell that is on the list already
makes it a cycle, and then nothing that walks the list returns (`listAdd_length_iff`).
-/

set_option autoImplicit false

namespace PTunes.Core

open ListMem (ListCall ListResult)

/-! ### The lists -/

section Spec

variable {ι κ : Type} [DecidableEq ι] [DecidableEq κ]

/-- A cell is put behind another one. -/
def insertAfter (p x : κ) : List κ → List κ
  | [] => []
  | a :: l => if a = p then a :: x :: l else a :: insertAfter p x l

omit [DecidableEq ι] in
/-- The place of `p` is the first one, so what is before it has to be without `p`. -/
theorem insertAfter_append {p x : κ} {l₁ l₂ : List κ} (hp : p ∉ l₁) :
    insertAfter p x (l₁ ++ p :: l₂) = l₁ ++ p :: x :: l₂ := by
  induction l₁ with
  | nil => exact if_pos rfl
  | cons a l₁ ih =>
      rw [List.mem_cons, not_or] at hp
      obtain ⟨hne, hrest⟩ := hp
      rw [List.cons_append, insertAfter, if_neg (Ne.symm hne), ih hrest]
      rfl

/-- What a call does to the lists, and what it returns. -/
def ListMem.ListCall.spec (s : ι → List κ) : ListCall ι κ → (ι → List κ) × ListResult κ
  | .init i => (Function.update s i [], .void)
  | .head i => (s, .item (s i).head?)
  | .tail i => (s, .item (s i).getLast?)
  | .add i x => (Function.update s i (s i ++ [x]), .void)
  | .push i x => (Function.update s i (x :: s i), .void)
  | .chop i => (Function.update s i (s i).dropLast, .item (s i).getLast?)
  | .pop i => (Function.update s i (s i).tail, .item (s i).head?)
  | .remove i x => (Function.update s i ((s i).erase x), .void)
  | .length i => (s, .length (s i).length)
  | .insert i none x => (Function.update s i (x :: s i), .void)
  | .insert i (some p) x => (Function.update s i (insertAfter p x (s i)), .void)

omit [DecidableEq ι] [DecidableEq κ] in
/-- The cell that the call puts on a list is on none, and the cell behind which it puts it is on
that list. -/
def ListMem.ListCall.Allowed (s : ι → List κ) : ListCall ι κ → Prop
  | .add _ x | .push _ x | .insert _ none x => ∀ j, x ∉ s j
  | .insert i (some p) x => p ∈ s i ∧ ∀ j, x ∉ s j
  | _ => True

/-- Every call of a sequence is allowed when its turn comes. -/
def AllAllowed (s : ι → List κ) : List (ListCall ι κ) → Prop
  | [] => True
  | c :: cs => c.Allowed s ∧ AllAllowed (c.spec s).1 cs

/-- What a sequence of calls does to the lists, and what it returns. -/
def specs (s : ι → List κ) : List (ListCall ι κ) → (ι → List κ) × List (ListResult κ)
  | [] => (s, [])
  | c :: cs => ((specs (c.spec s).1 cs).1, (c.spec s).2 :: (specs (c.spec s).1 cs).2)

end Spec

/-! ### The memory -/

/-- The memory holds the lists, and no cell is on two of them. -/
structure Represents {ι κ : Type} (m : ListMem ι κ) (s : ι → List κ) : Prop where
  chain : ∀ i, Segment m.next (m.head i) (s i) none
  disjoint : ∀ i j x, x ∈ s i → x ∈ s j → i = j

namespace Represents

variable {ι κ : Type} [DecidableEq ι] [DecidableEq κ] {m m' : ListMem ι κ} {s : ι → List κ}
  {i : ι} {x : κ} {l : List κ} {p : Option κ} {fuel : Nat}

omit [DecidableEq κ] in
/-- One list changes: the other ones keep their cells and their links. -/
theorem set (h : Represents m s) (hchain : Segment m'.next (m'.head i) l none)
    (hhead : ∀ j, j ≠ i → m'.head j = m.head j)
    (hnext : ∀ j, j ≠ i → ∀ y ∈ s j, m'.next y = m.next y)
    (hcells : ∀ y ∈ l, y ∈ s i ∨ ∀ j, y ∉ s j) : Represents m' (Function.update s i l) where
  chain j := by
    by_cases hj : j = i
    · subst hj
      rwa [Function.update_self]
    · rw [Function.update_of_ne hj, hhead j hj]
      exact (h.chain j).congr (hnext j hj)
  disjoint j k y hj hk := by
    -- A cell of the new list is on none of the other ones.
    have hnew : ∀ j, j ≠ i → y ∈ l → y ∉ s j := by
      intro j hji hy hys
      rcases hcells y hy with hi | hfree
      · exact hji (h.disjoint j i y hys hi)
      · exact hfree j hys
    by_cases hji : j = i <;> by_cases hki : k = i
    · rw [hji, hki]
    · subst hji
      rw [Function.update_self] at hj
      rw [Function.update_of_ne hki] at hk
      exact absurd hk (hnew k hki hj)
    · subst hki
      rw [Function.update_self] at hk
      rw [Function.update_of_ne hji] at hj
      exact absurd hj (hnew j hji hk)
    · rw [Function.update_of_ne hji] at hj
      rw [Function.update_of_ne hki] at hk
      exact h.disjoint j k y hj hk

omit [DecidableEq ι] in
/-- The link of a cell that is on no list. -/
theorem setNext (h : Represents m s) (hx : ∀ j, x ∉ s j) : Represents (m.setNext x p) s where
  chain j := (h.chain j).update (hx j)
  disjoint := h.disjoint

omit [DecidableEq ι] [DecidableEq κ] in
/-- A cell of one list is none of another. -/
theorem ne_of_mem (h : Represents m s) (hx : x ∈ s i) {j : ι} (hj : j ≠ i) {y : κ}
    (hy : y ∈ s j) : y ≠ x := by
  rintro rfl
  exact hj (h.disjoint j i y hy hx)

omit [DecidableEq ι] [DecidableEq κ] in
/-- `list_head` returns the first cell. -/
theorem listHead_eq (h : Represents m s) : m.listHead i = (s i).head? := by
  have hchain := h.chain i
  rw [ListMem.listHead]
  cases hs : s i with
  | nil =>
      rw [hs] at hchain
      exact Segment.nil_iff.mp hchain
  | cons a l =>
      rw [hs] at hchain
      exact (Segment.cons_iff.mp hchain).1

omit [DecidableEq κ] in
/-- `list_init` empties the list. Its old cells keep their links, but no head leads to them. -/
theorem listInit (h : Represents m s) : Represents (m.listInit i) (Function.update s i []) := by
  refine h.set ?_ (fun j hj => ListMem.setHead_head_of_ne m _ hj) (fun _ _ _ _ => rfl) ?_
  · rw [ListMem.listInit, ListMem.setHead_head_self]
    exact .nil none
  · intro y hy
    cases hy

/-! ### Adding a cell -/

omit [DecidableEq ι] [DecidableEq κ] in
/-- `list_tail` walks to the end, and returns the last cell. The fuel has to be more than the
length, for the turn that finds the end. -/
theorem listTail_eq (h : Segment m.next (m.head i) l none) (hfuel : l.length < fuel) :
    m.listTail fuel i = .returned l.getLast? := by
  rw [ListMem.listTail]
  rcases List.eq_nil_or_concat l with rfl | ⟨front, a, rfl⟩
  · rw [Segment.nil_iff.mp h]
    rfl
  · rw [List.concat_eq_append] at h hfuel ⊢
    obtain ⟨hfront, hlast⟩ := Segment.concat_iff.mp h
    obtain ⟨first, hfirst⟩ : ∃ first, m.head i = some first := by
      cases front with
      | nil => exact ⟨a, Segment.nil_iff.mp hfront⟩
      | cons b front => exact ⟨b, (Segment.cons_iff.mp hfront).1⟩
    rw [List.getLast?_concat, hfirst]
    rw [hfirst] at hfront
    refine hfront.whileLoop_stop (fun p (_ : Unit) => p) (fun c _ => c) ?_ ?_ () ?_
    · -- Before the last cell the walk goes on.
      intro b hb _
      obtain ⟨d, _, hd⟩ := hfront.next_mem hb
      show m.tailTurn (some b) = _
      rw [ListMem.tailTurn, hd]
    · rw [List.length_append] at hfuel
      omega
    · show m.tailTurn (some a) = _
      rw [ListMem.tailTurn, hlast]

/-- `list_add` puts the cell behind the last one. The cells of the other lists keep their links. -/
theorem listAdd_segment (h : Segment m.next (m.head i) l none) (hx : x ∉ l)
    (hfuel : l.length < fuel) :
    ∃ m', m.listAdd fuel i x = .returned m' ∧ Segment m'.next (m'.head i) (l ++ [x]) none ∧
      (∀ j, j ≠ i → m'.head j = m.head j) ∧
      ∀ y, y ≠ x → y ∉ l → m'.next y = m.next y := by
  have hm : Segment (m.setNext x none).next ((m.setNext x none).head i) l none := h.update hx
  have hxnext : ∀ y, y ≠ x → (m.setNext x none).next y = m.next y :=
    fun y hy => ListMem.setNext_next_of_ne m _ hy
  rw [ListMem.listAdd, listTail_eq hm hfuel]
  rcases List.eq_nil_or_concat l with rfl | ⟨front, a, rfl⟩
  · refine ⟨_, rfl, ?_, fun j hj => ListMem.setHead_head_of_ne _ _ hj, fun y hy _ => hxnext y hy⟩
    rw [ListMem.setHead_head_self, ListMem.setHead_next]
    exact .cons (by rw [ListMem.setNext_next_self]; exact .nil none)
  · have hnodup := hm.nodup
    rw [List.concat_eq_append] at hm hnodup hx ⊢
    rw [List.getLast?_concat]
    have hax : x ≠ a := fun hc => hx (by simp [hc])
    obtain ⟨hfront, _⟩ := Segment.concat_iff.mp hm
    refine ⟨_, rfl, Segment.concat_iff.mpr ⟨hfront.update_last ?_, ?_⟩, fun _ _ => rfl, ?_⟩
    · exact fun hmem => (List.nodup_append.mp hnodup).2.2 a hmem a (by simp) rfl
    · rw [ListMem.setNext_next_of_ne _ _ hax, ListMem.setNext_next_self]
    · intro y hyx hyl
      have hya : y ≠ a := fun hc => hyl (by simp [hc])
      rw [ListMem.setNext_next_of_ne _ _ hya]
      exact hxnext y hyx

/-- `list_add` puts a cell that is in no list at the end, after a walk to the last one. -/
theorem listAdd (h : Represents m s) (hx : ∀ j, x ∉ s j) (hfuel : (s i).length < fuel) :
    ∃ m', m.listAdd fuel i x = .returned m' ∧
      Represents m' (Function.update s i (s i ++ [x])) := by
  obtain ⟨m', hm', hchain, hhead, hnext⟩ := listAdd_segment (h.chain i) (hx i) hfuel
  refine ⟨m', hm', h.set hchain hhead ?_ ?_⟩
  · intro j hj y hy
    refine hnext y (fun hyx => hx j (hyx ▸ hy)) ?_
    exact fun hyi => hj (h.disjoint j i y hy hyi)
  · intro y hy
    rcases List.mem_append.mp hy with hy | hy
    · exact .inl hy
    · rw [List.mem_singleton.mp hy]
      exact .inr hx

/-- `list_push` puts a cell that is in no list at the head. -/
theorem listPush (h : Represents m s) (hx : ∀ j, x ∉ s j) :
    Represents (m.listPush i x) (Function.update s i (x :: s i)) := by
  have hm : Represents (m.setNext x (m.head i)) s := h.setNext hx
  refine hm.set ?_ (fun j hj => ListMem.setHead_head_of_ne _ _ hj) (fun _ _ _ _ => rfl) ?_
  · rw [ListMem.listPush, ListMem.setHead_head_self, ListMem.setHead_next]
    refine .cons ?_
    rw [ListMem.setNext_next_self]
    exact hm.chain i
  · intro y hy
    rcases List.mem_cons.mp hy with rfl | hy
    · exact .inr hx
    · exact .inl hy

/-- `list_insert` puts a cell that is in no list behind a cell of the list. -/
theorem listInsert (h : Represents m s) {a : κ} (ha : a ∈ s i) (hx : ∀ j, x ∉ s j) :
    Represents (m.listInsert i (some a) x) (Function.update s i (insertAfter a x (s i))) := by
  have hax : x ≠ a := fun hc => hx i (hc ▸ ha)
  have hm : Represents (m.setNext x (m.next a)) s := h.setNext hx
  obtain ⟨l₁, l₂, hs, hfront, hback⟩ := (hm.chain i).split ha
  have hnodup := (hm.chain i).nodup
  rw [hs] at hnodup
  have hal₁ : a ∉ l₁ := fun hmem => (List.nodup_append.mp hnodup).2.2 a hmem a (by simp) rfl
  have hal₂ : a ∉ l₂ := (List.nodup_cons.mp (List.nodup_append.mp hnodup).2.1).1
  rw [ListMem.setNext_next_of_ne _ _ (Ne.symm hax)] at hback
  have hxl₂ : x ∉ l₂ := fun hmem => hx i (by rw [hs]; simp [hmem])
  have hins : insertAfter a x (s i) = l₁ ++ a :: x :: l₂ := by
    rw [hs]
    exact insertAfter_append hal₁
  rw [hins]
  refine hm.set ?_ (fun _ _ => rfl) (fun j hj y hy =>
    ListMem.setNext_next_of_ne _ _ (hm.ne_of_mem ha hj hy)) ?_
  · -- The old front, the cell `a`, the new cell, the old back.
    rw [ListMem.listInsert]
    refine Segment.append_iff.mpr ⟨some a, hfront.update hal₁, .cons ?_⟩
    rw [ListMem.setNext_next_self]
    refine .cons ?_
    rw [ListMem.setNext_next_of_ne _ _ hax, ListMem.setNext_next_self]
    exact hback.update hal₂
  · intro y hy
    -- Every cell but the new one was in this list.
    by_cases hyx : y = x
    · exact .inr (hyx ▸ hx)
    · refine .inl ?_
      rw [hs]
      simpa [hyx] using hy

/-! ### Taking a cell off -/

omit [DecidableEq κ] in
/-- `list_pop` takes the first cell off, and returns it. -/
theorem listPop (h : Represents m s) :
    (m.listPop i).1 = (s i).head? ∧
      Represents (m.listPop i).2 (Function.update s i (s i).tail) := by
  have hchain := h.chain i
  rw [ListMem.listPop]
  cases hs : s i with
  | nil =>
      rw [hs] at hchain
      rw [Segment.nil_iff.mp hchain]
      refine ⟨rfl, ?_⟩
      rw [List.tail_nil, ← hs, Function.update_eq_self]
      exact h
  | cons a l =>
      rw [hs] at hchain
      obtain ⟨hhead, hrest⟩ := Segment.cons_iff.mp hchain
      rw [hhead]
      refine ⟨rfl, h.set ?_ (fun j hj => ListMem.setHead_head_of_ne m _ hj)
        (fun _ _ _ _ => rfl) ?_⟩
      · rw [ListMem.setHead_head_self]
        exact hrest
      · intro y hy
        rw [hs]
        exact .inl (List.mem_cons_of_mem a hy)

omit [DecidableEq ι] [DecidableEq κ] in
/-- The last cell but one is where the loop of `list_chop` ends. -/
theorem chopTurn_loop {first a b : κ} (hfront : Segment m.next (some first) l (some a))
    (hab : m.next a = some b) (hb : m.next b = none) (hfuel : l.length < fuel) :
    whileLoop m.chopTurn fuel (some first) = .returned (a, b) := by
  refine hfront.whileLoop_stop (fun p (_ : Unit) => p) (fun c _ => c) ?_ hfuel () ?_
  · intro c hc _
    obtain ⟨d, hd, hcd⟩ := hfront.next_mem hc
    -- The cell behind `c` has a cell behind it, `a` being the last one but one.
    obtain ⟨e, hde⟩ : ∃ e, m.next d = some e := by
      rcases List.mem_append.mp hd with hdl | hda
      · obtain ⟨e, _, hde⟩ := hfront.next_mem hdl
        exact ⟨e, hde⟩
      · exact ⟨b, List.mem_singleton.mp hda ▸ hab⟩
    show m.chopTurn (some c) = _
    simp only [ListMem.chopTurn, hcd, hde]
  · show m.chopTurn (some a) = _
    simp only [ListMem.chopTurn, hab, hb]

/-- `list_chop` takes the last cell off, and returns it. For one with a single cell, and for an
empty one, the list is empty afterwards. -/
theorem listChop (h : Represents m s) (hfuel : (s i).length < fuel) :
    ∃ m', m.listChop fuel i = .returned ((s i).getLast?, m') ∧
      Represents m' (Function.update s i (s i).dropLast) := by
  have hchain := h.chain i
  have hnodup := hchain.nodup
  rw [ListMem.listChop]
  rcases List.eq_nil_or_concat (s i) with hs | ⟨front, b, hs⟩
  · -- The list is empty.
    rw [hs] at hchain
    rw [Segment.nil_iff.mp hchain, hs]
    refine ⟨m, rfl, ?_⟩
    rw [List.dropLast_nil, ← hs, Function.update_eq_self]
    exact h
  · rw [List.concat_eq_append] at hs
    rw [hs] at hchain hnodup hfuel
    obtain ⟨hfront, hb⟩ := Segment.concat_iff.mp hchain
    rw [hs, List.getLast?_concat, List.dropLast_concat]
    have hsub : ∀ y ∈ front, y ∈ s i ∨ ∀ j, y ∉ s j := by
      intro y hy
      rw [hs]
      exact .inl (List.mem_append_left _ hy)
    rcases List.eq_nil_or_concat front with rfl | ⟨init, a, rfl⟩
    · -- The only cell.
      rw [Segment.nil_iff.mp hfront]
      simp only [hb]
      refine ⟨_, rfl, h.set ?_ (fun j hj => ListMem.setHead_head_of_ne m _ hj)
        (fun _ _ _ _ => rfl) hsub⟩
      rw [ListMem.setHead_head_self]
      exact .nil none
    · rw [List.concat_eq_append] at hfront hsub hnodup hs hfuel ⊢
      obtain ⟨hinit, hab⟩ := Segment.concat_iff.mp hfront
      -- There are two cells, so the loop begins.
      obtain ⟨first, second, hfirst, hsecond⟩ :
          ∃ first second, m.head i = some first ∧ m.next first = some second := by
        cases init with
        | nil => exact ⟨a, b, Segment.nil_iff.mp hinit, hab⟩
        | cons c init =>
            obtain ⟨hc, _⟩ := Segment.cons_iff.mp hinit
            obtain ⟨d, _, hcd⟩ := hinit.next_mem List.mem_cons_self
            exact ⟨c, d, hc, hcd⟩
      rw [hfirst] at hinit
      simp only [hfirst, hsecond]
      rw [chopTurn_loop hinit hab hb (by simp only [List.length_append] at hfuel; omega)]
      refine ⟨_, rfl, h.set ?_ (fun _ _ => rfl) ?_ hsub⟩
      · refine Segment.update_last (hfirst ▸ hinit) ?_
        -- The last cell is nowhere else in the list.
        intro hmem
        have hnodup' := (List.nodup_append.mp hnodup).1
        exact (List.nodup_append.mp hnodup').2.2 a hmem a (by simp) rfl
      · intro j hj y hy
        exact ListMem.setNext_next_of_ne _ _ (h.ne_of_mem (by rw [hs]; simp) hj hy)

omit [DecidableEq ι] in
/-- The walk of `list_remove` to a cell of the list, with the cell in front of it. -/
theorem removeTurn_loop {back : List κ} (h : Segment m.next (m.head i) (l ++ x :: back) none)
    (hx : x ∉ l) (hfuel : l.length < fuel) :
    whileLoop (m.removeTurn x) fuel (m.head i, none) = .returned (some l.getLast?) := by
  obtain ⟨p, hfront, hrest⟩ := Segment.append_iff.mp h
  obtain ⟨rfl, _⟩ := Segment.cons_iff.mp hrest
  have hlast : l.foldl (fun _ a => some a) none = l.getLast? := by
    rcases List.eq_nil_or_concat l with rfl | ⟨init, a, rfl⟩ <;> simp
  refine hfront.whileLoop_stop (fun p r => (p, r)) (fun _ a => some a) ?_ hfuel none ?_
  · intro a ha r
    exact if_neg fun hax : a = x => hx (hax ▸ ha)
  · rw [hlast]
    exact if_pos rfl

omit [DecidableEq ι] in
/-- The walk of `list_remove` past a list without the cell. -/
theorem removeTurn_loop_not_mem (h : Segment m.next (m.head i) l none) (hx : x ∉ l)
    (hfuel : l.length < fuel) :
    whileLoop (m.removeTurn x) fuel (m.head i, none) = .returned none := by
  refine h.whileLoop_end (fun p r => (p, r)) (fun _ a => some a) ?_ hfuel none rfl
  intro a ha r
  exact if_neg fun hax : a = x => hx (hax ▸ ha)

/-- `list_remove` takes the cell off, wherever it is. A cell that is not in the list changes
nothing. -/
theorem listRemove (h : Represents m s) (hfuel : (s i).length < fuel) :
    ∃ m', m.listRemove fuel i x = .returned m' ∧
      Represents m' (Function.update s i ((s i).erase x)) := by
  have hchain := h.chain i
  rw [ListMem.listRemove]
  by_cases hx : x ∈ s i
  · have hnodup := hchain.nodup
    obtain ⟨front, back, hs⟩ := List.append_of_mem hx
    rw [hs] at hchain hnodup hfuel
    have hxfront : x ∉ front :=
      fun hmem => (List.nodup_append.mp hnodup).2.2 x hmem x (by simp) rfl
    have hxback : x ∉ back := (List.nodup_cons.mp (List.nodup_append.mp hnodup).2.1).1
    have herase : (s i).erase x = front ++ back := by
      rw [hs, List.erase_append_right _ hxfront, List.erase_cons_head]
    have hcells : ∀ y ∈ front ++ back, y ∈ s i ∨ ∀ j, y ∉ s j := by
      intro y hy
      rw [hs]
      exact .inl (by simp only [List.mem_append, List.mem_cons] at hy ⊢; tauto)
    have hlen : front.length < fuel := by
      simp only [List.length_append, List.length_cons] at hfuel
      omega
    rw [removeTurn_loop hchain hxfront hlen, herase]
    obtain ⟨p, hfront, hrest⟩ := Segment.append_iff.mp hchain
    obtain ⟨rfl, hback⟩ := Segment.cons_iff.mp hrest
    have hother : ∀ j, j ≠ i → ∀ y ∈ s j, y ≠ x :=
      fun j hj y hy => h.ne_of_mem hx hj hy
    rcases List.eq_nil_or_concat front with rfl | ⟨init, r, rfl⟩
    · -- The first cell.
      refine ⟨_, rfl, h.set ?_ (fun j hj => ListMem.setHead_head_of_ne m _ hj)
        (fun j hj y hy => ListMem.setNext_next_of_ne _ _ (hother j hj y hy)) hcells⟩
      rw [ListMem.setNext_head, ListMem.setHead_head_self]
      exact hback.update hxback
    · rw [List.concat_eq_append] at hchain hxfront hnodup hs hcells ⊢
      rw [List.getLast?_concat]
      have hrs : r ∈ s i := by rw [hs]; simp
      have hxrest : x ∉ init ++ [r] ++ back := by
        intro hmem
        exact (List.mem_append.mp hmem).elim hxfront hxback
      refine ⟨_, rfl, h.set ?_ (fun _ _ => rfl) ?_ hcells⟩
      · -- The cell in front gets the link of the cell.
        simp only [List.append_assoc, List.singleton_append] at hchain hnodup hxrest ⊢
        exact (hchain.bypass hnodup).update hxrest
      · intro j hj y hy
        exact (ListMem.setNext_next_of_ne _ _ (hother j hj y hy)).trans
          (ListMem.setNext_next_of_ne _ _ (h.ne_of_mem hrs hj hy))
  · -- The loop comes to the end without the cell.
    rw [removeTurn_loop_not_mem hchain hx hfuel, List.erase_of_not_mem hx,
      Function.update_eq_self]
    exact ⟨m, rfl, h⟩

omit [DecidableEq ι] [DecidableEq κ] in
/-- `list_length` counts the cells. -/
theorem listLength_eq (h : Segment m.next (m.head i) l none) (hfuel : l.length < fuel) :
    m.listLength fuel i = .returned l.length := by
  refine h.whileLoop_end (fun p n => (p, n)) (fun n _ => n + 1)
    (fun a _ n => rfl) hfuel 0 ?_
  show Turn.done _ = _
  rw [List.foldl_add_const]
  simp

/-! ### Adding a member -/

/-- `list_add` of a cell that is on the list links it to itself. -/
theorem listAdd_mem (h : Represents m s) (hx : x ∈ s i) (hfuel : (s i).length < fuel) :
    ∃ m' front, m.listAdd fuel i x = .returned m' ∧
      Segment m'.next (m'.head i) front (some x) ∧ m'.next x = some x := by
  obtain ⟨front, back, hs, hfront, _⟩ := (h.chain i).split hx
  have hnodup := (h.chain i).nodup
  rw [hs] at hnodup hfuel
  have hxfront : x ∉ front :=
    fun hmem => (List.nodup_append.mp hnodup).2.2 x hmem x (by simp) rfl
  -- The list is cut behind the cell, which is thus its last one.
  have hcut : Segment (m.setNext x none).next ((m.setNext x none).head i) (front ++ [x]) none :=
    hfront.update_last hxfront
  refine ⟨(m.setNext x none).setNext x (some x), front, ?_, ?_, ListMem.setNext_next_self ..⟩
  · have hlen : (front ++ [x]).length < fuel := by
      simp only [List.length_append, List.length_cons, List.length_nil] at hfuel ⊢
      omega
    rw [ListMem.listAdd, listTail_eq hcut hlen, List.getLast?_concat]
    rfl
  · exact (hfront.update hxfront).update hxfront

omit [DecidableEq ι] [DecidableEq κ] in
/-- A list that leads into a cell that is linked to itself has no length. -/
theorem listLength_ne_returned (hfront : Segment m.next (m.head i) l (some x))
    (hx : m.next x = some x) (k n : Nat) : m.listLength k i ≠ .returned n := by
  intro hk
  have hcycle : Segment m.next (some x) [x] (some x) := .cons (hx ▸ .nil _)
  have hturn : ∀ a (c : Nat), m.lengthTurn (some a, c) = .next (m.next a, c + 1) :=
    fun _ _ => rfl
  -- With more turns the walk comes to the cell, and goes around there.
  have hmore : whileLoop m.lengthTurn (k + l.length) (m.head i, 0) = .returned n := by
    rw [whileLoop_mono (Nat.le_add_right k l.length) (by rw [← ListMem.listLength, hk]; simp)]
    exact hk
  rw [hfront.whileLoop (fun p n => (p, n)) (fun n _ => n + 1) (fun a _ c => hturn a c),
    hcycle.diverges (by simp) (fun p n => (p, n)) (fun n _ => n + 1)
      (fun a _ c => hturn a c)] at hmore
  cases hmore

/-- **`list_add` does not check whether the cell is on the list.** `list_add` returns, and then
the list can be walked exactly if the cell was not on it. -/
theorem listAdd_length_iff (h : Represents m s) (hfuel : (s i).length < fuel) :
    ∃ m', m.listAdd fuel i x = .returned m' ∧
      ((∃ k n, m'.listLength k i = .returned n) ↔ x ∉ s i) := by
  by_cases hx : x ∈ s i
  · obtain ⟨m', front, hm', hfront, hself⟩ := h.listAdd_mem hx hfuel
    refine ⟨m', hm', ?_, fun hc => absurd hx hc⟩
    rintro ⟨k, n, hk⟩
    exact absurd hk (listLength_ne_returned hfront hself k n)
  · obtain ⟨m', hm', hchain, _⟩ := listAdd_segment (h.chain i) hx hfuel
    refine ⟨m', hm', fun _ => hx, fun _ => ?_⟩
    exact ⟨_, _, listLength_eq hchain (Nat.lt_succ_self _)⟩

/-! ### Every call -/

/-- A call does to the memory what it is meant to do to the lists. -/
theorem call_eq (h : Represents m s) {c : ListCall ι κ} (hc : c.Allowed s)
    (hfuel : ∀ j, (s j).length < fuel) :
    ∃ m', ListMem.call fuel m c = .returned (m', (c.spec s).2) ∧ Represents m' (c.spec s).1 := by
  cases c with
  | init i => exact ⟨_, rfl, h.listInit⟩
  | head i =>
      refine ⟨m, ?_, h⟩
      rw [ListMem.call, h.listHead_eq]
      rfl
  | tail i =>
      refine ⟨m, ?_, h⟩
      rw [ListMem.call, listTail_eq (h.chain i) (hfuel i)]
      rfl
  | add i x =>
      obtain ⟨m', hm', hrep⟩ := h.listAdd (i := i) hc (hfuel i)
      refine ⟨m', ?_, hrep⟩
      rw [ListMem.call, hm']
      rfl
  | push i x => exact ⟨_, rfl, h.listPush hc⟩
  | chop i =>
      obtain ⟨m', hm', hrep⟩ := h.listChop (hfuel i)
      refine ⟨m', ?_, hrep⟩
      rw [ListMem.call, hm']
      rfl
  | pop i =>
      obtain ⟨hfirst, hrep⟩ := h.listPop (i := i)
      refine ⟨_, ?_, hrep⟩
      rw [ListMem.call, hfirst]
      rfl
  | remove i x =>
      obtain ⟨m', hm', hrep⟩ := h.listRemove (x := x) (hfuel i)
      refine ⟨m', ?_, hrep⟩
      rw [ListMem.call, hm']
      rfl
  | length i =>
      refine ⟨m, ?_, h⟩
      rw [ListMem.call, listLength_eq (h.chain i) (hfuel i)]
      rfl
  | insert i previtem x =>
      cases previtem with
      -- Without a previous item `list_insert` is `list_push`.
      | none => exact ⟨_, rfl, h.listPush hc⟩
      | some p => exact ⟨_, rfl, h.listInsert hc.1 hc.2⟩

end Represents

section Calls

variable {ι κ : Type} [DecidableEq ι] [DecidableEq κ]

omit [DecidableEq ι] in
/-- An insertion makes the list at most one longer. The bound on the fuel of a sequence of calls
grows by one for each of them. -/
theorem length_insertAfter_le (p x : κ) (l : List κ) :
    (insertAfter p x l).length ≤ l.length + 1 := by
  induction l with
  | nil => exact Nat.zero_le _
  | cons a l ih =>
      rw [insertAfter]
      split
      · simp
      · simpa using ih

/-- A call makes a list longer by one cell at most. -/
theorem length_spec_le (s : ι → List κ) (c : ListCall ι κ) (j : ι) :
    ((c.spec s).1 j).length ≤ (s j).length + 1 := by
  have hset : ∀ i (l : List κ), l.length ≤ (s i).length + 1 →
      (Function.update s i l j).length ≤ (s j).length + 1 := by
    intro i l hl
    by_cases hj : j = i
    · subst hj
      rwa [Function.update_self]
    · rw [Function.update_of_ne hj]
      omega
  cases c with
  | head | tail | length => exact Nat.le_succ _
  | init i => exact hset i [] (Nat.zero_le _)
  | add i x => exact hset i _ (by simp)
  | push i x => exact hset i _ (by simp)
  | chop i => exact hset i _ (by rw [List.length_dropLast]; omega)
  | pop i => exact hset i _ (by rw [List.length_tail]; omega)
  | remove i x => exact hset i _ (by have := List.length_erase_le (a := x) (l := s i); omega)
  | insert i previtem x =>
      cases previtem with
      | none => exact hset i _ (by simp)
      | some p => exact hset i _ (length_insertAfter_le p x (s i))

/-- **The memory refines the lists.** In every sequence of calls that put on a list only cells
that are on none, every call returns, with the result that it is meant to have. -/
theorem listCalls_eq {m : ListMem ι κ} {s : ι → List κ} (fuel : Nat) (h : Represents m s)
    (cs : List (ListCall ι κ)) (hcs : AllAllowed s cs)
    (hfuel : ∀ j, (s j).length + cs.length < fuel) :
    ∃ m', ListMem.calls fuel m cs = .returned (m', (specs s cs).2) ∧
      Represents m' (specs s cs).1 := by
  induction cs generalizing m s with
  | nil => exact ⟨m, rfl, h⟩
  | cons c cs ih =>
      obtain ⟨hc, hcs⟩ := hcs
      have hlen : ∀ j, (s j).length < fuel := by
        intro j
        have := hfuel j
        omega
      have hlen' : ∀ j, ((c.spec s).1 j).length + cs.length < fuel := by
        intro j
        have hle := length_spec_le s c j
        have hj := hfuel j
        rw [List.length_cons] at hj
        omega
      obtain ⟨m₁, hm₁, h₁⟩ := h.call_eq hc hlen
      obtain ⟨m₂, hm₂, h₂⟩ := ih h₁ hcs hlen'
      refine ⟨m₂, ?_, h₂⟩
      rw [ListMem.calls, hm₁]
      show (ListMem.calls fuel m₁ cs).bind _ = _
      rw [hm₂]
      rfl

/-- The memory before the first call: no cell is on a list. -/
def ListMem.empty : ListMem ι κ where
  next := fun _ => none
  head := fun _ => none

omit [DecidableEq ι] [DecidableEq κ] in
/-- The empty memory represents empty lists. -/
theorem Represents.empty : Represents (ListMem.empty : ListMem ι κ) (fun _ => []) where
  chain _ := .nil none
  disjoint _ _ _ hx := by cases hx

end Calls

/-- `listCalls_eq` at a sequence of calls on two lists, from the empty memory. A cell moves from one
list to the other. -/
theorem listCalls_eq_two_lists :
    ∃ m : ListMem Bool Nat,
      ListMem.calls 20 ListMem.empty
          [.add true 1, .add true 2, .push true 3, .insert true (some 1) 4, .length true,
            .remove true 1, .add false 1, .chop true, .pop true, .tail true, .head false] =
        .returned (m, [.void, .void, .void, .void, .length 4, .void, .void, .item (some 2),
          .item (some 3), .item (some 4), .item (some 1)]) ∧
      m.head true = some 4 := by
  obtain ⟨m, hm, hrep⟩ := listCalls_eq (ι := Bool) (κ := Nat) 20 Represents.empty
    [.add true 1, .add true 2, .push true 3, .insert true (some 1) 4, .length true,
      .remove true 1, .add false 1, .chop true, .pop true, .tail true, .head false]
    (by simp [AllAllowed, ListCall.Allowed, ListCall.spec, insertAfter, Function.update])
    (by simp)
  exact ⟨m, hm, (Segment.cons_iff.mp (hrep.chain true)).1⟩

/-- `listAdd_length_iff` at a list of two cells: the first one is added again. -/
theorem listAdd_length_again :
    ∃ m : ListMem Unit Nat,
      ListMem.listAdd 5 ⟨fun c => if c = 1 then some 2 else none, fun _ => some 1⟩ () 1 =
        .returned m ∧ ((∃ k n, m.listLength k () = .returned n) ↔ 1 ∉ [1, 2]) := by
  refine Represents.listAdd_length_iff (s := fun _ => [1, 2]) ⟨fun _ => ?_, ?_⟩ (by simp)
  · simp
  · simp

end PTunes.Core
