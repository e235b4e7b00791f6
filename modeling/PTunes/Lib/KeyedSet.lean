import Mathlib.Data.List.Nodup
import Mathlib.Logic.Function.Basic

/-!
# `PTunes.Lib.KeyedSet`: sets whose values are equal when their keys are

A `KeyedSet key` is a collection without two values of one key, in some iteration order: a
hash set of a class whose `equals` compares one field. The abstract view of such a set is
the partial map `get?` from keys to values, and every operation is stated as what it does
to that map, by `Function.update`:

* `get?_add`: a value whose key is absent is added, any other `add` changes nothing.
* `get?_erase`, `get?_modify`: the entry of one key changes, all others stay.
* `get?_copy`: the set that a copy loop builds has the same entries.

The iteration order is the order of `toList`. A new value goes to the end of it; the order
of a hash set can be another one, so a result that has to hold for the real set must hold
for every `toList`.
-/

set_option autoImplicit false

namespace PTunes

/-- A collection in which every key occurs at most once. -/
structure KeyedSet {α κ : Type} (key : α → κ) where
  /-- The values in iteration order. -/
  toList : List α
  /-- No two values have the same key. -/
  nodup : (toList.map key).Nodup

namespace KeyedSet

variable {α κ : Type} {key : α → κ}

/-- The set without values. -/
def empty : KeyedSet key := ⟨[], List.nodup_nil⟩

variable [DecidableEq κ] (s : KeyedSet key)

/-- The value of a key. -/
def get? (k : κ) : Option α := s.toList.find? (fun a => key a = k)

/-- Whether the set has a value that is equal to `a`. -/
def contains (a : α) : Bool := (s.get? (key a)).isSome

/-- The value of a key is the only element with that key. -/
theorem get?_eq_some_iff {k : κ} {a : α} : s.get? k = some a ↔ a ∈ s.toList ∧ key a = k := by
  constructor
  · intro h
    exact ⟨List.mem_of_find?_eq_some h, by simpa using List.find?_some h⟩
  · rintro ⟨ha, rfl⟩
    cases hf : s.get? (key a) with
    | none => simpa using List.find?_eq_none.mp hf a ha
    | some b =>
        have hb : b ∈ s.toList := List.mem_of_find?_eq_some hf
        have hkey : key b = key a := by simpa using List.find?_some hf
        rw [List.inj_on_of_nodup_map s.nodup hb ha hkey]

/-- A key without a value is one that no element has. -/
theorem get?_eq_none_iff {k : κ} : s.get? k = none ↔ ∀ a ∈ s.toList, key a ≠ k := by
  simp [get?]

/-- The entry of an element. -/
theorem get?_of_mem {a : α} (h : a ∈ s.toList) : s.get? (key a) = some a :=
  (s.get?_eq_some_iff).mpr ⟨h, rfl⟩

/-- Two sets with the same elements have the same entries. -/
theorem get?_congr {s t : KeyedSet key} (h : ∀ a, a ∈ s.toList ↔ a ∈ t.toList) :
    s.get? = t.get? := by
  funext k
  refine Option.ext fun a => ?_
  rw [get?_eq_some_iff, get?_eq_some_iff, h]

/-- An element is contained when its key is. Two elements with the same key are equal to the set. -/
theorem contains_iff {a : α} : s.contains a = true ↔ key a ∈ s.toList.map key := by
  simp [contains, get?]

/-! ### Adding a value -/

/-- Add a value. An equal value that is present stays. -/
def add (a : α) : KeyedSet key :=
  if h : s.contains a = true then s
  else ⟨s.toList ++ [a], by
    have hn : key a ∉ s.toList.map key := fun hm => h (s.contains_iff.mpr hm)
    rw [List.map_append, List.map_singleton]
    exact List.nodup_append.mpr ⟨s.nodup, List.nodup_singleton _, by
      rintro _ hm _ hk rfl
      rw [List.mem_singleton] at hk
      exact hn (hk ▸ hm)⟩⟩

/-- A new element comes to the end, so the order is the one in which they were added. -/
theorem toList_add {a : α} (h : s.contains a = false) : (s.add a).toList = s.toList ++ [a] := by
  rw [add, dif_neg (by simp [h])]

/-- What `add` does when the key is absent. -/
theorem get?_add {a : α} (h : s.contains a = false) :
    (s.add a).get? = Function.update s.get? (key a) (some a) := by
  funext k
  rw [get?, toList_add s h, List.find?_append]
  by_cases hk : k = key a
  · subst hk
    have hnone : s.get? (key a) = none := by simpa [contains] using h
    rw [Function.update_self]
    simp only [get?] at hnone
    simp [hnone]
  · rw [Function.update_of_ne hk]
    simp [get?, Ne.symm hk]

/-! ### Erasing and modifying the value of a key -/

/-- Remove the value of a key. -/
def erase (k : κ) : KeyedSet key :=
  ⟨s.toList.filter (fun a => key a ≠ k), s.nodup.sublist (List.filter_sublist.map key)⟩

/-- Erasing takes the value of one key away. -/
theorem get?_erase (k : κ) : (s.erase k).get? = Function.update s.get? k none := by
  funext l
  by_cases hl : l = k
  · subst hl
    rw [Function.update_self, get?_eq_none_iff]
    simp [erase]
  · rw [Function.update_of_ne hl]
    refine Option.ext fun a => ?_
    rw [get?_eq_some_iff, get?_eq_some_iff]
    constructor
    · rintro ⟨hm, rfl⟩
      exact ⟨(List.mem_filter.mp hm).1, rfl⟩
    · rintro ⟨hm, rfl⟩
      exact ⟨List.mem_filter.mpr ⟨hm, by simpa using hl⟩, rfl⟩

/-- Change the value of a key by a function that keeps keys. -/
def modify (k : κ) (f : α → α) (hf : ∀ a, key (f a) = key a) : KeyedSet key :=
  ⟨s.toList.map (fun a => if key a = k then f a else a), by
    have hkeys : (s.toList.map (fun a => if key a = k then f a else a)).map key
        = s.toList.map key := by
      rw [List.map_map]
      refine List.map_congr_left fun a _ => ?_
      by_cases ha : key a = k
      · simp [ha, hf]
      · simp [ha]
    rw [hkeys]
    exact s.nodup⟩

/-- A change of one element that keeps its key changes the value of this key, if there is one, and
of no other one. -/
theorem get?_modify (k : κ) (f : α → α) (hf : ∀ a, key (f a) = key a) :
    (s.modify k f hf).get? = Function.update s.get? k ((s.get? k).map f) := by
  funext l
  refine Option.ext fun b => ?_
  rw [get?_eq_some_iff]
  by_cases hl : l = k
  · subst hl
    rw [Function.update_self, Option.map_eq_some_iff]
    constructor
    · rintro ⟨hm, hb⟩
      obtain ⟨a, ha, rfl⟩ := List.mem_map.mp hm
      -- The element found was there before, with the same key.
      by_cases hk : key a = l
      · subst hk
        exact ⟨a, s.get?_of_mem ha, by simp⟩
      · rw [if_neg hk] at hb
        exact absurd hb hk
    · rintro ⟨a, ha, rfl⟩
      obtain ⟨hm, rfl⟩ := s.get?_eq_some_iff.mp ha
      exact ⟨List.mem_map.mpr ⟨a, hm, by simp⟩, hf a⟩
  · rw [Function.update_of_ne hl, get?_eq_some_iff]
    constructor
    · rintro ⟨hm, rfl⟩
      obtain ⟨a, ha, rfl⟩ := List.mem_map.mp hm
      by_cases hk : key a = k
      · simp only [hk, if_true, hf] at hl
        exact absurd trivial hl
      · rw [if_neg hk]
        exact ⟨ha, rfl⟩
    · rintro ⟨hm, rfl⟩
      exact ⟨List.mem_map.mpr ⟨b, hm, by simp [hl]⟩, rfl⟩

/-! ### Copying -/

/-- The set that results from adding the values of a list one by one. -/
def addAll (l : List α) : KeyedSet key := l.foldl add s

/-- Values with new and distinct keys go to the end one by one. -/
theorem toList_addAll (l : List α) (h : ((s.toList ++ l).map key).Nodup) :
    (s.addAll l).toList = s.toList ++ l := by
  induction l generalizing s with
  | nil => exact (List.append_nil _).symm
  | cons a l ih =>
      have hnot : s.contains a = false := by
        by_contra hc
        rw [Bool.not_eq_false, contains_iff] at hc
        rw [List.map_append, List.nodup_append] at h
        exact h.2.2 _ hc _ (List.mem_map_of_mem List.mem_cons_self) rfl
      have hadd := s.toList_add hnot
      have hlist : (s.add a).toList ++ l = s.toList ++ a :: l := by
        rw [hadd, List.append_assoc, List.singleton_append]
      show ((s.add a).addAll l).toList = _
      rw [ih (s.add a) (by rw [hlist]; exact h), hlist]

/-- Some of the values of a set make a new set in the same order. -/
theorem toList_addAll_filter (p : α → Bool) :
    ((empty : KeyedSet key).addAll (s.toList.filter p)).toList = s.toList.filter p := by
  have hnodup := s.nodup.sublist (List.Sublist.map key (List.filter_sublist (p := p)))
  rw [toList_addAll _ _ hnodup]
  rfl

/-- A copy, value by value, into a new set. -/
def copy : KeyedSet key := empty.addAll s.toList

/-- A copy has the same values. -/
theorem get?_copy : s.copy.get? = s.get? := by
  refine get?_congr fun a => ?_
  rw [copy, toList_addAll _ _ s.nodup]
  rfl

end KeyedSet

end PTunes
