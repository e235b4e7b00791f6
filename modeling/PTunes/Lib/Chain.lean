import Mathlib.Data.List.Nodup
import Mathlib.Logic.Function.Basic
import PTunes.Lib.While

/-!
# `PTunes.Lib.Chain`: linked cells

A heap of cells is a function `next` from each cell to the one behind it. `Segment next p l q`
says that following `next` from `p` visits the cells of `l`, in this order, and comes to `q`. A
list that ends in a null pointer is a segment to `none`.

* `Segment.unique`, `Segment.nodup`: a list that ends is determined by its first cell, and visits
  no cell twice.
* `Segment.append_iff`, `Segment.concat_iff`: how segments are put together.
* `Segment.update`: a write to a cell off the segment leaves it in place.
* `Segment.whileLoop`: a loop that steps along a segment, with an accumulator, comes to its end
  with the fold of the visited cells.
* `Segment.diverges`: a loop that steps around a cycle runs forever.
-/

set_option autoImplicit false

namespace PTunes

/-- Following `next` from `p` visits the cells of the list and comes to `q`. -/
inductive Segment {κ : Type} (next : κ → Option κ) : Option κ → List κ → Option κ → Prop
  | nil (p : Option κ) : Segment next p [] p
  | cons {a : κ} {l : List κ} {q : Option κ} :
      Segment next (next a) l q → Segment next (some a) (a :: l) q

namespace Segment

variable {κ : Type} {next next' : κ → Option κ} {p q r : Option κ} {a b : κ} {l l₁ l₂ : List κ}

/-- An empty segment begins where it ends. -/
@[simp] theorem nil_iff : Segment next p [] q ↔ p = q := by
  constructor
  · rintro ⟨⟩
    rfl
  · rintro rfl
    exact .nil p

/-- The first cell of a segment, and the rest from its link on. This is how a walk goes one cell
forward. -/
@[simp] theorem cons_iff :
    Segment next p (a :: l) q ↔ p = some a ∧ Segment next (next a) l q := by
  constructor
  · rintro ⟨⟩
    rename_i h
    exact ⟨rfl, h⟩
  · rintro ⟨rfl, h⟩
    exact .cons h

/-- A segment can be cut anywhere, at the pointer `r` at which the second part begins. -/
theorem append_iff :
    Segment next p (l₁ ++ l₂) q ↔ ∃ r, Segment next p l₁ r ∧ Segment next r l₂ q := by
  induction l₁ generalizing p with
  | nil => simp
  | cons a l₁ ih => simp [ih, and_assoc]

/-- The last cell of a segment: it is where the rest ends, and its link is the end of the whole. -/
theorem concat_iff :
    Segment next p (l ++ [a]) q ↔ Segment next p l (some a) ∧ next a = q := by
  rw [append_iff]
  constructor
  · rintro ⟨r, hl, hr⟩
    obtain ⟨rfl, hq⟩ := cons_iff.mp hr
    exact ⟨hl, nil_iff.mp hq⟩
  · rintro ⟨hl, rfl⟩
    exact ⟨some a, hl, .cons (.nil _)⟩

/-- The cells in front of a cell of the segment, and those behind it. -/
theorem split (h : Segment next p l q) (ha : a ∈ l) :
    ∃ l₁ l₂, l = l₁ ++ a :: l₂ ∧ Segment next p l₁ (some a) ∧ Segment next (next a) l₂ q := by
  obtain ⟨l₁, l₂, rfl⟩ := List.append_of_mem ha
  obtain ⟨r, hfront, hback⟩ := append_iff.mp h
  obtain ⟨rfl, hrest⟩ := cons_iff.mp hback
  exact ⟨l₁, l₂, rfl, hfront, hrest⟩

/-- The first cell is visited, if any is. -/
theorem head_mem (h : Segment next (some a) l q) (hl : l ≠ []) : a ∈ l := by
  cases l with
  | nil => exact absurd rfl hl
  | cons b l =>
      obtain ⟨hab, _⟩ := cons_iff.mp h
      cases hab
      exact List.mem_cons_self

/-- The link of a visited cell leads to a visited cell or to the end. -/
theorem next_mem (h : Segment next p l (some a)) (hb : b ∈ l) :
    ∃ d ∈ l ++ [a], next b = some d := by
  obtain ⟨l₁, l₂, rfl, _, hrest⟩ := h.split hb
  cases l₂ with
  | nil => exact ⟨a, by simp, nil_iff.mp hrest⟩
  | cons d l₂ => exact ⟨d, by simp, (cons_iff.mp hrest).1⟩

/-- A list that ends is determined by its first cell. -/
theorem unique (h₁ : Segment next p l₁ none) (h₂ : Segment next p l₂ none) : l₁ = l₂ := by
  induction l₁ generalizing p l₂ with
  | nil =>
      obtain rfl := nil_iff.mp h₁
      cases l₂ with
      | nil => rfl
      | cons b l₂ => cases (cons_iff.mp h₂).1
  | cons a l₁ ih =>
      obtain ⟨rfl, hrest⟩ := cons_iff.mp h₁
      cases l₂ with
      | nil => cases nil_iff.mp h₂
      | cons b l₂ =>
          obtain ⟨hab, hrest'⟩ := cons_iff.mp h₂
          cases hab
          rw [ih hrest hrest']

/-- The first cell of a list that ends. -/
theorem eq_head? (h : Segment next p l none) : p = l.head? := by
  cases h with
  | nil => rfl
  | cons _ => rfl

/-- The cells from one on form a list of their own. -/
theorem suffix (h : Segment next p l none) (hsuffix : l₂ <:+ l) :
    Segment next l₂.head? l₂ none := by
  obtain ⟨l₁, rfl⟩ := hsuffix
  obtain ⟨r, _, hback⟩ := append_iff.mp h
  rw [← hback.eq_head?]
  exact hback

/-- The link of a cell leads to the one behind it. -/
theorem next_eq_head? (h : Segment next p l none) (hsuffix : (a :: l₂) <:+ l) :
    next a = l₂.head? :=
  (cons_iff.mp (h.suffix hsuffix)).2.eq_head?

/-- A list that ends visits no cell twice. -/
theorem nodup (h : Segment next p l none) : l.Nodup := by
  induction l generalizing p with
  | nil => exact List.nodup_nil
  | cons a l ih =>
      obtain ⟨_, h⟩ := cons_iff.mp h
      refine List.nodup_cons.mpr ⟨fun ha => ?_, ih h⟩
      -- The list behind `a` would be a proper part of itself.
      obtain ⟨l₁, l₂, rfl, _, hrest⟩ := h.split ha
      have hlen := congrArg List.length (hrest.unique h)
      simp only [List.length_append, List.length_cons] at hlen
      omega

/-- A segment depends on the links of its own cells only. -/
theorem congr (h : Segment next p l q) (hcongr : ∀ a ∈ l, next' a = next a) :
    Segment next' p l q := by
  induction h with
  | nil p => exact .nil p
  | cons _ ih =>
      refine .cons ?_
      rw [hcongr _ List.mem_cons_self]
      exact ih fun b hb => hcongr b (List.mem_cons_of_mem _ hb)

/-- A write to a cell off the segment leaves it in place. -/
theorem update [DecidableEq κ] (h : Segment next p l q) (ha : a ∉ l) :
    Segment (Function.update next a r) p l q :=
  h.congr fun b hb => Function.update_of_ne (fun hba : b = a => ha (hba ▸ hb)) _ _

/-- The last cell gets a new link. -/
theorem update_last [DecidableEq κ] (h : Segment next p l (some a)) (ha : a ∉ l) :
    Segment (Function.update next a r) p (l ++ [a]) r :=
  concat_iff.mpr ⟨h.update ha, Function.update_self ..⟩

/-- A new first cell. -/
theorem push [DecidableEq κ] (h : Segment next p l q) (ha : a ∉ l) :
    Segment (Function.update next a p) (some a) (a :: l) q := by
  refine .cons ?_
  rw [Function.update_self]
  exact h.update ha

/-- The cell `b` gets the link of the cell behind it, which is thus taken out. -/
theorem bypass [DecidableEq κ] (h : Segment next p (l₁ ++ b :: a :: l₂) q)
    (hnodup : (l₁ ++ b :: a :: l₂).Nodup) :
    Segment (Function.update next b (next a)) p (l₁ ++ b :: l₂) q := by
  obtain ⟨r, hfront, hback⟩ := append_iff.mp h
  obtain ⟨rfl, hlinked⟩ := cons_iff.mp hback
  obtain ⟨_, hrest⟩ := cons_iff.mp hlinked
  have hb₁ : b ∉ l₁ := fun hb => (List.nodup_append.mp hnodup).2.2 b hb b (by simp) rfl
  have hb₂ : b ∉ a :: l₂ := (List.nodup_cons.mp (List.nodup_append.mp hnodup).2.1).1
  refine append_iff.mpr ⟨some b, hfront.update hb₁, .cons ?_⟩
  rw [Function.update_self]
  exact hrest.update fun hb => hb₂ (List.mem_cons_of_mem a hb)

/-! ### Loops along a segment -/

section Loops

variable {σ β γ : Type} {turn : σ → Turn σ β}

/-- A loop that steps along a segment comes to its end. `state` is the state of the loop at a
cell, with an accumulator. -/
theorem whileLoop (h : Segment next p l q) (state : Option κ → γ → σ) (g : γ → κ → γ)
    (hturn : ∀ a ∈ l, ∀ c, turn (state (some a) c) = .next (state (next a) (g c a)))
    (fuel : Nat) (c : γ) :
    PTunes.whileLoop turn (fuel + l.length) (state p c) =
      PTunes.whileLoop turn fuel (state q (l.foldl g c)) := by
  induction h generalizing c with
  | nil p => rfl
  | @cons a l q _ ih =>
      rw [List.length_cons, ← Nat.add_assoc, whileLoop_next (hturn a List.mem_cons_self c)]
      exact ih (fun b hb => hturn b (List.mem_cons_of_mem a hb)) (g c a)

/-- A loop that steps along a list that ends comes to the null pointer. -/
theorem whileLoop_end (h : Segment next p l none) (state : Option κ → γ → σ) (g : γ → κ → γ)
    (hturn : ∀ a ∈ l, ∀ c, turn (state (some a) c) = .next (state (next a) (g c a)))
    {fuel : Nat} (hfuel : l.length < fuel) (c : γ) {b : β}
    (hdone : turn (state none (l.foldl g c)) = .done b) :
    PTunes.whileLoop turn fuel (state p c) = .returned b := by
  obtain ⟨k, rfl⟩ : ∃ k, fuel = (k + 1) + l.length := ⟨fuel - l.length - 1, by omega⟩
  rw [h.whileLoop state g hturn, whileLoop_done hdone]

/-- A loop that steps along a segment to a cell where it ends. -/
theorem whileLoop_stop (h : Segment next p l (some a)) (state : Option κ → γ → σ)
    (g : γ → κ → γ)
    (hturn : ∀ a ∈ l, ∀ c, turn (state (some a) c) = .next (state (next a) (g c a)))
    {fuel : Nat} (hfuel : l.length < fuel) (c : γ) {b : β}
    (hdone : turn (state (some a) (l.foldl g c)) = .done b) :
    PTunes.whileLoop turn fuel (state p c) = .returned b := by
  obtain ⟨k, rfl⟩ : ∃ k, fuel = (k + 1) + l.length := ⟨fuel - l.length - 1, by omega⟩
  rw [h.whileLoop state g hturn, whileLoop_done hdone]

/-- A loop that steps along a cycle runs forever. -/
theorem diverges (h : Segment next (some a) l (some a)) (hl : l ≠ [])
    (state : Option κ → γ → σ) (g : γ → κ → γ)
    (hturn : ∀ b ∈ l, ∀ c, turn (state (some b) c) = .next (state (next b) (g c b)))
    (fuel : Nat) (c : γ) : PTunes.whileLoop turn fuel (state (some a) c) = .running := by
  -- The states at the cells of the cycle, each with what is left of it.
  refine whileLoop_diverges
    (fun s => ∃ b l' c, b ∈ l ∧ s = state (some b) c ∧ l' ⊆ l ∧
      Segment next (some b) l' (some a) ∧ l' ≠ []) ?_ fuel ?_
  · rintro _ ⟨b, l', c, hb, rfl, hsub, hseg, hne⟩
    refine ⟨_, hturn b hb c, ?_⟩
    cases l' with
    | nil => exact absurd rfl hne
    | cons b' l' =>
        obtain ⟨heq, hrest⟩ := cons_iff.mp hseg
        cases heq
        have hsub' : l' ⊆ l := fun x hx => hsub (List.mem_cons_of_mem b hx)
        cases l' with
        | nil =>
            -- Once around.
            rw [nil_iff.mp hrest]
            exact ⟨a, l, g c b, h.head_mem hl, rfl, List.Subset.refl l, h, hl⟩
        | cons d l' =>
            obtain ⟨hd, _⟩ := cons_iff.mp hrest
            rw [hd]
            exact ⟨d, d :: l', g c b, hsub' List.mem_cons_self, rfl, hsub', hd ▸ hrest,
              List.cons_ne_nil d l'⟩
  · exact ⟨a, l, c, h.head_mem hl, rfl, List.Subset.refl l, h, hl⟩

end Loops

end Segment

end PTunes
