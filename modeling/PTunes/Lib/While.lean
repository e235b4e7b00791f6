import Mathlib.Data.List.Forall2
import Mathlib.Logic.Basic

/-!
# `PTunes.Lib.While`: loops that may fail or run forever

One turn of a loop ends it with a result (`done`), goes on with a new state (`next`), or
raises an exception (`fail`). `whileLoop turn fuel s` runs at most `fuel` turns, so its
value is a `Loop`: `returned`, `failed` or still `running`. A loop terminates from `s` when
some fuel makes it `returned`, and it runs forever when every fuel leaves it `running`.

The rules:

* `whileLoop_mono`: fuel is only a bound, more of it gives the same result.
* `whileLoop_rule`: a variant that every turn lowers, with an invariant: the loop does not
  run out of a fuel above the variant, and it returns what the invariant says of `done`.
* `whileLoop_diverges`: a set of states that every turn stays in is never left.

`bind` and `mapLoop` run one loop after another.
-/

set_option autoImplicit false

namespace PTunes

/-- What one turn of a loop does. -/
inductive Turn (σ β : Type)
  | done (b : β)
  | next (s : σ)
  | fail

/-- What a bounded run of a loop has come to. -/
inductive Loop (β : Type)
  | returned (b : β)
  | failed
  | running
  deriving DecidableEq, Repr

section While

variable {σ β γ : Type} (turn : σ → Turn σ β)

/-- Run a loop for at most so many turns. -/
def whileLoop : Nat → σ → Loop β
  | 0, _ => .running
  | fuel + 1, s =>
      match turn s with
      | .done b => .returned b
      | .next s' => whileLoop fuel s'
      | .fail => .failed

variable {turn}

/-- A turn that ends the loop. -/
theorem whileLoop_done {s : σ} {b : β} (h : turn s = .done b) (fuel : Nat) :
    whileLoop turn (fuel + 1) s = .returned b := by
  rw [whileLoop, h]

/-- A turn that goes on with `s'`. -/
theorem whileLoop_next {s s' : σ} (h : turn s = .next s') (fuel : Nat) :
    whileLoop turn (fuel + 1) s = whileLoop turn fuel s' := by
  rw [whileLoop, h]

/-- A turn that throws. -/
theorem whileLoop_fail {s : σ} (h : turn s = .fail) (fuel : Nat) :
    whileLoop turn (fuel + 1) s = .failed := by
  rw [whileLoop, h]

/-- A run that has ended ends in the same way with more fuel. -/
theorem whileLoop_mono {n m : Nat} (hnm : n ≤ m) {s : σ} (h : whileLoop turn n s ≠ .running) :
    whileLoop turn m s = whileLoop turn n s := by
  induction n generalizing m s with
  | zero => exact absurd rfl h
  | succ n ih =>
      obtain ⟨k, rfl⟩ : ∃ k, m = k + 1 := ⟨m - 1, by omega⟩
      cases ht : turn s with
      | done b => rw [whileLoop_done ht, whileLoop_done ht]
      | fail => rw [whileLoop_fail ht, whileLoop_fail ht]
      | next s' =>
          rw [whileLoop_next ht] at h ⊢
          rw [whileLoop_next ht]
          exact ih (by omega) h

/-- The rule of total correctness: under the invariant `I` no turn fails, every turn that
goes on keeps `I` and lowers the variant, and every turn that ends gives `Q`. -/
theorem whileLoop_rule (I : σ → Prop) (variant : σ → Nat) (Q : β → Prop)
    (hfail : ∀ s, I s → turn s ≠ .fail)
    (hnext : ∀ s s', I s → turn s = .next s' → I s' ∧ variant s' < variant s)
    (hdone : ∀ s b, I s → turn s = .done b → Q b) {fuel : Nat} {s : σ} (hs : I s)
    (hfuel : variant s < fuel) : ∃ b, whileLoop turn fuel s = .returned b ∧ Q b := by
  induction fuel generalizing s with
  | zero => omega
  | succ fuel ih =>
      cases ht : turn s with
      | done b => exact ⟨b, whileLoop_done ht fuel, hdone s b hs ht⟩
      | fail => exact absurd ht (hfail s hs)
      | next s' =>
          obtain ⟨hs', hlt⟩ := hnext s s' hs ht
          rw [whileLoop_next ht]
          exact ih hs' (by omega)

/-- A loop that never leaves the states of `I` runs forever from each of them. -/
theorem whileLoop_diverges (I : σ → Prop) (hnext : ∀ s, I s → ∃ s', turn s = .next s' ∧ I s')
    (fuel : Nat) {s : σ} (hs : I s) : whileLoop turn fuel s = .running := by
  induction fuel generalizing s with
  | zero => rfl
  | succ fuel ih =>
      obtain ⟨s', ht, hs'⟩ := hnext s hs
      rw [whileLoop_next ht]
      exact ih hs'

end While

namespace Loop

variable {α β γ : Type}

/-- Go on with the result of a loop. -/
def bind : Loop β → (β → Loop γ) → Loop γ
  | .returned b, f => f b
  | .failed, _ => .failed
  | .running, _ => .running

/-- Run a loop for each element of a list and collect the results. -/
def mapLoop (f : α → Loop β) : List α → Loop (List β)
  | [] => .returned []
  | a :: l => (f a).bind fun b => (mapLoop f l).bind fun bs => .returned (b :: bs)

/-- Two loops one after the other return when both do. -/
theorem bind_eq_returned {l : Loop β} {f : β → Loop γ} {c : γ} :
    l.bind f = .returned c ↔ ∃ b, l = .returned b ∧ f b = .returned c := by
  cases l <;> simp [bind]

/-- Loops that each return something with a property return together a list of such
results. -/
theorem exists_mapLoop {f : α → Loop β} {l : List α} {Q : α → β → Prop}
    (h : ∀ a ∈ l, ∃ b, f a = .returned b ∧ Q a b) :
    ∃ bs, mapLoop f l = .returned bs ∧ List.Forall₂ Q l bs := by
  induction l with
  | nil => exact ⟨[], rfl, List.Forall₂.nil⟩
  | cons a l ih =>
      obtain ⟨b, hb, hq⟩ := h a List.mem_cons_self
      obtain ⟨bs, hbs, hqs⟩ := ih fun a' ha' => h a' (List.mem_cons_of_mem _ ha')
      refine ⟨b :: bs, ?_, List.Forall₂.cons hq hqs⟩
      rw [mapLoop, hb, bind, hbs]
      rfl

/-- What returns for each element also returns together. -/
theorem mapLoop_mono {f g : α → Loop β} (hfg : ∀ a b, f a = .returned b → g a = .returned b)
    {l : List α} {bs : List β} (h : mapLoop f l = .returned bs) :
    mapLoop g l = .returned bs := by
  induction l generalizing bs with
  | nil => exact h
  | cons a l ih =>
      obtain ⟨b, hb, h'⟩ := bind_eq_returned.mp h
      obtain ⟨bs', hbs, heq⟩ := bind_eq_returned.mp h'
      exact bind_eq_returned.mpr ⟨b, hfg a b hb, bind_eq_returned.mpr ⟨bs', ih hbs, heq⟩⟩

/-- When the loops of a list have returned, each of them has. -/
theorem exists_of_mapLoop {f : α → Loop β} {l : List α} {bs : List β}
    (h : mapLoop f l = .returned bs) {a : α} (ha : a ∈ l) : ∃ b, f a = .returned b := by
  induction l generalizing bs with
  | nil => cases ha
  | cons a' l ih =>
      obtain ⟨b, hb, h'⟩ := bind_eq_returned.mp h
      obtain ⟨bs', hbs, _⟩ := bind_eq_returned.mp h'
      rcases List.mem_cons.mp ha with rfl | ha
      · exact ⟨b, hb⟩
      · exact ih hbs ha

end Loop

end PTunes
