import PTunes.Lib.While

/-!
# `PTunes.Lib.Completion`: code that may throw or run forever

`Completion ε α` is what becomes of a piece of code: it returns a value, it throws an exception,
or it is still running when the bound on its loops is reached. It is a monad, so a sequence of
statements can be written with `do`.

`OnlyThrows P c` says which exceptions can come out of `c`. The rules follow the statements:
`OnlyThrows.bind` for a sequence, `OnlyThrows.ofLoop` for a loop that does not fail.
-/

set_option autoImplicit false

namespace PTunes

/-- What becomes of a piece of code. -/
inductive Completion (ε α : Type)
  | returned (a : α)
  | threw (e : ε)
  | running
  deriving DecidableEq, Repr

namespace Completion

variable {ε α β : Type}

/-- The statements after this one run only when it returns. -/
def bind : Completion ε α → (α → Completion ε β) → Completion ε β
  | .returned a, f => f a
  | .threw e, _ => .threw e
  | .running, _ => .running

instance : Monad (Completion ε) where
  pure := .returned
  bind := bind

/-- A loop, which throws `e` when it fails. -/
def ofLoop (e : ε) : Loop α → Completion ε α
  | .returned a => .returned a
  | .failed => .threw e
  | .running => .running

/-- Only exceptions with the property come out of the code. -/
def OnlyThrows (P : ε → Prop) (c : Completion ε α) : Prop := ∀ e, c = .threw e → P e

/-- A value throws nothing, so every property holds of what it throws. -/
theorem OnlyThrows.pure (P : ε → Prop) (a : α) :
    OnlyThrows P (Pure.pure a : Completion ε α) := by
  intro e he
  cases he

/-- An exception with the property. -/
theorem OnlyThrows.throw {P : ε → Prop} {e : ε} (h : P e) :
    OnlyThrows P (.threw e : Completion ε α) := by
  intro e' he
  cases he
  exact h

/-- A sequence of statements. What the second one throws is asked for the values only that the first
one can return. -/
theorem OnlyThrows.bind {P : ε → Prop} {c : Completion ε α} {f : α → Completion ε β}
    (hc : OnlyThrows P c) (hf : ∀ a, c = .returned a → OnlyThrows P (f a)) :
    OnlyThrows P (c >>= f) := by
  cases hcase : c with
  | returned a => exact hf a hcase
  | threw e => exact .throw (hc e hcase)
  | running =>
      intro e he
      cases he

/-- A loop throws when it fails, so one that does not fail throws nothing. -/
theorem OnlyThrows.ofLoop {P : ε → Prop} {e : ε} {l : Loop α} (h : l ≠ .failed) :
    OnlyThrows P (ofLoop e l) := by
  intro e' he
  cases l with
  | returned a => cases he
  | failed => exact absurd rfl h
  | running => cases he

end Completion

namespace Loop

variable {α β γ : Type}

/-- Two loops one after the other. The second one is asked for the results only that the first one
can have. -/
theorem bind_ne_failed {l : Loop β} {f : β → Loop γ} (hl : l ≠ .failed)
    (hf : ∀ b, l = .returned b → f b ≠ .failed) : l.bind f ≠ .failed := by
  cases hcase : l with
  | returned b => exact hf b hcase
  | failed => exact absurd hcase hl
  | running => exact fun h => nomatch h

/-- Loops of which none fails do not fail together. -/
theorem mapLoop_ne_failed {f : α → Loop β} {l : List α} (h : ∀ a ∈ l, f a ≠ .failed) :
    mapLoop f l ≠ .failed := by
  induction l with
  | nil =>
      intro h
      cases h
  | cons a l ih =>
      rw [mapLoop]
      refine bind_ne_failed (h a List.mem_cons_self) fun b _ => ?_
      refine bind_ne_failed (ih fun a' ha' => h a' (List.mem_cons_of_mem _ ha')) fun bs _ => ?_
      intro h
      cases h

end Loop

/-- A loop does not fail when no turn fails under an invariant. -/
theorem whileLoop_ne_failed {σ β : Type} {turn : σ → Turn σ β} (I : σ → Prop)
    (hfail : ∀ s, I s → turn s ≠ .fail)
    (hnext : ∀ s s', I s → turn s = .next s' → I s') (fuel : Nat) {s : σ} (hs : I s) :
    whileLoop turn fuel s ≠ .failed := by
  induction fuel generalizing s with
  | zero => exact fun h => nomatch h
  | succ fuel ih =>
      cases ht : turn s with
      | done b =>
          rw [whileLoop_done ht]
          exact fun h => nomatch h
      | fail => exact absurd ht (hfail s hs)
      | next s' =>
          rw [whileLoop_next ht]
          exact ih (hnext s s' hs ht)

end PTunes
