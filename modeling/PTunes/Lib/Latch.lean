import Mathlib.Algebra.Order.Group.Nat

/-!
# `PTunes.Lib.Latch`: a register that a later event overwrites

An event handler stores a value in a register and the program reads it later. What the program
reads belongs to the last event, which need not be the event the program is about. `Latch`
counts the events that stored something, and a `Stamp` is what one event stored together with
its number.

* `Stamp.Valid`: the register still holds the value of the stamp if no event came after it. Every
  event keeps this (`Stamp.Valid.fire`), and the event itself establishes it
  (`Stamp.valid_ofFire`).
* `Stamp.Valid.value_eq`: what is read is the stamp's own value when no event came after it.
-/

set_option autoImplicit false

namespace PTunes

/-- A register and the number of events that stored something in it. -/
structure Latch (α : Type) where
  /-- What the last event stored. -/
  value : α
  /-- The number of events so far. -/
  fires : Nat
deriving DecidableEq, Repr

/-- An event stores `v`. -/
def Latch.fire {α : Type} (l : Latch α) (v : α) : Latch α := ⟨v, l.fires + 1⟩

/-- What an event was about: its value, and the number of the event if one was raised. -/
structure Stamp (α : Type) where
  /-- The value the event stores. -/
  value : α
  /-- The number of the event, `none` if none was raised. -/
  serial : Option Nat
deriving DecidableEq, Repr

namespace Stamp

variable {α : Type}

/-- The stamp of the event that has just fired. -/
def ofFire (l : Latch α) (v : α) : Stamp α := ⟨v, some (l.fire v).fires⟩

/-- The last event is the one of the stamp. -/
def Current (st : Stamp α) (l : Latch α) : Prop := st.serial = some l.fires

instance (st : Stamp α) (l : Latch α) : Decidable (st.Current l) :=
  inferInstanceAs (Decidable (st.serial = some l.fires))

/-- The stamp is of an event of the past, and if that was the last one, the register still holds
its value. -/
def Valid (st : Stamp α) (l : Latch α) : Prop :=
  ∀ n, st.serial = some n → n ≤ l.fires ∧ (n = l.fires → l.value = st.value)

/-- No event was raised. -/
theorem valid_none (v : α) (l : Latch α) : Valid ⟨v, none⟩ l := fun _ h => nomatch h

/-- The stamp of the event that has just fired. -/
theorem valid_ofFire (l : Latch α) (v : α) : Valid (ofFire l v) (l.fire v) := by
  intro n hn
  cases hn
  exact ⟨le_rfl, fun _ => rfl⟩

/-- A later event is not the one of the stamp. -/
theorem Valid.fire {st : Stamp α} {l : Latch α} (h : st.Valid l) (v : α) : st.Valid (l.fire v) := by
  intro n hn
  have hle := (h n hn).1
  exact ⟨Nat.le_succ_of_le hle, fun heq => absurd heq (Nat.lt_succ_of_le hle).ne⟩

/-- What is read while the event is the last one is what the event stored. -/
theorem Valid.value_eq {st : Stamp α} {l : Latch α} (h : st.Valid l) (hcur : st.Current l) :
    l.value = st.value := (h _ hcur).2 rfl

end Stamp

end PTunes
