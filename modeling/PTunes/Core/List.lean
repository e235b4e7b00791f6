import PTunes.Lib.Chain

/-!
# `PTunes.Core.List`: linked lists (`core/lib/list.c`)

A `list_t` is the address of a variable that holds a pointer to the first cell. The cells are the
structures of the callers, whose first field is the link. Several lists share the memory.

The functions with a loop have a bound on the turns, and their value is a `Loop`: a walk along
links that form a cycle is `running` for every bound, and a loop that follows a null pointer has
`failed`. `list_copy` duplicates a list without its cells, and nobody calls it.
-/

set_option autoImplicit false

namespace PTunes.Core

/-- The links of the cells, and the first cells of the lists. -/
structure ListMem (ι κ : Type) where
  next : κ → Option κ
  head : ι → Option κ

namespace ListMem

variable {ι κ : Type} [DecidableEq ι] [DecidableEq κ]

/-- `c->next = p`. -/
def setNext (m : ListMem ι κ) (c : κ) (p : Option κ) : ListMem ι κ :=
  { m with next := Function.update m.next c p }

/-- `*list = p`. -/
def setHead (m : ListMem ι κ) (list : ι) (p : Option κ) : ListMem ι κ :=
  { m with head := Function.update m.head list p }

omit [DecidableEq ι] in
/-- A write to a link leaves the heads of the lists alone. -/
@[simp] theorem setNext_head (m : ListMem ι κ) (c : κ) (p : Option κ) :
    (m.setNext c p).head = m.head := rfl

omit [DecidableEq ι] in
/-- What was written to a link is read back. -/
@[simp] theorem setNext_next_self (m : ListMem ι κ) (c : κ) (p : Option κ) :
    (m.setNext c p).next c = p := Function.update_self ..

omit [DecidableEq ι] in
/-- A write to one link leaves the others alone. -/
theorem setNext_next_of_ne (m : ListMem ι κ) {c d : κ} (p : Option κ) (h : d ≠ c) :
    (m.setNext c p).next d = m.next d := Function.update_of_ne h _ _

omit [DecidableEq κ] in
/-- A write to the head of a list leaves the links alone. -/
@[simp] theorem setHead_next (m : ListMem ι κ) (list : ι) (p : Option κ) :
    (m.setHead list p).next = m.next := rfl

omit [DecidableEq κ] in
/-- What was written to the head of a list is read back. -/
@[simp] theorem setHead_head_self (m : ListMem ι κ) (list : ι) (p : Option κ) :
    (m.setHead list p).head list = p := Function.update_self ..

omit [DecidableEq κ] in
/-- A write to the head of one list leaves the other lists alone. -/
theorem setHead_head_of_ne (m : ListMem ι κ) {i j : ι} (p : Option κ) (h : j ≠ i) :
    (m.setHead i p).head j = m.head j := Function.update_of_ne h _ _

omit [DecidableEq κ] in
/-- `list_init`. -/
def listInit (m : ListMem ι κ) (list : ι) : ListMem ι κ := m.setHead list none

omit [DecidableEq ι] [DecidableEq κ] in
/-- `list_head`. -/
def listHead (m : ListMem ι κ) (list : ι) : Option κ := m.head list

/-- One turn of the loop of `list_tail`. -/
def tailTurn (m : ListMem ι κ) : Option κ → Turn (Option κ) (Option κ)
  | none => .fail
  | some l =>
    match m.next l with
    | none => .done (some l)
    | some n => .next (some n)

/-- `list_tail`. -/
def listTail (fuel : Nat) (m : ListMem ι κ) (list : ι) : Loop (Option κ) :=
  match m.head list with
  | none => .returned none
  | some l => whileLoop m.tailTurn fuel (some l)

/-- `list_add`. -/
def listAdd (fuel : Nat) (m : ListMem ι κ) (list : ι) (item : κ) : Loop (ListMem ι κ) :=
  let m := m.setNext item none
  (listTail fuel m list).bind fun l =>
    match l with
    | none => .returned (m.setHead list (some item))
    | some l => .returned (m.setNext l (some item))

/-- `list_push`. -/
def listPush (m : ListMem ι κ) (list : ι) (item : κ) : ListMem ι κ :=
  (m.setNext item (m.head list)).setHead list (some item)

/-- One turn of the loop of `list_chop`, which ends at the last cell but one. -/
def chopTurn (m : ListMem ι κ) : Option κ → Turn (Option κ) (κ × κ)
  | none => .fail
  | some l =>
    match m.next l with
    | none => .fail
    | some r =>
      match m.next r with
      | none => .done (l, r)
      | some _ => .next (some r)

/-- `list_chop`. -/
def listChop (fuel : Nat) (m : ListMem ι κ) (list : ι) : Loop (Option κ × ListMem ι κ) :=
  match m.head list with
  | none => .returned (none, m)
  | some l =>
    match m.next l with
    | none => .returned (some l, m.setHead list none)
    | some _ =>
      (whileLoop m.chopTurn fuel (some l)).bind fun e =>
        .returned (some e.2, m.setNext e.1 none)

/-- `list_pop`. -/
def listPop (m : ListMem ι κ) (list : ι) : Option κ × ListMem ι κ :=
  match m.head list with
  | none => (none, m)
  | some l => (some l, m.setHead list (m.next l))

/-- One turn of the loop of `list_remove`. The state has `l` and `r`, the result says whether the
item was found, and `r`. -/
def removeTurn (m : ListMem ι κ) (item : κ) :
    Option κ × Option κ → Turn (Option κ × Option κ) (Option (Option κ))
  | (none, _) => .done none
  | (some l, r) => if l = item then .done (some r) else .next (m.next l, some l)

/-- `list_remove`. -/
def listRemove (fuel : Nat) (m : ListMem ι κ) (list : ι) (item : κ) : Loop (ListMem ι κ) :=
  (whileLoop (m.removeTurn item) fuel (m.head list, none)).bind fun found =>
    match found with
    | none => .returned m
    | some none => .returned ((m.setHead list (m.next item)).setNext item none)
    | some (some r) => .returned ((m.setNext r (m.next item)).setNext item none)

/-- One turn of the loop of `list_length`. -/
def lengthTurn (m : ListMem ι κ) : Option κ × Nat → Turn (Option κ × Nat) Nat
  | (none, n) => .done n
  | (some l, n) => .next (m.next l, n + 1)

/-- `list_length`. -/
def listLength (fuel : Nat) (m : ListMem ι κ) (list : ι) : Loop Nat :=
  whileLoop m.lengthTurn fuel (m.head list, 0)

/-- `list_insert`. -/
def listInsert (m : ListMem ι κ) (list : ι) (previtem : Option κ) (newitem : κ) : ListMem ι κ :=
  match previtem with
  | none => m.listPush list newitem
  | some p => (m.setNext newitem (m.next p)).setNext p (some newitem)

/-! ### Sequences of calls -/

/-- A call of one of the functions. -/
inductive ListCall (ι κ : Type)
  | init (list : ι)
  | head (list : ι)
  | tail (list : ι)
  | add (list : ι) (item : κ)
  | push (list : ι) (item : κ)
  | chop (list : ι)
  | pop (list : ι)
  | remove (list : ι) (item : κ)
  | length (list : ι)
  | insert (list : ι) (previtem : Option κ) (newitem : κ)
deriving DecidableEq, Repr

/-- What a call returns. -/
inductive ListResult (κ : Type)
  | void
  | item (p : Option κ)
  | length (n : Nat)
deriving DecidableEq, Repr

/-- One call. -/
def call (fuel : Nat) (m : ListMem ι κ) : ListCall ι κ → Loop (ListMem ι κ × ListResult κ)
  | .init list => .returned (m.listInit list, .void)
  | .head list => .returned (m, .item (m.listHead list))
  | .tail list => (m.listTail fuel list).bind fun p => .returned (m, .item p)
  | .add list item => (m.listAdd fuel list item).bind fun m => .returned (m, .void)
  | .push list item => .returned (m.listPush list item, .void)
  | .chop list => (m.listChop fuel list).bind fun r => .returned (r.2, .item r.1)
  | .pop list => .returned ((m.listPop list).2, .item (m.listPop list).1)
  | .remove list item => (m.listRemove fuel list item).bind fun m => .returned (m, .void)
  | .length list => (m.listLength fuel list).bind fun n => .returned (m, .length n)
  | .insert list previtem newitem => .returned (m.listInsert list previtem newitem, .void)

/-- A sequence of calls, with the results. -/
def calls (fuel : Nat) :
    ListMem ι κ → List (ListCall ι κ) → Loop (ListMem ι κ × List (ListResult κ))
  | m, [] => .returned (m, [])
  | m, c :: cs =>
    (call fuel m c).bind fun r =>
      (calls fuel r.1 cs).bind fun rs => .returned (rs.1, r.2 :: rs.2)

end ListMem

end PTunes.Core
