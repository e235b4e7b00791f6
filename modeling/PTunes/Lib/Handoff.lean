import Mathlib.Data.List.Induction

/-!
# `PTunes.Lib.Handoff`: requests that are completed once

One party hands requests to another one, at most one at a time, and the other party reports
the completion of each. `owes l` runs over the events `l`. It is `some b` when requests and
completions alternate, and then `b` says whether a completion is owed. It is `none` when a
completion came that was not owed, or a request while another one was open.

* `owes_request`, `owes_complete`: the two steps that keep a record in order.
* `owes_eq_lastIsRequest`: in a record in order, a completion is owed exactly when the last
  event is a request.
-/

set_option autoImplicit false

namespace PTunes.Handoff

/-- What is recorded. -/
inductive Event
  | request
  | complete
deriving DecidableEq, Repr

/-- One event, when a completion is owed or not. -/
def Event.next : Bool → Event → Option Bool
  | false, .request => some true
  | true, .complete => some false
  | _, _ => none

/-- Whether a completion is owed after the events, if they are in order. -/
def owes (l : List Event) : Option Bool := l.foldlM Event.next false

/-- The last event is a request. -/
def lastIsRequest (l : List Event) : Bool := l.getLast? == some .request

/-- One more event, from what is owed after the others. Events that are out of order stay so,
whatever comes after them. -/
theorem owes_append (l : List Event) (e : Event) :
    owes (l ++ [e]) = (owes l).bind fun b => e.next b := by
  rw [owes, List.foldlM_append]
  cases h : l.foldlM Event.next false with
  | none => simp [owes, h]
  | some b => simp [owes, h]

/-- A request while nothing is owed. -/
theorem owes_request {l : List Event} (h : owes l = some false) :
    owes (l ++ [.request]) = some true := by
  rw [owes_append, h]
  rfl

/-- The completion that is owed. -/
theorem owes_complete {l : List Event} (h : owes l = some true) :
    owes (l ++ [.complete]) = some false := by
  rw [owes_append, h]
  rfl

/-- A completion is owed when the last event is a request. -/
theorem owes_eq_lastIsRequest {l : List Event} {b : Bool} (h : owes l = some b) :
    lastIsRequest l = b := by
  rcases List.eq_nil_or_concat l with rfl | ⟨l, e, rfl⟩
  · cases h
    rfl
  · rw [List.concat_eq_append, owes_append] at h
    obtain ⟨c, _, hnext⟩ := Option.bind_eq_some_iff.mp h
    cases c <;> cases e <;> cases hnext <;> simp [lastIsRequest, List.concat_eq_append]

end PTunes.Handoff
