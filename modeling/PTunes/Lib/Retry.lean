import Mathlib.Data.List.Basic

/-!
# `PTunes.Lib.Retry`: jobs that are attempted until they succeed

A service takes one job at a time. A job has a limit, and it is attempted at most `limit + 1`
times. The service reports the end of the job once, with the number of attempts after the
first: a success when some attempt succeeded, and that it gave up otherwise.

`Trace l job` says that the events `l` follow these rules, and that `job` is the job that has
been accepted and not been reported yet. What a trace determines:

* `Trace.attemptsOf_eq`: the attempts of the open job are those at the end of the events.
* `Trace.attempts_le`: the open job has at most `limit + 1` attempts.
* `Trace.accepted_mem`: the open job was accepted with its limit.
-/

set_option autoImplicit false

namespace PTunes.Retry

/-- What happens to the jobs. -/
inductive Event
  | accepted (limit : Nat)
  | attempt (ok : Bool)
  | succeeded (repeats : Nat)
  | gaveUp (repeats : Nat)
deriving DecidableEq, Repr

/-- A job that has not ended: its limit and the results of its attempts. -/
structure Job where
  limit : Nat
  attempts : List Bool

/-- The event is an attempt. -/
def Event.isAttempt : Event → Bool
  | .attempt _ => true
  | _ => false

/-- The number of attempts at the end of the events. -/
def attemptsOf (l : List Event) : Nat := (l.reverse.takeWhile Event.isAttempt).length

/-- The events follow the rules, with `job` open at their end. -/
inductive Trace : List Event → Option Job → Prop
  | nil : Trace [] none
  | accepted {l : List Event} (limit : Nat) :
      Trace l none → Trace (l ++ [.accepted limit]) (some ⟨limit, []⟩)
  | attempt {l : List Event} {job : Job} (ok : Bool) :
      Trace l (some job) → job.attempts.length ≤ job.limit →
      Trace (l ++ [.attempt ok]) (some ⟨job.limit, job.attempts ++ [ok]⟩)
  | succeeded {l : List Event} {job : Job} {repeats : Nat} :
      Trace l (some job) → true ∈ job.attempts → repeats + 1 = job.attempts.length →
      Trace (l ++ [.succeeded repeats]) none
  | gaveUp {l : List Event} {job : Job} {repeats : Nat} :
      Trace l (some job) → true ∉ job.attempts → repeats + 1 = job.attempts.length →
      Trace (l ++ [.gaveUp repeats]) none

/-- An attempt is one more. -/
theorem attemptsOf_attempt (l : List Event) (ok : Bool) :
    attemptsOf (l ++ [.attempt ok]) = attemptsOf l + 1 := by
  simp [attemptsOf, List.takeWhile_cons, Event.isAttempt]

/-- The attempts of the open job are at the end of the events. -/
theorem Trace.attemptsOf_eq {l : List Event} {job : Job} (h : Trace l (some job)) :
    attemptsOf l = job.attempts.length := by
  generalize hj : some job = j at h
  induction h generalizing job with
  | accepted limit _ _ =>
      cases hj
      simp [attemptsOf, Event.isAttempt]
  | attempt ok _ _ ih =>
      cases hj
      rw [attemptsOf_attempt, ih rfl]
      simp
  | nil => cases hj
  | succeeded _ _ _ _ => cases hj
  | gaveUp _ _ _ _ => cases hj

/-- The open job has at most one attempt more than its limit. -/
theorem Trace.attempts_le {l : List Event} {job : Job} (h : Trace l (some job)) :
    job.attempts.length ≤ job.limit + 1 := by
  cases h with
  | accepted limit _ => simp
  | attempt ok _ hle => simpa using hle

/-- The open job was accepted with its limit. -/
theorem Trace.accepted_mem {l : List Event} {job : Job} (h : Trace l (some job)) :
    Event.accepted job.limit ∈ l := by
  generalize hj : some job = j at h
  induction h generalizing job with
  | accepted limit _ _ =>
      cases hj
      simp
  | attempt ok _ _ ih =>
      cases hj
      simpa using ih rfl
  | nil => cases hj
  | succeeded _ _ _ _ => cases hj
  | gaveUp _ _ _ _ => cases hj

end PTunes.Retry
