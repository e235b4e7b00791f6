import Mathlib.Data.List.Basic

/-!
# `PTunes.Core.Process`: the event queue of the kernel (`process.c`)

`process_post` puts an event behind the last one in a ring of `PROCESS_CONF_NUMEVENTS` places,
or fails when the ring is full. `do_event` takes the first event out.

`contents` is the list of the events in the ring. The functions below are those of a bounded
first-in first-out queue of it:

* `contents_post`: a posted event is the last one.
* `contents_doEvent`: the event that is taken out is the first one.
-/

set_option autoImplicit false

namespace PTunes.Core

/-- `PROCESS_CONF_NUMEVENTS` of the sky. The kernel's own value is 32. -/
def processConfNumevents : Nat := 8

/-- `events`, `fevent` and `nevents`. -/
structure EventQueue (ε : Type) where
  events : Nat → ε
  fevent : Nat
  nevents : Nat
  fevent_lt : fevent < processConfNumevents
  nevents_le : nevents ≤ processConfNumevents

namespace EventQueue

variable {ε : Type}

/-- The queue before the first event. The array holds zeros. -/
def init (zero : ε) : EventQueue ε where
  events := fun _ => zero
  fevent := 0
  nevents := 0
  fevent_lt := by decide
  nevents_le := Nat.zero_le _

/-- `process_post`. `none` is `PROCESS_ERR_FULL`. -/
def post (q : EventQueue ε) (e : ε) : Option (EventQueue ε) :=
  if h : q.nevents = processConfNumevents then none
  else
    let snum := (q.fevent + q.nevents) % processConfNumevents
    some
      { events := fun i => if i = snum then e else q.events i
        fevent := q.fevent
        nevents := q.nevents + 1
        fevent_lt := q.fevent_lt
        nevents_le := Nat.lt_of_le_of_ne q.nevents_le h }

/-- `do_event`, up to the calls of the processes: the event, and the queue behind it. -/
def doEvent (q : EventQueue ε) : Option (ε × EventQueue ε) :=
  if 0 < q.nevents then
    some (q.events q.fevent,
      { q with
        fevent := (q.fevent + 1) % processConfNumevents
        nevents := q.nevents - 1
        fevent_lt := Nat.mod_lt _ (by decide)
        nevents_le := Nat.le_trans (Nat.sub_le _ _) q.nevents_le })
  else none

/-- The events in the queue, the first one first. -/
def contents (q : EventQueue ε) : List ε :=
  (List.range q.nevents).map fun i => q.events ((q.fevent + i) % processConfNumevents)

/-- A posted event is the last one. -/
theorem contents_post {q q' : EventQueue ε} {e : ε} (h : q.post e = some q') :
    q'.contents = q.contents ++ [e] := by
  rw [post] at h
  split at h
  · exact nomatch h
  · rename_i hne
    cases h
    have hle := q.nevents_le
    rw [contents, List.range_succ, List.map_append, List.map_singleton]
    refine congrArg₂ (· ++ ·) (List.map_congr_left fun i hi => ?_)
      (congrArg (fun e => [e]) (if_pos rfl))
    -- The places before the new one are others.
    have hlt := List.mem_range.mp hi
    refine if_neg ?_
    show (q.fevent + i) % processConfNumevents ≠ (q.fevent + q.nevents) % processConfNumevents
    rw [processConfNumevents] at hle hne ⊢
    omega

/-- A post fails only when the queue is full. -/
theorem exists_post {q : EventQueue ε} (h : q.nevents < processConfNumevents) (e : ε) :
    ∃ q', q.post e = some q' := by
  rw [post, dif_neg (Nat.ne_of_lt h)]
  exact ⟨_, rfl⟩

/-- The event that is taken out is the first one. -/
theorem contents_doEvent {q q' : EventQueue ε} {e : ε} (h : q.doEvent = some (e, q')) :
    q.contents = e :: q'.contents := by
  rw [doEvent] at h
  split at h
  · rename_i hpos
    cases h
    have hrange : List.range q.nevents = 0 :: (List.range (q.nevents - 1)).map Nat.succ := by
      rw [← List.range_succ_eq_map, Nat.sub_add_cancel hpos]
    rw [contents, hrange, List.map_cons, List.map_map]
    refine congrArg₂ List.cons (congrArg q.events (Nat.mod_eq_of_lt q.fevent_lt))
      (List.map_congr_left fun i _ => ?_)
    -- Both sides are `i + 1` places behind the first event.
    refine congrArg q.events ?_
    show (q.fevent + (i + 1)) % 8 = ((q.fevent + 1) % 8 + i) % 8
    omega
  · exact nomatch h

end EventQueue

end PTunes.Core
