import Mathlib.Data.List.Induction
import Mathlib.Data.List.Nodup

/-!
# `PTunes.Lib.Fifo`: a queue whose head is handed over before it is removed

The items of a queue go to a service one at a time. The head is handed over, it stays in
the queue while the service works on it, and it is removed when the service reports its
completion. `FifoEvent` names the three events, and `Fifo.step` says which event is allowed
in which state: only the head is handed over, only while nothing else is, and only the item
that is handed over is removed.

`InOrder` is what a client of the queue wants of a list of events, without the states:
every removed item is the one that was handed over last, it was handed over once, and the
items are handed over in the order in which they were enqueued. `inOrder_of_run` proves it
for every list of events that `Fifo.run` accepts.
-/

set_option autoImplicit false

namespace PTunes

/-- The events of the queue. -/
inductive FifoEvent (α : Type)
  | enqueue (a : α)
  | handOver (a : α)
  | dequeue (a : α)
deriving DecidableEq

/-- The items in the queue, and whether the head is handed over. -/
structure Fifo (α : Type) where
  pending : List α
  inFlight : Bool

namespace Fifo

variable {α : Type}

/-- The items that are enqueued, in order. -/
def enqueued (es : List (FifoEvent α)) : List α :=
  es.filterMap fun | .enqueue a => some a | _ => none

/-- The items that are handed over, in order. -/
def handedOver (es : List (FifoEvent α)) : List α :=
  es.filterMap fun | .handOver a => some a | _ => none

/-- The items that are removed, in order. -/
def dequeued (es : List (FifoEvent α)) : List α :=
  es.filterMap fun | .dequeue a => some a | _ => none

/-- One more item is enqueued. -/
theorem enqueued_append_enqueue (es : List (FifoEvent α)) (a : α) :
    enqueued (es ++ [.enqueue a]) = enqueued es ++ [a] := by
  simp [enqueued]

/-- Handing items over enqueues nothing. -/
theorem enqueued_append_handOver (es : List (FifoEvent α)) (as : List α) :
    enqueued (es ++ as.map .handOver) = enqueued es := by
  simp [enqueued, List.filterMap_map]

/-- Removing items enqueues nothing. -/
theorem enqueued_append_dequeue (es : List (FifoEvent α)) (as : List α) :
    enqueued (es ++ as.map .dequeue) = enqueued es := by
  simp [enqueued, List.filterMap_map]

variable [DecidableEq α]

/-- What a client wants of a list of events. -/
structure InOrder (es : List (FifoEvent α)) : Prop where
  /-- A removed item is the one that was handed over last. -/
  completed : ∀ pre a post, es = pre ++ .dequeue a :: post →
    (handedOver pre).getLast? = some a
  /-- A removed item was handed over exactly once before. -/
  once : ∀ pre a post, es = pre ++ .dequeue a :: post → (handedOver pre).count a = 1
  /-- Items are handed over in the order in which they were enqueued. -/
  order : handedOver es <+: enqueued es

/-- The state after an event, if the event is allowed. -/
def step (f : Fifo α) : FifoEvent α → Option (Fifo α)
  | .enqueue a => some { f with pending := f.pending ++ [a] }
  | .handOver a =>
    if f.inFlight = false ∧ f.pending.head? = some a then some { f with inFlight := true }
    else none
  | .dequeue a =>
    if f.inFlight = true ∧ f.pending.head? = some a then some ⟨f.pending.tail, false⟩
    else none

/-- The state after a list of events, from the empty queue. -/
def run (es : List (FifoEvent α)) : Option (Fifo α) := es.foldlM step ⟨[], false⟩

/-- A run in two parts. The second one starts from the state that the first one has come to. -/
theorem run_append (es es' : List (FifoEvent α)) :
    run (es ++ es') = (run es).bind fun f => es'.foldlM step f :=
  List.foldlM_append

/-- A run of one event more. -/
theorem run_concat {es : List (FifoEvent α)} {f g : Fifo α} {e : FifoEvent α}
    (h : run es = some f) (hs : step f e = some g) : run (es ++ [e]) = some g := by
  rw [run_append, h]
  show step f e >>= pure = some g
  rw [hs]
  rfl

/-- What the state says about the events before it: the removed items and the pending ones
are the enqueued ones, and the removed items and the one in flight are the ones that were
handed over. -/
structure Tracks (es : List (FifoEvent α)) (f : Fifo α) : Prop where
  enqueued : enqueued es = dequeued es ++ f.pending
  handedOver : handedOver es = dequeued es ++ (if f.inFlight then f.pending.take 1 else [])
  head : f.inFlight = true → ∃ a, f.pending.head? = some a

omit [DecidableEq α] in
/-- Before the first event the queue is empty, and nothing is in flight. -/
theorem tracks_nil : Tracks ([] : List (FifoEvent α)) ⟨[], false⟩ where
  enqueued := rfl
  handedOver := rfl
  head h := by cases h

/-- What one event keeps. -/
theorem Tracks.step {es : List (FifoEvent α)} {f g : Fifo α} {e : FifoEvent α}
    (h : Tracks es f) (hs : f.step e = some g) : Tracks (es ++ [e]) g := by
  obtain ⟨henq, hhand, hhead⟩ := h
  have happ : ∀ p : FifoEvent α → Option α,
      (es ++ [e]).filterMap p = es.filterMap p ++ (p e).toList := by
    intro p
    rw [List.filterMap_append]
    cases hp : p e <;> simp [hp]
  cases e with
  | enqueue a =>
      cases hs
      refine ⟨?_, ?_, ?_⟩
      · simp only [Fifo.enqueued, dequeued, happ] at henq ⊢
        simp [henq]
      · simp only [Fifo.handedOver, dequeued, happ] at hhand ⊢
        -- An element in flight has been handed over and is still the head, so the new one goes
        -- behind it.
        by_cases hf : f.inFlight = true
        · obtain ⟨b, hb⟩ := hhead hf
          obtain ⟨rest, hr⟩ := List.head?_eq_some_iff.mp hb
          simpa [hf, hr] using hhand
        · simpa [hf] using hhand
      · intro hf
        obtain ⟨b, hb⟩ := hhead hf
        exact ⟨b, by rw [List.head?_append, hb]; rfl⟩
  | handOver a =>
      simp only [Fifo.step] at hs
      split at hs
      · rename_i hc
        cases hs
        obtain ⟨rest, hr⟩ := List.head?_eq_some_iff.mp hc.2
        refine ⟨?_, ?_, fun _ => ⟨a, hc.2⟩⟩
        · simp only [Fifo.enqueued, dequeued, happ] at henq ⊢
          -- The list of elements is as before, only the mark changes.
          simpa using henq
        · simp only [Fifo.handedOver, dequeued, happ] at hhand ⊢
          simpa [hc.1, hr] using hhand
      · cases hs
  | dequeue a =>
      simp only [Fifo.step] at hs
      split at hs
      · rename_i hc
        cases hs
        obtain ⟨rest, hr⟩ := List.head?_eq_some_iff.mp hc.2
        refine ⟨?_, ?_, fun hf => nomatch hf⟩
        · simp only [Fifo.enqueued, dequeued, happ] at henq ⊢
          -- The head goes from the list to the dequeued ones.
          simpa [hr] using henq
        · simp only [Fifo.handedOver, dequeued, happ] at hhand ⊢
          simpa [hc.1, hr] using hhand
      · cases hs

/-- The state tracks the events of every accepted list. -/
theorem tracks_of_run {es : List (FifoEvent α)} {f : Fifo α} (h : run es = some f) :
    Tracks es f := by
  induction es using List.reverseRecOn generalizing f with
  | nil =>
      cases h
      exact tracks_nil
  | append_singleton es e ih =>
      rw [run_append, Option.bind_eq_some_iff] at h
      obtain ⟨g, hg, hs⟩ := h
      have hs' : g.step e = some f := by
        simpa using hs
      exact (ih hg).step hs'

/-- Before an accepted removal, the removed item is the last one handed over. -/
theorem handedOver_of_run {pre post : List (FifoEvent α)} {a : α} {f : Fifo α}
    (h : run (pre ++ .dequeue a :: post) = some f) :
    ∃ g, run pre = some g ∧ handedOver pre = dequeued pre ++ [a] := by
  rw [run_append, Option.bind_eq_some_iff] at h
  obtain ⟨g, hg, hs⟩ := h
  refine ⟨g, hg, ?_⟩
  rw [List.foldlM_cons] at hs
  obtain ⟨g', hg', _⟩ := Option.bind_eq_some_iff.mp hs
  simp only [step] at hg'
  split at hg'
  · rename_i hc
    obtain ⟨rest, hr⟩ := List.head?_eq_some_iff.mp hc.2
    have hhand := (tracks_of_run hg).handedOver
    simpa [hc.1, hr] using hhand
  · cases hg'

/-- Every accepted list of events is in order, when every item is enqueued once. -/
theorem inOrder_of_run {es : List (FifoEvent α)} {f : Fifo α} (h : run es = some f)
    (hnd : (enqueued es).Nodup) : InOrder es where
  completed pre a post he := by
    subst he
    obtain ⟨g, _, hh⟩ := handedOver_of_run h
    rw [hh, List.getLast?_concat]
  once pre a post he := by
    subst he
    obtain ⟨g, hg, hh⟩ := handedOver_of_run h
    -- What is handed over before the removal is part of what is enqueued.
    have hsub : (enqueued pre).Sublist (enqueued (pre ++ .dequeue a :: post)) := by
      rw [enqueued, enqueued, List.filterMap_append]
      exact List.sublist_append_left _ _
    have hpre : handedOver pre <+: enqueued pre := by
      obtain ⟨henq, hhand, _⟩ := tracks_of_run hg
      rw [henq, hhand, List.prefix_append_right_inj]
      split
      · exact List.take_prefix 1 g.pending
      · exact List.nil_prefix
    have hnd' : (handedOver pre).Nodup := (hnd.sublist hsub).sublist hpre.sublist
    refine List.count_eq_one_of_mem hnd' ?_
    rw [hh]
    exact List.mem_append_right _ (List.mem_singleton_self a)
  order := by
    obtain ⟨henq, hhand, _⟩ := tracks_of_run h
    rw [henq, hhand, List.prefix_append_right_inj]
    split
    · exact List.take_prefix 1 f.pending
    · exact List.nil_prefix

end Fifo

end PTunes
