import PTunes.Core.Etimer

/-!
# `PTunes.Core.Ctimer`: callback timers (`core/net/rime/ctimer.c`)

A callback timer has an event timer of its own, which `ctimer_process` sets. When its event
reaches the process, and the timer is on `ctimer_list`, it is taken off the list and its function is
called.

The timers `κ` are the callback timers, and `ε` the event timers of the other processes. The event
timers are those of `Etimers`, with every interrupt and every point at which it can come. The list
is changed together with the call of the event timer: no other process runs in between. The
callback does what a process does, so its calls are labels of their own.

`queue` has the events of `ctimer_process` in the event queue of the kernel. `log` records what
happened, the last event first. The node is behind `ctimer_init`, which empties the list, and
`ctimer_process` never ends.
-/

set_option autoImplicit false

namespace PTunes.Core

/-- What happens to a callback timer. `stale` says that an event of it was still in the queue. A
callback without a function calls nothing. -/
inductive CtimerEvent (κ φ : Type)
  | set (c : κ) (time : Nat) (t : UInt16) (f : Option φ) (stale : Bool)
  | reset (c : κ) (stale : Bool)
  | stop (c : κ)
  | callback (c : κ) (f : Option φ) (time : Nat)
deriving DecidableEq, Repr

/-- The event timers, `ctimer_list`, the function of each timer, and the events on their way. A
function stands for `f` with the pointer that it is called with. The process `p`, in whose context
it is called, is left out: no function of the module reads it otherwise. -/
structure Ctimers (κ ε π φ : Type) where
  etimers : Etimers (κ ⊕ ε) π
  ctimerList : List κ
  f : κ → Option φ
  queue : List κ
  log : List (CtimerEvent κ φ)

/-- The calls, the calls of other event timers, the steps of the event timers, and the delivery of
an event to `ctimer_process`. -/
inductive CtimerLabel (κ ε π φ : Type)
  | set (c : κ) (t : UInt16) (f : Option φ)
  | reset (c : κ)
  | stop (c : κ)
  | other (caller : Option π) (call : EtimerCall ε)
  | code (posted : Bool)
  | poll
  | exited (p : π)
  | tick (late : Fin 256)
  | deliver
deriving DecidableEq, Repr

/-- A call of another event timer. -/
def EtimerCall.other {κ ε : Type} : EtimerCall ε → EtimerCall (κ ⊕ ε)
  | .set et interval => .set (.inr et) interval
  | .reset et => .reset (.inr et)
  | .restart et => .restart (.inr et)
  | .adjust et timediff => .adjust (.inr et) timediff
  | .stop et => .stop (.inr et)

namespace Ctimers

variable {κ ε π φ : Type} [DecidableEq κ] [DecidableEq ε] [DecidableEq π]

/-- The timer whose event a step has posted to `ctimer_process`. -/
def postedTimer (ctimerProcess : π) (s t : Etimers (κ ⊕ ε) π) : List κ :=
  match t.events with
  | .post p (.inl c) _ :: _ =>
    if s.events.length < t.events.length ∧ p = some ctimerProcess then [c] else []
  | _ => []

/-- `list_remove` and `list_add`. -/
def relist (s : Ctimers κ ε π φ) (c : κ) : List κ := s.ctimerList.erase c ++ [c]

/-- The loop of `ctimer_process` over `ctimer_list`. -/
def callback (s : Ctimers κ ε π φ) (c : κ) : Ctimers κ ε π φ :=
  if c ∈ s.ctimerList then
    { s with
      ctimerList := s.ctimerList.erase c
      log := .callback c (s.f c) s.etimers.time :: s.log }
  else s

/-- The labelled step. -/
def step (ctimerProcess : π) (s : Ctimers κ ε π φ) :
    CtimerLabel κ ε π φ → Option (Ctimers κ ε π φ)
  | .set c t f =>
    (s.etimers.step (.call (some ctimerProcess) (.set (.inl c) t))).map fun e =>
      { s with
        etimers := e
        ctimerList := s.relist c
        f := Function.update s.f c f
        log := .set c s.etimers.time t f (c ∈ s.queue) :: s.log }
  | .reset c =>
    (s.etimers.step (.call (some ctimerProcess) (.reset (.inl c)))).map fun e =>
      { s with
        etimers := e
        ctimerList := s.relist c
        log := .reset c (c ∈ s.queue) :: s.log }
  | .stop c =>
    (s.etimers.step (.call (some ctimerProcess) (.stop (.inl c)))).map fun e =>
      { s with
        etimers := e
        ctimerList := s.ctimerList.erase c
        log := .stop c :: s.log }
  | .other caller call =>
    (s.etimers.step (.call caller call.other)).map fun e => { s with etimers := e }
  | .code posted =>
    (s.etimers.step (.code posted)).map fun e =>
      { s with etimers := e, queue := s.queue ++ postedTimer ctimerProcess s.etimers e }
  | .poll => (s.etimers.step .poll).map fun e => { s with etimers := e }
  | .exited p =>
    if p = ctimerProcess then none
    else (s.etimers.step (.exited p)).map fun e => { s with etimers := e }
  | .tick late => (s.etimers.step (.tick late)).map fun e => { s with etimers := e }
  | .deliver =>
    if s.etimers.pc = .idle then
      match s.queue with
      | [] => none
      | c :: queue => some (callback { s with queue := queue } c)
    else none

/-- The state behind `ctimer_init`. -/
def init : Ctimers κ ε π φ where
  etimers := .init
  ctimerList := []
  f := fun _ => none
  queue := []
  log := []

end Ctimers

/-- The callback timers, under every order of calls, deliveries and interrupts. -/
def ctimers (κ ε π φ : Type) [DecidableEq κ] [DecidableEq ε] [DecidableEq π] (ctimerProcess : π) :
    Machine (Ctimers κ ε π φ) (CtimerLabel κ ε π φ) where
  init := Ctimers.init
  step := Ctimers.step ctimerProcess

end PTunes.Core
