import Mathlib.Data.List.Basic
import Mathlib.Logic.Function.Basic
import PTunes.Lib.Machine

/-!
# `PTunes.Core.Etimer`: event timers (`core/sys/etimer.c`, `timer.c`, `cpu/msp430/clock.c`)

A process sets an event timer and gets `PROCESS_EVENT_TIMER` when it has run out. The pending
timers are on the list `timerlist`, and `next_expiration` is the time at which the first of them
runs out. The clock interrupt counts `count` and polls `etimer_process` at that time. The process
then posts the events, and takes their timers off the list.

The functions run in processes, one at a time, and the interrupt comes at any point of them. So
a function is a sequence of small steps, and `Pc` says where it is. A step reads or writes at most
one of the variables that it shares with the interrupt: `count`, `timerlist`, `next_expiration`
and the poll of `etimer_process`.

`time` is the number of clock ticks since the start of the node, and `count` its low 16 bits.
`events` records what happened to the timers, the last event first. No code reads it.

The kernel is left open: `process_post` succeeds or finds the queue full, as the label of the step
says, and `etimer_process` is called at any time after it was polled.
-/

set_option autoImplicit false

namespace PTunes.Core

/-- The calls of a process. -/
inductive EtimerCall (κ : Type)
  | set (et : κ) (interval : UInt16)
  | reset (et : κ)
  | restart (et : κ)
  | adjust (et : κ) (timediff : UInt16)
  | stop (et : κ)
deriving DecidableEq, Repr

/-- What happens to a timer. A `set` is a call that starts the interval at the time of the call. A
`drop` is the end of the process of the timer. -/
inductive EtimerEvent (κ π : Type)
  | set (et : κ) (caller : Option π) (time : Nat) (interval : UInt16)
  | reset (et : κ) (caller : Option π)
  | adjust (et : κ)
  | stop (et : κ)
  | drop (et : κ)
  | post (p : Option π) (et : κ) (time : Nat)
deriving DecidableEq, Repr

/-- Where the caller of `update_time` goes on. -/
inductive EtimerReturn (κ : Type)
  | caller
  | stop (et : κ)
  | again
deriving DecidableEq, Repr

/-- Where the code is. -/
inductive EtimerPc (κ π : Type)
  | idle
  | addTimer (timer : κ)
  | addWalk (timer : κ) (t : Option κ)
  | link (timer : κ)
  | updateTime (ret : EtimerReturn κ)
  | updateWalk (now tdist : UInt16) (t : Option κ) (ret : EtimerReturn κ)
  | stopWalk (et : κ) (t : Option κ)
  | stopEnd (et : κ)
  | scan (t u : Option κ)
  | expired (t : κ) (u : Option κ)
  | exitedHead (p : π)
  | exitedWalk (p : π) (t : κ)
deriving DecidableEq, Repr

/-- The fields of the timers `κ`, the variables of the two files, and the poll of
`etimer_process`. -/
structure Etimers (κ π : Type) where
  next : κ → Option κ
  p : κ → Option π
  start : κ → UInt16
  interval : κ → UInt16
  timerlist : Option κ
  nextExpiration : UInt16
  time : Nat
  needspoll : Bool
  processCurrent : Option π
  pc : EtimerPc κ π
  events : List (EtimerEvent κ π)

/-- What happens next: a process calls a function, the running function takes a step, the kernel
calls `etimer_process`, or the clock interrupt counts so many ticks. -/
inductive EtimerLabel (κ π : Type)
  | call (caller : Option π) (c : EtimerCall κ)
  | code (posted : Bool)
  | poll
  | exited (p : π)
  | tick (late : Fin 256)
deriving DecidableEq, Repr

namespace Etimers

variable {κ π : Type}

/-- `clock_time`. -/
def clockTime (s : Etimers κ π) : UInt16 := UInt16.ofNat s.time

/-- `timer_expired`. -/
def timerExpired (s : Etimers κ π) (t : κ) : Prop := s.interval t ≤ s.clockTime - s.start t

instance (s : Etimers κ π) (t : κ) : Decidable (s.timerExpired t) :=
  inferInstanceAs (Decidable (_ ≤ _))

/-- `etimer_expired`. -/
def etimerExpired (s : Etimers κ π) (et : κ) : Prop := s.p et = none

/-- `etimer_pending`. -/
def etimerPending (s : Etimers κ π) : Bool := s.timerlist.isSome

/-- `etimer_next_expiration_time`. -/
def etimerNextExpirationTime (s : Etimers κ π) : UInt16 :=
  if s.etimerPending then s.nextExpiration else 0

/-- `MAX_TICKS`. -/
def maxTicks : UInt16 := 32767

/-- The clock interrupt `timera1`. It counts more than once when it comes late. -/
def timera1 (s : Etimers κ π) (late : Fin 256) : Etimers κ π :=
  let s := { s with time := s.time + late + 1 }
  if s.etimerPending ∧ maxTicks < s.etimerNextExpirationTime - s.clockTime - 1 then
    { s with needspoll := true }
  else s

variable [DecidableEq κ]

/-- The first step of a call: `timer_set`, `timer_reset` and `timer_restart`, the assignment of
`etimer_adjust`, and the test of `etimer_stop`. -/
def call (s : Etimers κ π) (caller : Option π) : EtimerCall κ → Etimers κ π
  | .set et interval =>
    { s with
      interval := Function.update s.interval et interval
      start := Function.update s.start et s.clockTime
      processCurrent := caller
      pc := .addTimer et
      events := .set et caller s.time interval :: s.events }
  | .reset et =>
    { s with
      start := Function.update s.start et (s.start et + s.interval et)
      processCurrent := caller
      pc := .addTimer et
      events := .reset et caller :: s.events }
  | .restart et =>
    { s with
      start := Function.update s.start et s.clockTime
      processCurrent := caller
      pc := .addTimer et
      events := .set et caller s.time (s.interval et) :: s.events }
  | .adjust et timediff =>
    { s with
      start := Function.update s.start et (s.start et + timediff)
      processCurrent := caller
      pc := .updateTime .caller
      events := .adjust et :: s.events }
  | .stop et =>
    if s.timerlist = some et then
      { s with
        timerlist := s.next et
        processCurrent := caller
        pc := .updateTime (.stop et) }
    else { s with processCurrent := caller, pc := .stopWalk et s.timerlist }

/-- `update_time` returns. -/
def returnTo (s : Etimers κ π) : EtimerReturn κ → EtimerPc κ π
  | .caller => .idle
  | .stop et => .stopEnd et
  | .again => .scan s.timerlist none

variable [DecidableEq π]

/-- A step of the running function. `posted` says whether `process_post` succeeds. -/
def code (s : Etimers κ π) (posted : Bool) : Option (Etimers κ π) :=
  match s.pc with
  | .idle => none
  | .addTimer timer =>
    some { s with
      needspoll := true
      pc := if s.p timer ≠ none then .addWalk timer s.timerlist else .link timer }
  | .addWalk timer none => some { s with pc := .link timer }
  | .addWalk timer (some t) =>
    some { s with pc := if t = timer then .updateTime .caller else .addWalk timer (s.next t) }
  | .link timer =>
    some { s with
      p := Function.update s.p timer s.processCurrent
      next := Function.update s.next timer s.timerlist
      timerlist := some timer
      pc := .updateTime .caller }
  | .updateTime ret =>
    match s.timerlist with
    | none => some { s with nextExpiration := 0, pc := s.returnTo ret }
    | some t =>
      let now := s.clockTime
      some { s with pc := .updateWalk now (s.start t + s.interval t - now) (s.next t) ret }
  | .updateWalk now tdist none ret =>
    some { s with nextExpiration := now + tdist, pc := s.returnTo ret }
  | .updateWalk now tdist (some t) ret =>
    let dist := s.start t + s.interval t - now
    some { s with pc := .updateWalk now (if dist < tdist then dist else tdist) (s.next t) ret }
  | .stopWalk et none => some { s with pc := .stopEnd et }
  | .stopWalk et (some t) =>
    if s.next t = some et then
      some { s with
        next := Function.update s.next t (s.next et)
        pc := .updateTime (.stop et) }
    else some { s with pc := .stopWalk et (s.next t) }
  | .stopEnd et =>
    some { s with
      next := Function.update s.next et none
      p := Function.update s.p et none
      pc := .idle
      events := .stop et :: s.events }
  | .scan none _ => some { s with pc := .idle }
  | .scan (some t) u =>
    some { s with pc := if s.timerExpired t then .expired t u else .scan (s.next t) (some t) }
  | .expired t u =>
    if posted then
      let s := { s with
        p := Function.update s.p t none
        events := .post (s.p t) t s.time :: s.events }
      let s :=
        match u with
        | some u => { s with next := Function.update s.next u (s.next t) }
        | none => { s with timerlist := s.next t }
      some { s with next := Function.update s.next t none, pc := .updateTime .again }
    else some { s with needspoll := true, pc := .scan (s.next t) (some t) }
  | .exitedHead p =>
    match s.timerlist with
    | none => some { s with pc := .idle }
    | some t =>
      if s.p t = some p then
        some { s with timerlist := s.next t, events := .drop t :: s.events }
      else some { s with pc := .exitedWalk p t }
  | .exitedWalk p t =>
    match s.next t with
    | none => some { s with pc := .idle }
    | some n =>
      if s.p n = some p then
        some { s with next := Function.update s.next t (s.next n), events := .drop n :: s.events }
      else some { s with pc := .exitedWalk p n }

/-- The labelled step. A function is called when none is running, and `etimer_process` gets
`PROCESS_EVENT_POLL` when it was polled. -/
def step (s : Etimers κ π) : EtimerLabel κ π → Option (Etimers κ π)
  | .call caller c => if s.pc = .idle then some (s.call caller c) else none
  | .code posted => s.code posted
  | .poll =>
    if s.pc = .idle ∧ s.needspoll then
      some { s with needspoll := false, pc := .scan s.timerlist none }
    else none
  | .exited p => if s.pc = .idle then some { s with pc := .exitedHead p } else none
  | .tick late => some (s.timera1 late)

/-- The start of the node: the memory of the timers holds zeros. -/
def init : Etimers κ π where
  next := fun _ => none
  p := fun _ => none
  start := fun _ => 0
  interval := fun _ => 0
  timerlist := none
  nextExpiration := 0
  time := 0
  needspoll := false
  processCurrent := none
  pc := .idle
  events := []

end Etimers

/-- The event timers, under every order of calls, polls and interrupts. -/
def etimers (κ π : Type) [DecidableEq κ] [DecidableEq π] :
    Machine (Etimers κ π) (EtimerLabel κ π) where
  init := Etimers.init
  step := Etimers.step

end PTunes.Core
