import Mathlib.Logic.Function.Basic
import PTunes.Core.Process
import PTunes.Lib.Machine
import PTunes.Lib.Ring

/-!
# `PTunes.Core.Kernel`: the process kernel (`process.c`), under the main loop of the sky

A process is a function that the kernel calls with an event. It runs until it returns, and calls
functions of the kernel on its way, which may call other processes. `stack` has the calls that have
not returned, the innermost one first, and `main` is the place in the main loop below them.

A step is an access to a variable that the kernel shares with the interrupts, or a turn of a loop.
An interrupt comes between two steps, and polls a process. On this platform every handler that
polls a process wakes the processor. What a process does is up to the label.

The list of the processes is a chain of links, which changes while the loops of the kernel walk
along it. `posted` and `taken` record the events that have gone through the queue, `polled` the
polls of the running processes that have not been answered, and `heard`, `gone` and `started` the
processes that were called, have exited and were started in the present broadcast.
-/

set_option autoImplicit false

namespace PTunes.Core

/-- `p->state`. -/
inductive ProcessState
  | none
  | running
  | called
deriving DecidableEq, Repr

/-- A `process_data_t`: the null pointer, a process, or another pointer. -/
inductive ProcessData (π : Type)
  | null
  | process (p : π)
  | other (address : Nat)
deriving DecidableEq, Repr

/-- An entry of `events`. The receiver `none` is `PROCESS_BROADCAST`. -/
structure ProcessEvent (π : Type) where
  ev : UInt8
  data : ProcessData π
  p : Option π
deriving DecidableEq, Repr

/-- `PROCESS_EVENT_INIT`. -/
def processEventInit : UInt8 := 0x81

/-- `PROCESS_EVENT_POLL`. -/
def processEventPoll : UInt8 := 0x82

/-- `PROCESS_EVENT_EXIT`. -/
def processEventExit : UInt8 := 0x83

/-- `PROCESS_EVENT_EXITED`. -/
def processEventExited : UInt8 := 0x87

/-- A call that has not returned. -/
inductive Frame (π : Type)
  /-- `call_process` has called the thread of `p`. -/
  | thread (p : π) (ev : UInt8) (data : ProcessData π)
  /-- `process_start` looks for `p` in the list. -/
  | search (p : π) (arg : ProcessData π) (q : Option π)
  /-- `process_post_synch`, with the process that was the current one. -/
  | postSynch (caller : Option π)
  /-- `exit_process` of `p` tells the processes from `q` on. -/
  | exiting (p : π) (fromprocess oldCurrent : Option π) (q : Option π)
  /-- It has called `q`. -/
  | exitCall (p : π) (fromprocess oldCurrent : Option π) (q : π)
  /-- It has called the thread of `p`. -/
  | exitThread (p : π) (oldCurrent : Option π)
  /-- It looks for the process in front of `p`. -/
  | unlink (p : π) (oldCurrent : Option π) (q : Option π)
deriving DecidableEq, Repr

/-- What goes on after `do_poll`: `process_run`, or the loop of a broadcast. -/
inductive AfterPoll (π : Type)
  | event
  | broadcast (ev : UInt8) (data : ProcessData π) (p : π)
deriving DecidableEq, Repr

/-- The place in the main loop. -/
inductive MainPc (π : Type)
  /-- The initialisation. -/
  | boot
  /-- `process_run` reads `poll_requested`. -/
  | run
  /-- `do_poll` clears `poll_requested`. -/
  | doPoll (after : AfterPoll π)
  /-- The loop of `do_poll` reads `p->needspoll`. -/
  | poll (after : AfterPoll π) (p : Option π)
  /-- It clears `p->needspoll`. -/
  | pollNow (after : AfterPoll π) (p : π)
  /-- It has called `p`. -/
  | pollCall (after : AfterPoll π) (p : π)
  /-- `do_event` reads `nevents`. -/
  | doEvent
  /-- The loop of `do_event` reads `poll_requested`. -/
  | broadcast (ev : UInt8) (data : ProcessData π) (p : Option π)
  /-- It calls `p`. -/
  | deliver (ev : UInt8) (data : ProcessData π) (p : π)
  /-- It has called `p`. -/
  | broadcastCall (ev : UInt8) (data : ProcessData π) (p : π)
  /-- `do_event` has called the receiver. -/
  | eventCall
  /-- `process_run` returns. -/
  | ran
  /-- The check before the processor sleeps. -/
  | idle
  | asleep
deriving DecidableEq, Repr

/-- The main loop after `do_poll`. -/
def AfterPoll.pc {π : Type} : AfterPoll π → MainPc π
  | .event => .doEvent
  | .broadcast ev data p => .deliver ev data p

/-- The variables of the kernel, the calls, and the records. -/
structure Kernel (π : Type) where
  processList : Option π
  next : π → Option π
  state : π → ProcessState
  needspoll : π → Bool
  pollRequested : Bool
  processCurrent : Option π
  events : Nat → ProcessEvent π
  fevent : Nat
  nevents : Nat
  main : MainPc π
  stack : List (Frame π)
  posted : List (ProcessEvent π)
  taken : List (ProcessEvent π)
  polled : π → Bool
  heard : List π
  gone : List π
  started : List π

/-- What happens: an interrupt, a step of the kernel, or what the thread that runs does. -/
inductive KernelLabel (π : Type)
  | interrupt (p : π)
  | code
  | idle (uart1Active : Bool)
  | booted
  | start (p : π) (arg : ProcessData π)
  | exit (p : π)
  | post (p : Option π) (ev : UInt8) (data : ProcessData π)
  | postSynch (p : π) (ev : UInt8) (data : ProcessData π)
  | poll (p : π)
  | ret (exited : Bool)
deriving DecidableEq, Repr

namespace Kernel

variable {π : Type} [DecidableEq π]

/-- `process_init`. -/
def init : Kernel π where
  processList := none
  next _ := none
  state _ := .none
  needspoll _ := false
  pollRequested := false
  processCurrent := none
  events _ := ⟨0, .null, none⟩
  fevent := 0
  nevents := 0
  main := .boot
  stack := []
  posted := []
  taken := []
  polled _ := false
  heard := []
  gone := []
  started := []

/-! ### The functions that processes and interrupts call -/

/-- `process_poll`. -/
def processPoll (s : Kernel π) (p : π) : Kernel π :=
  if s.state p = .running ∨ s.state p = .called then
    { s with
      needspoll := Function.update s.needspoll p true
      pollRequested := true
      polled := Function.update s.polled p true }
  else s

/-- `process_post`. An event that finds the queue full is lost. -/
def processPost (s : Kernel π) (p : Option π) (ev : UInt8) (data : ProcessData π) : Kernel π :=
  if s.nevents = processConfNumevents then s
  else
    let snum := (s.fevent + s.nevents) % processConfNumevents
    { s with
      events := Function.update s.events snum ⟨ev, data, p⟩
      nevents := s.nevents + 1
      posted := s.posted ++ [⟨ev, data, p⟩] }

/-- The caller of `call_process` or of `exit_process` goes on. -/
def resume (s : Kernel π) : Kernel π :=
  match s.stack with
  | .postSynch caller :: stack => { s with stack := stack, processCurrent := caller }
  | .exitCall p fromprocess oldCurrent q :: stack =>
    { s with stack := .exiting p fromprocess oldCurrent (s.next q) :: stack }
  | [] =>
    match s.main with
    | .pollCall after p => { s with main := .poll after (s.next p) }
    | .broadcastCall ev data p => { s with main := .broadcast ev data (s.next p) }
    | .eventCall => { s with main := .ran }
    | _ => s
  | _ => s

/-- `call_process`, up to the call of the thread. -/
def callProcess (s : Kernel π) (p : π) (ev : UInt8) (data : ProcessData π) : Kernel π :=
  if s.state p = .running then
    { s with
      processCurrent := some p
      state := Function.update s.state p .called
      stack := .thread p ev data :: s.stack }
  else s.resume

/-- The end of `exit_process`. -/
def exited (s : Kernel π) (oldCurrent : Option π) : Kernel π :=
  { s with processCurrent := oldCurrent }.resume

/-- `exit_process` takes `p` out of the list. -/
def remove (s : Kernel π) (p : π) (oldCurrent : Option π) : Kernel π :=
  if s.processList = some p then { s with processList := s.next p }.exited oldCurrent
  else { s with stack := .unlink p oldCurrent s.processList :: s.stack }

/-- `exit_process`. -/
def exitProcess (s : Kernel π) (p : π) (fromprocess : Option π) : Kernel π :=
  if s.state p ≠ .none then
    { s with
      state := Function.update s.state p .none
      stack := .exiting p fromprocess s.processCurrent s.processList :: s.stack
      gone := p :: s.gone }
  else s.remove p s.processCurrent

/-- `process_start`, after the search. -/
def startProcess (s : Kernel π) (p : π) : Kernel π :=
  { s with
    next := Function.update s.next p s.processList
    processList := some p
    state := Function.update s.state p .running
    stack := .postSynch s.processCurrent :: s.stack
    polled := Function.update s.polled p false
    started := p :: s.started }

/-! ### The steps -/

/-- The thread of the process on top of the stack runs, or the initialisation. -/
def runs (s : Kernel π) : Bool :=
  match s.stack with
  | .thread _ _ _ :: _ | .exitThread _ _ :: _ => true
  | [] => s.main = .boot
  | _ => false

/-- The thread on top of the stack returns. `exited` says that the value is `PT_EXITED` or
`PT_ENDED`. -/
def threadReturns (s : Kernel π) (exited : Bool) : Option (Kernel π) :=
  match s.stack with
  | .thread p ev _ :: stack =>
    if exited || ev == processEventExit then
      some ({ s with stack := stack }.exitProcess p (some p))
    else
      some ({ s with
        stack := stack
        state := Function.update s.state p ProcessState.running }.resume)
  | .exitThread p oldCurrent :: stack => some ({ s with stack := stack }.remove p oldCurrent)
  | _ => none

/-- A step of the function on top of the stack. -/
def frameCode (s : Kernel π) : Option (Kernel π) :=
  match s.stack with
  | .search p arg (some q) :: stack =>
    if q = p then some { s with stack := stack }
    else some { s with stack := .search p arg (s.next q) :: stack }
  | .search p arg none :: stack =>
    some (({ s with stack := stack }.startProcess p).callProcess p processEventInit arg)
  | .exiting p fromprocess oldCurrent (some q) :: stack =>
    if q = p then some { s with stack := .exiting p fromprocess oldCurrent (s.next q) :: stack }
    else
      some ({ s with stack := .exitCall p fromprocess oldCurrent q :: stack }.callProcess q
        processEventExited (.process p))
  | .exiting p fromprocess oldCurrent none :: stack =>
    if some p ≠ fromprocess then
      some { s with processCurrent := some p, stack := .exitThread p oldCurrent :: stack }
    else some ({ s with stack := stack }.remove p oldCurrent)
  | .unlink p oldCurrent (some q) :: stack =>
    if s.next q = some p then
      some ({ s with next := Function.update s.next q (s.next p), stack := stack }.exited
        oldCurrent)
    else some { s with stack := .unlink p oldCurrent (s.next q) :: stack }
  | .unlink _ oldCurrent none :: stack => some ({ s with stack := stack }.exited oldCurrent)
  | _ => none

/-- `do_event` takes the first event out of the queue. -/
def takeEvent (s : Kernel π) : Kernel π :=
  { s with
    fevent := (s.fevent + 1) % processConfNumevents
    nevents := s.nevents - 1
    taken := s.taken ++ [s.events s.fevent] }

/-- A step of `do_event`. -/
def doEvent (s : Kernel π) : Kernel π :=
  if 0 < s.nevents then
    let e := s.events s.fevent
    match e.p with
    | none =>
      { s.takeEvent with
        main := .broadcast e.ev e.data s.processList
        heard := []
        gone := []
        started := [] }
    | some p =>
      let s := { s.takeEvent with main := .eventCall }
      if e.ev = processEventInit then
        { s with state := Function.update s.state p ProcessState.running }.callProcess p e.ev e.data
      else s.callProcess p e.ev e.data
  else { s with main := .ran }

/-- A step of the main loop. -/
def mainCode (s : Kernel π) : Option (Kernel π) :=
  match s.main with
  | .run => some { s with main := if s.pollRequested then .doPoll .event else .doEvent }
  | .doPoll after => some { s with pollRequested := false, main := .poll after s.processList }
  | .poll after none => some { s with main := after.pc }
  | .poll after (some p) =>
    some { s with main := if s.needspoll p then .pollNow after p else .poll after (s.next p) }
  | .pollNow after p =>
    some ({ s with
      state := Function.update s.state p .running
      needspoll := Function.update s.needspoll p false
      polled := Function.update s.polled p false
      main := .pollCall after p }.callProcess p processEventPoll .null)
  | .doEvent => some s.doEvent
  | .broadcast _ _ none => some { s with main := .ran }
  | .broadcast ev data (some p) =>
    some { s with
      main := if s.pollRequested then .doPoll (.broadcast ev data p) else .deliver ev data p }
  | .deliver ev data p =>
    some ({ s with
      main := .broadcastCall ev data p
      heard := if s.state p = ProcessState.running then s.heard ++ [p] else s.heard
      }.callProcess p ev data)
  | .ran => some { s with main := if 0 < s.nevents ∨ s.pollRequested then .run else .idle }
  | .boot | .pollCall _ _ | .broadcastCall _ _ _ | .eventCall | .idle | .asleep => none

/-- A step of the kernel. -/
def code (s : Kernel π) : Option (Kernel π) :=
  if s.stack = [] then s.mainCode else s.frameCode

/-- The check with the interrupts off, before the processor sleeps. -/
def sleep (s : Kernel π) (uart1Active : Bool) : Kernel π :=
  { s with
    main := if s.nevents ≠ 0 ∨ s.pollRequested ∨ uart1Active then .run else .asleep }

/-- An interrupt handler polls a process. -/
def interrupt (s : Kernel π) (p : π) : Kernel π :=
  let s := s.processPoll p
  { s with main := if s.main = .asleep then .run else s.main }

/-- `process_run` in the main loop, the threads and the interrupts, as a machine. -/
def step (s : Kernel π) : KernelLabel π → Option (Kernel π)
  | .interrupt p => some (s.interrupt p)
  | .code => s.code
  | .idle uart1Active =>
    if s.stack = [] ∧ s.main = .idle then some (s.sleep uart1Active) else none
  | .booted => if s.stack = [] ∧ s.main = .boot then some { s with main := .run } else none
  | .start p arg =>
    if s.runs then some { s with stack := .search p arg s.processList :: s.stack } else none
  | .exit p => if s.runs then some (s.exitProcess p s.processCurrent) else none
  | .post p ev data => if s.runs then some (s.processPost p ev data) else none
  | .postSynch p ev data =>
    if s.runs then
      some ({ s with stack := .postSynch s.processCurrent :: s.stack }.callProcess p ev data)
    else none
  | .poll p => if s.runs then some (s.processPoll p) else none
  | .ret exited => s.threadReturns exited

end Kernel

/-- The kernel as a machine. -/
def kernel (π : Type) [DecidableEq π] : Machine (Kernel π) (KernelLabel π) where
  init := Kernel.init
  step := Kernel.step

end PTunes.Core
