import Mathlib.Data.List.DropRight
import PTunes.Controller.PerformanceTrigger

/-!
# `PTunes.Controller.TimedTrigger`: periodic optimizations

`TimedTrigger.java` as a machine of two threads: the trigger thread, and the thread that calls
`collectionFinished` after each collection. The steps are the accesses to `waitNotify`, whose
monitor both threads enter, and the two ends of `driver.optimize`.

`log` is not in the source. It records what happened in the order in which it happened, and
`dueWait` reads from it which wait is due next. Left out are the texts of the loggers, the
injection of the parameters, and `initialOptimizationDone`, which only code in comments reads.
-/

set_option autoImplicit false

namespace PTunes.Controller

/-- The two branches in which the trigger thread waits. -/
inductive WaitKind
  | regular
  | retry
deriving DecidableEq, Repr

/-- The number of collections that a wait is configured for. -/
def TriggerConf.periodOf (C : TriggerConf) : WaitKind → Int
  | .regular => C.period
  | .retry => C.retryPeriod

/-- What happened. -/
inductive TimedEvent
  /-- The trigger thread has set the period for its next wait. -/
  | configured (kind : WaitKind)
  /-- A collection was signalled. -/
  | signalled
  /-- `driver.optimize` was called. -/
  | optimize
  /-- `driver.optimize` has returned, with `null` if it failed. -/
  | ended (success : Bool)
deriving DecidableEq, Repr

namespace TimedEvent

/-- The kind of wait that an event configures, if it is such an event. -/
def kind? : TimedEvent → Option WaitKind
  | .configured kind => some kind
  | _ => none

/-- How an optimization has ended, if the event is the end of one. -/
def success? : TimedEvent → Option Bool
  | .ended success => some success
  | _ => none

end TimedEvent

namespace TimedTrigger

/-- `MAX_RETRIES` -/
def maxRetries : Int := 4

/-- The last optimization failed. -/
def lastFailed (log : List TimedEvent) : Bool :=
  (log.filterMap TimedEvent.success?).getLast? == some false

/-- The number of retries since the last regular wait. -/
def retriesMade (log : List TimedEvent) : Nat :=
  ((log.filterMap TimedEvent.kind?).rtakeWhile (· == .retry)).length

/-- The wait that is due after what happened so far: for a retry, if the last optimization failed
and fewer than `MAX_RETRIES` retries were made since the last regular wait. -/
def dueWait (log : List TimedEvent) : WaitKind :=
  if lastFailed log = true ∧ (retriesMade log : Int) < maxRetries then .retry else .regular

end TimedTrigger

/-- The state of the trigger. -/
structure TimedTrigger where
  pc : TriggerPc
  waitNotify : WaitNotify
  /-- A local variable of the trigger thread. -/
  retries : Int
  log : List TimedEvent
deriving DecidableEq, Repr

/-- The steps. -/
inductive TimedAction
  /-- The initial delay is over. -/
  | delayOver
  /-- The trigger thread sets the period for its next wait. -/
  | configureWait
  /-- One turn of the loop of `doWait`. -/
  | checkWait
  /-- The sleep in `doWait` ends without a notification. -/
  | spuriousWakeUp
  | optimizeBegin
  /-- `driver.optimize` returns; `none` is `null`. -/
  | optimizeEnd (newConf : Option MacConfiguration)
  | resetPeriod
  | collectionFinished (historyIsEmpty : Bool)
deriving DecidableEq, Repr

namespace TimedTrigger

/-- After the constructor. -/
def init (C : TriggerConf) : TimedTrigger where
  pc := .initialDelay
  waitNotify := .new C.period
  retries := 0
  log := []

/-- The trigger thread sets the period for a wait, and goes to `doWait`. -/
def startWait (C : TriggerConf) (s : TimedTrigger) (kind : WaitKind) (retries : Int) :
    TimedTrigger where
  pc := .atWait
  waitNotify := s.waitNotify.setPeriod (C.periodOf kind)
  retries := retries
  log := s.log ++ [.configured kind]

/-- One step, if the thread is at it. -/
def step (C : TriggerConf) (s : TimedTrigger) : TimedAction → Option TimedTrigger
  | .delayOver => if s.pc = .initialDelay then some { s with pc := .loopTop } else none
  | .configureWait =>
    if s.pc = .loopTop then
      if s.retries > 0 then some (s.startWait C .retry (s.retries - 1))
      else some (s.startWait C .regular maxRetries)
    else none
  | .checkWait =>
    if s.pc = .atWait then
      match s.waitNotify.tryWait with
      | none => some { s with pc := .blocked }
      | some w => some { s with pc := .awake, waitNotify := w }
    else none
  | .spuriousWakeUp => if s.pc = .blocked then some { s with pc := .atWait } else none
  | .optimizeBegin =>
    if s.pc = .awake then some { s with pc := .optimizing, log := s.log ++ [.optimize] } else none
  | .optimizeEnd newConf =>
    if s.pc = .optimizing then
      some { s with
             pc := if newConf.isSome then .resetting else .loopTop
             log := s.log ++ [.ended newConf.isSome] }
    else none
  | .resetPeriod =>
    if s.pc = .resetting then
      some { s with
             pc := .loopTop, waitNotify := s.waitNotify.setPeriod C.period, retries := 0 }
    else none
  | .collectionFinished historyIsEmpty =>
    if historyIsEmpty then some s
    else some { s with
                pc := if s.pc = .blocked then .atWait else s.pc
                waitNotify := s.waitNotify.doNotify
                log := s.log ++ [.signalled] }

/-- The machine of the two threads. -/
def machine (C : TriggerConf) : Machine TimedTrigger TimedAction where
  init := init C
  step := step C

end TimedTrigger

end PTunes.Controller
