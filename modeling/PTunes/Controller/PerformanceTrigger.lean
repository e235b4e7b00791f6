import PTunes.Controller.EclipseDriver
import PTunes.Controller.WaitNotify
import PTunes.Lib.Machine

/-!
# `PTunes.Controller.PerformanceTrigger`: the trigger thread and the collection thread

`TimedPerformanceTrigger.java` as a machine whose steps are the accesses to the shared state:
the fields of `waitNotify`, which its monitor protects, the two flags, and the lock of the
driver, whose methods `optimize` and `performance` are synchronized. Three threads take
steps in any order: the trigger thread (`run`), the thread that calls `collectionFinished`
after each collection, and the thread that purges nodes.

A call of `collectionFinished` requests an immediate optimization by `setPeriod(1)` and the
`doNotify` after it. It is half made in between (`midRequest`). Three fields are not in the
source and only record what happens to requests: `requested` from a complete request until
an optimization starts, `discarded` once the trigger thread has called `setPeriod` although
a request was made or half made, and `fullPeriod` while the period in force is one that the
trigger thread has set.

Left out are the texts of the log and the injection of the parameters, which touch none of
the shared fields.
-/

set_option autoImplicit false

namespace PTunes.Controller

/-- The constructor parameters that the two threads use, in collection phases. -/
structure TriggerConf where
  period : Int
  retryPeriod : Int

/-- Where the trigger thread is. -/
inductive TriggerPc
  /-- In the initial delay. -/
  | initialDelay
  /-- At the top of the endless loop. -/
  | loopTop
  /-- In `doWait`, about to evaluate the loop condition. -/
  | atWait
  /-- In `doWait`, asleep. -/
  | blocked
  /-- After `doWait`, on the way to `driver.optimize`. -/
  | awake
  /-- In `driver.optimize`, holding the lock of the driver. -/
  | optimizing
  /-- After an answer that satisfies the constraints, about to reset the period. -/
  | resetting
  deriving DecidableEq, Repr

/-- Where the thread that reports collections is. -/
inductive CollectorPc
  | idle
  /-- About to call `driver.performance`. -/
  | beforePerformance
  /-- In `driver.performance`, holding the lock of the driver. -/
  | estimating
  /-- About to call `setPeriod(1)`, because of purged nodes or not. -/
  | requesting (purged : Bool)
  /-- After `setPeriod(1)`, about to clear `nodesHaveBeenPurged`. -/
  | clearing
  /-- About to call `doNotify`, which completes a request or not. -/
  | notifying (request : Bool)
  deriving DecidableEq, Repr

/-- A request is half made: `setPeriod(1)` has been called, and its `doNotify` has not. -/
def CollectorPc.midRequest : CollectorPc → Bool
  | .clearing => true
  | .notifying request => request
  | _ => false

/-- The state of the trigger. -/
structure PerformanceTrigger where
  pc : TriggerPc
  collector : CollectorPc
  waitNotify : WaitNotify
  nodesHaveBeenPurged : Bool
  initialDelayFinished : Bool
  /-- The local variable of the trigger thread. -/
  retries : Int
  requested : Bool
  discarded : Bool
  fullPeriod : Bool
  deriving DecidableEq, Repr

/-- `MAX_RETRIES` -/
def maxRetries : Int := 10

/-- The steps. -/
inductive TriggerAction
  /-- The initial delay is over. -/
  | delayOver
  /-- The trigger thread sets the period for its next wait. -/
  | configureWait
  /-- One turn of the loop of `doWait`. -/
  | checkWait
  /-- The sleep in `doWait` ends without a notification. -/
  | spuriousWakeUp
  | optimizeBegin
  /-- `driver.optimize` returns; `none` is `null`. -/
  | optimizeEnd (newConf : Option MacConfiguration)
  | resetPeriod
  /-- `collectionFinished` is called. -/
  | collectionFinished (historyIsEmpty : Bool)
  | performanceBegin
  /-- `driver.performance` returns; `violated` says whether the estimated reliability is
  there and violates the constraint by more than the tolerance. -/
  | performanceEnd (violated : Bool)
  /-- The collection thread calls `setPeriod(1)`. -/
  | requestPeriod
  | clearPurged
  | doNotify
  /-- The purging thread calls `nodesHaveBeenPurged`. -/
  | nodesHaveBeenPurged
  deriving DecidableEq, Repr

namespace PerformanceTrigger

/-- After the constructor. -/
def init (C : TriggerConf) : PerformanceTrigger where
  pc := .initialDelay
  collector := .idle
  waitNotify := WaitNotify.new C.period
  nodesHaveBeenPurged := false
  initialDelayFinished := false
  retries := 0
  requested := false
  discarded := false
  fullPeriod := true

/-- The trigger thread calls `setPeriod`. -/
def setOwnPeriod (s : PerformanceTrigger) (period : Int) : PerformanceTrigger :=
  { s with
    waitNotify := s.waitNotify.setPeriod period
    discarded := s.discarded || s.requested || s.collector.midRequest
    fullPeriod := true }

/-- The collection thread calls `setPeriod(1)`. -/
def setRequestedPeriod (s : PerformanceTrigger) : PerformanceTrigger :=
  { s with
    waitNotify := s.waitNotify.setPeriod 1
    fullPeriod := false }

/-- `doNotify`, which wakes the trigger thread up. -/
def notifyTrigger (s : PerformanceTrigger) (request : Bool) : PerformanceTrigger :=
  { s with
    pc := if s.pc = .blocked then .atWait else s.pc
    waitNotify := s.waitNotify.doNotify
    requested := s.requested || request }

/-- What follows the answer of the optimizer. -/
def afterOptimize (s : PerformanceTrigger) : Option MacConfiguration → PerformanceTrigger
  | none => { s with pc := .loopTop }
  | some newConf =>
      if isReliabilityFallback newConf then { s with pc := .loopTop, retries := 1 }
      else { s with pc := .resetting }

/-- One step, if the thread is at it. -/
def step (C : TriggerConf) (s : PerformanceTrigger) : TriggerAction → Option PerformanceTrigger
  | .delayOver =>
      if s.pc = .initialDelay then some { s with pc := .loopTop, initialDelayFinished := true }
      else none
  | .configureWait =>
      if s.pc = .loopTop then
        if s.retries > 0 then
          some { (s.setOwnPeriod C.retryPeriod) with pc := .atWait, retries := s.retries - 1 }
        else some { (s.setOwnPeriod C.period) with pc := .atWait, retries := maxRetries }
      else none
  | .checkWait =>
      if s.pc = .atWait then
        match s.waitNotify.tryWait with
        | none => some { s with pc := .blocked }
        | some w => some { s with pc := .awake, waitNotify := w }
      else none
  | .spuriousWakeUp => if s.pc = .blocked then some { s with pc := .atWait } else none
  | .optimizeBegin =>
      if s.pc = .awake ∧ s.collector ≠ .estimating then
        some { s with pc := .optimizing, requested := false }
      else none
  | .optimizeEnd newConf =>
      if s.pc = .optimizing then some (s.afterOptimize newConf) else none
  | .resetPeriod =>
      if s.pc = .resetting then
        some { (s.setOwnPeriod C.period) with pc := .loopTop, retries := 0 }
      else none
  | .collectionFinished historyIsEmpty =>
      if s.collector = .idle then
        if historyIsEmpty then some s
        else if s.nodesHaveBeenPurged then some { s with collector := .requesting true }
        else some { s with collector := .beforePerformance }
      else none
  | .performanceBegin =>
      if s.collector = .beforePerformance ∧ s.pc ≠ .optimizing then
        some { s with collector := .estimating }
      else none
  | .performanceEnd violated =>
      if s.collector = .estimating then
        some { s with collector := if violated then .requesting false else .notifying false }
      else none
  | .requestPeriod =>
      match s.collector with
      | .requesting purged =>
          some { s.setRequestedPeriod with
                 collector := if purged then .clearing else .notifying true }
      | _ => none
  | .clearPurged =>
      if s.collector = .clearing then
        some { s with nodesHaveBeenPurged := false, collector := .notifying true }
      else none
  | .doNotify =>
      match s.collector with
      | .notifying request => some { s.notifyTrigger request with collector := .idle }
      | _ => none
  | .nodesHaveBeenPurged =>
      -- Purged nodes count only after the initial delay.
      some { s with nodesHaveBeenPurged := s.nodesHaveBeenPurged || s.initialDelayFinished }

/-- The machine of the three threads. -/
def machine (C : TriggerConf) : Machine PerformanceTrigger TriggerAction where
  init := init C
  step := step C

end PerformanceTrigger

end PTunes.Controller
