import PTunes.Controller.PerformanceTrigger
import PTunes.Controller.Topology

/-!
# `PTunes.Controller.AdaptiveTimedTrigger`: optimizing when a traffic peak begins or ends

`AdaptiveTimedTrigger.java` as a machine of two threads: the trigger thread, and the thread that
calls `collectionFinished` after each collection. A step accesses one of the shared variables:
`waitNotify`, whose monitor both threads enter, or the field `period`, which the collection thread
writes and the trigger thread reads without a lock. The two ends of `driver.optimize` are steps,
too.

A collection that finds the beginning or the end of a peak asks for an optimization by
`setPeriod(2)` or `setPeriod(1)`, changes `period`, and counts itself by `doNotify`. Three fields
are not in the source. `peak` says whether the last collection found a node above the threshold.
`request` is the last change and the number of collections signalled since, until an optimization
begins. `discarded` says that the trigger thread has called `setPeriod` in between, which undoes
the request. Left out are the texts of the loggers and the injection of the parameters.
-/

set_option autoImplicit false

namespace PTunes.Controller

/-- A change of the traffic. -/
inductive TrafficChange
  | peakStart
  | peakEnd
deriving DecidableEq, Repr

/-- Where the trigger thread is. -/
inductive AdaptivePc
  | initialDelay
  /-- At the top of the endless loop. -/
  | loopTop
  /-- About to call `setPeriod`, before a wait. -/
  | configuring (period : Int)
  /-- In `doWait`, about to evaluate the loop condition. -/
  | atWait
  /-- In `doWait`, asleep. -/
  | blocked
  /-- After `doWait`, on the way to `driver.optimize`. -/
  | awake
  | optimizing
  /-- After an optimization, about to read `period`. -/
  | succeeded
  /-- About to call `setPeriod`, after an optimization. -/
  | resetting (period : Int)
deriving DecidableEq, Repr

/-- Where the thread that reports collections is. -/
inductive AdaptiveCollectorPc
  | idle
  /-- About to call `setPeriod`. -/
  | requesting (change : TrafficChange)
  /-- About to write `period`. -/
  | assigning (change : TrafficChange)
  /-- About to call `doNotify`. -/
  | notifying
deriving DecidableEq, Repr

/-- The parameter of the constructor, and `Double.compare(rate, CHECK_DATA_RATE) > 0`. -/
structure AdaptiveConf (ρ : Type) where
  retryPeriod : Int
  isHigh : ρ → Bool

/-- The state of the trigger. -/
structure AdaptiveTimedTrigger where
  pc : AdaptivePc
  collector : AdaptiveCollectorPc
  waitNotify : WaitNotify
  period : Int
  /-- A local variable of the trigger thread. -/
  retries : Int
  peak : Bool
  request : Option (TrafficChange × Nat)
  discarded : Bool
deriving DecidableEq, Repr

/-- The steps. -/
inductive AdaptiveAction (ρ : Type)
  /-- The initial delay is over. -/
  | delayOver
  /-- The trigger thread chooses the period for its next wait. -/
  | choosePeriod
  /-- It sets it. -/
  | setPeriod
  /-- One turn of the loop of `doWait`. -/
  | checkWait
  /-- The sleep in `doWait` ends without a notification. -/
  | spuriousWakeUp
  | optimizeBegin
  /-- `driver.optimize` returns; `none` is `null`. -/
  | optimizeEnd (newConf : Option MacConfiguration)
  | readPeriod
  /-- `collectionFinished` finds the history. -/
  | collectionFinished (topologyHistory : List (Topology ρ))
  | requestPeriod
  | assignPeriod
  | doNotify

namespace TrafficChange

/-- The number of collections, from the one that finds the change on. -/
def delay : TrafficChange → Nat
  | .peakStart => 2
  | .peakEnd => 1

end TrafficChange

namespace AdaptiveTimedTrigger

/-- `MAX_RETRIES` -/
def maxRetries : Int := 4

/-- `SHORT_PERIOD` -/
def shortPeriod : Int := 5

/-- `LONG_PERIOD` -/
def longPeriod : Int := 10

/-- The value that `collectionFinished` gives to `period`. -/
def periodAfter : TrafficChange → Int
  | .peakStart => shortPeriod
  | .peakEnd => longPeriod

variable {ρ : Type}

/-- After the constructor. -/
def init : AdaptiveTimedTrigger where
  pc := .initialDelay
  collector := .idle
  waitNotify := .new longPeriod
  period := longPeriod
  retries := 0
  peak := false
  request := none
  discarded := false

/-- The loop over the nodes of the topology. -/
def containsNodeWithHighDataRate (C : AdaptiveConf ρ) (t : Topology ρ) : Bool :=
  t.nodes.toList.any fun n => C.isHigh n.pktRate

/-- The decision of `collectionFinished`. -/
def decideChange (period : Int) (high : Bool) : AdaptiveCollectorPc :=
  if high = true ∧ period = longPeriod then .requesting .peakStart
  else if high = false ∧ period = shortPeriod then .requesting .peakEnd
  else .notifying

/-- `collectionFinished`, up to its first access to the shared state. -/
def collectionFinished (C : AdaptiveConf ρ) (s : AdaptiveTimedTrigger) :
    List (Topology ρ) → AdaptiveTimedTrigger
  | [] => s
  | t :: _ =>
    { s with
      collector := decideChange s.period (containsNodeWithHighDataRate C t)
      peak := containsNodeWithHighDataRate C t }

/-- The collection thread calls `setPeriod`. -/
def requestPeriod (s : AdaptiveTimedTrigger) (change : TrafficChange) : AdaptiveTimedTrigger :=
  { s with
    collector := .assigning change
    waitNotify := s.waitNotify.setPeriod change.delay
    request := some (change, 0) }

/-- `doNotify`, which wakes the trigger thread up. -/
def notifyTrigger (s : AdaptiveTimedTrigger) : AdaptiveTimedTrigger :=
  { s with
    pc := if s.pc = .blocked then .atWait else s.pc
    collector := .idle
    waitNotify := s.waitNotify.doNotify
    request := s.request.map fun r => (r.1, r.2 + 1) }

/-- The trigger thread calls `setPeriod`. -/
def setOwnPeriod (s : AdaptiveTimedTrigger) (period : Int) : AdaptiveTimedTrigger :=
  { s with
    waitNotify := s.waitNotify.setPeriod period
    discarded := s.discarded || s.request.isSome
    request := none }

/-- A step of the collection thread. -/
def collectorStep (s : AdaptiveTimedTrigger) : AdaptiveAction ρ → Option AdaptiveTimedTrigger
  | .requestPeriod =>
    match s.collector with
    | .requesting change => some (s.requestPeriod change)
    | _ => none
  | .assignPeriod =>
    match s.collector with
    | .assigning change => some { s with collector := .notifying, period := periodAfter change }
    | _ => none
  | .doNotify => if s.collector = .notifying then some s.notifyTrigger else none
  | _ => none

/-- One step, if the thread is at it. -/
def step (C : AdaptiveConf ρ) (s : AdaptiveTimedTrigger) :
    AdaptiveAction ρ → Option AdaptiveTimedTrigger
  | .delayOver => if s.pc = .initialDelay then some { s with pc := .loopTop } else none
  | .choosePeriod =>
    if s.pc = .loopTop then
      if s.retries > 0 then
        some { s with pc := .configuring C.retryPeriod, retries := s.retries - 1 }
      else some { s with pc := .configuring s.period, retries := maxRetries }
    else none
  | .setPeriod =>
    match s.pc with
    | .configuring period => some { s.setOwnPeriod period with pc := .atWait }
    | .resetting period => some { s.setOwnPeriod period with pc := .loopTop, retries := 0 }
    | _ => none
  | .checkWait =>
    if s.pc = .atWait then
      match s.waitNotify.tryWait with
      | none => some { s with pc := .blocked }
      | some w => some { s with pc := .awake, waitNotify := w }
    else none
  | .spuriousWakeUp => if s.pc = .blocked then some { s with pc := .atWait } else none
  | .optimizeBegin =>
    if s.pc = .awake then some { s with pc := .optimizing, request := none } else none
  | .optimizeEnd newConf =>
    if s.pc = .optimizing then
      some { s with pc := if newConf.isSome then .succeeded else .loopTop }
    else none
  | .readPeriod =>
    if s.pc = .succeeded then some { s with pc := .resetting s.period } else none
  | .collectionFinished topologyHistory =>
    if s.collector = .idle then some (s.collectionFinished C topologyHistory) else none
  | a => s.collectorStep a

/-- The machine of the two threads. -/
def machine (C : AdaptiveConf ρ) : Machine AdaptiveTimedTrigger (AdaptiveAction ρ) where
  init := init
  step := step C

end AdaptiveTimedTrigger

end PTunes.Controller
