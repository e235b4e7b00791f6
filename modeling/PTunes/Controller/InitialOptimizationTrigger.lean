import PTunes.Controller.EclipseDriver
import PTunes.Controller.WaitNotify
import PTunes.Lib.Machine

/-!
# `PTunes.Controller.InitialOptimizationTrigger`: one optimization at the start

`InitialOptimizationTrigger.java` as a machine: the trigger thread, and the thread that calls
`collectionFinished` after each collection. The trigger thread waits for a collection, optimizes,
and goes on until it has a proper configuration or too many failures.

`outcomes` is not in the source. It records what `driver.optimize` has answered, `none` for
`null`. Left out are the texts of the log and the injection of the parameters, which does not
change what the loop does.
-/

set_option autoImplicit false

namespace PTunes.Controller

/-- Where the trigger thread is. -/
inductive InitialPc
  /-- In the initial delay. -/
  | initialDelay
  /-- In `doWait`, about to evaluate the loop condition. -/
  | atWait
  /-- In `doWait`, asleep. -/
  | blocked
  /-- In `driver.optimize`. -/
  | optimizing
  | finished
deriving DecidableEq, Repr

/-- The state of the trigger. -/
structure InitialTrigger where
  pc : InitialPc
  waitNotify : WaitNotify
  /-- A local variable of the trigger thread. -/
  retries : Int
  /-- A local variable of the trigger thread. -/
  initialOptimizationDone : Bool
  outcomes : List (Option MacConfiguration)
deriving DecidableEq, Repr

/-- The steps. -/
inductive InitialAction
  /-- The initial delay is over. -/
  | delayOver
  /-- One turn of the loop of `doWait`. -/
  | checkWait
  /-- The sleep in `doWait` ends without a notification. -/
  | spuriousWakeUp
  /-- `driver.optimize` returns. -/
  | optimizeEnd (newConf : Option MacConfiguration)
  | collectionFinished (historyIsEmpty : Bool)
deriving DecidableEq, Repr

namespace InitialTrigger

/-- `MAX_RETRIES` -/
def maxRetries : Int := 10

/-- After the constructor. -/
def init : InitialTrigger where
  pc := .initialDelay
  waitNotify := .new 1
  retries := 0
  initialOptimizationDone := false
  outcomes := []

/-- The head of the loop. -/
def loopHead (s : InitialTrigger) : InitialTrigger :=
  { s with
    pc := if !s.initialOptimizationDone && s.retries ≤ maxRetries then .atWait else .finished }

/-- The rest of the loop, after `driver.optimize`. -/
def afterOptimize (s : InitialTrigger) : Option MacConfiguration → InitialTrigger
  | some newConf =>
    if isReliabilityFallback newConf then s else { s with initialOptimizationDone := true }
  | none => { s with retries := s.retries + 1 }

/-- One step, if the thread is at it. -/
def step (s : InitialTrigger) : InitialAction → Option InitialTrigger
  | .delayOver => if s.pc = .initialDelay then some s.loopHead else none
  | .checkWait =>
    if s.pc = .atWait then
      match s.waitNotify.tryWait with
      | none => some { s with pc := .blocked }
      | some w => some { s with pc := .optimizing, waitNotify := w }
    else none
  | .spuriousWakeUp => if s.pc = .blocked then some { s with pc := .atWait } else none
  | .optimizeEnd newConf =>
    if s.pc = .optimizing then
      some { (s.afterOptimize newConf).loopHead with outcomes := s.outcomes ++ [newConf] }
    else none
  | .collectionFinished historyIsEmpty =>
    if historyIsEmpty then some s
    else some { s with
                pc := if s.pc = .blocked then .atWait else s.pc
                waitNotify := s.waitNotify.doNotify }

/-- The machine of the two threads. -/
def machine : Machine InitialTrigger InitialAction where
  init := init
  step := step

/-- A proper configuration: not the parameters that are optimized for reliability. -/
def isProper : Option MacConfiguration → Bool
  | some newConf => !isReliabilityFallback newConf
  | none => false

end InitialTrigger

end PTunes.Controller
