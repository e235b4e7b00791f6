import PTunes.Controller.History
import PTunes.Controller.Purge
import PTunes.Lib.Machine

/-!
# `PTunes.Controller.HistoryRun`: the two threads that change the topology history

The thread that reads the serial port calls `updateTopologyHistory` for each message, and the thread
that purges takes its step from time to time. Both do so in the monitor of the history, so they
take turns. When every topology is old, the purging thread has removed them all before `getFirst`
raises an exception, which ends the thread.

`now` and `latest` are records: the time that was read last, and the last message of each node.
-/

set_option autoImplicit false

namespace PTunes.Controller

/-- The history, and whether the purging thread still runs. -/
structure HistoryRun (ρ : Type) where
  topologyHistory : List (Topology ρ)
  purging : Bool
  now : Int
  latest : Int → Option (NodeTopologyInfo ρ)

/-- A message comes, or the purging thread takes a step. -/
inductive HistoryAction (ρ : Type)
  | message (sink nodeInfo : NodeTopologyInfo ρ) (clock : Nat → Int)
  | purge (now : Int)

namespace HistoryRun

variable {ρ : Type}

/-- The empty history. -/
def init : HistoryRun ρ where
  topologyHistory := []
  purging := true
  now := 0
  latest _ := none

/-- A message is recorded. -/
def message (s : HistoryRun ρ) (sink nodeInfo : NodeTopologyInfo ρ) (clock : Nat → Int) :
    HistoryRun ρ where
  topologyHistory := updateTopologyHistory sink clock nodeInfo s.topologyHistory
  purging := s.purging
  now := clock 2
  latest := Function.update s.latest nodeInfo.nodeId (some nodeInfo)

/-- The step of the purging thread. -/
def purge (conf : PurgeConf) (s : HistoryRun ρ) (now : Int) : HistoryRun ρ :=
  match Controller.purge conf now s.topologyHistory with
  | some topologyHistory => { s with topologyHistory := topologyHistory, now := now }
  | none => { s with topologyHistory := [], purging := false, now := now }

/-- One step. -/
def step (conf : PurgeConf) (s : HistoryRun ρ) : HistoryAction ρ → Option (HistoryRun ρ)
  | .message sink nodeInfo clock => some (s.message sink nodeInfo clock)
  | .purge now => if s.purging then some (s.purge conf now) else none

/-- The machine of the two threads. -/
def machine (conf : PurgeConf) : Machine (HistoryRun ρ) (HistoryAction ρ) where
  init := init
  step := step conf

/-- The clock does not go back, the record of a message is made before the update, and the record
of the sink has its id. -/
def ClockAdvances (conf : PurgeConf) (s : HistoryRun ρ) : HistoryAction ρ → Prop
  | .message sink nodeInfo clock =>
    sink.nodeId = conf.sinkId ∧ nodeInfo.timestamp ≤ clock 0 ∧ s.now ≤ clock 0 ∧
      clock 0 ≤ clock 1 ∧ clock 1 ≤ clock 2
  | .purge now => s.now ≤ now

instance (conf : PurgeConf) (s : HistoryRun ρ) :
    (a : HistoryAction ρ) → Decidable (ClockAdvances conf s a)
  | .message sink nodeInfo clock =>
    inferInstanceAs (Decidable (sink.nodeId = conf.sinkId ∧ nodeInfo.timestamp ≤ clock 0 ∧
      s.now ≤ clock 0 ∧ clock 0 ≤ clock 1 ∧ clock 1 ≤ clock 2))
  | .purge now => inferInstanceAs (Decidable (s.now ≤ now))

end HistoryRun

end PTunes.Controller
