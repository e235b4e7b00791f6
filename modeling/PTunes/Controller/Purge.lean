import PTunes.Controller.Topology

/-!
# `PTunes.Controller.Purge`: the thread that purges old topologies

`AdaptMac.main` starts a thread that looks at the topology history from time to time. One step of
it runs in the monitor of the history. It removes the topologies that are older than the time
window, and then the silent nodes from the most recent topology, by a new topology in front.

The step reads the clock several times; here all readings give `now`. `nodesHaveBeenPurged` of
the triggers sets at most a flag, so the callbacks are left out. `none` is an exception.
-/

set_option autoImplicit false

namespace PTunes.Controller

variable {ρ : Type}

/-- The configuration of the thread. The periods are in minutes. -/
structure PurgeConf where
  sinkId : Int
  topologyTimeWindow : Int
  maximumPeriodOfSilence : Int
deriving DecidableEq, Repr

/-- The topology is older than the time window. -/
def Topology.isOld (conf : PurgeConf) (now : Int) (t : Topology ρ) : Bool :=
  now - conf.topologyTimeWindow * 60 > t.currentTimestamp

/-- No packet has come from the node for `maximumPeriodOfSilence`. -/
def NodeTopologyInfo.isSilent (conf : PurgeConf) (now : Int) (n : NodeTopologyInfo ρ) : Bool :=
  n.nodeId ≠ conf.sinkId ∧ now - conf.maximumPeriodOfSilence * 60 ≥ n.timestamp

namespace Topology

/-- The `HashSet` of the silent nodes. -/
def silentNodes (conf : PurgeConf) (now : Int) (t : Topology ρ) : NodeSet ρ :=
  KeyedSet.empty.addAll (t.nodes.toList.filter (·.isSilent conf now))

/-- `Topology(Topology t, HashSet toPurge)`. -/
def withoutNodes (t : Topology ρ) (toPurge : NodeSet ρ) (now : Int) : Topology ρ where
  currentTimestamp := now
  initialTimestamp := now
  nodes := KeyedSet.empty.addAll
    ((t.nodes.toList.filter fun n => !toPurge.contains n).map NodeTopologyInfo.clone)

end Topology

/-- One step of the thread. -/
def purge (conf : PurgeConf) (now : Int) (topologyHistory : List (Topology ρ)) :
    Option (List (Topology ρ)) :=
  if topologyHistory.isEmpty then some topologyHistory
  else
    match topologyHistory.filter fun t => !t.isOld conf now with
    -- `getFirst` raises `NoSuchElementException`.
    | [] => none
    | lastTopology :: older =>
      let silentNodes := lastTopology.silentNodes conf now
      if silentNodes.toList.isEmpty then some (lastTopology :: older)
      else some (lastTopology.withoutNodes silentNodes now :: lastTopology :: older)

end PTunes.Controller
