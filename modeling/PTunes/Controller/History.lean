import PTunes.Controller.Topology

/-!
# `PTunes.Controller.History`: the topology history

`AdaptMac.updateTopologyHistory`: a message that the sink has collected changes the most
recent topology, or creates a new one from it. The most recent topology is the head of the
list. The method runs in the monitor of the history, so one call is one step.

`clock k` is what the `k`-th reading of the clock during the call gives, in seconds. The
topologies of a history do not share records: the constructors of `Topology` clone them.
The static record `sink` is shared by the first topology, so its fields can differ from
call to call; it is a parameter of the call.
-/

set_option autoImplicit false

namespace PTunes.Controller

variable {ρ : Type}

/-- The age in seconds from which on a topology is no longer changed in place. -/
def inPlaceSeconds : Int := 5

/-- `lastTopology.getTimestamp() + 5 > now`: the topology is changed in place. -/
def Topology.isRecent (t : Topology ρ) (now : Int) : Bool :=
  decide (t.currentTimestamp + inPlaceSeconds > now)

/-- The setters that are called on the known record. A PRR of 0 points to a corrupted
message, so it is not stored. -/
def NodeTopologyInfo.updateFrom (knownNodeInfo nodeInfo : NodeTopologyInfo ρ) (now : Int) :
    NodeTopologyInfo ρ :=
  { knownNodeInfo with
    prr := if nodeInfo.prr ≠ 0 then nodeInfo.prr else knownNodeInfo.prr
    parentId := nodeInfo.parentId
    macConf := nodeInfo.macConf
    pktRate := nodeInfo.pktRate
    timestamp := now }

/-- The topology after the known record of the node has been updated in place. -/
def Topology.updateNode (t : Topology ρ) (nodeInfo : NodeTopologyInfo ρ)
    (nodeNow topologyNow : Int) : Topology ρ :=
  { t with
    currentTimestamp := topologyNow
    nodes := t.nodes.modify nodeInfo.nodeId (·.updateFrom nodeInfo nodeNow) (fun _ => rfl) }

/-- `AdaptMac.updateTopologyHistory`. -/
def updateTopologyHistory (sink : NodeTopologyInfo ρ) (clock : Nat → Int)
    (nodeInfo : NodeTopologyInfo ρ) : List (Topology ρ) → List (Topology ρ)
  | [] => [Topology.ofSink sink nodeInfo (clock 0)]
  | lastTopology :: older =>
      match lastTopology.getNodeInfo nodeInfo.nodeId with
      | none => lastTopology.withNode nodeInfo (clock 0) :: lastTopology :: older
      | some knownNodeInfo =>
          if lastTopology.isRecent (clock 0) then
            lastTopology.updateNode nodeInfo (clock 1) (clock 2) :: older
          else
            -- The packet rate of the node is carried over.
            lastTopology.withNode { nodeInfo with pktRate := knownNodeInfo.pktRate } (clock 1)
              :: lastTopology :: older

end PTunes.Controller
