import PTunes.Lib.KeyedSet
import PTunes.Lib.While

/-!
# `PTunes.Controller.Topology`: node records and topologies

`MacConfiguration.java`, `NodeTopologyInfo.java` and `Topology.java`. A record is equal to
another one when the node ids are equal (`equals`, `hashCode`), so the `HashSet` of a
topology is a `KeyedSet` with the node id as its key. A node is a sink when it is its own
parent.

`isConsistent` walks from each node up to a sink. The walks dereference the parent they look
up and go on until they meet a sink or a node again, so the result is a `Loop`.

Times are in seconds, as `System.currentTimeMillis() / TIME_SCALE_PACKET_RATE` gives them.
A method that reads the clock takes the value it reads. The packet rate is a `double` that
these classes only store, so its type `ρ` is a parameter.
-/

set_option autoImplicit false

namespace PTunes.Controller

/-- `MacConfiguration`: the MAC parameters. -/
structure MacConfiguration where
  tl : Int
  ts : Int
  n : Int
  deriving DecidableEq, Repr

/-- `NodeTopologyInfo`: what is known of one node. -/
structure NodeTopologyInfo (ρ : Type) where
  /-- In seconds. -/
  timestamp : Int
  nodeId : Int
  parentId : Int
  prr : Int
  /-- Packets per minute. -/
  pktRate : ρ
  macConf : MacConfiguration
  deriving DecidableEq, Repr

namespace NodeTopologyInfo

variable {ρ : Type}

/-- `NodeTopologyInfo.isSink`. -/
def isSink (n : NodeTopologyInfo ρ) : Bool := n.nodeId == n.parentId

/-- `NodeTopologyInfo.clone`: a new record with all fields of the old one. -/
def clone (n : NodeTopologyInfo ρ) : NodeTopologyInfo ρ :=
  { timestamp := n.timestamp, nodeId := n.nodeId, parentId := n.parentId, prr := n.prr,
    pktRate := n.pktRate, macConf := n.macConf }

/-- The sink is its own parent, and no other node is. -/
theorem isSink_iff {n : NodeTopologyInfo ρ} : n.isSink = true ↔ n.nodeId = n.parentId :=
  beq_iff_eq

end NodeTopologyInfo

/-- The `HashSet` of the records of a topology. -/
abbrev NodeSet (ρ : Type) := KeyedSet (@NodeTopologyInfo.nodeId ρ)

/-- `Topology`. -/
structure Topology (ρ : Type) where
  currentTimestamp : Int
  initialTimestamp : Int
  nodes : NodeSet ρ

namespace Topology

variable {ρ : Type}

/-- `Topology(NodeTopologyInfo sink, NodeTopologyInfo n)`. -/
def ofSink (sink n : NodeTopologyInfo ρ) (now : Int) : Topology ρ :=
  { currentTimestamp := now, initialTimestamp := now,
    nodes := (KeyedSet.empty.add sink).add n }

/-- The clones of the records of a topology, added one by one to a new set. -/
def cloneNodes (t : Topology ρ) : NodeSet ρ :=
  KeyedSet.empty.addAll (t.nodes.toList.map NodeTopologyInfo.clone)

/-- `Topology(Topology t, NodeTopologyInfo n)`. -/
def withNode (t : Topology ρ) (n : NodeTopologyInfo ρ) (now : Int) : Topology ρ :=
  { currentTimestamp := now, initialTimestamp := now,
    nodes := (t.cloneNodes.erase n.nodeId).add n }

/-- `Topology.getNodeInfo`. -/
def getNodeInfo (t : Topology ρ) (nodeId : Int) : Option (NodeTopologyInfo ρ) :=
  t.nodes.get? nodeId

/-- `Topology.getSink`: the first self-parented record in the iteration order. -/
def getSink (t : Topology ρ) : Option (NodeTopologyInfo ρ) :=
  t.nodes.toList.find? NodeTopologyInfo.isSink

/-- One turn of the loop that walks up from a node. The state is `currentNode` with
`visitedNodes`, the result is whether the walk has met no cycle. -/
def walkTurn (t : Topology ρ) :
    NodeTopologyInfo ρ × List Int → Turn (NodeTopologyInfo ρ × List Int) Bool
  | (currentNode, visitedNodes) =>
      match t.getNodeInfo currentNode.parentId with
      | none => .fail
      | some parent =>
          if parent.isSink then .done true
          else if visitedNodes.contains currentNode.parentId then .done false
          else .next (parent, parent.nodeId :: visitedNodes)

/-- The walks from the nodes of a list that are not sinks. -/
def walkAll (t : Topology ρ) (fuel : Nat) : List (NodeTopologyInfo ρ) → Loop Bool
  | [] => .returned true
  | n :: rest =>
      if n.isSink then t.walkAll fuel rest
      else (whileLoop t.walkTurn fuel (n, [n.nodeId])).bind fun ok =>
        if ok then t.walkAll fuel rest else .returned false

/-- `Topology.isConsistent`, with a bound on the turns of each walk. -/
def isConsistent (t : Topology ρ) (fuel : Nat) : Loop Bool :=
  if t.nodes.toList.all (fun n => n.isSink || (t.getNodeInfo n.parentId).isSome) then
    t.walkAll fuel t.nodes.toList
  else .returned false

/-- A record that is found has the id, and it is one of the records. -/
theorem getNodeInfo_eq_some_iff {t : Topology ρ} {i : Int} {n : NodeTopologyInfo ρ} :
    t.getNodeInfo i = some n ↔ n ∈ t.nodes.toList ∧ n.nodeId = i :=
  t.nodes.get?_eq_some_iff

/-- The constructor clones the records, so that the new set has the same entries. -/
theorem get?_cloneNodes (t : Topology ρ) : t.cloneNodes.get? = t.getNodeInfo := by
  have hclone : t.nodes.toList.map NodeTopologyInfo.clone = t.nodes.toList :=
    List.map_id'' (fun _ => rfl) _
  rw [cloneNodes, hclone]
  exact t.nodes.get?_copy

/-- The new record replaces what the topology knew of the node. -/
theorem getNodeInfo_withNode (t : Topology ρ) (n : NodeTopologyInfo ρ) (now : Int) :
    (t.withNode n now).getNodeInfo = Function.update t.getNodeInfo n.nodeId (some n) := by
  have herase := t.cloneNodes.get?_erase n.nodeId
  have hnot : (t.cloneNodes.erase n.nodeId).contains n = false := by
    rw [KeyedSet.contains, herase, Function.update_self]
    rfl
  show ((t.cloneNodes.erase n.nodeId).add n).get? = _
  rw [KeyedSet.get?_add _ hnot, herase, Function.update_idem, get?_cloneNodes]

/-- The first topology has the record of the sink, and the new record unless that has the
id of the sink. -/
theorem getNodeInfo_ofSink {sink n : NodeTopologyInfo ρ} (h : n.nodeId ≠ sink.nodeId)
    (now : Int) : (ofSink sink n now).getNodeInfo =
      Function.update (Function.update (fun _ => none) sink.nodeId (some sink)) n.nodeId
        (some n) := by
  have hempty : (KeyedSet.empty : NodeSet ρ).contains sink = false := rfl
  have hsink := KeyedSet.get?_add _ hempty
  have hnot : ((KeyedSet.empty : NodeSet ρ).add sink).contains n = false := by
    rw [KeyedSet.contains, hsink, Function.update_of_ne h]
    rfl
  show (((KeyedSet.empty : NodeSet ρ).add sink).add n).get? = _
  rw [KeyedSet.get?_add _ hnot, hsink]
  rfl

end Topology

end PTunes.Controller
