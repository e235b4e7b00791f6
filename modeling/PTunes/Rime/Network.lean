import PTunes.Rime.Relcollect

/-!
# `PTunes.Rime.Network`: nodes that hear each other's announcements

Any number of nodes, each at its address. An announcement that a node broadcasts stays in
`air`, and any node may hear it at any later time: never, late, or more than once. Data
packets come from the environment, as the events of a single node.

Three fields are records and no part of the system: `sinks` says which nodes were made the
sink by `relcollect_set_sink`, an announcement notes whether its sender was, and `stores`
lists what `received_announcement` has stored.
-/

set_option autoImplicit false

namespace PTunes.Rime

/-- A broadcast announcement, and whether its sender was the sink. -/
structure Announcement where
  sender : RimeAddr
  data : List UInt8
  wasSink : Bool

/-- The value in the packet of an announcement. -/
def Announcement.value (m : Announcement) : UInt16 := readLe16 m.data 4

/-- What `received_announcement` has stored: the metric that the neighbor announced, the metric
in its table entry afterwards, and whether the neighbor was the sink. -/
structure StoredMetric where
  announced : UInt16
  stored : UInt16
  wasSink : Bool
deriving DecidableEq, Repr

/-- The nodes, the announcements, and the records. -/
structure Network where
  nodes : RimeAddr → Node
  sinks : RimeAddr → Bool
  air : List Announcement
  stores : List StoredMetric

/-- One node has an event of its own, or it hears the announcement `air[i]`. -/
inductive NetworkAction
  | event (node : RimeAddr) (a : NodeAction)
  | hear (node : RimeAddr) (i : Nat) (outside : Nat → Memory) (env : Nat → Env)

/-- The event is no reception of an announcement. -/
def isOwnEvent : NodeAction → Bool
  | .recvAdv _ _ _ _ => false
  | _ => true

/-- The announcement that a node broadcasts in an event: when the timer of `ipolite.c`
expires, the waiting packet. -/
def broadcasts (s : Node) : NodeAction → Option (List UInt8)
  | .ipoliteTimer _ => s.ipolite.q.map fun b => (s.pool.bufmem.block b).data
  | _ => none

/-- What `received_announcement` has stored for the sender of `m`, in the node that it leaves
to `rel_update_rtmetric`. -/
def storedMetric (m : Announcement) (s : Node) : Option StoredMetric :=
  (neighborFind s.neighbors m.sender).map fun i =>
    ⟨m.value, (s.neighbors.get i).rtmetric, m.wasSink⟩

namespace Network

/-- All nodes before `relcollect_open`. -/
def boot : Network where
  nodes _ := Node.boot
  sinks _ := false
  air := []
  stores := []

/-- A node has an event. -/
def event (conf : RimeAddr → NodeConf) (N : Network) (node : RimeAddr) (a : NodeAction) :
    Network where
  nodes := Function.update N.nodes node (handle (conf node) (N.nodes node) a)
  sinks := match a with
    | .setSink shouldBeSink _ => Function.update N.sinks node shouldBeSink
    | _ => N.sinks
  air := N.air ++ ((broadcasts (N.nodes node) a).map fun data =>
    ⟨node, data, N.sinks node⟩).toList
  stores := N.stores

/-- A node hears an announcement. -/
def hear (conf : RimeAddr → NodeConf) (N : Network) (node : RimeAddr) (m : Announcement)
    (outside : Nat → Memory) (env : Nat → Env) : Network :=
  let C := conf node
  let s := N.nodes node
  let noted := (hearAdv C s m.sender m.data outside env).noted
  { N with
    nodes := Function.update N.nodes node (handle C s (.recvAdv m.sender m.data outside env))
    stores := N.stores ++ noted.filterMap fun p => storedMetric m p.2 }

/-- The network as a machine. -/
def machine (conf : RimeAddr → NodeConf) : Machine Network NetworkAction where
  init := boot
  step N
    | .event node a =>
      if isOwnEvent a && enabled (conf node) (N.nodes node) a then
        some (N.event conf node a)
      else none
    | .hear node i outside env =>
      match N.air[i]? with
      | some m => if (N.nodes node).opened then some (N.hear conf node m outside env) else none
      | none => none

end Network

end PTunes.Rime
