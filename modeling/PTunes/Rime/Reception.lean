import PTunes.Rime.Relcollect

/-!
# `PTunes.Rime.Reception`: the receptions of a collection node

What `rel_node_packet_received` does with a packet: it may record it in the window of recent
packets, and it may deliver or enqueue a packet. `receive` is the function of the source together
with this record (`receive_node`), and `receiverMachine` is the node with the record of all its
receptions.

What is delivered or enqueued is what is in the packet buffer at that point, after the route
update.
-/

set_option autoImplicit false

namespace PTunes.Rime

/-- What identifies a packet: its originator and the originator's sequence number. -/
abbrev PacketKey := RimeAddr × UInt16

/-- The packet in the buffer. -/
def packetKey (pb : Packetbuf) : PacketKey := (pb.addr .esender, pb.attr .epacketId)

/-- The record of one reception. `accepted` is the packet that is delivered or enqueued. -/
structure Reception where
  packet : PacketKey
  recorded : Bool
  accepted : Option PacketKey
deriving DecidableEq, Repr

/-- The packet that `acceptReceived` delivers or enqueues. -/
def acceptedPacket (env : Env) (s : Node) : Option PacketKey :=
  if s.conn.rtmetric = sinkMetric ∨ (acceptReceived env s).1 = true then
    some (packetKey s.packetbuf)
  else none

/-- `rel_node_packet_received`, with its record. -/
def receive (C : NodeConf) (env env' : Env) (s : Node) : Reception × Node :=
  if isRecent s then (⟨packetKey s.packetbuf, false, none⟩, s)
  else
    let t := noteRecent s
    let t := if lowMetric t then relUpdateRtmetric C env t else t
    (⟨packetKey s.packetbuf, true, acceptedPacket env' t⟩, sendIf C env' (acceptReceived env' t))

/-- Without the record, `receive` is the function of the source. -/
theorem receive_node (C : NodeConf) (env env' : Env) (s : Node) :
    (receive C env env' s).2 = relNodePacketReceived C env env' s := by
  unfold receive relNodePacketReceived
  split <;> rfl

/-- A node and the record of its receptions. -/
structure ReceivingNode where
  node : Node
  receptions : List Reception

/-- The receptions in an event: at most one. -/
def receptionsOf (C : NodeConf) (s : Node) : NodeAction → List Reception
  | .received pb env env' => [(receive C env env' { s with packetbuf := pb }).1]
  | _ => []

/-- The node with the record of its receptions as a machine. -/
def receiverMachine (C : NodeConf) : Machine ReceivingNode NodeAction where
  init := ⟨Node.boot, []⟩
  step w a :=
    if enabled C w.node a then
      some ⟨handle C w.node a, w.receptions ++ receptionsOf C w.node a⟩
    else none

/-- The packets that were recorded, in order. -/
def recordedPackets (l : List Reception) : List PacketKey := (l.filter (·.recorded)).map (·.packet)

/-- The packet in the received buffer has come over the air, where its sequence number has 8
bits. -/
def fromAir : NodeAction → Bool
  | .received pb _ _ => (pb.attr .epacketId).toNat < 256
  | _ => true

end PTunes.Rime
