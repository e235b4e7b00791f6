import PTunes.Rime.Relcollect

/-!
# `PTunes.Rime.CollectNetwork`: collection nodes that send data packets to each other

Any number of nodes. A data packet that a node hands to its MAC stays in `frames`, and any node
may receive it at any later time: never, late, or more than once. Announcements come from the
environment, with any contents.

`DataPacket` is what a packet carries from its originator to the sink: the address of the
originator, its packet number and the payload. The three lists of a `CollectNetwork` are records
and no part of the system: the packets handed to a MAC, the packets that an application gave to
`relcollect_send`, and the packets that the application of a sink got.
-/

set_option autoImplicit false

namespace PTunes.Rime

/-- A packet on its way to the sink. -/
structure DataPacket where
  originator : RimeAddr
  packetId : UInt16
  payload : List UInt8
deriving DecidableEq, Repr

/-- The packet in a queue buffer. No more than `PACKETBUF_SIZE` bytes of it get back into the
packet buffer. -/
def Queuebuf.dataPacket (q : Queuebuf) : DataPacket :=
  ⟨q.addrs .esender, q.attrs .epacketId, q.data.take packetbufSize⟩

/-- The packet in the packet buffer. -/
def Packetbuf.dataPacket (pb : Packetbuf) : DataPacket := pb.toQueuebuf.dataPacket

/-! ### What an event records -/

/-- The packet that an event hands to the MAC: the timer of `relunicast.c` has expired, and the
packet is not given up. -/
def handedToMac (C : NodeConf) (s : Node) : NodeAction → List DataPacket
  | .sendTimer _ _ _ _ =>
    if s.relunicast.rxmit > s.relunicast.maxRxmit then []
    else [((Relunicast.loadPacket C s).setAddr .receiver s.relunicast.receiver).dataPacket]
  | _ => []

/-- The packet that the application gives to `relcollect_send`. -/
def submitted (C : NodeConf) (s : Node) : NodeAction → List DataPacket
  | .relcollectSend pb _ _ =>
    [⟨C.addr, s.conn.seqno.toUInt16, (pb.hdr ++ pb.data).take packetbufSize⟩]
  | _ => []

/-- The node in which `relcollect_send` or `rel_node_packet_received` delivers the packet buffer
or puts it into the forwarding queue. A received packet is ignored when it is a duplicate, and
when the node has no route. -/
def accepting (C : NodeConf) (s : Node) : NodeAction → Option Node
  | .relcollectSend pb rexmits _ => some (prepareSend C { s with packetbuf := pb } rexmits)
  | .received pb env _ =>
    let s := { s with packetbuf := pb }
    if isRecent s then none
    else
      let s := noteRecent s
      let s := if lowMetric s then relUpdateRtmetric C env s else s
      if s.conn.rtmetric = rtmetricMax then none else some s
  | _ => none

/-- The packet that an event delivers to the application of a sink. -/
def deliveredTo (C : NodeConf) (s : Node) (a : NodeAction) : List DataPacket :=
  match accepting C s a with
  | some t => if t.conn.rtmetric = sinkMetric then [t.packetbuf.dataPacket] else []
  | none => []

/-! ### The network -/

/-- The nodes and the records. -/
structure CollectNetwork where
  nodes : RimeAddr → Node
  frames : List DataPacket
  submitted : List DataPacket
  delivered : List DataPacket

/-- One node has an event that is no reception of a data packet, or it receives one. -/
inductive CollectAction
  | event (node : RimeAddr) (a : NodeAction)
  | receive (node : RimeAddr) (pb : Packetbuf) (env env' : Env)

/-- The event is a reception of a data packet. -/
def isReception : NodeAction → Bool
  | .received _ _ _ => true
  | _ => false

namespace CollectNetwork

/-- All nodes before `relcollect_open`. -/
def boot : CollectNetwork where
  nodes _ := Node.boot
  frames := []
  submitted := []
  delivered := []

/-- A node has an event. -/
def act (conf : RimeAddr → NodeConf) (N : CollectNetwork) (node : RimeAddr) (a : NodeAction) :
    CollectNetwork where
  nodes := Function.update N.nodes node (handle (conf node) (N.nodes node) a)
  frames := N.frames ++ handedToMac (conf node) (N.nodes node) a
  submitted := N.submitted ++ Rime.submitted (conf node) (N.nodes node) a
  delivered := N.delivered ++ deliveredTo (conf node) (N.nodes node) a

/-- The network as a machine. -/
def machine (conf : RimeAddr → NodeConf) : Machine CollectNetwork CollectAction where
  init := boot
  step N
    | .event node a =>
      if !isReception a && enabled (conf node) (N.nodes node) a then
        some (N.act conf node a)
      else none
    | .receive node pb env env' =>
      if pb.dataPacket ∈ N.frames &&
          enabled (conf node) (N.nodes node) (.received pb env env') then
        some (N.act conf node (.received pb env env'))
      else none

end CollectNetwork

end PTunes.Rime
