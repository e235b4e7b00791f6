import PTunes.Core.Memb
import PTunes.Lib.Handoff
import PTunes.Rime.Connection

/-!
# `PTunes.Mac.Lpp`: LPP and its relunicast connection (`core/net/mac/lpp.c`)

`send_packet` puts a packet on `queued_packets_list` and sets its removal timer.
`remove_queued_packet` takes it off the list and calls `post_send` for a unicast. It runs when
the removal timer expires, or when a probe of the receiver was answered. The list's items come
from `queued_packets_memb` and hold a queue buffer each. `pending_packets_list` is always empty.

A connection is served by LPP here, with any client. All code runs in processes, so the
handlers are single steps. Whether the pool has a queue buffer is up to the environment, since
all protocols of the node share it. So is what the medium brings: the probes, and whether a
DATA_ACK comes in time.

`events` is a record of the packets that `send` hands to `unicast_send` and of the calls of
`post_send`. The radio, the duty cycle and the energy counters are left out, and so is what the
handlers leave in the packet buffer. No client sends a broadcast inside a callback: the
announcements wait for a timer of `ipolite.c`.
-/

set_option autoImplicit false

namespace PTunes.Mac

open PTunes.Core PTunes.Rime

namespace Lpp

/-- `struct lpp_hdr`. The packets on the list have the type `TYPE_DATA`. -/
structure Hdr where
  sender : RimeAddr
  receiver : RimeAddr
deriving DecidableEq, Repr

/-- The contents of a queue buffer of LPP. -/
structure Packet where
  hdr : Hdr
  payload : List UInt8
deriving DecidableEq, Repr

/-- `struct queue_list_item`. `removalTimer` says that `removal_timer` is set. -/
structure QueueListItem where
  packet : Packet
  removalTimer : Bool
  acknowledged : Bool
deriving DecidableEq, Repr

/-- `MAX_QUEUED_PACKETS`: half of `QUEUEBUF_CONF_NUM`. -/
abbrev maxQueuedPackets : Nat := 11

/-- `HANDSHAKES_RESET_PERIOD`. -/
def handshakesResetPeriod : UInt32 := 20

end Lpp

/-- The variables of LPP, and its node. -/
structure Lpp where
  node : Node
  queuedPacketsMemb : Memb Lpp.QueueListItem Lpp.maxQueuedPackets
  queuedPacketsList : List (Fin Lpp.maxQueuedPackets)
  handshakesTotal : UInt32
  handshakesSucc : UInt32
  events : List Handoff.Event

namespace Lpp

/-- After `lpp_init` and `relunicast_open`. -/
def boot : Lpp where
  node := Node.boot
  queuedPacketsMemb := Memb.membInit ⟨⟨⟨rimeaddrNull, rimeaddrNull⟩, []⟩, false, false⟩
  queuedPacketsList := []
  handshakesTotal := 0
  handshakesSucc := 0
  events := []

/-- An item of the queue. -/
def item (s : Lpp) (i : Fin maxQueuedPackets) : QueueListItem := s.queuedPacketsMemb.block i

/-! ### `send_packet` -/

/-- `list_add`: the item goes to the end of the list. -/
def listAdd (l : List (Fin maxQueuedPackets)) (i : Fin maxQueuedPackets) :
    List (Fin maxQueuedPackets) := l.erase i ++ [i]

/-- The packet with its header. -/
def dataPacket (self : RimeAddr) (pb : Packetbuf) : Packet :=
  ⟨⟨self, pb.addr .receiver⟩, pb.hdr ++ pb.data⟩

/-- `send_packet`. Without an item the packet is dropped, and so it is without a queue buffer.
`queuebuf` says whether the pool has one. -/
def sendPacket (self : RimeAddr) (s : Lpp) (pb : Packetbuf) (queuebuf : Bool) : Bool × Lpp :=
  match s.queuedPacketsMemb.membAlloc with
  | none => (true, s)
  | some (i, memb) =>
    if !queuebuf then (false, { s with queuedPacketsMemb := memb.membFree i })
    else
      (true, { s with
        queuedPacketsMemb := memb.write i ⟨dataPacket self pb, true, false⟩
        queuedPacketsList := listAdd s.queuedPacketsList i })

/-! ### `remove_queued_packet` -/

/-- What a client does in the callback of `post_send`, and what `rel_send_queued_packet`
does. -/
structure Reaction where
  callback : List ClientStep
  relSendQueuedPacket : List ClientStep

/-- `post_send` is called. -/
def postSend (C : NodeConf) (callback : List ClientStep) (s : Lpp) (acknowledged : Bool) : Lpp :=
  { s with
    node := Relunicast.postSend (Recorded.callbacks C callback) s.node acknowledged
    events := s.events ++ [.complete] }

/-- `remove_queued_packet`. -/
def removeQueuedPacket (C : NodeConf) (r : Reaction) (s : Lpp) (i : Fin maxQueuedPackets) :
    Lpp :=
  let item := s.item i
  let wasBroadcast := rimeaddrCmp item.packet.hdr.receiver rimeaddrNull
  let s := { s with
    queuedPacketsMemb := s.queuedPacketsMemb.write i { item with removalTimer := false }
    queuedPacketsList := s.queuedPacketsList.erase i }
  let s := if !wasBroadcast then postSend C r.callback s item.acknowledged else s
  { s with
    queuedPacketsMemb := s.queuedPacketsMemb.membFree i
    node := (Recorded.client C ⟨s.node, []⟩ r.relSendQueuedPacket).node }

/-! ### `read_packet` -/

/-- The update of the handshake counters: both are halved in a long run. -/
def age (s : Lpp) : Lpp :=
  if s.handshakesTotal > handshakesResetPeriod then
    { s with
      handshakesTotal := s.handshakesTotal >>> 1
      handshakesSucc := s.handshakesSucc >>> 1 }
  else s

/-- `send_packet_to_radio` for a unicast. `acked` says whether a DATA_ACK came in time. -/
def sendUnicastToRadio (C : NodeConf) (r : Reaction) (s : Lpp) (i : Fin maxQueuedPackets)
    (acked : Bool) : Lpp :=
  let acknowledged := (s.item i).acknowledged || acked
  let s := { s with
    queuedPacketsMemb :=
      s.queuedPacketsMemb.write i { s.item i with acknowledged := acknowledged }
    handshakesTotal := s.handshakesTotal + 1
    handshakesSucc := if acked then s.handshakesSucc + 1 else s.handshakesSucc }
  removeQueuedPacket C r (age s) i

/-- The loop of `read_packet` over the list after a probe from `sender`. A broadcast is sent
and stays on the list. The copy of the packet overwrites the probe's header in the packet
buffer, so the loop goes on with the sender of that packet. A unicast is sent and removed.
`list_remove` clears its `next`, so the loop is over then. -/
def probeLoop (C : NodeConf) (r : Reaction) (acked : Bool) (s : Lpp) :
    RimeAddr → List (Fin maxQueuedPackets) → Lpp
  | _, [] => s
  | sender, i :: rest =>
    let hdr := (s.item i).packet.hdr
    if rimeaddrCmp hdr.receiver rimeaddrNull then probeLoop C r acked s hdr.sender rest
    else if rimeaddrCmp hdr.receiver sender then sendUnicastToRadio C r s i acked
    else probeLoop C r acked s sender rest

/-- `read_packet` of a probe. -/
def readProbe (C : NodeConf) (r : Reaction) (s : Lpp) (sender : RimeAddr) (acked : Bool) : Lpp :=
  probeLoop C r acked s sender s.queuedPacketsList

/-! ### `send` of `relunicast.c` -/

/-- The packet that `send` hands to `unicast_send`. -/
def outgoing (C : NodeConf) (s : Lpp) : Packetbuf :=
  (Relunicast.loadPacket C s.node).setAddr .receiver s.node.relunicast.receiver

/-- `send`, when the timer has expired: it gives up, or the packet goes to `send_packet`. `mac`
is what the layers below make of the packet buffer. The list and the queue buffers of LPP are those
of this module, so `Relunicast.send` leaves them alone (`id`). -/
def send (C : NodeConf) (callback : List ClientStep) (s : Lpp) (mac : Packetbuf → Packetbuf)
    (queuebuf : Bool) : Lpp :=
  let c := s.node.relunicast
  let pb := outgoing C s
  let s := { s with
    node := Relunicast.send C (Recorded.callbacks C callback) s.node mac false id }
  if c.rxmit > c.maxRxmit then s
  else (sendPacket C.addr { s with events := s.events ++ [.request] } pb queuebuf).2

/-! ### The machine -/

/-- What can happen at the node. -/
inductive Action
  /-- The client takes a step outside the callbacks. -/
  | client (step : ClientStep)
  /-- The timer of the connection expires. -/
  | sendTimer (mac : Packetbuf → Packetbuf) (queuebuf : Bool) (callback : List ClientStep)
  /-- A broadcast of some protocol. -/
  | broadcast (pb : Packetbuf) (queuebuf : Bool)
  /-- A removal timer expires. -/
  | removalTimer (i : Fin maxQueuedPackets) (r : Reaction)
  /-- A probe arrives. -/
  | probe (sender : RimeAddr) (acked : Bool) (r : Reaction)

/-- The node as a machine. -/
def machine (C : NodeConf) : Machine Lpp Action where
  init := boot
  step s
    | .client step => some { s with node := (Recorded.clientStep C ⟨s.node, []⟩ step).node }
    | .sendTimer mac queuebuf callback =>
      if s.node.relunicast.timer then some (send C callback s mac queuebuf) else none
    | .broadcast pb queuebuf =>
      if rimeaddrCmp (pb.addr .receiver) rimeaddrNull then
        some (sendPacket C.addr s pb queuebuf).2
      else none
    | .removalTimer i r =>
      if (s.item i).removalTimer then some (removeQueuedPacket C r s i) else none
    | .probe sender acked r => some (readProbe C r s sender acked)

end Lpp

end PTunes.Mac
