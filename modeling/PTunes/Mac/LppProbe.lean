import PTunes.Mac.Lpp

/-!
# `PTunes.Mac.LppProbe`: how LPP goes through its queue after a probe (`lpp.c`)

`read_packet` follows the `next` pointers of `queued_packets_list` while the packets are sent.
`hdr` points into the packet buffer, and so does what `queuebuf_to_packetbuf` copies:
`hdr->sender` is the sender of the probe until a packet is sent, and then the sender in the
header of that packet. `remove_queued_packet` takes a unicast off the list and frees its item,
and `list_remove` clears its `next`.

The callbacks below `post_send` and `rel_send_queued_packet` hand the next packet to LPP from a
timer, so the list does not grow here.

The last fields of `Probing` are records: the packets that were sent, the items that were
removed, and the items whose `next` was read after they were removed.
-/

set_option autoImplicit false

namespace PTunes.Mac.Lpp

open PTunes.Rime

/-- `i->next` on a list. An item that was removed from it has none. -/
def next (l : List (Fin maxQueuedPackets)) (i : Fin maxQueuedPackets) :
    Option (Fin maxQueuedPackets) :=
  (l.dropWhile (· ≠ i)).tail.head?

/-- `read_packet` in its loop. -/
structure Probing where
  lpp : Lpp
  hdrSender : RimeAddr
  sent : List (Fin maxQueuedPackets)
  removed : List (Fin maxQueuedPackets)
  stale : List (Fin maxQueuedPackets)

namespace Probing

/-- What is around the node while a unicast is sent: whether its DATA_ACK comes, and what the
layers above do when it is removed. -/
structure Surroundings where
  conf : NodeConf
  acked : Fin maxQueuedPackets → Bool
  reaction : Fin maxQueuedPackets → Reaction

/-- `send_packet_to_radio`. -/
def sendPacketToRadio (e : Surroundings) (p : Probing) (i : Fin maxQueuedPackets) : Probing :=
  let hdr := (p.lpp.item i).packet.hdr
  let p := { p with hdrSender := hdr.sender, sent := p.sent ++ [i] }
  if rimeaddrCmp hdr.receiver rimeaddrNull then p
  else
    { p with
      lpp := sendUnicastToRadio e.conf (e.reaction i) p.lpp i (e.acked i)
      removed := p.removed ++ [i] }

/-- The body of the loop. -/
def visit (e : Surroundings) (p : Probing) (i : Fin maxQueuedPackets) : Probing :=
  let receiver := (p.lpp.item i).packet.hdr.receiver
  if rimeaddrCmp receiver p.hdrSender || rimeaddrCmp receiver rimeaddrNull then
    sendPacketToRadio e p i
  else p

/-- `i = i->next`. -/
def readNext (p : Probing) (i : Fin maxQueuedPackets) :
    Option (Fin maxQueuedPackets) × Probing :=
  (next p.lpp.queuedPacketsList i,
    if i ∈ p.lpp.queuedPacketsList then p else { p with stale := p.stale ++ [i] })

/-- The loop, with at most `fuel` turns. -/
def loop (e : Surroundings) : Nat → Option (Fin maxQueuedPackets) → Probing → Option Probing
  | _, none, p => some p
  | 0, some _, _ => none
  | fuel + 1, some i, p =>
    let (i', p) := (p.visit e i).readNext i
    loop e fuel i' p

end Probing

/-- `read_packet` of a probe, with at most `fuel` turns of its loop. -/
def readPacketProbe (e : Probing.Surroundings) (s : Lpp) (sender : RimeAddr) (fuel : Nat) :
    Option Probing :=
  Probing.loop e fuel s.queuedPacketsList.head? ⟨s, sender, [], [], []⟩

end PTunes.Mac.Lpp
