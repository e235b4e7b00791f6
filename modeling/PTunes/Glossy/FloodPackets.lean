import PTunes.Glossy.FloodNetwork

/-!
# `PTunes.Glossy.FloodPackets`: the packets of a flood

The flood of `FloodNetwork`, with the packets that the nodes send. A packet whose CRC is right is
the one of the transmission, in all its bytes. A reception may also fail, and then the packet
buffer holds anything.

`packets` is a record of the transmissions with their packets, and `source` of the packet whose
reception began last at a node. When several nodes transmit at once, the label says which packet
the receiver locks on.
-/

set_option autoImplicit false

namespace PTunes.Glossy

open PTunes.Rime (RimeAddr)

/-- A flood with its packets. -/
structure PacketNet where
  net : FloodNet
  packets : List (Transmission × Packet)
  source : RimeAddr → Option Packet

/-- What happens, and the packet that the receiver locks on. -/
structure PacketAction where
  action : FloodNetAction
  packet : Packet

namespace PacketNet

variable (F : SyncFlood)

/-- After `glossy_start` at every node. -/
def init : PacketNet where
  net := FloodNet.init F
  packets := []
  source _ := none

/-- The packet of the reception is one of the transmission, and a packet whose CRC is right is the
packet of the reception. -/
def isFaithful (s : PacketNet) (n : RimeAddr) (i : Interrupt) (e : Instant) (p : Packet) : Bool :=
  match (s.net.nodes n).flood.dispatch i with
  | .beginRx =>
    match e.source with
    | some tr => (tr, p) ∈ s.packets
    | none => true
  | .endRx => !i.crcOk || s.source n == some i.fifo
  | _ => true

/-- The records after an interrupt. -/
def record (s : PacketNet) (n : RimeAddr) (i : Interrupt) (e : Instant) (p : Packet)
    (net : FloodNet) : PacketNet :=
  match (s.net.nodes n).flood.dispatch i with
  | .beginRx =>
    { s with net := net, source := Function.update s.source n (e.source.map fun _ => p) }
  | .beginTx =>
    let packet := (s.net.nodes n).flood.packet
    { s with net := net, packets := s.packets ++ [(⟨e.txStart, packet.slot⟩, packet)] }
  | _ => { s with net := net }

/-- The flood as a machine. -/
def machine : Machine PacketNet PacketAction where
  init := init F
  step s a :=
    match a.action with
    | .interrupt n i e =>
      if isFaithful s n i e a.packet then
        ((FloodNet.machine F).step s.net a.action).map (s.record n i e a.packet)
      else none
    | _ => ((FloodNet.machine F).step s.net a.action).map fun net => { s with net := net }

end PacketNet

end PTunes.Glossy
