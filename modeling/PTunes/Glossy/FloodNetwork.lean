import Mathlib.Logic.Function.Basic
import PTunes.Glossy.Flood
import PTunes.Rime.Addr

/-!
# `PTunes.Glossy.FloodNetwork`: an idealised flood

All nodes in a flood with synchronisation. Time is counted in ticks of the DCO, which has
`clockPhi` ticks for each tick of the low-frequency clock, at every node. A reception starts
when the transmission starts. A relay starts its transmission `tSlot` after the start of the
reception that it relays, and it holds `tSlot` for `T_slot_h`. Apart from this everything may
happen: a node may receive any transmission or lose it, packets are corrupted, interrupts come
late, the initiator timeout sends the packet again, and nodes stop at any time.

`air` is a record of the transmissions that have begun, and `first` of the start of the
initiator's first one. `source` is the transmission whose reception began last at a node.
-/

set_option autoImplicit false

namespace PTunes.Glossy

open PTunes.Rime (RimeAddr)

/-- A transmission: its start, and the slot field of its packet. -/
structure Transmission where
  start : Nat
  slot : UInt8
deriving DecidableEq, Repr

/-- A flood and its nodes. `dco` and `low` are the offsets of the two clocks of a node, and
`before` holds its variables before the flood. -/
structure SyncFlood where
  initiator : RimeAddr
  txMax : UInt8
  dataLen : UInt8
  tSlot : UInt16
  dco : RimeAddr → Nat
  low : RimeAddr → Nat
  before : RimeAddr → Flood
  data : RimeAddr → List UInt8
  memory : RimeAddr → Packet
  now : RimeAddr → UInt16

namespace SyncFlood

variable (F : SyncFlood)

/-- The arguments of `glossy_start`. -/
def conf (n : RimeAddr) : FloodConf := ⟨n = F.initiator, true, F.txMax, F.dataLen⟩

/-- `TBR`, the high-frequency clock. -/
def tbr (n : RimeAddr) (t : Nat) : UInt16 := UInt16.ofNat (t + F.dco n)

/-- `TAR`, the low-frequency clock. -/
def tar (n : RimeAddr) (t : Nat) : UInt16 := UInt16.ofNat ((t + F.low n) / clockPhi)

end SyncFlood

/-- A node. -/
structure FloodNode where
  flood : Flood
  source : Option Transmission

/-- All nodes. -/
structure FloodNet where
  nodes : RimeAddr → FloodNode
  air : List Transmission
  first : Option Nat

/-- What an interrupt is about: the transmission whose reception begins, the time at which the
transmission of the node begins, and the time of the next tick of the low-frequency clock. -/
structure Instant where
  source : Option Transmission
  txStart : Nat
  capture : Nat

/-- What may happen: an interrupt at a node, the end of its wait for a packet, or the call of
`glossy_stop`. -/
inductive FloodNetAction where
  | interrupt (n : RimeAddr) (i : Interrupt) (e : Instant)
  | rxTimeout (n : RimeAddr)
  | stop (n : RimeAddr)

namespace FloodNet

variable (F : SyncFlood)

/-- After `glossy_start` at every node. -/
def init : FloodNet where
  nodes n := ⟨(F.before n).glossyStart (F.conf n) (F.data n) (F.memory n) (F.now n), none⟩
  air := []
  first := none

/-- The reception that begins is one of a transmission in the air, or of noise. -/
def receives (s : FloodNet) (n : RimeAddr) (i : Interrupt) (e : Instant) : Bool :=
  match e.source with
  | some tr => tr ∈ s.air && i.tbccr1 == F.tbr n tr.start
  | none => true

/-- A packet whose CRC is right is the one of the transmission. -/
def isIntact (x : FloodNode) (i : Interrupt) : Bool :=
  !i.crcOk || match x.source with
    | some tr => i.fifo.slot == tr.slot
    | none => false

/-- The clocks are captured at the next tick, within one round of the DCO's counter since the
start of the reception. A relay begins `tSlot` after the start of the reception. -/
def transmits (n : RimeAddr) (x : FloodNode) (i : Interrupt) (e : Instant) : Bool :=
  x.flood.tSlotH == F.tSlot && e.txStart ≤ e.capture && (e.capture + F.low n) % clockPhi == 0 &&
    i.capH == F.tbr n e.capture && i.capL == F.tar n e.capture &&
    match x.source with
    | some tr => e.txStart == tr.start + F.tSlot.toNat && e.capture < tr.start + 65536
    | none => true

/-- The interrupt is one of the idealised flood. -/
def isIdeal (s : FloodNet) (n : RimeAddr) (i : Interrupt) (e : Instant) : Bool :=
  let x := s.nodes n
  x.flood.mayInterrupt i &&
    match x.flood.dispatch i with
    | .beginRx => receives F s n i e
    | .endRx => isIntact x i
    | .beginTx => transmits F n x i e
    | _ => true

/-- A node changes. -/
def setNode (s : FloodNet) (n : RimeAddr) (x : FloodNode) : FloodNet :=
  { s with nodes := Function.update s.nodes n x }

/-- `timerb1_interrupt` at a node. -/
def interrupt (s : FloodNet) (n : RimeAddr) (i : Interrupt) (e : Instant) : FloodNet :=
  let x := s.nodes n
  let flood := x.flood.timerb1Interrupt (F.conf n) i
  match x.flood.dispatch i with
  | .beginRx => s.setNode n ⟨flood, e.source⟩
  | .beginTx =>
    { s.setNode n ⟨flood, x.source⟩ with
      air := s.air ++ [⟨e.txStart, x.flood.packet.slot⟩]
      first := if n = F.initiator then some (s.first.getD e.txStart) else s.first }
  | .initiatorTimeout => s.setNode n ⟨flood, none⟩
  | _ => s.setNode n ⟨flood, x.source⟩

/-- The flood as a machine. -/
def machine : Machine FloodNet FloodNetAction where
  init := init F
  step s
    | .interrupt n i e => if isIdeal F s n i e then some (interrupt F s n i e) else none
    | .rxTimeout n =>
      some (s.setNode n ⟨(s.nodes n).flood.radioAbortRx, (s.nodes n).source⟩)
    | .stop n => some (s.setNode n ⟨(s.nodes n).flood.glossyStop.2, (s.nodes n).source⟩)

end FloodNet

end PTunes.Glossy
