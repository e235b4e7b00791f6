import Mathlib.Init
import PTunes.Lib.Machine

/-!
# `PTunes.Glossy.Flood`: a flood at one node (`core/dev/glossy.c`)

`glossy_start` begins a flood, the interrupts of Timer B drive it, and `glossy_stop` ends it.
The handler `timerb1_interrupt` first decides by the status of the flood and the level of the
SFD pin which event it handles. `dispatch` is this decision.

An `Interrupt` holds what the handler reads from the outside: the registers, the clocks, and
the bytes in the RXFIFO. While it reads a packet, the packet buffer may hold anything (`fifo`),
and the packet counts after its CRC was checked. `received` is a record of the payloads of
these packets. The callers pass 1 for `turn_radio_on`, so it is left out, and so are the
switches of the radio. The build is not the one for the simulator (`COOJA`).
-/

set_option autoImplicit false

namespace PTunes.Glossy

/-- The packet buffer by its fields: `GLOSSY_LEN_FIELD` and so on. The field `data` has
`data_len` bytes. -/
structure Packet where
  len : UInt8
  header : UInt8
  data : List UInt8
  slot : UInt8
deriving DecidableEq, Repr

/-- `GLOSSY_HEADER`. -/
def glossyHeader : UInt8 := 0xfe

/-- `CLOCK_PHI`: with Glossy, and outside of Cooja, `F_CPU` is 4194304, and `RTIMER_SECOND` is
32768. -/
abbrev clockPhi : Nat := 128

/-- `GLOSSY_SYNC_WINDOW`. -/
abbrev glossySyncWindow : Nat := 64

/-- `GLOSSY_STATUS_*`. -/
inductive FloodStatus where
  | off
  | waiting
  | receiving
  | received
  | transmitting
  | aborted
deriving DecidableEq, Repr

/-- The arguments of `glossy_start` that stay the same in a flood. -/
structure FloodConf where
  initiator : Bool
  sync : Bool
  txMax : UInt8
  dataLen : UInt8
deriving DecidableEq, Repr

/-- `packet_len`: the data, the footer, the slot field and the header. -/
def FloodConf.packetLen (C : FloodConf) : UInt8 :=
  if C.sync then C.dataLen + 2 + 1 + 1 else C.dataLen + 2 + 1

/-- The static variables of `glossy.c`. `data` is the caller's buffer, `tbcctl4` and `tacctl2`
are the interrupts of the initiator timeout and of the receive timeout. -/
structure Flood where
  status : FloodStatus
  data : List UInt8
  packet : Packet
  rxCnt : UInt8
  txCnt : UInt8
  txSlotLast : UInt8
  tbcctl4 : Bool
  tacctl2 : Bool
  tRxStart : UInt16
  tRxStop : UInt16
  tTxStart : UInt16
  tTxStop : UInt16
  tFirstRx : UInt16
  timeToFirstRx : UInt16
  tSlotH : UInt16
  tSlotHSum : UInt32
  winCnt : UInt8
  tRefL : UInt16
  tOffsetH : UInt16
  slot : UInt8
  tRefLUpdated : Bool
  received : List (List UInt8)
deriving DecidableEq, Repr

/-- The values of `TBIV`. -/
inductive Tbiv where
  | tbccr1
  | tbccr4
  | other
deriving DecidableEq, Repr

/-- What `timerb1_interrupt` reads: `RTIMER_NOW_DCO() - TBCCR1`, the SFD pin, `TBIV`,
`TBCCR1`, `RTIMER_NOW()`, whether the FIFO pin stays low for too long, the packet buffer after
the bytes of the RXFIFO have been read, the CRC bit, and the clocks at the next clock tick. -/
structure Interrupt where
  sinceSfd : UInt16
  sfd : Bool
  tbiv : Tbiv
  tbccr1 : UInt16
  now : UInt16
  fifoTimeout : Bool
  fifo : Packet
  crcOk : Bool
  capH : UInt16
  capL : UInt16
deriving DecidableEq, Repr

namespace Flood

/-! ### The beginning and the end -/

/-- `glossy_start`. `memory` is what `malloc` returns. -/
def glossyStart (C : FloodConf) (s : Flood) (data : List UInt8) (memory : Packet)
    (now : UInt16) : Flood :=
  { s with
    data := data
    rxCnt := 0
    txCnt := 0
    packet :=
      { len := C.packetLen
        header := glossyHeader
        data := if C.initiator then data else memory.data
        slot := if C.sync then 0 else memory.slot }
    status := if C.initiator then .received else .waiting
    tRefLUpdated := if C.sync then false else s.tRefLUpdated
    tbcctl4 := C.initiator
    timeToFirstRx := if !C.initiator && C.sync then now else s.timeToFirstRx
    received := [] }

/-- `glossy_stop`: the result and the variables. -/
def glossyStop (s : Flood) : UInt8 × Flood :=
  (s.rxCnt, { s with tbcctl4 := false, status := .off })

/-! ### The reception of a packet -/

/-- `radio_abort_rx`, which is also the handler of the receive timeout. -/
def radioAbortRx (s : Flood) : Flood :=
  { s with
    status := if s.status = .receiving then .aborted else s.status
    tacctl2 := false }

/-- `glossy_begin_rx`: the reception goes on if the packet has the right length and header. The
header is checked if it has been read by then. -/
def glossyBeginRx (C : FloodConf) (s : Flood) (i : Interrupt) : Flood :=
  let s := { s with
    tRxStart := i.tbccr1
    tFirstRx := if C.sync && s.rxCnt == 0 then i.now else s.tFirstRx
    status := .receiving
    packet := i.fifo }
  if i.fifoTimeout || i.fifo.len != C.packetLen ||
      C.packetLen > 8 && i.fifo.header != glossyHeader then
    radioAbortRx s
  else { s with tacctl2 := true }

/-- `glossy_estimate_slot_lengths`: a packet that was received right after the last
transmission gives two slots. -/
def glossyEstimateSlotLengths (s : Flood) (tRxStopTmp : UInt16) : Flood :=
  if s.rxCnt > 1 && s.packet.slot.toNat == s.txSlotLast.toNat + 2 then
    let tWRtH := s.tTxStart - s.tRxStop
    let tTxH := s.tTxStop - s.tTxStart
    let tWTrH := s.tRxStart - s.tTxStop
    let tRxH := tRxStopTmp - s.tRxStart
    let tSlotHTmp := (tTxH + tWTrH + tRxH + tWRtH) / 2
    let sum := s.tSlotHSum + tSlotHTmp.toUInt32
    let win := s.winCnt + 1
    if win.toNat = glossySyncWindow then
      { s with
        tSlotH := (sum / 64).toUInt16
        tSlotHSum := sum / 2
        winCnt := win / 2 }
    else
      { s with
        tSlotH := if win = 1 then tSlotHTmp else s.tSlotH
        tSlotHSum := sum
        winCnt := win }
  else s

/-- A packet whose CRC is right is counted and will be relayed, with the next slot. -/
def countPacket (C : FloodConf) (s : Flood) (fifo : Packet) : Flood :=
  { s with
    packet := { fifo with slot := if C.sync then fifo.slot + 1 else fifo.slot }
    status := if s.txCnt = C.txMax then .off else .received
    timeToFirstRx :=
      if C.sync && s.rxCnt == 0 then s.tFirstRx - s.timeToFirstRx else s.timeToFirstRx
    rxCnt := s.rxCnt + 1
    received := s.received ++ [fifo.data] }

/-- `glossy_end_rx`. -/
def glossyEndRx (C : FloodConf) (s : Flood) (i : Interrupt) : Flood :=
  if i.crcOk then
    let s := countPacket C s i.fifo
    let s := if C.sync && s.packet.slot < 200 then glossyEstimateSlotLengths s i.tbccr1 else s
    { s with
      tRxStop := i.tbccr1
      tbcctl4 := if C.initiator then false else s.tbcctl4 }
  else { s with packet := i.fifo, status := .waiting }

/-! ### The transmission of a packet -/

/-- `glossy_compute_sync_reference_point`. -/
def glossyComputeSyncReferencePoint (s : Flood) (i : Interrupt) : Flood :=
  let tRxToCapH := i.capH - s.tRxStart
  let tRefToRxH := (s.packet.slot.toUInt32 - 1) * s.tSlotH.toUInt32
  let tRefToCapH := tRefToRxH + tRxToCapH.toUInt32
  let tRefToCapL := (1 + tRefToCapH / UInt32.ofNat clockPhi).toUInt16
  { s with
    tOffsetH := (UInt32.ofNat (clockPhi - 1) - tRefToCapH % UInt32.ofNat clockPhi).toUInt16
    tRefL := i.capL - tRefToCapL
    slot := s.packet.slot - 1
    tRefLUpdated := true }

/-- The reference point is computed after a reception, once in a flood. -/
def computesReference (C : FloodConf) (s : Flood) : Bool :=
  C.sync && s.tSlotH != 0 && !s.tRefLUpdated && s.rxCnt != 0 && s.packet.slot < 200

/-- The transmission begins. The data of the first packet that was received go to the
caller. -/
def startTx (C : FloodConf) (s : Flood) (tbccr1 : UInt16) : Flood :=
  { s with
    tTxStart := tbccr1
    status := .transmitting
    txSlotLast := s.packet.slot
    data := if !C.initiator && s.rxCnt == 1 then s.packet.data else s.data }

/-- `glossy_begin_tx`. -/
def glossyBeginTx (C : FloodConf) (s : Flood) (i : Interrupt) : Flood :=
  let s := startTx C s i.tbccr1
  if computesReference C s then glossyComputeSyncReferencePoint s i else s

/-- `glossy_end_tx`. -/
def glossyEndTx (C : FloodConf) (s : Flood) (i : Interrupt) : Flood :=
  { s with
    tTxStop := i.tbccr1
    txCnt := s.txCnt + 1
    status :=
      if s.txCnt + 1 = C.txMax ∧ (C.sync = false ∨ C.initiator.toNat < C.txMax.toNat) then .off
      else .waiting }

/-- The initiator timeout: while nobody has answered, the packet is sent again. Its slot says
that it is not good for the synchronisation. -/
def initiatorTimeout (C : FloodConf) (s : Flood) : Flood :=
  if s.rxCnt = 0 then
    { s with
      txCnt := 0
      packet := ⟨C.packetLen, glossyHeader, s.data, if C.sync then 200 else s.packet.slot⟩
      status := .received }
  else { s with tbcctl4 := false }

/-! ### The handler -/

/-- What `timerb1_interrupt` handles. -/
inductive Event where
  | endRx
  | beginRx
  | beginTx
  | endTx
  | afterAbort
  | initiatorTimeout
  | flush
  | notGlossy
deriving DecidableEq, Repr

/-- `T_irq`: the delay of the interrupt. -/
def tIrq (i : Interrupt) : UInt16 := (i.sinceSfd - 21) <<< 1

/-- The decision of `timerb1_interrupt`. The end of a reception counts only if the delay can be
compensated. -/
def dispatch (s : Flood) (i : Interrupt) : Event :=
  match s.status, i.sfd with
  | .receiving, false => if tIrq i ≤ 8 then .endRx else .flush
  | .waiting, true => .beginRx
  | .received, true => .beginTx
  | .transmitting, false => .endTx
  | .aborted, _ => .afterAbort
  | .waiting, false => if i.tbiv = .tbccr4 then .initiatorTimeout else .flush
  | .off, _ => .notGlossy
  | _, _ => .flush

/-- `timerb1_interrupt`. -/
def timerb1Interrupt (C : FloodConf) (s : Flood) (i : Interrupt) : Flood :=
  match dispatch s i with
  | .endRx => glossyEndRx C s i
  | .beginRx => glossyBeginRx C s i
  | .beginTx => glossyBeginTx C s i
  | .endTx => glossyEndTx C s i
  | .initiatorTimeout => initiatorTimeout C s
  | .afterAbort | .flush => { s with status := .waiting }
  | .notGlossy => s

end Flood

/-! ### A flood as a machine -/

/-- A flood, and the result of `glossy_stop` if it has ended. -/
structure FloodRun where
  flood : Flood
  stopped : Option UInt8
deriving DecidableEq, Repr

/-- What can happen in a flood: an interrupt of Timer B, the receive timeout, and
`glossy_stop`. -/
inductive FloodAction where
  | interrupt (i : Interrupt)
  | rxTimeout
  | stop

/-- The initiator timeout comes only while its interrupt is enabled. -/
def Flood.mayInterrupt (s : Flood) (i : Interrupt) : Bool := i.tbiv != .tbccr4 || s.tbcctl4

/-- A flood at one node, after `glossy_start`. -/
def floodMachine (C : FloodConf) (start : Flood) : Machine FloodRun FloodAction where
  init := ⟨start, none⟩
  step r
    | .interrupt i =>
      if r.flood.mayInterrupt i then some { r with flood := r.flood.timerb1Interrupt C i }
      else none
    | .rxTimeout => some { r with flood := r.flood.radioAbortRx }
    | .stop => some ⟨r.flood.glossyStop.2, some r.flood.glossyStop.1⟩

end PTunes.Glossy
