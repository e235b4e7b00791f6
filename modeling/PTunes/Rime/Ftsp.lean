import Mathlib.Data.List.FinRange

/-!
# `PTunes.Rime.Ftsp`: time synchronization (`ftsp.c`)

A node takes the local arrival time of a beacon and the global time that its sender has put into
it, and keeps the last eight such pairs in a table. Local time is converted to global time by
the regression line through the table.

`ftsp_recv` fills the record `msg_rcv` from the beacon and raises `STATE_PROCESSING`.
`process_msg` consumes the record later. Between the two the flag is to keep the record as it is.

The slope of the line is a `float`. What the source does with it is a parameter (`SkewFloat`):
nothing here depends on how floating point numbers round. The flags of `state` are one `Bool`
each.
-/

set_option autoImplicit false

namespace PTunes.Rime

/-! ### Data -/

/-- The uses of `float` in `ftsp.c`. -/
class SkewFloat (φ : Type) where
  /-- `0.0`. -/
  zero : φ
  /-- `(float)a / (float)b`. -/
  ratio : Int64 → Int64 → φ
  /-- `(long)(skew * (long)t)`. -/
  scale : φ → Int32 → Int32

/-- `ENTRY_EMPTY` and `ENTRY_FULL`. -/
inductive EntryState
  | empty
  | full
deriving DecidableEq, Repr

/-- `table_item`. -/
structure TableItem where
  state : EntryState
  localTime : UInt32
  /-- Global time less local time. -/
  timeOffset : Int32
deriving DecidableEq, Repr

/-- `struct ftsp_message`. -/
structure FtspMessage where
  rootId : UInt16
  nodeId : UInt16
deriving DecidableEq, Repr

/-- `struct ftsp_message_rcv`. -/
structure FtspMessageRcv where
  rootId : UInt16
  nodeId : UInt16
  globalTime : UInt32
  localTime : UInt32
  seqNum : UInt8
deriving DecidableEq, Repr

/-- A beacon as it comes over the air. The radio of the sender appends the global time when the
attribute `TIMESTAMP` is set. -/
structure FtspBeacon where
  rootId : UInt16
  nodeId : UInt16
  epacketId : UInt8
  globalTime : Option UInt32
deriving DecidableEq, Repr

/-- `node_id` and `SINK_ID`. -/
structure FtspConf where
  nodeId : UInt16
  sinkId : UInt16
deriving DecidableEq, Repr

/-- The variables of `ftsp.c`. -/
structure Ftsp (φ : Type) where
  table : Vector TableItem 8
  /-- `STATE_PROCESSING`. -/
  processing : Bool
  /-- `STATE_SENDING`. -/
  sending : Bool
  numEntries : UInt8
  tableEntries : UInt8
  heartBeats : UInt8
  numErrors : UInt8
  seqNum : UInt8
  skew : φ
  localAverage : UInt32
  offsetAverage : Int32
  msg : FtspMessage
  msgRcv : FtspMessageRcv

namespace Ftsp

variable {φ : Type} [SkewFloat φ] (C : FtspConf)

/-- `ENTRY_VALID_LIMIT`. -/
def entryValidLimit : UInt8 := 4

/-- `ENTRY_SEND_LIMIT`. -/
def entrySendLimit : UInt8 := 3

/-- `ENTRY_THROWOUT_LIMIT`. -/
def entryThrowoutLimit : Int32 := 30

/-- `ftsp_init`. Static variables start as zero. -/
def init : Ftsp φ where
  table := Vector.replicate 8 ⟨.empty, 0, 0⟩
  processing := false
  sending := false
  numEntries := 0
  tableEntries := 0
  heartBeats := 0
  numErrors := 0
  seqNum := 0
  skew := SkewFloat.zero
  localAverage := 0
  offsetAverage := 0
  msg := ⟨if C.nodeId = C.sinkId then C.nodeId else 0xFFFF, C.nodeId⟩
  msgRcv := ⟨0, 0, 0, 0, 0⟩

/-! ### Local and global time -/

/-- `is_synced`. -/
def isSynced (s : Ftsp φ) : Bool :=
  decide (entryValidLimit ≤ s.numEntries) || decide (s.msg.rootId = C.nodeId)

/-- `local_to_global`. -/
def localToGlobal (s : Ftsp φ) (time : UInt32) : UInt32 :=
  let approx := time + s.offsetAverage.toUInt32
  approx + (SkewFloat.scale s.skew (approx - s.localAverage).toInt32).toUInt32

/-- The entry at an index is in use. -/
def isFull (table : Vector TableItem 8) (i : Fin 8) : Bool := table[i].state == .full

/-- The two sums of a loop of `calculate_conversion` over the entries `is`. -/
def sums (f g : Fin 8 → Int64) (is : List (Fin 8)) : Int64 × Int64 :=
  is.foldl (fun acc i => (acc.1 + f i, acc.2 + g i)) (0, 0)

/-- `calculate_conversion`. -/
def calculateConversion (s : Ftsp φ) : Ftsp φ :=
  match (List.finRange 8).find? (isFull s.table) with
  | none => s
  | some i =>
    let full := (List.finRange 8).filter (isFull s.table)
    let localAverage := s.table[i].localTime
    let offsetAverage := s.table[i].timeOffset
    let entries := Int32.ofNat s.tableEntries.toNat
    let sum := sums
      (fun j => ((s.table[j].localTime - localAverage).toInt32 / entries).toInt64)
      (fun j => ((s.table[j].timeOffset - offsetAverage) / entries).toInt64)
      (full.filter (i < ·))
    let localAverage := localAverage + sum.1.toUInt64.toUInt32
    let offsetAverage := (offsetAverage.toInt64 + sum.2).toInt32
    let a := fun j : Fin 8 => (s.table[j].localTime - localAverage).toInt32.toInt64
    let b := fun j : Fin 8 => (s.table[j].timeOffset - offsetAverage).toInt64
    let sum := sums (fun j => a j * a j) (fun j => a j * b j) full
    { s with
      localAverage := localAverage
      offsetAverage := offsetAverage
      skew := if sum.1 = 0 then s.skew else SkewFloat.ratio sum.2 sum.1
      numEntries := s.tableEntries }

/-- `clear_table`. -/
def clearTable (s : Ftsp φ) : Ftsp φ :=
  { s with table := s.table.map fun e => { e with state := .empty }, numEntries := 0 }

/-! ### The table -/

/-- The first part of `add_new_entry`: a synchronized node counts the beacons in a row that are
far off its global time, and forgets its table at the fourth. -/
def noteError (s : Ftsp φ) : Ftsp φ :=
  let timeError := (s.localToGlobal s.msgRcv.localTime - s.msgRcv.globalTime).toInt32
  if s.isSynced C then
    if entryThrowoutLimit < timeError ∨ entryThrowoutLimit < -timeError then
      let s := { s with numErrors := s.numErrors + 1 }
      if 3 < s.numErrors then s.clearTable else s
    else { s with numErrors := 0 }
  else s

/-- The variables of the loop of `add_new_entry`. -/
structure Scan where
  table : Vector TableItem 8
  freeItem : Option (Fin 8)
  oldestItem : Fin 8
  oldestTime : UInt32
  tableEntries : UInt8

/-- The body of the loop of `add_new_entry`. -/
def scanItem (localTime : UInt32) (c : Scan) (i : Fin 8) : Scan :=
  let age := localTime - c.table[i].localTime
  let table :=
    if 0x7FFFFFFF ≤ age then c.table.set i { c.table[i] with state := .empty } else c.table
  let c := { c with table := table }
  let c := if isFull table i then { c with tableEntries := c.tableEntries + 1 }
    else { c with freeItem := some i }
  if c.oldestTime ≤ age then { c with oldestTime := age, oldestItem := i } else c

/-- The loop of `add_new_entry`. -/
def scan (localTime : UInt32) (table : Vector TableItem 8) : Scan :=
  (List.finRange 8).foldl (scanItem localTime) ⟨table, none, 0, 0, 0⟩

/-- `add_new_entry`, with the index that is written. -/
def addNewEntry (s : Ftsp φ) : Ftsp φ × Fin 8 :=
  let s := s.noteError C
  let c := scan s.msgRcv.localTime s.table
  let i := c.freeItem.getD c.oldestItem
  let entries := if c.freeItem.isSome then c.tableEntries + 1 else c.tableEntries
  let item : TableItem :=
    ⟨.full, s.msgRcv.localTime, (s.msgRcv.globalTime - s.msgRcv.localTime).toInt32⟩
  ({ s with table := c.table.set i item, tableEntries := entries }, i)

/-! ### Beacons -/

/-- The end of `process_msg` for a beacon that is new, with the index that is written. -/
def acceptMsg (s : Ftsp φ) : Ftsp φ × Option (Fin 8) :=
  let s := if s.msg.rootId < C.nodeId then { s with heartBeats := 0 } else s
  let r := s.addNewEntry C
  ({ r.1.calculateConversion with processing := false }, some r.2)

/-- `process_msg`, with the index that `add_new_entry` has written. The second part of the first
condition of the source is the bitwise complement of a truth value and never zero. -/
def processMsg (s : Ftsp φ) : Ftsp φ × Option (Fin 8) :=
  if s.msgRcv.rootId < s.msg.rootId then
    acceptMsg C
      { s with msg := { s.msg with rootId := s.msgRcv.rootId }, seqNum := s.msgRcv.seqNum }
  else if s.msg.rootId = s.msgRcv.rootId ∧ 0 < (s.msgRcv.seqNum - s.seqNum).toInt8 then
    acceptMsg C { s with seqNum := s.msgRcv.seqNum }
  else ({ s with processing := false }, none)

/-- `packetbuf_copyto(&msg_rcv)`: the payload of a beacon fills the record from its start, up to
`global_time` when the sender's radio has appended the time. -/
def copyto (b : FtspBeacon) (r : FtspMessageRcv) : FtspMessageRcv :=
  { r with
    rootId := b.rootId
    nodeId := b.nodeId
    globalTime := b.globalTime.getD r.globalTime }

/-- `ftsp_recv`, and whether it posts `msg_ready`. `arrivalTime` is `ftsp_arrival_time`. -/
def ftspRecv (arrivalTime : UInt32) (b : FtspBeacon) (s : Ftsp φ) : Ftsp φ × Bool :=
  -- The copy comes first: it does not wait for `STATE_PROCESSING` to be clear.
  let s := { s with msgRcv := copyto b s.msgRcv }
  if b.globalTime.isSome && !s.processing then
    ({ s with
        msgRcv := { s.msgRcv with seqNum := b.epacketId, localTime := arrivalTime }
        processing := true }, true)
  else (s, false)

/-- `msg_send` at the local time `now`, and whether it posts `send_ready`. -/
def msgSend (now : UInt32) (s : Ftsp φ) : Ftsp φ × Bool :=
  if s.msg.rootId ≠ 0xFFFF ∧ s.sending = false then
    let s := { s with sending := true }
    let globalTime := s.localToGlobal now
    let s :=
      if s.msg.rootId = C.nodeId ∧ 0x20000000 ≤ (now - s.localAverage).toInt32 then
        { s with localAverage := now, offsetAverage := (globalTime - now).toInt32 }
      else s
    if s.numEntries < entrySendLimit ∧ s.msg.rootId ≠ C.nodeId then
      ({ s with heartBeats := s.heartBeats + 1, sending := false }, false)
    else (s, true)
  else (s, false)

/-- `ftsp_send_process` after the event, where `sent` is the result of `broadcast_send`. -/
def sendReady (sent : Bool) (s : Ftsp φ) : Ftsp φ :=
  let s :=
    if sent then
      { s with
        heartBeats := s.heartBeats + 1
        seqNum := if s.msg.rootId = C.nodeId then s.seqNum + 1 else s.seqNum }
    else s
  { s with sending := false }

end Ftsp

end PTunes.Rime
