import PTunes.Lib.Latch
import PTunes.Lib.Machine
import PTunes.Rime.Ftsp

/-!
# `PTunes.Rime.FtspNode`: a node that receives beacons

The radio interrupt (`cc2420_interrupt`), the process that reads frames from the radio
(`cc2420_process`) and the processes of `ftsp.c`, in every order.

`ftsp_arrival_time` is one variable, written at each interrupt. A frame waits in the RXFIFO of
the radio, is read into the packet buffer, and is handed to `ftsp_recv` from there. The interrupt
can come at any of these moments. Each frame here carries the stamp of its own interrupt, which
the node itself does not see.

The machine records the beacons with a time that were handed to `ftsp_recv`, each with its own
arrival time, and what `process_msg` has written.
-/

set_option autoImplicit false

namespace PTunes.Rime

/-- A frame of the radio. -/
inductive RadioFrame
  | ftsp (b : FtspBeacon)
  | other
deriving DecidableEq, Repr

/-- A frame with its local arrival time. -/
structure Arrival where
  frame : RadioFrame
  stamp : Stamp UInt32
deriving DecidableEq, Repr

/-- A received beacon: what it says, and when it arrived. -/
structure FtspSample where
  rootId : UInt16
  seqNum : UInt8
  globalTime : UInt32
  localTime : UInt32
deriving DecidableEq, Repr

/-- What one run of `process_msg` has written. -/
structure FtspRecord where
  rootId : UInt16
  seqNum : UInt8
  item : TableItem
deriving DecidableEq, Repr

/-- Where `ftsp_msg_process` waits: for `msg_ready`, or for its timer. -/
inductive MsgProcess
  | ready
  | delay
deriving DecidableEq, Repr

/-- A node, with its record. -/
structure FtspNode (φ : Type) where
  ftsp : Ftsp φ
  /-- `ftsp_arrival_time`. -/
  arrivalTime : Latch UInt32
  rxfifo : List Arrival
  packetbuf : Option Arrival
  /-- Events `msg_ready` in the queue of the kernel. -/
  msgReady : Nat
  msgProcess : MsgProcess
  /-- Events `send_ready` in the queue of the kernel. -/
  sendReady : Nat
  received : List FtspSample
  written : List FtspRecord

/-- What happens next. -/
inductive FtspAction
  /-- A frame is complete in the RXFIFO. `edge` says whether FIFOP rises although an earlier
  frame is still there. -/
  | arrive (f : RadioFrame) (now : UInt32) (edge : Bool)
  /-- FIFOP rises for a frame that was left in the RXFIFO. -/
  | fifop (now : UInt32)
  /-- `cc2420_read`. `ok` says whether the frame is intact and for this node. -/
  | read (ok : Bool)
  /-- `flushrx`. -/
  | flushrx
  /-- The packet goes up. `room` says whether the kernel has room for an event. -/
  | received (room : Bool)
  /-- `ftsp_msg_process` gets its event. -/
  | msgReady
  /-- The timer of `ftsp_msg_process` has expired. -/
  | expired
  /-- `msg_send`. -/
  | msgSend (now : UInt32) (room : Bool)
  /-- `ftsp_send_process` gets its event. -/
  | sendReady (sent : Bool)
deriving DecidableEq, Repr

namespace FtspNode

variable {φ : Type} [SkewFloat φ] (C : FtspConf)

/-- The node after `ftsp_init`. -/
def boot : FtspNode φ where
  ftsp := Ftsp.init C
  arrivalTime := ⟨0, 0⟩
  rxfifo := []
  packetbuf := none
  msgReady := 0
  msgProcess := .ready
  sendReady := 0
  received := []
  written := []

/-- `process_post` of an event: the number of these events in the queue. -/
def postEvent (wanted room : Bool) (n : Nat) : Nat := if wanted && room then n + 1 else n

/-- `cc2420_interrupt`, for a frame that is complete at the same time. -/
def arrive (f : RadioFrame) (now : UInt32) (s : FtspNode φ) : FtspNode φ :=
  { s with
    arrivalTime := s.arrivalTime.fire now
    rxfifo := s.rxfifo ++ [⟨f, .ofFire s.arrivalTime now⟩] }

/-- A frame that is complete while FIFOP stays high. There is no interrupt. -/
def arriveUnseen (f : RadioFrame) (now : UInt32) (s : FtspNode φ) : FtspNode φ :=
  { s with rxfifo := s.rxfifo ++ [⟨f, ⟨now, none⟩⟩] }

/-- The beacon with its own arrival time, if its sender has put a time into it. -/
def sampleOf (b : FtspBeacon) (st : Stamp UInt32) : Option FtspSample :=
  b.globalTime.map fun g => ⟨b.rootId, b.epacketId, g, st.value⟩

/-- `ftsp_recv` for a beacon in the packet buffer. -/
def recv (b : FtspBeacon) (st : Stamp UInt32) (room : Bool) (s : FtspNode φ) : FtspNode φ :=
  let r := s.ftsp.ftspRecv s.arrivalTime.value b
  { s with
    ftsp := r.1
    msgReady := postEvent r.2 room s.msgReady
    received := s.received ++ (sampleOf b st).toList }

/-- What `process_msg` has written, if it has written the entry at an index. -/
def recordOf (t : Ftsp φ) (i : Fin 8) : FtspRecord := ⟨t.msg.rootId, t.seqNum, t.table.get i⟩

/-- `process_msg` in `ftsp_msg_process`. -/
def processMsg (s : FtspNode φ) : FtspNode φ :=
  let r := s.ftsp.processMsg C
  { s with
    ftsp := r.1
    msgProcess := .ready
    written := s.written ++ (r.2.map (recordOf r.1)).toList }

/-- The receiving and the sending side of a node. A process runs only when the reading of a
frame is finished, an interrupt at any time. -/
def machine : Machine (FtspNode φ) FtspAction where
  init := boot C
  step s
    | .arrive f now edge =>
      some (if s.rxfifo.isEmpty || edge then s.arrive f now else s.arriveUnseen f now)
    | .fifop now =>
      if s.rxfifo.isEmpty then none else some { s with arrivalTime := s.arrivalTime.fire now }
    | .read ok =>
      match s.rxfifo, s.packetbuf with
      | a :: rest, none => some { s with rxfifo := rest, packetbuf := if ok then some a else none }
      | _, _ => none
    | .flushrx => some { s with rxfifo := [] }
    | .received room =>
      match s.packetbuf with
      | some ⟨.ftsp b, st⟩ => some { s.recv b st room with packetbuf := none }
      | some ⟨.other, _⟩ => some { s with packetbuf := none }
      | none => none
    | .msgReady =>
      if s.packetbuf.isNone ∧ 0 < s.msgReady then
        some { s with msgReady := s.msgReady - 1, msgProcess := .delay }
      else none
    | .expired =>
      if s.packetbuf.isNone ∧ s.msgProcess = .delay then some (s.processMsg C) else none
    | .msgSend now room =>
      if s.packetbuf.isNone then
        let r := s.ftsp.msgSend C now
        some { s with ftsp := r.1, sendReady := postEvent r.2 room s.sendReady }
      else none
    | .sendReady sent =>
      if s.packetbuf.isNone ∧ 0 < s.sendReady then
        some { s with ftsp := s.ftsp.sendReady C sent, sendReady := s.sendReady - 1 }
      else none

/-- A record is waiting for `process_msg`. -/
def awaited (s : FtspNode φ) : Bool := decide (0 < s.msgReady) || decide (s.msgProcess = .delay)

/-- A record holds the arrival time and the global time of a beacon, and its root and sequence
number. -/
def Pairs (w : FtspRecord) (m : FtspSample) : Prop :=
  w.rootId = m.rootId ∧ w.seqNum = m.seqNum ∧ w.item.localTime = m.localTime ∧
    w.item.timeOffset = (m.globalTime - m.localTime).toInt32

instance (w : FtspRecord) (m : FtspSample) : Decidable (Pairs w m) := by
  unfold Pairs
  infer_instance

/-- All that `process_msg` has written is of one received beacon each. -/
def SampleIntegrity (s : FtspNode φ) : Prop := ∀ w ∈ s.written, ∃ m ∈ s.received, Pairs w m

instance (s : FtspNode φ) : Decidable s.SampleIntegrity := by
  unfold SampleIntegrity
  infer_instance

/-- A beacon goes up while no record is waiting, and if its record is taken, the last interrupt
was its own. -/
def beaconsApart (s : FtspNode φ) : FtspAction → Bool
  | .received _ =>
    match s.packetbuf with
    | some ⟨.ftsp b, st⟩ =>
      !s.awaited && (b.globalTime.isNone || s.ftsp.processing || decide (st.Current s.arrivalTime))
    | _ => true
  | _ => true

end FtspNode

end PTunes.Rime
