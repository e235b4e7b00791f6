import PTunes.Rime.Relunicast

/-!
# `PTunes.Mac.Xmac`: X-MAC at one node (`core/net/mac/xmac.c`)

`send_packet` waits in two loops, so it is a state machine: it strobes until the receiver
answers (`strobeLoop`, `strobeWait`), sends the packet (`sendData`), and waits for a DATA_ACK
(`dataWait`). When it has `returned`, `send` of `relunicast.c` looks at `got_data_ack`. The
ends of the loops come from timers, so they are inputs. `read_packet` handles one received
frame in one step. Processes are cooperative: while `send_packet` is at work, no other
process runs, but interrupts do.

The type of a frame is in its header. `note` is a record and not on the air: in a data
packet it is the number of the attempt that sent it, and in a DATA_ACK it is the position of
the acceptance that it acknowledges. The last fields of `XmacNode` are records, too:
`attempts` lists the receivers that the attempts of `send` named.

The switches of the radio and the duty cycle's timers are left out: whether a frame is
received is up to the medium. `powercycle` clears `was_timeout`.
-/

set_option autoImplicit false

namespace PTunes.Mac

open PTunes.Rime

/-- `TYPE_STROBE` and so on. -/
inductive FrameType where
  | strobe
  | data
  | announcement
  | strobeAck
  | dataAck
deriving DecidableEq, Repr

/-- `struct xmac_hdr`. -/
structure XmacHdr where
  type : FrameType
  sender : RimeAddr
  receiver : RimeAddr
deriving DecidableEq, Repr

/-- `sizeof(struct xmac_hdr)`. -/
abbrev sizeofXmacHdr : Nat := 6

/-- A frame, and its record. -/
structure Frame where
  hdr : XmacHdr
  payload : List UInt8
  note : Nat
deriving DecidableEq, Repr

/-- A frame without payload. -/
def Frame.ofHdr (hdr : XmacHdr) (note : Nat) : Frame := ⟨hdr, [], note⟩

/-- `radio->read` with a buffer of `bufsize` bytes drops a longer frame. -/
def radioRead (bufsize : Nat) (f : Frame) : Option Frame :=
  if sizeofXmacHdr + f.payload.length ≤ bufsize then some f else none

/-- `handshakes_total` and `handshakes_succ`. -/
structure Handshakes where
  total : UInt32
  succ : UInt32
deriving DecidableEq, Repr

namespace Handshakes

/-- `handshakes_total++`. -/
def attempt (h : Handshakes) : Handshakes := { h with total := h.total + 1 }

/-- `handshakes_succ++`. -/
def success (h : Handshakes) : Handshakes := { h with succ := h.succ + 1 }

/-- `HANDSHAKES_RESET_PERIOD`. -/
def resetPeriod : UInt32 := 20

/-- The update of the counters: both are halved in a long run. -/
def age (h : Handshakes) : Handshakes :=
  if h.total ≥ resetPeriod then ⟨h.total >>> 1, h.succ >>> 1⟩ else h

end Handshakes

/-- Where `send_packet` is. -/
inductive SendPc where
  | idle
  | strobeLoop
  | strobeWait
  | sendData
  | dataWait
  | returned
deriving DecidableEq, Repr

/-- An attempt for which `send` has taken the success branch: whether the MAC was on when
`send_packet` began, whether no frame of an earlier attempt was under way then, and the frame
that ended the wait for the DATA_ACK. -/
structure Success where
  attempt : Nat
  wasOn : Bool
  clean : Bool
  endedBy : Option Frame
deriving DecidableEq, Repr

/-- One execution of the `TYPE_DATA` branch of `read_packet` for a packet that is accepted. -/
structure Acceptance where
  node : RimeAddr
  sender : RimeAddr
  attempt : Nat
  payload : List UInt8
deriving DecidableEq, Repr

/-- One node. `packet` is what `queuebuf_to_packetbuf` loads from `c->buf`. -/
structure XmacNode where
  xmacIsOn : Bool
  gotDataAck : Bool
  wasTimeout : Bool
  handshakes : Handshakes
  conn : RelunicastConn
  packet : List UInt8
  pc : SendPc
  attempts : List RimeAddr
  wasOn : Bool
  clean : Bool
  endedBy : Option Frame
  successes : List Success

namespace XmacNode

/-- After `xmac_init` and `relunicast_open`. -/
def init : XmacNode where
  xmacIsOn := true
  gotDataAck := false
  wasTimeout := false
  handshakes := ⟨0, 0⟩
  conn := Node.boot.relunicast
  packet := []
  pc := .idle
  attempts := []
  wasOn := false
  clean := false
  endedBy := none
  successes := []

/-! ### `relunicast.c` -/

/-- `relunicast_send` of a new packet, without the buffers. -/
def relunicastSend (n : XmacNode) (receiver : RimeAddr) (maxRetransmissions : UInt8)
    (packet : List UInt8) : XmacNode :=
  { n with
    packet := packet
    conn := { n.conn with
      receiver := receiver
      maxRxmit := maxRetransmissions
      rxmit := 0
      isTx := true
      timer := true } }

/-- `send_packet`, up to its first loop. It does nothing when the MAC is off. -/
def sendPacket (n : XmacNode) (clean : Bool) : XmacNode :=
  let n := { n with
    attempts := n.attempts ++ [n.conn.receiver]
    wasOn := n.xmacIsOn
    clean := clean
    endedBy := none }
  if !n.xmacIsOn then { n with pc := .returned }
  else { n with gotDataAck := false, pc := .strobeLoop }

/-- `send`, up to the call of `unicast_send`. It gives up when the packet has been sent too
often. -/
def send (n : XmacNode) (clean : Bool) : XmacNode :=
  if n.conn.rxmit > n.conn.maxRxmit then { n with conn := Relunicast.finish n.conn }
  else sendPacket { n with conn := { n.conn with rxmit := n.conn.rxmit + 1, timer := false } }
    clean

/-- `send`, after `unicast_send`: the success branch, or the next transmission is
scheduled. -/
def sendReturned (n : XmacNode) : XmacNode :=
  if n.gotDataAck then
    { n with
      pc := .idle
      conn := Relunicast.finish n.conn
      endedBy := none
      successes := n.successes ++ [⟨n.attempts.length - 1, n.wasOn, n.clean, n.endedBy⟩] }
  else
    { n with
      pc := .idle
      conn := { n.conn with timer := true }
      endedBy := none }

/-! ### The rest of `send_packet` -/

/-- `is_broadcast`. -/
def isBroadcast (n : XmacNode) : Bool := rimeaddrCmp n.conn.receiver rimeaddrNull

/-- The data packet. -/
def dataFrame (self : RimeAddr) (n : XmacNode) : Frame :=
  ⟨⟨.data, self, n.conn.receiver⟩, n.packet, n.attempts.length - 1⟩

/-- One turn of the loop sends a strobe, or the data packet if it is a broadcast. -/
def strobeFrame (self : RimeAddr) (n : XmacNode) : Frame :=
  if n.isBroadcast then n.dataFrame self
  else .ofHdr ⟨.strobe, self, n.conn.receiver⟩ (n.attempts.length - 1)

/-- After the strobes: the counters are updated, and a packet whose receiver is awake will be
sent. -/
def strobesOver (n : XmacNode) (gotStrobeAck : Bool) : XmacNode :=
  if n.isBroadcast then { n with pc := .returned }
  else
    let h := n.handshakes.attempt
    { n with
      handshakes := (if gotStrobeAck then h.success else h).age
      pc := if gotStrobeAck then .sendData else .returned }

/-- The sender takes a frame for the STROBE_ACK of its receiver. -/
def isStrobeAck (self : RimeAddr) (f : Frame) : Bool :=
  f.hdr.type = .strobeAck && rimeaddrCmp f.hdr.sender self && rimeaddrCmp f.hdr.receiver self

/-- A read while the sender waits between two strobes. -/
def strobeRead (self : RimeAddr) (n : XmacNode) (f : Frame) : XmacNode :=
  match radioRead sizeofXmacHdr f with
  | some f => if isStrobeAck self f then n.strobesOver true else n
  | none => n

/-- The data packet is sent. -/
def sendData (n : XmacNode) : XmacNode :=
  { n with handshakes := n.handshakes.attempt, pc := .dataWait }

/-- The wait for the DATA_ACK is over. -/
def dataWaitOver (n : XmacNode) : XmacNode :=
  { n with handshakes := n.handshakes.age, pc := .returned }

/-- The sender takes a frame for a DATA_ACK. The type is not looked at. -/
def isDataAck (self : RimeAddr) (f : Frame) : Bool :=
  rimeaddrCmp f.hdr.sender self && rimeaddrCmp f.hdr.receiver self

/-- A read while the sender waits for the DATA_ACK. -/
def dataRead (self : RimeAddr) (n : XmacNode) (f : Frame) : XmacNode :=
  match radioRead sizeofXmacHdr f with
  | some f =>
    if isDataAck self f then
      dataWaitOver { n with
        gotDataAck := true
        endedBy := some f
        handshakes := n.handshakes.success }
    else n
  | none => n

/-! ### `read_packet` -/

/-- A strobe for this node is answered, once in each phase of the duty cycle. The answer has
the strobe's sender as its sender and receiver. -/
def answersStrobe (self : RimeAddr) (n : XmacNode) (f : Frame) : Bool :=
  f.hdr.type = .strobe && rimeaddrCmp f.hdr.receiver self && !rimeaddrCmp f.hdr.sender self &&
    !n.wasTimeout

/-- A data packet for this node, or a broadcast, is accepted. -/
def accepts (self : RimeAddr) (f : Frame) : Bool :=
  f.hdr.type = .data &&
    (rimeaddrCmp f.hdr.receiver self || rimeaddrCmp f.hdr.receiver rimeaddrNull)

/-- The STROBE_ACK and the DATA_ACK: a header that is addressed to `sender`, and from it. -/
def ackFrame (type : FrameType) (sender : RimeAddr) (note : Nat) : Frame :=
  .ofHdr ⟨type, sender, sender⟩ note

/-- The acceptance of a data packet. -/
def acceptance (self : RimeAddr) (f : Frame) : Acceptance :=
  ⟨self, f.hdr.sender, f.note, f.payload⟩

end XmacNode

end PTunes.Mac
