import PTunes.Lib.Handoff
import PTunes.Lib.Machine
import PTunes.Rime.Packetbuf

/-!
# `PTunes.Mac.LppNew`: LPP_NEW at one node (`core/net/mac/lpp_new.c`)

`send_packet` puts a packet into the one send buffer and turns the send timeout timer on. The
packet leaves the buffer in `remove_packet_from_buffer`, which calls `post_send` for a unicast.
This happens when a probe of the receiver was answered, when the timer has polled
`send_timeout_process`, when the MAC is turned off, and when a unicast displaces a broadcast.

The processes are cooperative, and their code is one step, except for `send_data_packet`: it
waits for the DATA_ACK in a loop (`waiting`), and interrupts come in between. `mac_on` and
`mac_off` are called by `glossy_scheduler`, in an interrupt, so they can come while the loop
waits. The build is the one of `adaptive-mac`: `GLOSSY`, `EXCLUDE_TRICKLE_ENERGY` and
`WITH_DATA_ACK`.

The last fields of `LppNew` are records: `sent` lists the frames that the radio sends, and
`events` the unicasts that `send_packet` gets and the calls of `post_send`. The switches of the
radio, the duty cycle, the energy counters, and the flags that no function reads are left out.
-/

set_option autoImplicit false

namespace PTunes.Mac

open PTunes.Rime

/-- `RTIMER_CLOCK_LT`: the 16-bit difference is negative. -/
def rtimerClockLt (a b : UInt16) : Bool := a - b ≥ 0x8000

namespace LppNew

/-- `TYPE_PROBE`, `TYPE_DATA` and `TYPE_ACK`. -/
inductive FrameType
  | probe
  | data
  | ack
deriving DecidableEq, Repr

/-- `struct lpp_new_hdr`. -/
structure Hdr where
  type : FrameType
  sender : RimeAddr
  receiver : RimeAddr
deriving DecidableEq, Repr

/-- `sizeof(struct lpp_new_hdr)`. -/
abbrev sizeofHdr : Nat := 6

/-- A frame. -/
structure Frame where
  hdr : Hdr
  payload : List UInt8
deriving DecidableEq, Repr

/-- `radio->read` with a buffer of `bufsize` bytes drops a longer frame. -/
def Frame.fits (f : Frame) (bufsize : Nat) : Bool := sizeofHdr + f.payload.length ≤ bufsize

/-- `struct lpp_new_config`. -/
structure Config where
  onTime : UInt16
  offTime : UInt16
  txTimeout : UInt16
deriving DecidableEq, Repr

/-- `struct send_buffer`. -/
structure SendBuffer where
  packet : Frame
  dest : RimeAddr
  valid : Bool
  isBroadcast : Bool
  gotDataAck : Bool
  tStart : UInt16
deriving DecidableEq, Repr

/-- `LPP_NEW_MAX_RANDOM_OFF_TIME`. -/
def maxRandomOffTime : UInt16 := 512

/-- `HANDSHAKES_RESET_PERIOD`. -/
def handshakesResetPeriod : UInt32 := 10

end LppNew

/-- The variables of the MAC. `tbccr2` and `tbcctl2` are the send timeout timer and its
interrupt, `polled` says that `send_timeout_process` has been polled. -/
structure LppNew where
  isOn : Bool
  config : LppNew.Config
  buffer : LppNew.SendBuffer
  tbccr2 : UInt16
  tbcctl2 : Bool
  handshakesTotal : UInt32
  handshakesSucc : UInt32
  probesTotal : UInt32
  probesSucc : UInt32
  polled : Bool
  waiting : Bool
  sent : List LppNew.Frame
  events : List Handoff.Event
deriving DecidableEq, Repr

namespace LppNew

/-- After `lpp_new_init`, with the configuration of the build. -/
def init (config : Config) : LppNew where
  isOn := true
  config := config
  buffer := ⟨⟨⟨.probe, rimeaddrNull, rimeaddrNull⟩, []⟩, rimeaddrNull, false, false, false, 0⟩
  tbccr2 := 0
  tbcctl2 := false
  handshakesTotal := 0
  handshakesSucc := 0
  probesTotal := 0
  probesSucc := 0
  polled := false
  waiting := false
  sent := []
  events := []

/-- `post_send` is called. -/
def postSend (s : LppNew) : LppNew := { s with events := s.events ++ [.complete] }

/-- The update of the counters when a unicast leaves the buffer. -/
def age (s : LppNew) : LppNew :=
  let probes := s.probesTotal + 1
  let old := s.handshakesTotal ≥ handshakesResetPeriod
  { s with
    probesTotal := if probes = 2 then 0 else probes
    probesSucc := if probes = 2 then 0 else s.probesSucc
    handshakesTotal := if old then s.handshakesTotal >>> 1 else s.handshakesTotal
    handshakesSucc := if old then s.handshakesSucc >>> 1 else s.handshakesSucc }

/-- `remove_packet_from_buffer`. -/
def removePacketFromBuffer (s : LppNew) : LppNew :=
  let s := { s with buffer := { s.buffer with valid := false }, tbcctl2 := false }
  if !s.buffer.isBroadcast then postSend (age s) else s

/-! ### `send_packet` -/

/-- The time in which every neighbor sends a probe. -/
def probePeriod (c : Config) : UInt16 := 2 * c.onTime + c.offTime + maxRandomOffTime

/-- The packet goes into the send buffer, and the timer is turned on. `tbr` is `TBR`. -/
def fillBuffer (self : RimeAddr) (s : LppNew) (pb : Packetbuf) (tbr : UInt16) : LppNew :=
  let receiver := pb.addr .receiver
  let isBroadcast := rimeaddrCmp receiver rimeaddrNull
  { s with
    buffer :=
      { packet := ⟨⟨.data, self, receiver⟩, pb.hdr ++ pb.data⟩
        dest := receiver
        valid := true
        isBroadcast := isBroadcast
        gotDataAck := false
        tStart := tbr }
    tbccr2 := tbr + if isBroadcast then probePeriod s.config else s.config.txTimeout
    tbcctl2 := true }

/-- `send_packet`. With the MAC off it calls `post_send`. A broadcast is discarded while a
packet waits, and a unicast displaces a broadcast. -/
def sendPacket (self : RimeAddr) (s : LppNew) (pb : Packetbuf) (tbr : UInt16) : LppNew :=
  let isBroadcast := rimeaddrCmp (pb.addr .receiver) rimeaddrNull
  if !s.isOn then postSend s
  else if s.buffer.valid && isBroadcast then s
  else
    let s := if s.buffer.valid && s.buffer.isBroadcast && !isBroadcast then
        removePacketFromBuffer s
      else s
    fillBuffer self s pb tbr

/-- A unicast is recorded. -/
def request (s : LppNew) : LppNew := { s with events := s.events ++ [.request] }

/-- `send_packet` gets a packet. -/
def hand (self : RimeAddr) (s : LppNew) (pb : Packetbuf) (tbr : UInt16) : LppNew :=
  if rimeaddrCmp (pb.addr .receiver) rimeaddrNull then sendPacket self s pb tbr
  else sendPacket self (request s) pb tbr

/-! ### `read_packet` -/

/-- `send_data_packet`, up to its loop. A broadcast stays in the buffer for other probes.
`now` is `RTIMER_NOW()`. -/
def sendDataPacket (s : LppNew) (now : UInt16) : LppNew :=
  let s := { s with sent := s.sent ++ [s.buffer.packet] }
  if s.buffer.isBroadcast then s
  else
    let first := rtimerClockLt now (s.buffer.tStart + probePeriod s.config)
    { s with
      probesSucc := if first then s.probesSucc + 1 else s.probesSucc
      waiting := true }

/-- The loop reads a frame. The type is not looked at. -/
def dataAckRead (self : RimeAddr) (s : LppNew) (f : Frame) : LppNew :=
  if f.fits sizeofHdr && rimeaddrCmp f.hdr.sender s.buffer.dest &&
      rimeaddrCmp f.hdr.receiver self then
    { s with buffer := { s.buffer with gotDataAck := true } }
  else s

/-- `send_data_packet`, after its loop. -/
def dataWaitOver (s : LppNew) : LppNew :=
  removePacketFromBuffer { s with
    waiting := false
    handshakesTotal := s.handshakesTotal + 1
    handshakesSucc := if s.buffer.gotDataAck then s.handshakesSucc + 1 else s.handshakesSucc }

/-- A probe is answered when it comes from the receiver, or when the packet is a broadcast. -/
def answersProbe (s : LppNew) (f : Frame) : Bool :=
  s.buffer.valid && (s.buffer.isBroadcast || rimeaddrCmp f.hdr.sender s.buffer.dest)

/-- The DATA_ACK for a data packet: sender and receiver change places. -/
def ackFrame (f : Frame) : Frame := ⟨⟨.ack, f.hdr.receiver, f.hdr.sender⟩, []⟩

/-- `read_packet`. A data packet for this node is acknowledged. -/
def readPacket (self : RimeAddr) (s : LppNew) (f : Frame) (now : UInt16) : LppNew :=
  if !f.fits packetbufSize then s
  else
    match f.hdr.type with
    | .probe => if answersProbe s f then sendDataPacket s now else s
    | .data =>
      if rimeaddrCmp f.hdr.receiver self && !rimeaddrCmp f.hdr.receiver rimeaddrNull then
        { s with sent := s.sent ++ [ackFrame f] }
      else s
    | .ack => s

/-! ### The send timeout, and the switches -/

/-- The interrupt of the send timeout timer (`timerb1_interrupt`). -/
def timerInterrupt (s : LppNew) : LppNew := { s with tbcctl2 := false, polled := true }

/-- `send_timeout_process`. -/
def sendTimeoutProcess (s : LppNew) : LppNew :=
  let s := { s with polled := false }
  if s.buffer.valid then removePacketFromBuffer s else s

/-- `mac_on`. -/
def macOn (s : LppNew) : LppNew := { s with isOn := true }

/-- `mac_off`. -/
def macOff (s : LppNew) : LppNew :=
  let s := { s with tbcctl2 := false, isOn := false }
  if s.buffer.valid then removePacketFromBuffer s else s

/-- `set_lpp_new_config`. -/
def setLppNewConfig (s : LppNew) (config : Config) : LppNew :=
  macOn { macOff s with config := config }

/-! ### The machine -/

/-- What can happen at a node. -/
inductive Action
  | sendPacket (pb : Packetbuf) (tbr : UInt16)
  | readPacket (f : Frame) (now : UInt16)
  | dataAckRead (f : Frame)
  | dataWaitOver
  | timerInterrupt
  | sendTimeoutProcess
  | macOn
  | macOff
  | setLppNewConfig (config : Config)

/-- A unicast is handed over only while no unicast is outstanding. -/
def mayHand (s : LppNew) (pb : Packetbuf) : Bool :=
  rimeaddrCmp (pb.addr .receiver) rimeaddrNull || !Handoff.lastIsRequest s.events

/-- The node as a machine. While `send_data_packet` waits, only the interrupts and the loop
itself take steps. -/
def machine (self : RimeAddr) (config : Config) : Machine LppNew Action where
  init := init config
  step s
    | .sendPacket pb tbr =>
      if !s.waiting && mayHand s pb then some (hand self s pb tbr) else none
    | .readPacket f now => if !s.waiting then some (readPacket self s f now) else none
    | .dataAckRead f =>
      if s.waiting && !s.buffer.gotDataAck then some (dataAckRead self s f) else none
    | .dataWaitOver => if s.waiting then some (dataWaitOver s) else none
    | .timerInterrupt => if s.tbcctl2 then some (timerInterrupt s) else none
    | .sendTimeoutProcess =>
      if s.polled && !s.waiting then some (sendTimeoutProcess s) else none
    | .macOn => some (macOn s)
    | .macOff => some (macOff s)
    | .setLppNewConfig config =>
      if !s.waiting then some (setLppNewConfig s config) else none

end LppNew

end PTunes.Mac
