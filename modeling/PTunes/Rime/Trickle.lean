import Mathlib.Init

/-!
# `PTunes.Rime.Trickle`: reliable flooding from one source (`trickle.c`)

Each node keeps the newest message it has heard of and its sequence number, and repeats it at
intervals that grow while nothing new is heard. A message with an older sequence number makes the
node repeat its own one at once.

`send` and what calls it have the packet that is broadcast as a result. `room` says whether the
pool of queue buffers has room, so whether `queuebuf_new_from_packetbuf` is not `NULL`. The
lengths of the intervals play no part: a timer that is set can expire at any time.
-/

set_option autoImplicit false

namespace PTunes.Rime

/-- A message: the attribute `EPACKET_ID`, which has 8 bits on the air, and the data. -/
structure TricklePacket (α : Type) where
  seqno : UInt8
  data : α
deriving DecidableEq, Repr

/-- Where the protothread of `run_trickle` continues: at its begin, behind the wait for the end of
the listening period, or behind the wait for the end of the interval. -/
inductive TricklePt
  | init
  | listen
  | interval
deriving DecidableEq, Repr

/-- `struct trickle_conn`. The timers are what is set of them. -/
structure TrickleConn (α : Type) where
  q : Option (TricklePacket α)
  seqno : UInt8
  intervalScaling : UInt8
  duplicates : UInt8
  pt : TricklePt
  /-- `t`, the timer of the listening period. -/
  t : Bool
  intervalTimer : Bool
  firstTransmissionTimer : Bool
deriving DecidableEq, Repr

namespace TrickleConn

variable {α : Type}

/-- `INTERVAL_MAX`. -/
def intervalMax : UInt8 := 6

/-- `DUPLICATE_THRESHOLD`. -/
def duplicateThreshold : UInt8 := 1

/-- `SEQNO_LT`. -/
def seqnoLt (a b : UInt8) : Bool := decide ((a - b).toInt8 < 0)

/-- `trickle_open`. The connection is static and starts as zero. -/
def trickleOpen : TrickleConn α where
  q := none
  seqno := 0
  intervalScaling := 0
  duplicates := 0
  pt := .init
  t := false
  intervalTimer := false
  firstTransmissionTimer := false

/-- `send`. -/
def send (c : TrickleConn α) : Option (TricklePacket α) := c.q

/-- The loop of `run_trickle` up to the first wait. -/
def listen (c : TrickleConn α) : TrickleConn α :=
  { c with intervalTimer := true, t := true, duplicates := 0, pt := .listen }

/-- `run_trickle`. -/
def runTrickle (c : TrickleConn α) : TrickleConn α × Option (TricklePacket α) :=
  match c.pt with
  | .init => (c.listen, none)
  | .listen =>
    ({ c with pt := .interval }, if c.duplicates < duplicateThreshold then c.send else none)
  | .interval =>
    (if c.intervalScaling < intervalMax then
        { c with intervalScaling := c.intervalScaling + 1 }.listen
      else c.listen, none)

/-- `reset_interval`. Nothing is sent. -/
def resetInterval (c : TrickleConn α) : TrickleConn α := ({ c with pt := .init }.runTrickle).1

/-- What `recv` takes over from a message that is new. -/
def adopt (room : Bool) (p : TricklePacket α) (c : TrickleConn α) : TrickleConn α :=
  { { c with
      seqno := p.seqno
      q := if room then some p else none
      intervalScaling := 0 }.resetInterval with
    firstTransmissionTimer := true }

/-- `recv`, up to the callback: the connection, what is sent, and whether the callback comes. -/
def recv (room : Bool) (p : TricklePacket α) (c : TrickleConn α) :
    TrickleConn α × Option (TricklePacket α) × Bool :=
  if p.seqno = c.seqno then ({ c with duplicates := c.duplicates + 1 }, none, false)
  else if seqnoLt p.seqno c.seqno then ({ c with intervalScaling := 0 }, c.send, false)
  else (adopt room p c, none, true)

/-- `trickle_send`. -/
def trickleSend (room : Bool) (data : α) (c : TrickleConn α) :
    TrickleConn α × Option (TricklePacket α) :=
  let seqno := c.seqno + 1
  let c :=
    { c with
      seqno := seqno
      q := if room then some ⟨seqno, data⟩ else none
      intervalScaling := 0 }.resetInterval
  (c, c.send)

/-- A timer of a connection. -/
inductive Timer
  | listen
  | interval
  | firstTransmission
deriving DecidableEq, Repr

/-- The timer is set. -/
def isSet (c : TrickleConn α) : Timer → Bool
  | .listen => c.t
  | .interval => c.intervalTimer
  | .firstTransmission => c.firstTransmissionTimer

/-- The timer expires. -/
def expire (c : TrickleConn α) : Timer → TrickleConn α × Option (TricklePacket α)
  | .listen => { c with t := false }.runTrickle
  | .interval => { c with intervalTimer := false }.runTrickle
  | .firstTransmission => ({ c with firstTransmissionTimer := false }, c.send)

/-- The node still has something to send again: one of its timers is set. -/
def owes (c : TrickleConn α) : Bool := c.t || c.intervalTimer || c.firstTransmissionTimer

end TrickleConn

end PTunes.Rime
