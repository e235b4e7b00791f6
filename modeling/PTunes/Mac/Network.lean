import PTunes.Lib.Machine
import PTunes.Lib.Medium
import PTunes.Mac.Xmac

/-!
# `PTunes.Mac.Network`: nodes that run X-MAC

Any number of nodes with relunicast over X-MAC, and a medium between them that loses, delays
and reorders the frames. Glossy turns the MAC of any node on and off at any time.

`accepted` is a record: the executions of the `TYPE_DATA` branch of `read_packet` that accept
a packet, at all nodes.
-/

set_option autoImplicit false

namespace PTunes.Mac

open PTunes.Rime (RimeAddr rimeaddrCmp rimeaddrNull packetbufSize)

/-- The addresses of the nodes. -/
structure XmacConf where
  nodes : List RimeAddr
  nodup : nodes.Nodup

/-- The nodes, the medium between them, and the record of the accepted packets. -/
structure XmacNetwork where
  nodes : RimeAddr → XmacNode
  air : Medium RimeAddr Frame
  accepted : List Acceptance

/-- What may happen. A function that waits is several actions, so that anything else may happen
during the wait, and `k` says which frame of the medium is read. -/
inductive XmacAction where
  | relunicastSend (node receiver : RimeAddr) (maxRetransmissions : UInt8)
      (packet : List UInt8)
  /-- The timer of relunicast expires. -/
  | sendTimer (node : RimeAddr)
  | strobe (node : RimeAddr)
  /-- The time for strobes is over. -/
  | strobesOver (node : RimeAddr)
  | strobeRead (node : RimeAddr) (k : Nat)
  /-- The time between two strobes is over. -/
  | strobeWaitOver (node : RimeAddr)
  | sendData (node : RimeAddr)
  | dataRead (node : RimeAddr) (k : Nat)
  /-- The time for the DATA_ACK is over. -/
  | dataWaitOver (node : RimeAddr)
  /-- `unicast_send` has returned. -/
  | sendReturned (node : RimeAddr)
  | readPacket (node : RimeAddr) (k : Nat)
  | powercycle (node : RimeAddr)
  | turnOn (node : RimeAddr)
  | turnOff (node : RimeAddr)
  | lose (k : Nat)
deriving DecidableEq, Repr

/-- A data packet from `node`, or a DATA_ACK for one. -/
def Frame.concerns (f : Frame) (node : RimeAddr) : Bool :=
  f.hdr.type = .data && f.hdr.sender = node || f.hdr.type = .dataAck && f.hdr.receiver = node

namespace XmacNetwork

variable (C : XmacConf)

/-- The start: no frame is under way. -/
def init : XmacNetwork where
  nodes _ := XmacNode.init
  air := []
  accepted := []

/-- The state of one node changes. -/
def setNode (s : XmacNetwork) (node : RimeAddr) (n : XmacNode) : XmacNetwork :=
  { s with nodes := Function.update s.nodes node n }

/-- `radio->send`. -/
def radioSend (s : XmacNetwork) (node : RimeAddr) (f : Frame) : XmacNetwork :=
  { s with air := s.air.transmit C.nodes node f }

/-- No frame of an earlier attempt of the node is under way. -/
def isClean (s : XmacNetwork) (node : RimeAddr) : Bool :=
  s.air.all fun p => !p.msg.concerns node

/-- The `TYPE_DATA` branch of `read_packet`. A broadcast gets no DATA_ACK. -/
def accept (s : XmacNetwork) (node : RimeAddr) (f : Frame) : XmacNetwork :=
  let t := { s with accepted := s.accepted ++ [XmacNode.acceptance node f] }
  if rimeaddrCmp f.hdr.receiver rimeaddrNull then t
  else t.radioSend C node (XmacNode.ackFrame .dataAck f.hdr.sender s.accepted.length)

/-- `read_packet`, after `radio->read`. -/
def readPacket (s : XmacNetwork) (node : RimeAddr) (f : Frame) : XmacNetwork :=
  match radioRead packetbufSize f with
  | some f =>
    if (s.nodes node).answersStrobe node f then
      (s.setNode node { s.nodes node with wasTimeout := true }).radioSend C node
        (XmacNode.ackFrame .strobeAck f.hdr.sender 0)
    else if XmacNode.accepts node f then s.accept C node f
    else s
  | none => s

/-- The network as a machine. -/
def machine : Machine XmacNetwork XmacAction where
  init := init
  step s
    | .relunicastSend node receiver maxRetransmissions packet =>
      let n := s.nodes node
      if n.pc = .idle ∧ n.conn.isTx = false then
        some (s.setNode node (n.relunicastSend receiver maxRetransmissions packet))
      else none
    | .sendTimer node =>
      let n := s.nodes node
      if n.pc = .idle ∧ n.conn.timer then
        some (s.setNode node (n.send (s.isClean node)))
      else none
    | .strobe node =>
      let n := s.nodes node
      if n.pc = .strobeLoop then
        some ((s.setNode node { n with pc := .strobeWait }).radioSend C node
          (n.strobeFrame node))
      else none
    | .strobesOver node =>
      let n := s.nodes node
      if n.pc = .strobeLoop then some (s.setNode node (n.strobesOver false)) else none
    | .strobeRead node k =>
      let n := s.nodes node
      if n.pc = .strobeWait ∧ n.isBroadcast = false then
        (s.air.receive node k).map fun (f, air) =>
          { s.setNode node (n.strobeRead node f) with air := air }
      else none
    | .strobeWaitOver node =>
      let n := s.nodes node
      if n.pc = .strobeWait then some (s.setNode node { n with pc := .strobeLoop }) else none
    | .sendData node =>
      let n := s.nodes node
      if n.pc = .sendData then
        some ((s.setNode node n.sendData).radioSend C node (n.dataFrame node))
      else none
    | .dataRead node k =>
      let n := s.nodes node
      if n.pc = .dataWait then
        (s.air.receive node k).map fun (f, air) =>
          { s.setNode node (n.dataRead node f) with air := air }
      else none
    | .dataWaitOver node =>
      let n := s.nodes node
      if n.pc = .dataWait then some (s.setNode node n.dataWaitOver) else none
    | .sendReturned node =>
      let n := s.nodes node
      if n.pc = .returned then some (s.setNode node n.sendReturned) else none
    | .readPacket node k =>
      -- `read_packet` runs in a process, so not while `send_packet` does.
      if (s.nodes node).pc = .idle then
        (s.air.receive node k).map fun (f, air) => { s with air := air }.readPacket C node f
      else none
    | .powercycle node => some (s.setNode node { s.nodes node with wasTimeout := false })
    | .turnOn node => some (s.setNode node { s.nodes node with xmacIsOn := true })
    | .turnOff node => some (s.setNode node { s.nodes node with xmacIsOn := false })
    | .lose k => some { s with air := s.air.lose k }

end XmacNetwork

end PTunes.Mac
