import PTunes.Rime.Node

/-!
# `PTunes.Rime.Relunicast`: reliable unicast (`core/net/rime/relunicast.c`)

`relunicast_send` takes a packet and sets the timer. `send` runs when the timer expires. It
hands the packet to the MAC, or gives up when it has been sent too often. With X-MAC the
result is known when `unicast_send` returns. LPP puts the packet on its list and calls
`post_send` later. Without an item or a queue buffer for it, LPP drops the packet and never
calls `post_send`.

`schedule_send` chooses the delay of the timer around the Glossy phase and always sets it.
-/

set_option autoImplicit false

namespace PTunes.Rime

/-- `1 << RELUNICAST_PACKET_ID_BITS`. -/
abbrev relunicastPacketIds : Nat := 16

/-- `(c->sndnxt + 1) % (1 << RELUNICAST_PACKET_ID_BITS)`. -/
def nextSndnxt (sndnxt : UInt8) : UInt8 := UInt8.ofNat ((sndnxt.toNat + 1) % relunicastPacketIds)

/-- `relunicast_open`, without its channel. The field `buf` keeps its value. -/
def relunicastOpen (c : RelunicastConn) : RelunicastConn :=
  { c with isTx := false, rxmit := 0, sndnxt := 0 }

/-- `relunicast_close`, without its channel. The buffer is freed, and the field `buf` keeps
its value. -/
def relunicastClose (p : QueuebufPool) (c : RelunicastConn) : QueuebufPool × RelunicastConn :=
  (Node.freeIfSet p c.buf, { c with timer := false })

/-- `schedule_send`. -/
def scheduleSend (s : Node) : Node :=
  { s with relunicast := { s.relunicast with timer := true } }

/-- The global time that the originator stores with a packet, in two halves. -/
def setTime (C : NodeConf) (env : Env) (c : RelunicastConn) : RelunicastConn :=
  if rimeaddrCmp c.esender C.addr then
    { c with
      timeHigh := (env.glossyTime >>> 16).toUInt16
      timeLow := (env.glossyTime &&& 0xffff).toUInt16 }
  else c

/-- `relunicast_send`. It fails while a packet is in transmission, and when the pool has no
buffer for the packet. -/
def relunicastSend (C : NodeConf) (env : Env) (s : Node) (receiver : RimeAddr)
    (maxRetransmissions : UInt8) (esender : RimeAddr) : Bool × Node :=
  if s.relunicast.isTx then (false, s)
  else
    let pb := s.packetbuf.setAttr .packetId s.relunicast.sndnxt.toUInt16
    match queuebufNewFromPacketbuf (Node.freeIfSet s.pool s.relunicast.buf) pb with
    | (none, pool) =>
      (false, { s with
        pool := pool, packetbuf := pb, relunicast := { s.relunicast with buf := none } })
    | (some b, pool) =>
      let c := setTime C env { s.relunicast with
        buf := some b
        maxRxmit := maxRetransmissions
        rxmit := 0
        isTx := true
        esender := esender
        receiver := receiver }
      (true, scheduleSend { s with pool := pool, packetbuf := pb, relunicast := c })

/-- `struct relunicast_callbacks`, the callbacks of a finished transmission. -/
structure RelunicastCallbacks where
  sent : Node → RimeAddr → UInt8 → Node
  timedout : Node → RimeAddr → UInt8 → Node

namespace Relunicast

/-- The connection when a transmission is over. -/
def finish (c : RelunicastConn) : RelunicastConn :=
  { c with
    sndnxt := nextSndnxt c.sndnxt, isTx := false, rxmit := c.rxmit - 1, timer := false }

/-- The end of a transmission that was acknowledged: the callback `sent` gets the receiver
and `rxmit`. -/
def acknowledged (u : RelunicastCallbacks) (s : Node) : Node :=
  let c := finish s.relunicast
  u.sent { s with relunicast := c } c.receiver c.rxmit

/-- The end of a transmission that was given up. -/
def gaveUp (u : RelunicastCallbacks) (s : Node) : Node :=
  let c := finish s.relunicast
  u.timedout { s with relunicast := c } c.receiver c.rxmit

/-- The packet that `send` hands to the MAC. -/
def loadPacket (C : NodeConf) (s : Node) : Packetbuf :=
  let c := s.relunicast
  let pb := match c.buf with
    | some b => queuebufToPacketbuf s.pool b
    | none => s.packetbuf
  if rimeaddrCmp c.esender C.addr then
    (pb.setAttr .timeHigh c.timeHigh).setAttr .timeLow c.timeLow
  else pb

/-- `post_send`, called by LPP. -/
def postSend (u : RelunicastCallbacks) (s : Node) (acked : Bool) : Node :=
  if acked then acknowledged u s else scheduleSend s

/-- `send_packet` of `lpp.c`, for the packet that `send` has handed over. It needs an item for
the list and a queue buffer, and returns without the packet when one of them is missing. A
packet to `rimeaddr_null` counts as a broadcast, for which LPP does not call `post_send`. -/
def lppSendPacket (env : Env) (s : Node) : Node :=
  if env.lppItem then
    match queuebufNewFromPacketbuf s.pool s.packetbuf with
    | (none, pool) => { s with pool := pool }
    | (some b, pool) =>
      if rimeaddrCmp s.relunicast.receiver rimeaddrNull then
        { s with pool := pool, others := b :: s.others }
      else { s with pool := pool, lppPacket := some b }
  else s

/-- `send`, when the timer has expired. `mac` is what the MAC makes of the packet buffer,
and `acked` is `xmac_got_data_ack` after `unicast_send`. With LPP, `lppSend` is what its
`send_packet` does to the node. -/
def send (C : NodeConf) (u : RelunicastCallbacks) (s : Node) (mac : Packetbuf → Packetbuf)
    (acked : Bool) (lppSend : Node → Node) : Node :=
  let c := s.relunicast
  if c.rxmit > c.maxRxmit then gaveUp u s
  else
    let pb := (loadPacket C s).setAddr .receiver c.receiver
    let s := { s with
      packetbuf := mac pb
      relunicast := { c with rxmit := c.rxmit + 1, timer := false } }
    match C.mac with
    | .xmac => if acked then acknowledged u s else scheduleSend s
    | .lpp => lppSend s

end Relunicast

end PTunes.Rime
