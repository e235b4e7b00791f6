import PTunes.Lib.Machine
import PTunes.Rime.Relunicast

/-!
# `PTunes.Rime.Relcollect`: the collection protocol (`core/net/rime/relcollect.c`)

The functions of `relcollect.c` in the order of the source, and the node as a machine. A
label of the machine is one event that the event loop hands to the node: a call of the
application, a received packet, a timer, or the MAC. A handler runs to its end before the
next event. The label carries everything the handler reads from the outside.

`rel_update_rtmetric` and the handlers are cut where they reach `rel_send_queued_packet`, so
that a statement can speak of the state in which the call is made.
-/

set_option autoImplicit false

namespace PTunes.Rime

/-- `QUEUING_DELAY_RESET_PERIOD`. -/
abbrev queuingDelayResetPeriod : UInt32 := 10

/-- `SINK_METRIC`. -/
abbrev sinkMetric : UInt16 := 0

/-! ### `rel_send_queued_packet` -/

/-- The next hop for the loaded packet. When the best neighbor is the node the packet came
from, it is removed and the best neighbor is asked for again. -/
def nextHop (C : NodeConf) (s : Node) : Option NeighborPtr × Node :=
  let best := neighborBest s.neighbors
  match best.1 with
  | none => (none, { s with neighbors := best.2 })
  | some i =>
    let addr := (best.2.get i).addr
    if rimeaddrCmp addr (s.packetbuf.addr .sender) then
      let best := neighborBest (neighborRemove C.platform best.2 addr)
      (best.1, { s with neighbors := best.2 })
    else (some i, { s with neighbors := best.2 })

/-- The packet in the buffer originates at this node. -/
def isOriginator (C : NodeConf) (s : Node) : Bool :=
  rimeaddrCmp C.addr (s.packetbuf.addr .esender)

/-- The parent and the routing metric, noted for own packets only. -/
def noteParent (C : NodeConf) (s : Node) (n : NeighborPtr) : Node :=
  if isOriginator C s then
    let parentId := (s.neighbors.get n).addr.u8_0
    { s with
      conn := { s.conn with parentId := parentId }
      parentId := parentId
      packetbuf := s.packetbuf.setAttr .rtmetric s.conn.rtmetric.toUInt8.toUInt16 }
  else s

/-- `queuing_delay`, with an overflow of the clock taken into account. -/
def queuingDelay (dequeueTime enqueueTime : UInt16) : UInt16 :=
  if dequeueTime ≥ enqueueTime then dequeueTime - enqueueTime
  else 65535 - enqueueTime + dequeueTime + 1

/-- `queue_size_to_print`: the mean queue size, rounded. -/
def queueSizeToPrint (st : QueuingStats) : UInt8 :=
  let q := st.queuingSizeSum * 10 / st.queuingCount
  (if q % 10 > 4 then q / 10 + 1 else q / 10).toUInt8

/-- The queuing statistics, updated for the item that is sent next. -/
def updateQueuingStats (C : NodeConf) (env : Env) (s : Node) (i : PacketqueueItemPtr) : Node :=
  let st := { s.stats with
    queuingCount := s.stats.queuingCount + 1
    queuingSizeSum := s.stats.queuingSizeSum + UInt32.ofNat (getQueueSize s.queue) }
  let delay := queuingDelay env.clockTime (getEnqueueTime s.queue i)
  let pb := s.packetbuf.setAttr .queuingDelay (s.packetbuf.attr .queuingDelay + delay)
  let pb := if isOriginator C s then
      pb.setAttr .queueSize (queueSizeToPrint st).toUInt16
    else pb
  let st := if st.queuingCount ≥ queuingDelayResetPeriod then
      { st with
        queuingCount := st.queuingCount >>> 1, queuingSizeSum := st.queuingSizeSum >>> 1 }
    else st
  { s with packetbuf := pb, stats := st }

/-- The packet of the item has been accepted by `relunicast_send`. -/
def logHandOver (s : Node) (i : PacketqueueItemPtr) : Node :=
  { s with log := s.log ++ [.handOver (s.queue.memb.block i).uid] }

/-- The last part of `rel_send_queued_packet`, with a route: the packet is handed to
`relunicast_send`, whose result is ignored. -/
def forwardTo (C : NodeConf) (env : Env) (s : Node) (i : PacketqueueItemPtr)
    (n : NeighborPtr) : Node :=
  let s := updateQueuingStats C env (noteParent C s n) i
  let s := { s with conn := { s.conn with forwarding := true } }
  match relunicastSend C env s (s.neighbors.get n).addr (s.packetbuf.attr .maxRexmit).toUInt8
      (s.packetbuf.addr .esender) with
  | (true, s) => logHandOver s i
  | (false, s) => s

/-- The packet that `rel_send_queued_packet` takes up: the head of the queue and its buffer,
unless a packet is being forwarded or the LPP queue is busy. -/
def packetToForward (C : NodeConf) (env : Env) (s : Node) :
    Option (PacketqueueItemPtr × QueuebufPtr) :=
  match packetqueueFirst s.queue with
  | none => none
  | some i =>
    if s.conn.forwarding then none
    else if C.mac = .lpp ∧ env.lppQueueIsEmpty = false then none
    else (packetqueueQueuebuf s.queue i).map fun q => (i, q)

/-- `rel_send_queued_packet`. -/
def relSendQueuedPacket (C : NodeConf) (env : Env) (s : Node) : Node :=
  match packetToForward C env s with
  | none => s
  | some (i, q) =>
    match nextHop C { s with packetbuf := queuebufToPacketbuf s.pool q } with
    | (none, s) => s
    | (some n, s) => forwardTo C env s i n

/-- A handler that was cut at its call of `rel_send_queued_packet` goes on: the `Bool` says
whether it makes the call. -/
def sendIf (C : NodeConf) (env : Env) (r : Bool × Node) : Node :=
  if r.1 then relSendQueuedPacket C env r.2 else r.2

/-! ### `rel_update_rtmetric` -/

/-- The node with a new routing metric, after `neighbor_best` has left the table `t`. -/
def setRtmetric (s : Node) (t : NeighborTable) (rtmetric : UInt16) : Node :=
  { s with neighbors := t, conn := { s.conn with rtmetric := rtmetric } }

/-- `rel_update_rtmetric`, up to its call of `rel_send_queued_packet`. The `Bool` says that
it makes the call: the metric has changed, and it was `RTMETRIC_MAX` before. -/
def updateRoute (C : NodeConf) (s : Node) : Bool × Node :=
  if s.conn.rtmetric = sinkMetric then (false, s)
  else
    let best := neighborBest s.neighbors
    let oldRtmetric := s.conn.rtmetric
    match best.1 with
    | none => (false, announcementSetValue C (setRtmetric s best.2 rtmetricMax) rtmetricMax)
    | some i =>
      let newRtmetric := (best.2.get i).cost
      if newRtmetric ≠ oldRtmetric then
        (oldRtmetric = rtmetricMax,
          announcementSetValue C (setRtmetric s best.2 newRtmetric) newRtmetric)
      else (false, { s with neighbors := best.2 })

/-- `rel_update_rtmetric`. -/
def relUpdateRtmetric (C : NodeConf) (env : Env) (s : Node) : Node :=
  sendIf C env (updateRoute C s)

/-! ### The callbacks of relunicast -/

/-- `packetqueue_enqueue_packetbuf` on the forwarding queue. -/
def enqueueForwarding (env : Env) (s : Node) : Bool × Node :=
  match packetqueueEnqueuePacketbuf s.queue s.pool s.packetbuf env.clockTime s.nextUid with
  | (true, queue, pool) =>
    (true, { s with
      queue := queue
      pool := pool
      log := s.log ++ [.enqueue s.nextUid]
      nextUid := s.nextUid + 1 })
  | (false, queue, pool) => (false, { s with queue := queue, pool := pool })

/-- `packetqueue_dequeue` on the forwarding queue. -/
def dequeueForwarding (s : Node) : Node :=
  let rest := packetqueueDequeue s.queue s.pool
  { s with
    queue := rest.1
    pool := rest.2
    log := s.log ++ (s.queue.uids.take 1).map FifoEvent.dequeue }

/-- `dropped_packets_count++`. -/
def countDropped (s : Node) : Node :=
  { s with stats := { s.stats with droppedPacketsCount := s.stats.droppedPacketsCount + 1 } }

/-- A packet is enqueued, or counted as dropped. -/
def enqueueOrDrop (env : Env) (s : Node) : Bool × Node :=
  let r := enqueueForwarding env s
  (r.1, if r.1 then r.2 else countDropped r.2)

/-- The packet in the buffer is one of the recent packets. -/
def isRecent (s : Node) : Bool :=
  s.recentPackets.any fun r =>
    r.seqno.toUInt16 == s.packetbuf.attr .epacketId &&
      rimeaddrCmp r.originator (s.packetbuf.addr .esender)

/-- The packet in the buffer becomes a recent packet. -/
def noteRecent (s : Node) : Node :=
  { s with
    recentPackets := s.recentPackets.setIfInBounds s.recentPacketPtr.toNat
      ⟨s.packetbuf.addr .esender, (s.packetbuf.attr .epacketId).toUInt8⟩
    recentPacketPtr := UInt8.ofNat ((s.recentPacketPtr.toNat + 1) % numRecentPackets) }

/-- The application gets the packet in the buffer. -/
def deliver (s : Node) : Node :=
  { s with
    delivered := s.delivered ++ [(s.packetbuf.addr .esender, s.packetbuf.attr .epacketId)] }

/-- The packet carries a metric that is not higher than that of this node. -/
def lowMetric (s : Node) : Bool := !(s.packetbuf.attr .rtmetric > s.conn.rtmetric)

/-- `rel_node_packet_received`, after the route update and up to its call of
`rel_send_queued_packet`. The `Bool` says that it makes the call. -/
def acceptReceived (env : Env) (s : Node) : Bool × Node :=
  if s.conn.rtmetric = sinkMetric then (false, deliver s)
  else if s.conn.rtmetric ≠ rtmetricMax then
    enqueueOrDrop env s
  else (false, s)

/-- `rel_node_packet_received`. The two calls of `rel_send_queued_packet` read the outside
at different times. -/
def relNodePacketReceived (C : NodeConf) (env env' : Env) (s : Node) : Node :=
  if isRecent s then s
  else
    let s := noteRecent s
    let s := if lowMetric s then relUpdateRtmetric C env s else s
    sendIf C env' (acceptReceived env' s)

/-- The first part of `rel_node_packet_sent` and `rel_node_packet_timedout`: the forwarding
flag is cleared and the ETX of the receiver is updated by `etx`. -/
def noteCompletion (etx : NeighborTable → Option NeighborPtr → UInt8 → NeighborTable)
    (receiver : RimeAddr) (retransmissions : UInt8) (s : Node) : Node :=
  { s with
    conn := { s.conn with forwarding := false }
    neighbors := etx s.neighbors (neighborFind s.neighbors receiver) (retransmissions + 1) }

/-- The part that `rel_node_packet_sent` and `rel_node_packet_timedout` share after it. -/
def completePacket (C : NodeConf) (env env' : Env) (s : Node) : Node :=
  relSendQueuedPacket C env' (dequeueForwarding (relUpdateRtmetric C env s))

/-- `rel_node_packet_sent`. -/
def relNodePacketSent (C : NodeConf) (env env' : Env) (s : Node) (receiver : RimeAddr)
    (retransmissions : UInt8) : Node :=
  completePacket C env env' (noteCompletion neighborUpdateEtx receiver retransmissions s)

/-- `rel_node_packet_timedout`. -/
def relNodePacketTimedout (C : NodeConf) (env env' : Env) (s : Node) (receiver : RimeAddr)
    (retransmissions : UInt8) : Node :=
  completePacket C env env' (noteCompletion neighborTimedoutEtx receiver retransmissions s)

/-- `relunicast_callbacks`. -/
def relunicastCallbacks (C : NodeConf) (env env' : Env) : RelunicastCallbacks where
  sent := relNodePacketSent C env env'
  timedout := relNodePacketTimedout C env env'

/-! ### Announcements -/

/-- `received_announcement`, up to the route update. The parameters of `neighbor_add` and
`neighbor_update` have 8 bits. -/
def noteAnnouncement (C : NodeConf) (s : Node) (sender : RimeAddr) (value : UInt16) : Node :=
  { s with
    neighbors := match neighborFind s.neighbors sender with
      | none => neighborAdd C.platform s.neighbors sender value.toUInt8 1
      | some n => neighborUpdate s.neighbors (some n) value.toUInt8 }

/-- `received_announcement`. -/
def receivedAnnouncement (C : NodeConf) (env : Env) (s : Node) (sender : RimeAddr)
    (value : UInt16) : Node :=
  relUpdateRtmetric C env (noteAnnouncement C s sender value)

/-- `rel_update_rtmetric` announces the metric that it has found: the node is not the sink,
and the metric has changed or there is no neighbor. -/
def announcesRoute (s : Node) : Bool :=
  s.conn.rtmetric ≠ sinkMetric &&
    match (neighborBest s.neighbors).1 with
    | none => true
    | some i => ((neighborBest s.neighbors).2.get i).cost ≠ s.conn.rtmetric

/-- The packets that `rel_update_rtmetric` writes into the packet buffer, in order: the message
of `send_adv`, and the packet that `rel_send_queued_packet` takes up. -/
def routeWrites (C : NodeConf) (env : Env) (s : Node) : List (List UInt8) :=
  let r := updateRoute C s
  let adv := if announcesRoute s then [announcementMsg C.channels r.2.conn.announcement] else []
  let packet := if r.1 then packetToForward C env r.2 else none
  adv ++ packet.toList.map fun p => (queuebufToPacketbuf r.2.pool p.2).data

/-- The distance from the start of the packet buffer to the payload of a received announcement:
the header of the MAC, the header of `chameleon-bitopt.c` and the address of the sender. -/
abbrev payloadOffset : UInt16 := 10

/-- The memory at the payload after a packet has been written into the packet buffer. What
lies outside the packet buffer is `outside`: other variables, which may change at any time. -/
def overwrite (outside : Memory) (packets : List (List UInt8)) (adata : Memory) : Memory :=
  let written := packets.foldl (fun m packet => m.write (0 - payloadOffset) packet) adata
  fun i => if (i + payloadOffset).toNat < packetbufSize then written i else outside i

/-- A node in the loop of `adv_packet_received`, and the memory at the payload. `noted` lists
the calls of `received_announcement`: what each reads from the outside, and the node when it
calls `rel_update_rtmetric`. -/
structure Hearing where
  node : Node
  adata : Memory
  noted : List (Env × Node)

/-- `announcement_heard`: the announcement of relcollect has `received_announcement` called,
and the packets that its route update writes end up in the memory that the loop reads. -/
def announcementHeard (C : NodeConf) (sender : RimeAddr) (outside : Nat → Memory)
    (env : Nat → Env) (h : Hearing) (id value : UInt16) : Hearing :=
  if id = C.channels then
    let n := h.noted.length
    let s := noteAnnouncement C h.node sender value
    { node := relUpdateRtmetric C (env n) s
      adata := overwrite (outside (n + 1)) (routeWrites C (env n) s) h.adata
      noted := h.noted ++ [(env n, s)] }
  else h

/-- A received payload in the packet buffer. -/
def loadPayload (s : Node) (data : List UInt8) : Node :=
  { s with packetbuf := { Packetbuf.clear with data := data } }

/-- The node when `adv_packet_received` is called, and the payload in memory. -/
def startHearing (s : Node) (data : List UInt8) (outside : Nat → Memory) : Hearing :=
  ⟨ipoliteRecv (loadPayload s data), (outside 0).write 0 data, []⟩

/-- `recv` of `ipolite.c`, with `adv_packet_received` as its callback. The announcement that is
noted as the `n`-th reads `env n`, and `outside n` is the memory around the packet buffer
before it. -/
def hearAdv (C : NodeConf) (s : Node) (sender : RimeAddr) (data : List UInt8)
    (outside : Nat → Memory) (env : Nat → Env) : Hearing :=
  advPacketReceived Hearing.adata (announcementHeard C sender outside env)
    (startHearing s data outside)

/-- The node after a packet on the channel of the announcements. -/
def recvAdv (C : NodeConf) (s : Node) (sender : RimeAddr) (data : List UInt8)
    (outside : Nat → Memory) (env : Nat → Env) : Node :=
  (hearAdv C s sender data outside env).node

/-! ### The interface -/

/-- `relcollect_open`, from zeroed memory. -/
def relcollectOpen (C : NodeConf) (s : Node) : Node :=
  sendAdv C { s with
    conn := { s.conn with seqno := 1, rtmetric := rtmetricMax, announcement := rtmetricMax }
    relunicast := { s.relunicast with isTx := false, rxmit := 0, sndnxt := 0 }
    opened := true }

/-- `relcollect_set_sink`, up to the route update. -/
def setSinkMetric (C : NodeConf) (s : Node) (shouldBeSink : Bool) : Node :=
  let rtmetric := if shouldBeSink then sinkMetric else rtmetricMax
  announcementSetValue C { s with conn := { s.conn with rtmetric := rtmetric } } rtmetric

/-- `relcollect_set_sink`. -/
def relcollectSetSink (C : NodeConf) (env : Env) (s : Node) (shouldBeSink : Bool) : Node :=
  relUpdateRtmetric C env (setSinkMetric C s shouldBeSink)

/-- The attributes that `relcollect_send` gives to the packet in the buffer. -/
def prepareSend (C : NodeConf) (s : Node) (rexmits : UInt16) : Node :=
  let pb := (s.packetbuf.setAttr .epacketId s.conn.seqno.toUInt16).setAddr .esender C.addr
  let pb := (pb.setAttr .maxRexmit rexmits).setAttr .queuingDelay 0
  let pb := (pb.setAttr .droppedPacketsCount s.stats.droppedPacketsCount).setAttr .queueSize 0
  { s with
    conn := { s.conn with seqno := s.conn.seqno + 1 }
    packetbuf := pb.setAttr .rtmetric 0 }

/-- `relcollect_send` of the prepared packet, up to its call of `rel_send_queued_packet`. The
`Bool` says that it makes the call: the packet is enqueued and there is a neighbor. -/
def acceptOwn (env : Env) (s : Node) : Bool × Node :=
  if s.conn.rtmetric = sinkMetric then (false, deliver s)
  else
    let best := neighborBest s.neighbors
    let r := enqueueOrDrop env { s with neighbors := best.2 }
    (r.1 && best.1.isSome, r.2)

/-- `relcollect_send`. -/
def relcollectSend (C : NodeConf) (env : Env) (s : Node) (rexmits : UInt16) : Node :=
  sendIf C env (acceptOwn env (prepareSend C s rexmits))

/-! ### The node as a machine -/

/-- The events of a node. `mac` is what the MAC makes of the packet buffer. -/
inductive NodeAction
  /-- `relcollect_open`. -/
  | relcollectOpen
  /-- `relcollect_set_sink`. -/
  | setSink (shouldBeSink : Bool) (env : Env)
  /-- `relcollect_send` of the packet that the application has put into the buffer. -/
  | relcollectSend (pb : Packetbuf) (rexmits : UInt16) (env : Env)
  /-- A packet for the relunicast connection. -/
  | received (pb : Packetbuf) (env env' : Env)
  /-- A packet on the channel of the announcements. -/
  | recvAdv (sender : RimeAddr) (data : List UInt8) (outside : Nat → Memory) (env : Nat → Env)
  /-- The send timer expires. `acked` is the answer of X-MAC. -/
  | sendTimer (mac : Packetbuf → Packetbuf) (acked : Bool) (env env' : Env)
  /-- `remove_queued_packet` of LPP, for the packet of the connection. -/
  | removeQueuedPacket (acked : Bool) (env env' env'' : Env)
  /-- `remove_queued_packet` of LPP, for a broadcast. -/
  | removeBroadcast (b : QueuebufPtr) (env : Env)
  /-- The timer of an announcement expires, and it is sent. -/
  | ipoliteTimer (pb : Packetbuf)
  /-- The next announcement is due. -/
  | advTimer
  /-- `periodic` of the neighbor table. -/
  | neighborPeriodic
  /-- `neighbor_set_lifetime`. -/
  | neighborSetLifetime (seconds : UInt16)
  /-- Another protocol asks for a queue buffer. -/
  | otherNew (pb : Packetbuf)
  /-- Another protocol gives back a queue buffer that it holds. -/
  | otherFree (b : QueuebufPtr)

/-- Another protocol asks for a queue buffer. -/
def otherNew (s : Node) (pb : Packetbuf) : Node :=
  match queuebufNewFromPacketbuf s.pool pb with
  | (some b, pool) => { s with packetbuf := pb, pool := pool, others := b :: s.others }
  | (none, pool) => { s with packetbuf := pb, pool := pool }

/-- Another protocol gives back a queue buffer that it holds. -/
def otherFree (s : Node) (b : QueuebufPtr) : Node :=
  { s with pool := queuebufFree s.pool b, others := s.others.erase b }

/-- `remove_queued_packet` of `lpp.c` for the packet of the connection, up to its own call of
`rel_send_queued_packet`: the queue buffer is freed, and `post_send` is called. -/
def removeQueuedPacket (C : NodeConf) (env env' : Env) (s : Node) (acked : Bool) : Node :=
  Relunicast.postSend (relunicastCallbacks C env env')
    { s with pool := Node.freeIfSet s.pool s.lppPacket, lppPacket := none } acked

/-- The handler of an event. For `remove_queued_packet` this is the part before its last call of
`rel_send_queued_packet`. -/
def handleEvent (C : NodeConf) (s : Node) : NodeAction → Node
  | .relcollectOpen => relcollectOpen C s
  | .setSink shouldBeSink env => relcollectSetSink C env s shouldBeSink
  | .relcollectSend pb rexmits env => relcollectSend C env { s with packetbuf := pb } rexmits
  | .received pb env env' => relNodePacketReceived C env env' { s with packetbuf := pb }
  | .recvAdv sender data outside env => recvAdv C s sender data outside env
  | .sendTimer mac acked env env' =>
    Relunicast.send C (relunicastCallbacks C env env') s mac acked (Relunicast.lppSendPacket env)
  | .removeQueuedPacket acked env env' _ => removeQueuedPacket C env env' s acked
  | .removeBroadcast b _ => otherFree s b
  | .ipoliteTimer pb => ipoliteTimer s pb
  | .advTimer => sendAdv C s
  | .neighborPeriodic => { s with neighbors := periodic s.neighbors }
  | .neighborSetLifetime seconds =>
    { s with neighbors := neighborSetLifetime s.neighbors seconds }
  | .otherNew pb => otherNew s pb
  | .otherFree b => otherFree s b

/-- `remove_queued_packet` ends with a call of `rel_send_queued_packet`. -/
def lastCall : NodeAction → Option Env
  | .removeQueuedPacket _ _ _ env => some env
  | .removeBroadcast _ env => some env
  | _ => none

/-- The handler of an event. -/
def handle (C : NodeConf) (s : Node) (a : NodeAction) : Node :=
  match lastCall a with
  | some env => relSendQueuedPacket C env (handleEvent C s a)
  | none => handleEvent C s a

/-- An event can occur: the connection is opened once and before its other events, a timer
expires only when it is set, LPP removes only what is on its list, and a protocol gives back
only what it holds. A broadcast that LPP removes before the connection is opened is an event
`otherFree`, since the forwarding queue is empty then. -/
def enabled (C : NodeConf) (s : Node) : NodeAction → Bool
  | .relcollectOpen => !s.opened
  | .sendTimer _ _ _ _ => s.opened && s.relunicast.timer
  | .removeQueuedPacket _ _ _ _ => s.opened && s.macOwes
  | .removeBroadcast b _ => s.opened && C.mac = .lpp && b ∈ s.others
  | .ipoliteTimer _ => s.opened && s.ipolite.timer
  | .otherNew _ => true
  | .otherFree b => b ∈ s.others
  | .neighborPeriodic => true
  | .neighborSetLifetime _ => true
  | _ => s.opened

/-- The node as a machine. -/
def nodeMachine (C : NodeConf) : Machine Node NodeAction where
  init := Node.boot
  step s a := if enabled C s a then some (handle C s a) else none

end PTunes.Rime
