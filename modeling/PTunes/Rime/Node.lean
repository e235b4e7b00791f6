import PTunes.Lib.Fifo
import PTunes.Rime.Neighbor
import PTunes.Rime.Packetqueue

/-!
# `PTunes.Rime.Node`: the state of a collection node, and its announcements

`Node` gathers the static variables of one node: the pool of queue buffers, the packet
buffer, the neighbor table, the forwarding queue, the relunicast and relcollect
connections, and the polite announcements (`announcement.c`, `polite-announcement.c`,
`ipolite.c`). The build is the one of `adaptive-mac`: `GLOSSY`, `QUEUING_STATS` and not
`STATIC`. The MAC protocol is X-MAC, the one that `contiki-conf.h` selects, or LPP. Both call
relunicast in processes only, so a handler of the node runs to its end. The third protocol,
LPP_NEW, calls `post_send` in an interrupt when `glossy_scheduler` turns it off, and it is
left out here.

Some fields are no variables of the source. `lppPacket` is the part of LPP that the node needs:
the queue buffer of the item on LPP's list that holds the packet of the connection. `others`
lists the queue buffers that other protocols on the node hold, the broadcasts on LPP's list
among them. `log` records what happens to the packets of the forwarding queue: a packet is
enqueued, handed to a `relunicast_send` that accepts it, and dequeued by a completion.
`delivered` records what the application gets.

A node registers one announcement, that of its relcollect connection. The interval of an
announcement is never zero, so `ipolite_send` always takes a queue buffer.
-/

set_option autoImplicit false

namespace PTunes.Rime

/-- `MAC_PROTOCOL`, for the protocols that call relunicast in processes only. -/
inductive MacProtocol
  | xmac
  | lpp
deriving DecidableEq, Repr

/-- What is fixed for a node: `rimeaddr_node_addr`, the MAC protocol of the build, the
addresses of the neighbor table, and the channel of the relcollect connection. -/
structure NodeConf where
  addr : RimeAddr
  mac : MacProtocol
  platform : Platform
  channels : UInt16

/-- What a handler reads from the outside: `clock_time`, `TIME_FROM_GLOSSY`,
`lpp_queue_is_empty`, and whether `memb_alloc` finds an item for LPP's list. -/
structure Env where
  clockTime : UInt16
  glossyTime : UInt32
  lppQueueIsEmpty : Bool
  lppItem : Bool

/-- `struct relunicast_conn`. `timer` says that the timer `t` is set. -/
structure RelunicastConn where
  buf : Option QueuebufPtr
  receiver : RimeAddr
  sndnxt : UInt8
  isTx : Bool
  rxmit : UInt8
  maxRxmit : UInt8
  esender : RimeAddr
  timeHigh : UInt16
  timeLow : UInt16
  timer : Bool

/-- `struct relcollect_conn`. `announcement` is the value of its announcement. -/
structure RelcollectConn where
  announcement : UInt16
  parentId : UInt8
  rtmetric : UInt16
  forwarding : Bool
  seqno : UInt8

/-- `struct ipolite_conn`. `timer` says that the timer `t` is set. -/
structure IpoliteConn where
  q : Option QueuebufPtr
  hdrsize : UInt8
  timer : Bool

/-- `struct recent_packet`. -/
structure RecentPacket where
  originator : RimeAddr
  seqno : UInt8

/-- `NUM_RECENT_PACKETS`. -/
abbrev numRecentPackets : Nat := 20

/-- The queuing statistics of `relcollect.c`. -/
structure QueuingStats where
  queuingCount : UInt32
  queuingSizeSum : UInt32
  droppedPacketsCount : UInt16

/-- The variables of a node. `lppPacket` is the queue buffer of the connection's packet on the
list of LPP. -/
structure Node where
  pool : QueuebufPool
  packetbuf : Packetbuf
  neighbors : NeighborTable
  queue : Packetqueue
  relunicast : RelunicastConn
  conn : RelcollectConn
  ipolite : IpoliteConn
  recentPackets : Vector RecentPacket numRecentPackets
  recentPacketPtr : UInt8
  stats : QueuingStats
  parentId : UInt8
  lppPacket : Option QueuebufPtr
  opened : Bool
  others : List QueuebufPtr
  log : List (FifoEvent Nat)
  nextUid : Nat
  delivered : List (RimeAddr × UInt16)

namespace Node

/-- The node after `rime_init`, before `relcollect_open`: zeroed memory. -/
def boot : Node where
  pool := queuebufInit
  packetbuf := Packetbuf.clear
  neighbors := neighborInit
  queue := Packetqueue.zero
  relunicast := ⟨none, rimeaddrNull, 0, false, 0, 0, rimeaddrNull, 0, 0, false⟩
  conn := ⟨0, 0, 0, false, 0⟩
  ipolite := ⟨none, 0, false⟩
  recentPackets := Vector.replicate _ ⟨rimeaddrNull, 0⟩
  recentPacketPtr := 0
  stats := ⟨0, 0, 0⟩
  parentId := 0
  lppPacket := none
  opened := false
  others := []
  log := []
  nextUid := 0
  delivered := []

/-- LPP has a packet of the connection on its list, so it owes a call of `post_send`. -/
def macOwes (s : Node) : Bool := s.lppPacket.isSome

/-- `if(q != NULL) queuebuf_free(q)`. -/
def freeIfSet (p : QueuebufPool) (q : Option QueuebufPtr) : QueuebufPool :=
  match q with
  | some b => queuebufFree p b
  | none => p

end Node

/-! ### Announcements -/

/-- A 16-bit value in memory, low byte first. -/
def le16 (v : UInt16) : List UInt8 :=
  [UInt8.ofNat (v.toNat % 256), UInt8.ofNat (v.toNat / 256)]

/-- The 16-bit value at an offset of the payload. -/
def readLe16 (data : List UInt8) (i : Nat) : UInt16 :=
  UInt16.ofNat ((data.getD i 0).toNat + 256 * (data.getD (i + 1) 0).toNat)

/-- `struct announcement_msg` with one announcement: the number, the id and the value. -/
def announcementMsg (id value : UInt16) : List UInt8 := le16 1 ++ le16 id ++ le16 value

/-- `ipolite_send` with a non-zero interval: a packet that still waits is given up. -/
def ipoliteSend (s : Node) (hdrsize : UInt8) : Node :=
  let new := queuebufNewFromPacketbuf (Node.freeIfSet s.pool s.ipolite.q) s.packetbuf
  { s with pool := new.2, ipolite := ⟨new.1, hdrsize, s.ipolite.timer || new.1.isSome⟩ }

/-- `send_adv`: the announcement goes into a cleared packet buffer. -/
def sendAdv (C : NodeConf) (s : Node) : Node :=
  let pb := { Packetbuf.clear with data := announcementMsg C.channels s.conn.announcement }
  ipoliteSend { s with packetbuf := pb } (UInt8.ofNat pb.datalen)

/-- `announcement_set_value`. Its observer sends the announcement at once. -/
def announcementSetValue (C : NodeConf) (s : Node) (value : UInt16) : Node :=
  sendAdv C { s with conn := { s.conn with announcement := value } }

/-- `send` of `ipolite.c`, when its timer expires. `pb` is the packet buffer that the
broadcast leaves. -/
def ipoliteTimer (s : Node) (pb : Packetbuf) : Node :=
  match s.ipolite.q with
  | some b =>
    { s with
      pool := queuebufFree s.pool b
      packetbuf := pb
      ipolite := { s.ipolite with q := none, timer := false } }
  | none => { s with ipolite := { s.ipolite with timer := false } }

/-- The test in `recv` of `ipolite.c`: the received payload is the waiting packet. -/
def isOwnCopy (s : Node) (b : QueuebufPtr) : Bool :=
  let own := (s.pool.bufmem.block b).data
  let n := min s.ipolite.hdrsize.toNat s.packetbuf.datalen
  s.packetbuf.datalen = own.length && s.packetbuf.data.take n = own.take n

/-- The part of `recv` of `ipolite.c` before the callback: hearing a copy of the waiting
packet gives it up. -/
def ipoliteRecv (s : Node) : Node :=
  match s.ipolite.q with
  | some b =>
    if isOwnCopy s b then
      { s with
        pool := queuebufFree s.pool b
        ipolite := { s.ipolite with q := none, timer := false } }
    else s
  | none => s

/-! ### A received announcement in memory -/

/-- The memory around a message: the byte at each distance from its start. An address has 16
bits, so distances below zero are large ones. -/
abbrev Memory : Type := UInt16 → UInt8

namespace Memory

/-- The 16-bit value at a distance, low byte first. -/
def read16 (m : Memory) (i : UInt16) : UInt16 :=
  UInt16.ofNat ((m i).toNat + 256 * (m (i + 1)).toNat)

/-- The memory after the bytes have been copied to a distance. -/
def write (m : Memory) (start : UInt16) (data : List UInt8) : Memory :=
  fun i => data.getD (i - start).toNat (m i)

end Memory

/-- `ANNOUNCEMENT_MSG_HEADERLEN`. -/
abbrev announcementMsgHeaderlen : Nat := 2

/-- `sizeof(struct announcement_data)`. -/
abbrev announcementDataSize : Nat := 4

section AdvPacketReceived

variable {σ : Type} (adata : σ → Memory) (heard : σ → UInt16 → UInt16 → σ)

/-- The loop of `adv_packet_received` from the turn `i` on. Every turn reads the number and its
entry from the memory again, and `heard` is `announcement_heard`, whose callback can have
changed that memory. The first argument bounds the number of turns. -/
def advLoop : Nat → UInt16 → σ → σ
  | 0, _, s => s
  | turns + 1, i, s =>
    if i < (adata s).read16 0 then
      let entry := UInt16.ofNat announcementMsgHeaderlen +
        UInt16.ofNat announcementDataSize * i
      advLoop turns (i + 1)
        (heard s ((adata s).read16 entry) ((adata s).read16 (entry + 2)))
    else s

/-- `adv_packet_received`: a message with one announcement only. The number has 16 bits, so
65536 turns are never over before the loop is (`advLoop_turns`). -/
def advPacketReceived (s : σ) : σ :=
  if (adata s).read16 0 = 1 then advLoop adata heard 65536 0 s else s

end AdvPacketReceived

end PTunes.Rime
