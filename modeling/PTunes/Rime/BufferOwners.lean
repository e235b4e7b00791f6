import Mathlib.Data.Fintype.Basic
import PTunes.Rime.Relcollect

/-!
# `PTunes.Rime.BufferOwners`: who owns the queue buffers of a node

The queue buffers of a node belong to three kinds of owners: the items of the forwarding
queue, the relunicast connections, and the other protocols. `BufferOwners ι` is the pool
with all of them. The connections are those of the type `ι`, any number of them, and each
starts in zeroed memory. A relcollect connection is one of them: `relcollect_open` and
`relcollect_close` do to it what `relunicast_open` and `relunicast_close` do.

An action of the machine is one operation on one owner. They come in any order, so a
connection can be closed and opened again at any time. `relunicast_open` does not set the
field `buf`, and `relunicast_close` frees the block without a reset of the field. `stale`
is no variable of the source. It marks the connections whose `buf` is left over from
`relunicast_close`.

The items have the lifetime zero (`FORWARD_PACKET_LIFETIME`), so `remove_queued_packet`
never runs.
-/

set_option autoImplicit false

namespace PTunes.Rime

/-- An owner of queue buffers. -/
inductive BufferOwner (ι : Type)
  /-- The field `buf` of a relunicast connection. -/
  | conn (i : ι)
  /-- The field `buf` of an item in the forwarding queue. -/
  | item (k : PacketqueueItemPtr)
  /-- The other protocols on the node. -/
  | other
deriving DecidableEq

/-- An operation on one owner. -/
inductive BufferAction (ι : Type)
  /-- `relunicast_open`, also called by `relcollect_open`. -/
  | open_ (i : ι)
  /-- `relunicast_send` of the packet that is in the packet buffer. -/
  | send (i : ι) (env : Env) (pb : Packetbuf) (receiver : RimeAddr)
      (maxRetransmissions : UInt8) (esender : RimeAddr)
  /-- The timer expires, and the packet is handed to the MAC. -/
  | transmit (i : ι)
  /-- `schedule_send`, when the packet was not acknowledged. -/
  | schedule (i : ι)
  /-- A transmission is over: it was acknowledged or given up. -/
  | complete (i : ι)
  /-- `relunicast_close`, also called by `relcollect_close`. -/
  | close (i : ι)
  /-- `packetqueue_enqueue_packetbuf` on the forwarding queue. -/
  | enqueue (pb : Packetbuf) (clockTime : UInt16) (uid : Nat)
  /-- `packetqueue_dequeue` on the forwarding queue. -/
  | dequeue
  /-- Another protocol asks for a queue buffer. -/
  | otherNew (pb : Packetbuf)
  /-- Another protocol gives back a queue buffer that it holds. -/
  | otherFree (b : QueuebufPtr)

/-- The pool of queue buffers and its owners. -/
structure BufferOwners (ι : Type) where
  pool : QueuebufPool
  queue : Packetqueue
  conns : ι → RelunicastConn
  others : List QueuebufPtr
  stale : ι → Bool

namespace BufferOwners

variable {ι : Type} [DecidableEq ι]

/-- Zeroed memory, after `queuebuf_init`. -/
def boot : BufferOwners ι where
  pool := queuebufInit
  queue := Packetqueue.zero
  conns _ := Node.boot.relunicast
  others := []
  stale _ := false

/-- The connection `i` becomes `c`. -/
def setConn (s : BufferOwners ι) (i : ι) (c : RelunicastConn) : BufferOwners ι :=
  { s with conns := Function.update s.conns i c }

/-- What `relunicast_send` reads: the pool, the packet buffer and the connection. -/
def sendNode (s : BufferOwners ι) (i : ι) (pb : Packetbuf) : Node :=
  { Node.boot with pool := s.pool, packetbuf := pb, relunicast := s.conns i }

/-- `relunicast_send` on the connection `i`. The field `buf` gets a new value unless a
packet is in transmission. -/
def send (C : NodeConf) (s : BufferOwners ι) (i : ι) (env : Env) (pb : Packetbuf)
    (receiver : RimeAddr) (maxRetransmissions : UInt8) (esender : RimeAddr) : BufferOwners ι :=
  let node := (relunicastSend C env (s.sendNode i pb) receiver maxRetransmissions esender).2
  { s with
    pool := node.pool
    conns := Function.update s.conns i node.relunicast
    stale := if (s.conns i).isTx then s.stale else Function.update s.stale i false }

/-- `relunicast_close` on the connection `i`. -/
def close (s : BufferOwners ι) (i : ι) : BufferOwners ι :=
  let r := relunicastClose s.pool (s.conns i)
  { s with
    pool := r.1
    conns := Function.update s.conns i r.2
    stale := Function.update s.stale i (s.conns i).buf.isSome }

/-- `packetqueue_enqueue_packetbuf` on the forwarding queue. -/
def enqueue (s : BufferOwners ι) (pb : Packetbuf) (clockTime : UInt16) (uid : Nat) :
    BufferOwners ι :=
  let r := packetqueueEnqueuePacketbuf s.queue s.pool pb clockTime uid
  { s with queue := r.2.1, pool := r.2.2 }

/-- `packetqueue_dequeue` on the forwarding queue. -/
def dequeue (s : BufferOwners ι) : BufferOwners ι :=
  let r := packetqueueDequeue s.queue s.pool
  { s with queue := r.1, pool := r.2 }

/-- Another protocol asks for a queue buffer. -/
def otherNew (s : BufferOwners ι) (pb : Packetbuf) : BufferOwners ι :=
  match queuebufNewFromPacketbuf s.pool pb with
  | (some b, pool) => { s with pool := pool, others := b :: s.others }
  | (none, pool) => { s with pool := pool }

/-- Another protocol gives back a queue buffer. -/
def otherFree (s : BufferOwners ι) (b : QueuebufPtr) : BufferOwners ι :=
  { s with pool := queuebufFree s.pool b, others := s.others.erase b }

/-- The operations. Another protocol gives back only what it holds. -/
def step (C : NodeConf) (s : BufferOwners ι) : BufferAction ι → Option (BufferOwners ι)
  | .open_ i => some (s.setConn i (relunicastOpen (s.conns i)))
  | .send i env pb receiver maxRetransmissions esender =>
    some (s.send C i env pb receiver maxRetransmissions esender)
  | .transmit i =>
    let c := s.conns i
    some (s.setConn i { c with rxmit := c.rxmit + 1, timer := false })
  | .schedule i => some (s.setConn i { s.conns i with timer := true })
  | .complete i => some (s.setConn i (Relunicast.finish (s.conns i)))
  | .close i => some (s.close i)
  | .enqueue pb clockTime uid => some (s.enqueue pb clockTime uid)
  | .dequeue => some s.dequeue
  | .otherNew pb => some (s.otherNew pb)
  | .otherFree b => if b ∈ s.others then some (s.otherFree b) else none

/-- The node and its owners as a machine. -/
def machine (ι : Type) [DecidableEq ι] (C : NodeConf) :
    Machine (BufferOwners ι) (BufferAction ι) where
  init := boot
  step := step C

/-! ### The property -/

/-- The block that an operation passes to `queuebuf_free`, with the owner that gives it up. -/
def frees (s : BufferOwners ι) : BufferAction ι → Option (BufferOwner ι × QueuebufPtr)
  | .send i _ _ _ _ _ =>
    if (s.conns i).isTx then none else (s.conns i).buf.map fun b => (.conn i, b)
  | .close i => (s.conns i).buf.map fun b => (.conn i, b)
  | .dequeue =>
    (packetqueueFirst s.queue).bind fun k =>
      (packetqueueQueuebuf s.queue k).map fun b => (.item k, b)
  | .otherFree b => some (.other, b)
  | _ => none

/-- An owner refers to a block. -/
def Refers (s : BufferOwners ι) : BufferOwner ι → QueuebufPtr → Prop
  | .conn i, b => (s.conns i).buf = some b
  | .item k, b => k ∈ s.queue.list ∧ packetqueueQueuebuf s.queue k = some b
  | .other, b => b ∈ s.others

/-- A block that is freed is allocated, and no other owner refers to it. -/
def FreesOwn (s : BufferOwners ι) (a : BufferAction ι) : Prop :=
  ∀ f ∈ s.frees a, s.pool.bufmem.count[f.2] ≠ 0 ∧ ∀ o, o ≠ f.1 → ¬ s.Refers o f.2

/-- `queuebuf_len` is the number of allocated blocks. -/
def LenCounts (s : BufferOwners ι) : Prop :=
  s.pool.queuebufLen.toNat = s.pool.bufmem.allocated

/-- No operation frees a block to which the `buf` of a closed connection is left over. -/
def FreesNoStale (s : BufferOwners ι) (a : BufferAction ι) : Prop :=
  ∀ f ∈ s.frees a, ∀ i, s.stale i = true → (s.conns i).buf ≠ some f.2

instance [Fintype ι] (s : BufferOwners ι) (a : BufferAction ι) : Decidable (s.FreesNoStale a) :=
  inferInstanceAs (Decidable
    (∀ f ∈ s.frees a, ∀ i, s.stale i = true → (s.conns i).buf ≠ some f.2))

end BufferOwners

end PTunes.Rime
