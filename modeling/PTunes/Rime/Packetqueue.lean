import PTunes.Rime.Queuebuf

/-!
# `PTunes.Rime.Packetqueue`: the forwarding queue (`core/net/rime/packetqueue.c`)

A queue is a pool of 50 items (`MAX_FORWARDING_QUEUE`) and the list of the items in use.
Each item points to a queue buffer of the shared pool. relcollect gives every item the
lifetime zero (`FORWARD_PACKET_LIFETIME`), so no item has a timer, and the same `ptr`, the
connection, so the item does not record it.

The field `uid` is no field of the source. It numbers the enqueued packets, so that a
statement can name one of them.
-/

set_option autoImplicit false

namespace PTunes.Rime

open PTunes.Core

/-- `MAX_FORWARDING_QUEUE`. -/
abbrev maxForwardingQueue : Nat := 50

/-- A non-`NULL` `struct packetqueue_item *`. -/
abbrev PacketqueueItemPtr := Fin maxForwardingQueue

/-- `struct packetqueue_item`, without its link, and the number of its packet. -/
structure PacketqueueItem where
  buf : Option QueuebufPtr
  enqueueTime : UInt16
  uid : Nat
deriving Inhabited

/-- `struct packetqueue`: the pool of items and the list. -/
structure Packetqueue where
  memb : Memb PacketqueueItem maxForwardingQueue
  list : List PacketqueueItemPtr

/-- `PACKETQUEUE`: a queue in zeroed memory. -/
def Packetqueue.zero : Packetqueue where
  memb := Memb.membInit ⟨none, 0, 0⟩
  list := []

/-- `packetqueue_enqueue_packetbuf`. The packet gets the number `uid`. -/
def packetqueueEnqueuePacketbuf (q : Packetqueue) (p : QueuebufPool) (pb : Packetbuf)
    (clockTime : UInt16) (uid : Nat) : Bool × Packetqueue × QueuebufPool :=
  match q.memb.membAlloc with
  | none => (false, q, p)
  | some (i, m) =>
    match queuebufNewFromPacketbuf p pb with
    | (none, p) =>
      (false, { q with memb := (m.write i { m.block i with buf := none }).membFree i }, p)
    | (some b, p) =>
      (true, { memb := m.write i ⟨some b, clockTime, uid⟩, list := q.list ++ [i] }, p)

/-- `packetqueue_first`. -/
def packetqueueFirst (q : Packetqueue) : Option PacketqueueItemPtr := q.list.head?

/-- `packetqueue_queuebuf`. -/
def packetqueueQueuebuf (q : Packetqueue) (i : PacketqueueItemPtr) : Option QueuebufPtr :=
  (q.memb.block i).buf

/-- `get_enqueue_time`. -/
def getEnqueueTime (q : Packetqueue) (i : PacketqueueItemPtr) : UInt16 :=
  (q.memb.block i).enqueueTime

/-- `get_queue_size`. -/
def getQueueSize (q : Packetqueue) : Nat := q.list.length

/-- `packetqueue_dequeue`: the head and its buffer are freed. -/
def packetqueueDequeue (q : Packetqueue) (p : QueuebufPool) : Packetqueue × QueuebufPool :=
  match q.list with
  | [] => (q, p)
  | i :: rest =>
    ({ memb := q.memb.membFree i, list := rest },
      match (q.memb.block i).buf with
      | some b => queuebufFree p b
      | none => p)

namespace Packetqueue

/-- The queue buffers of the queued items, in queue order. -/
def bufs (q : Packetqueue) : List QueuebufPtr :=
  q.list.filterMap fun i => (q.memb.block i).buf

/-- The numbers of the queued packets, in queue order. -/
def uids (q : Packetqueue) : List Nat := q.list.map fun i => (q.memb.block i).uid

/-- The list holds exactly the allocated items, and each of them has a buffer. -/
structure Inv (q : Packetqueue) : Prop where
  owns : Memb.Owns q.memb q.list
  buf : ∀ i ∈ q.list, ∃ b, (q.memb.block i).buf = some b

/-- The memory of a queue before `packetqueue_init`: no item is allocated and none is in the
list. -/
theorem inv_zero : Inv Packetqueue.zero where
  owns := Memb.owns_membInit _
  buf i hi := by cases hi

/-- A function of the queued items does not see a write to an item off the list. -/
theorem map_block_write {α : Type} (m : Memb PacketqueueItem maxForwardingQueue)
    {i : PacketqueueItemPtr} {l : List PacketqueueItemPtr} (hi : i ∉ l) (a : PacketqueueItem)
    (f : PacketqueueItem → α) :
    l.map (fun j => f ((m.write i a).block j)) = l.map (fun j => f (m.block j)) := by
  refine List.map_congr_left fun j hj => ?_
  rw [Memb.block_write_ne]
  exact fun hc => hi (hc ▸ hj)

/-- The buffers of a queue are the buffers of its items. -/
theorem bufs_eq (q : Packetqueue) :
    q.bufs = (q.list.map fun i => (q.memb.block i).buf).filterMap id := by
  rw [bufs, List.filterMap_map]
  rfl

/-- What `packetqueue_enqueue_packetbuf` does to the queue and the pool: the packet and a
fresh buffer are appended, or nothing changes that anybody sees. -/
theorem enqueue_cases {q : Packetqueue} {p : QueuebufPool} {owned : List QueuebufPtr}
    (hq : Inv q) (hp : p.Owns owned) (pb : Packetbuf) (clockTime : UInt16) (uid : Nat) :
    (∃ q' p' b, packetqueueEnqueuePacketbuf q p pb clockTime uid = (true, q', p') ∧ Inv q' ∧
      q'.uids = q.uids ++ [uid] ∧ q'.bufs = q.bufs ++ [b] ∧ p'.Owns (b :: owned) ∧
      ∀ j ∈ owned, p'.bufmem.block j = p.bufmem.block j) ∨
    (∃ q', packetqueueEnqueuePacketbuf q p pb clockTime uid = (false, q', p) ∧ Inv q' ∧
      q'.uids = q.uids ∧ q'.bufs = q.bufs) := by
  unfold packetqueueEnqueuePacketbuf
  cases ha : q.memb.membAlloc with
  | none => exact Or.inr ⟨q, rfl, hq, rfl, rfl⟩
  | some r =>
      obtain ⟨i, m⟩ := r
      obtain ⟨hi, hm⟩ := hq.owns.alloc ha
      -- The allocation leaves the contents of all items in place.
      obtain ⟨_, rfl⟩ := Memb.membAlloc_some ha
      rcases hp.new_cases pb with ⟨b, p', hnew, hp', _, hblock⟩ | ⟨_, hnew⟩
      · simp only [hnew]
        refine Or.inl ⟨_, p', b, rfl, ⟨?_, ?_⟩, ?_, ?_, hp', hblock⟩
        · exact (hm.write _).perm (List.perm_append_singleton i q.list).symm
        · intro j hj
          by_cases hij : i = j
          · subst hij
            exact ⟨b, by rw [Memb.block_write_self]⟩
          · rw [Memb.block_write_ne _ _ hij]
            have hmem : j ∈ q.list := by
              simpa [Ne.symm hij] using hj
            exact hq.buf j hmem
        · show List.map _ (q.list ++ [i]) = _
          rw [List.map_append, map_block_write _ hi _ PacketqueueItem.uid]
          simp only [List.map_cons, List.map_nil, Memb.block_write_self]
          rfl
        · rw [bufs_eq, bufs_eq]
          show ((q.list ++ [i]).map _).filterMap id = _
          rw [List.map_append, map_block_write _ hi _ PacketqueueItem.buf,
            List.filterMap_append]
          simp only [List.map_cons, List.map_nil, Memb.block_write_self]
          rfl
      · simp only [hnew]
        refine Or.inr ⟨_, rfl, ⟨(hm.write _).free, ?_⟩, ?_, ?_⟩
        · intro j hj
          have hij : i ≠ j := fun hc => hi (hc ▸ hj)
          rw [Memb.block_membFree, Memb.block_write_ne _ _ hij]
          exact hq.buf j hj
        · show List.map _ q.list = _
          simp only [Memb.block_membFree]
          exact map_block_write _ hi _ PacketqueueItem.uid
        · rw [bufs_eq, bufs_eq]
          simp only [Memb.block_membFree]
          rw [map_block_write _ hi _ PacketqueueItem.buf]
          rfl

/-- What `packetqueue_dequeue` does: the head and its buffer go. -/
theorem dequeue_cons {q : Packetqueue} {p : QueuebufPool} {i : PacketqueueItemPtr}
    {rest : List PacketqueueItemPtr} (hq : Inv q) (hl : q.list = i :: rest) :
    ∃ q' b, packetqueueDequeue q p = (q', queuebufFree p b) ∧ Inv q' ∧
      q.uids = (q.memb.block i).uid :: q'.uids ∧ q.bufs = b :: q'.bufs := by
  have hi : i ∈ q.list := by
    rw [hl]
    exact List.mem_cons_self
  obtain ⟨b, hb⟩ := hq.buf i hi
  have howns : Memb.Owns q.memb (i :: rest) := hl ▸ hq.owns
  refine ⟨{ memb := q.memb.membFree i, list := rest }, b, ?_, ⟨howns.free, ?_⟩, ?_, ?_⟩
  · simp only [packetqueueDequeue, hl, hb]
  · intro j hj
    rw [Memb.block_membFree]
    refine hq.buf j ?_
    rw [hl]
    exact List.mem_cons_of_mem i hj
  · simp only [uids, hl, List.map_cons, Memb.block_membFree]
  · simp only [bufs, hl, List.filterMap_cons, hb, Memb.block_membFree]

end Packetqueue

end PTunes.Rime
