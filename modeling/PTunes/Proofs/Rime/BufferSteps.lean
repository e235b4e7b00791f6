import PTunes.Proofs.Rime.BufferOwners
import PTunes.Proofs.Rime.Events

/-!
# `PTunes.Proofs.Rime.BufferSteps`: a relcollect node as a run of buffer operations

The machine `BufferOwners` has single operations. The handlers of a relcollect node consist
of them: `OwnersOf i s o` says that `o` has the pool, the queue and the other owners of the
node `s`, whose relunicast connection is `i`, and `Covers C i s s'` says that the way from
`s` to `s'` is a sequence of operations.

The module goes through the functions of the node from the inside out: the calls of
`queuebuf.c` and `packetqueue.c`, the announcements and the route update,
`rel_send_queued_packet`, and the events. Each function has one lemma, and a caller uses the
lemmas of the functions it calls with `Covers.trans`.

Main results:

* `handle_covers`: every handler is such a sequence.
* `exists_owners_of_reachable`: every reachable node belongs to a run of the operations that
  frees no block with a left-over pointer, since the node never closes its connection.
-/

set_option autoImplicit false

namespace PTunes.Rime

open BufferOwners

variable {ι : Type} [DecidableEq ι] {C : NodeConf} {i : ι} {s s' s'' : Node}

/-- The queue buffers that count among the other protocols: that of a waiting announcement,
that of the connection's packet on LPP's list, and those of the protocols that the node does
not model. -/
def Node.otherBufs (s : Node) : List QueuebufPtr :=
  s.ipolite.q.toList ++ (s.lppPacket.toList ++ s.others)

/-- The owners of the queue buffers of a node with the connection `i`. The others may come in
any order. No pointer is left over, because a node never closes its connection. -/
structure OwnersOf (i : ι) (s : Node) (o : BufferOwners ι) : Prop where
  pool : o.pool = s.pool
  queue : o.queue = s.queue
  conn : o.conns i = s.relunicast
  others : o.others.Perm s.otherBufs
  fresh : ∀ j, o.stale j = false

omit [DecidableEq ι] in
/-- Without a left-over pointer no operation frees a block through one. So the condition on the
runs of `BufferOwners` holds of every operation from such a state. -/
theorem OwnersOf.freesNoStale {o : BufferOwners ι} (h : OwnersOf i s o)
    (a : BufferAction ι) : o.FreesNoStale a := by
  intro _ _ j hj
  rw [h.fresh j] at hj
  cases hj

/-- From every run that ends with the owners of `s`, more operations lead to those of
`s'`. -/
def Covers (C : NodeConf) (i : ι) (s s' : Node) : Prop :=
  ∀ o, (machine ι C).ReachableIf FreesNoStale o → OwnersOf i s o →
    ∃ o', (machine ι C).ReachableIf FreesNoStale o' ∧ OwnersOf i s' o'

/-- Two sequences of operations make one. This is how the lemma of a function is put together
from those of the functions that it calls. -/
theorem Covers.trans (h : Covers C i s s') (h' : Covers C i s' s'') : Covers C i s s'' := by
  intro o hreach ho
  obtain ⟨o', hreach', ho'⟩ := h o hreach ho
  exact h' o' hreach' ho'

/-- No operation is needed when the pool and its owners stay. The four equations are the fields
of `OwnersOf` but the left-over pointers. -/
theorem Covers.of_same (hp : s'.pool = s.pool) (hq : s'.queue = s.queue)
    (hr : s'.relunicast = s.relunicast) (ho : s'.otherBufs = s.otherBufs) : Covers C i s s' := by
  intro o hreach h
  refine ⟨o, hreach, ?_, ?_, ?_, ?_, h.fresh⟩
  · rw [hp, h.pool]
  · rw [hq, h.queue]
  · rw [hr, h.conn]
  · rw [ho]
    exact h.others

/-- A sequence of operations can start at any node with the same pool and owners. A handler
that only prepares the packet buffer or the table before a call uses it. -/
theorem Covers.from_same (h : Covers C i s' s'') (hp : s'.pool = s.pool)
    (hq : s'.queue = s.queue) (hr : s'.relunicast = s.relunicast)
    (ho : s'.otherBufs = s.otherBufs) : Covers C i s s'' :=
  (Covers.of_same hp hq hr ho).trans h

/-- One operation. The caller names it, and shows that it leads from the owners of `s` to those
of `s'`. -/
theorem Covers.of_step (a : BufferAction ι)
    (h : ∀ o, OwnersOf i s o → ∃ o', o.step C a = some o' ∧ OwnersOf i s' o') :
    Covers C i s s' := by
  intro o hreach ho
  obtain ⟨o', hst, ho'⟩ := h o ho
  exact ⟨o', .step hreach (ho.freesNoStale a) hst, ho'⟩

/-! ### The operations -/

/-- An operation that changes the connection only. The fields of the connection are no owners
of a buffer, apart from `buf`, which such an operation keeps. -/
theorem Covers.of_setConn (a : BufferAction ι) (c : RelunicastConn)
    (hst : ∀ o : BufferOwners ι, o.conns i = s.relunicast →
      o.step C a = some (o.setConn i c)) : Covers C i s { s with relunicast := c } := by
  refine Covers.of_step a fun o h => ⟨_, hst o h.conn, h.pool, h.queue, ?_, h.others, h.fresh⟩
  exact Function.update_self i c o.conns

/-- `relunicast_send` reads the pool, the packet buffer and the connection, and changes
nothing else. -/
theorem relunicastSend_frame {t : Node} (hp : t.pool = s.pool)
    (hpb : t.packetbuf = s.packetbuf) (hr : t.relunicast = s.relunicast) (env : Env)
    (receiver : RimeAddr) (maxRetransmissions : UInt8) (esender : RimeAddr) :
    (relunicastSend C env t receiver maxRetransmissions esender).2 =
      let r := (relunicastSend C env s receiver maxRetransmissions esender).2
      { t with pool := r.pool, packetbuf := r.packetbuf, relunicast := r.relunicast } := by
  cases htx : s.relunicast.isTx with
  | true =>
      simp only [relunicastSend, hr, htx, if_true]
      rw [← hp, ← hpb, ← hr]
  | false =>
      simp only [relunicastSend, hp, hpb, hr, htx, Bool.false_eq_true, if_false]
      rcases queuebufNewFromPacketbuf (Node.freeIfSet s.pool s.relunicast.buf)
        (s.packetbuf.setAttr .packetId s.relunicast.sndnxt.toUInt16) with ⟨_ | b, p⟩
      · rfl
      · rfl

/-- `relunicast_send` is the operation `send` on the connection, whether it finds a buffer or
not. It ends the life of a left-over pointer, and there is none. -/
theorem covers_relunicastSend (env : Env) (receiver : RimeAddr) (maxRetransmissions : UInt8)
    (esender : RimeAddr) :
    Covers C i s (relunicastSend C env s receiver maxRetransmissions esender).2 := by
  refine Covers.of_step (.send i env s.packetbuf receiver maxRetransmissions esender)
    fun o h => ⟨_, rfl, ?_⟩
  have hnode := relunicastSend_frame (C := C) (t := o.sendNode i s.packetbuf) h.pool rfl h.conn
    env receiver maxRetransmissions esender
  have hself := relunicastSend_frame (C := C) (s := s) (t := s) rfl rfl rfl env receiver
    maxRetransmissions esender
  -- Both calls come to the same pool and connection, so only `stale` is left to compare.
  rw [hself, send, hnode]
  refine ⟨rfl, h.queue, Function.update_self i _ o.conns, h.others, fun j => ?_⟩
  show (if (o.conns i).isTx then o.stale else Function.update o.stale i false) j = false
  split
  · exact h.fresh j
  · by_cases hj : j = i
    · subst hj
      exact Function.update_self j false o.stale
    · rw [Function.update_of_ne hj]
      exact h.fresh j

/-- `packetqueue_enqueue_packetbuf` is the operation `enqueue`. A packet that finds no room
leaves the owners as they are. -/
theorem covers_enqueueForwarding (env : Env) : Covers C i s (enqueueForwarding env s).2 := by
  refine Covers.of_step (.enqueue s.packetbuf env.clockTime s.nextUid) fun o h => ⟨_, rfl, ?_⟩
  rw [BufferOwners.enqueue, h.queue, h.pool, enqueueForwarding]
  rcases packetqueueEnqueuePacketbuf s.queue s.pool s.packetbuf env.clockTime s.nextUid with
    ⟨_ | _, q, p⟩
  · exact ⟨rfl, rfl, h.conn, h.others, h.fresh⟩
  · exact ⟨rfl, rfl, h.conn, h.others, h.fresh⟩

/-- `packetqueue_dequeue` is the operation `dequeue`, which does nothing on an empty queue. -/
theorem covers_dequeueForwarding : Covers C i s (dequeueForwarding s) := by
  refine Covers.of_step .dequeue fun o h => ⟨_, rfl, ?_⟩
  rw [BufferOwners.dequeue, h.queue, h.pool]
  exact ⟨rfl, rfl, h.conn, h.others, h.fresh⟩

/-- A buffer that counts among the other protocols is given back. Any occurrence of the block
can go, so the rest is the same up to order. -/
theorem covers_free {b : QueuebufPtr} (hb : s.otherBufs.Perm (b :: s'.otherBufs))
    (hp : s'.pool = queuebufFree s.pool b) (hq : s'.queue = s.queue)
    (hr : s'.relunicast = s.relunicast) : Covers C i s s' := by
  refine Covers.of_step (.otherFree b) fun o h => ⟨o.otherFree b, ?_, ?_⟩
  · have hmem : b ∈ o.others := by
      rw [h.others.mem_iff, hb.mem_iff]
      exact List.mem_cons_self
    simp only [BufferOwners.step, hmem, if_true]
  · refine ⟨?_, ?_, ?_, ?_, h.fresh⟩
    · rw [hp, BufferOwners.otherFree, h.pool]
    · rw [hq]
      exact h.queue
    · rw [hr]
      exact h.conn
    · have hperm := (h.others.trans hb).erase b
      rw [List.erase_cons_head] at hperm
      exact hperm

/-- A new buffer for another protocol is the operation `otherNew`, whatever protocol it is. -/
theorem covers_new {b : QueuebufPtr} {p : QueuebufPool} {pb : Packetbuf}
    (hnew : queuebufNewFromPacketbuf s.pool pb = (some b, p)) (hp : s'.pool = p)
    (hq : s'.queue = s.queue) (hr : s'.relunicast = s.relunicast)
    (ho : s'.otherBufs.Perm (b :: s.otherBufs)) : Covers C i s s' := by
  refine Covers.of_step (.otherNew pb) fun o h => ⟨_, rfl, ?_⟩
  rw [BufferOwners.otherNew, h.pool, hnew]
  refine ⟨hp.symm, ?_, ?_, (h.others.cons b).trans ho.symm, h.fresh⟩
  · rw [hq]
    exact h.queue
  · rw [hr]
    exact h.conn

/-- A call of `queuebuf_new_from_packetbuf` that finds no buffer is the operation `otherNew`
too. It leaves the owners as they are. -/
theorem covers_new_none {p : QueuebufPool} {pb : Packetbuf}
    (hnew : queuebufNewFromPacketbuf s.pool pb = (none, p)) (hp : s'.pool = p)
    (hq : s'.queue = s.queue) (hr : s'.relunicast = s.relunicast)
    (ho : s'.otherBufs = s.otherBufs) : Covers C i s s' := by
  refine Covers.of_step (.otherNew pb) fun o h => ⟨_, rfl, ?_⟩
  rw [BufferOwners.otherNew, h.pool, hnew]
  refine ⟨hp.symm, ?_, ?_, ?_, h.fresh⟩
  · rw [hq]
    exact h.queue
  · rw [hr]
    exact h.conn
  · rw [ho]
    exact h.others

/-- The waiting announcement is given up, and more changes that concern no owner. -/
theorem covers_dropAdv {b : QueuebufPtr} (hb : s.ipolite.q = some b)
    (hp : s'.pool = queuebufFree s.pool b) (hq : s'.queue = s.queue)
    (hr : s'.relunicast = s.relunicast) (ha : s'.ipolite.q = none)
    (hl : s'.lppPacket = s.lppPacket) (ho : s'.others = s.others) : Covers C i s s' := by
  refine covers_free ?_ hp hq hr
  rw [Node.otherBufs, Node.otherBufs, hb, ha, hl, ho]
  exact .refl _

/-- A packet that may wait is given up. -/
theorem covers_freeIfSet : Covers C i s { s with
    pool := Node.freeIfSet s.pool s.ipolite.q, ipolite := { s.ipolite with q := none } } := by
  cases hb : s.ipolite.q with
  | none =>
      refine Covers.of_same rfl rfl rfl ?_
      rw [Node.otherBufs, Node.otherBufs, hb]
  | some b => exact covers_dropAdv hb rfl rfl rfl rfl rfl rfl

/-- `ipolite_send` is two operations: the packet that waits is freed first, then the new one
gets a block. -/
theorem covers_ipoliteSend (hdrsize : UInt8) : Covers C i s (ipoliteSend s hdrsize) := by
  refine covers_freeIfSet.trans ?_
  rw [ipoliteSend]
  rcases hnew : queuebufNewFromPacketbuf (Node.freeIfSet s.pool s.ipolite.q) s.packetbuf with
    ⟨_ | b, p⟩
  · exact covers_new_none hnew rfl rfl rfl rfl
  · exact covers_new hnew rfl rfl rfl (.refl _)

/-- Another protocol asks for a buffer. The new block is not at the head of the list, since
those of the node come first. -/
theorem covers_otherNew (pb : Packetbuf) : Covers C i s (otherNew s pb) := by
  rw [otherNew]
  rcases hnew : queuebufNewFromPacketbuf s.pool pb with ⟨_ | b, p⟩
  · exact covers_new_none hnew rfl rfl rfl rfl
  · refine covers_new hnew rfl rfl rfl ?_
    exact (List.perm_middle.append_left _).trans List.perm_middle

/-- Another protocol gives a buffer back. -/
theorem covers_otherFree {b : QueuebufPtr} (hb : b ∈ s.others) :
    Covers C i s (otherFree s b) := by
  refine covers_free ?_ rfl rfl rfl
  have hperm := ((List.perm_cons_erase hb).append_left s.lppPacket.toList).append_left
    s.ipolite.q.toList
  exact hperm.trans ((List.perm_middle.append_left _).trans List.perm_middle)

/-- The queue buffer of the connection's packet is freed when LPP takes the packet off its
list. -/
theorem covers_dropLppPacket :
    Covers C i s { s with pool := Node.freeIfSet s.pool s.lppPacket, lppPacket := none } := by
  cases hb : s.lppPacket with
  | none =>
      refine Covers.of_same rfl rfl rfl ?_
      rw [Node.otherBufs, Node.otherBufs, hb]
  | some b =>
      refine covers_free ?_ rfl rfl rfl
      rw [Node.otherBufs, hb]
      exact List.perm_middle

/-- `send_packet` of LPP asks for a buffer when it has an item for its list. The buffer becomes
that of the connection's packet, of which there is none before, or that of a broadcast. -/
theorem covers_lppSendPacket (hlpp : s.lppPacket = none) (env : Env) :
    Covers C i s (Relunicast.lppSendPacket env s) := by
  rcases lppSendPacket_cases env s with ⟨p, he, hp⟩ | ⟨b, p, _, hnew, hcase⟩
  · rw [he]
    rcases hp with rfl | hnew
    · exact Covers.of_same rfl rfl rfl rfl
    · exact covers_new_none hnew rfl rfl rfl rfl
  · rcases hcase with ⟨_, he⟩ | ⟨_, he⟩ <;> rw [he]
    · refine covers_new hnew rfl rfl rfl ?_
      exact (List.perm_middle.append_left _).trans List.perm_middle
    · refine covers_new hnew rfl rfl rfl ?_
      rw [Node.otherBufs, Node.otherBufs, hlpp]
      exact List.perm_middle

/-! ### Announcements and routes -/

/-- `send_adv` writes the announcement into the packet buffer, and the rest is
`ipolite_send`. -/
theorem covers_sendAdv : Covers C i s (sendAdv C s) := by
  unfold sendAdv
  exact (covers_ipoliteSend _).from_same rfl rfl rfl rfl

/-- `announcement_set_value` has its observer send the announcement. -/
theorem covers_announcementSetValue (value : UInt16) :
    Covers C i s (announcementSetValue C s value) := by
  unfold announcementSetValue
  exact covers_sendAdv.from_same rfl rfl rfl rfl

/-- When the timer of `ipolite.c` expires, the waiting packet is sent and its buffer freed. -/
theorem covers_ipoliteTimer (pb : Packetbuf) : Covers C i s (ipoliteTimer s pb) := by
  unfold ipoliteTimer
  split
  · rename_i b hb
    exact covers_dropAdv hb rfl rfl rfl rfl rfl rfl
  · exact Covers.of_same rfl rfl rfl rfl

/-- Hearing a copy of the waiting announcement gives its buffer back, any other packet leaves
the owners as they are. -/
theorem covers_ipoliteRecv : Covers C i s (ipoliteRecv s) := by
  unfold ipoliteRecv
  split
  · rename_i b hb
    split
    · exact covers_dropAdv hb rfl rfl rfl rfl rfl rfl
    · exact Covers.of_same rfl rfl rfl rfl
  · exact Covers.of_same rfl rfl rfl rfl

/-- The route update before its call of `rel_send_queued_packet`: of its four results the two
that announce a metric take a buffer for the announcement. -/
theorem covers_updateRoute : Covers C i s (updateRoute C s).2 := by
  have hset : ∀ t rtmetric,
      Covers C i s (announcementSetValue C (setRtmetric s t rtmetric) rtmetric) :=
    fun t rtmetric => (covers_announcementSetValue rtmetric).from_same rfl rfl rfl rfl
  rcases updateRoute_cases C s with
    ⟨_, he⟩ | ⟨_, _, he⟩ | ⟨_, _, _, _, _, _, he⟩ | ⟨_, _, _, _, he⟩ <;> rw [he]
  · exact Covers.of_same rfl rfl rfl rfl
  · exact hset _ _
  · exact hset _ _
  · exact Covers.of_same rfl rfl rfl rfl

/-! ### `rel_send_queued_packet` -/

/-- The hand-over of a packet: what it prepares concerns no owner, then `relunicast_send` takes
a buffer or finds none. -/
theorem covers_forwardTo (env : Env) (k : PacketqueueItemPtr) (n : NeighborPtr) :
    Covers C i s (forwardTo C env s k n) := by
  obtain ⟨parentId, parentId', pb, st, hprep⟩ := prepare_eq C env s k n
  -- The state at the call of `relunicast_send`.
  have hcall : Covers C i s { s with
      conn := { s.conn with parentId := parentId, forwarding := true }
      parentId := parentId', packetbuf := pb, stats := st } :=
    Covers.of_same rfl rfl rfl rfl
  have hsend := hcall.trans (covers_relunicastSend env (s.neighbors.get n).addr
    (pb.attr .maxRexmit).toUInt8 (pb.addr .esender))
  simp only [forwardTo, hprep]
  split
  · rename_i t ht
    rw [ht] at hsend
    exact hsend.trans (Covers.of_same rfl rfl rfl rfl)
  · rename_i t ht
    rw [ht] at hsend
    exact hsend

/-- `rel_send_queued_packet` loads the packet and asks for the next hop, which concerns no
owner, before it hands the packet over. -/
theorem covers_relSendQueuedPacket (env : Env) : Covers C i s (relSendQueuedPacket C env s) := by
  unfold relSendQueuedPacket
  split
  · exact Covers.of_same rfl rfl rfl rfl
  · rename_i k q _
    obtain ⟨t, ht⟩ := nextHop_eq C { s with packetbuf := queuebufToPacketbuf s.pool q }
    have hnext : Covers C i s
        (nextHop C { s with packetbuf := queuebufToPacketbuf s.pool q }).2 := by
      rw [ht]
      exact Covers.of_same rfl rfl rfl rfl
    split
    · rename_i t' ht'
      rw [ht'] at hnext
      exact hnext
    · rename_i n t' ht'
      rw [ht'] at hnext
      exact hnext.trans (covers_forwardTo env k n)

/-- A handler that was cut at its call of `rel_send_queued_packet` goes on. -/
theorem covers_sendIf {r : Bool × Node} (env : Env) (h : Covers C i s r.2) :
    Covers C i s (sendIf C env r) := by
  unfold sendIf
  split
  · exact h.trans (covers_relSendQueuedPacket env)
  · exact h

/-- The whole route update. -/
theorem covers_relUpdateRtmetric (env : Env) : Covers C i s (relUpdateRtmetric C env s) :=
  covers_sendIf env covers_updateRoute

/-- A packet is enqueued, or counted as dropped, which concerns no owner. -/
theorem covers_enqueueOrDrop (env : Env) : Covers C i s (enqueueOrDrop env s).2 := by
  unfold enqueueOrDrop
  simp only
  split
  · exact covers_enqueueForwarding env
  · exact (covers_enqueueForwarding env).trans (Covers.of_same rfl rfl rfl rfl)

/-! ### The events -/

/-- The callback at the end of a transmission: the route update, the removal of the packet and
the call of `rel_send_queued_packet`, in this order. -/
theorem covers_completePacket (env env' : Env)
    (etx : NeighborTable → Option NeighborPtr → UInt8 → NeighborTable) (receiver : RimeAddr)
    (retransmissions : UInt8) :
    Covers C i s (completePacket C env env' (noteCompletion etx receiver retransmissions s)) := by
  have hroute : Covers C i s (relUpdateRtmetric C env (noteCompletion etx receiver
      retransmissions s)) :=
    (covers_relUpdateRtmetric env).from_same rfl rfl rfl rfl
  have hdequeue := hroute.trans covers_dequeueForwarding
  exact hdequeue.trans (covers_relSendQueuedPacket env')

/-- The end of a transmission is the operation `complete`. The connection keeps its buffer
until its next `relunicast_send`. -/
theorem covers_finish :
    Covers C i s { s with relunicast := Relunicast.finish s.relunicast } := by
  refine Covers.of_setConn (.complete i) _ fun o ho => ?_
  rw [← ho]
  rfl

/-- A transmission that was acknowledged ends, and the callback `sent` is called. -/
theorem covers_acknowledged (env env' : Env) :
    Covers C i s (Relunicast.acknowledged (relunicastCallbacks C env env') s) :=
  covers_finish.trans (covers_completePacket env env' _ _ _)

/-- A transmission that was given up ends, and the callback `timedout` is called. -/
theorem covers_gaveUp (env env' : Env) :
    Covers C i s (Relunicast.gaveUp (relunicastCallbacks C env env') s) :=
  covers_finish.trans (covers_completePacket env env' _ _ _)

/-- `schedule_send` is the operation `schedule`: it sets the timer and no more. -/
theorem covers_scheduleSend : Covers C i s (scheduleSend s) := by
  refine Covers.of_setConn (.schedule i) _ fun o ho => ?_
  rw [← ho]
  rfl

/-- `post_send` ends the transmission or sets the timer again. -/
theorem covers_postSend (env env' : Env) (acked : Bool) :
    Covers C i s (Relunicast.postSend (relunicastCallbacks C env env') s acked) := by
  unfold Relunicast.postSend
  split
  · exact covers_acknowledged env env'
  · exact covers_scheduleSend

/-- `send` gives up, or it hands the packet to the MAC: X-MAC answers at once, and LPP asks for
a buffer of its own. `hlpp` says that LPP has no packet of the connection yet. -/
theorem covers_send (hlpp : s.lppPacket = none) (env env' : Env)
    (mac : Packetbuf → Packetbuf) (acked : Bool) :
    Covers C i s (Relunicast.send C (relunicastCallbacks C env env') s mac acked
      (Relunicast.lppSendPacket env)) := by
  have htransmit : ∀ pb, Covers C i s { s with
      packetbuf := pb
      relunicast := { s.relunicast with rxmit := s.relunicast.rxmit + 1, timer := false } } := by
    intro pb
    refine (Covers.of_setConn (.transmit i) _ fun o ho => ?_).trans
      (Covers.of_same rfl rfl rfl rfl)
    rw [← ho]
    rfl
  have hsent := htransmit (mac ((Relunicast.loadPacket C s).setAddr .receiver
    s.relunicast.receiver))
  unfold Relunicast.send
  simp only
  split
  · exact covers_gaveUp env env'
  · split
    · split
      · exact hsent.trans (covers_acknowledged env env')
      · exact hsent.trans covers_scheduleSend
    · refine hsent.trans (covers_lppSendPacket ?_ env)
      exact hlpp

/-- `relcollect_open` opens the connection and announces the metric. -/
theorem covers_relcollectOpen : Covers C i s (relcollectOpen C s) := by
  have hopen : Covers C i s { s with relunicast := relunicastOpen s.relunicast } := by
    refine Covers.of_setConn (.open_ i) _ fun o ho => ?_
    rw [← ho]
    rfl
  exact hopen.trans (covers_sendAdv.from_same rfl rfl rfl rfl)

/-- A received packet is delivered, enqueued or ignored. Only the queue takes a buffer. -/
theorem covers_acceptReceived (env : Env) : Covers C i s (acceptReceived env s).2 := by
  unfold acceptReceived
  split
  · exact Covers.of_same rfl rfl rfl rfl
  · split
    · exact covers_enqueueOrDrop env
    · exact Covers.of_same rfl rfl rfl rfl

/-- `rel_node_packet_received`, with and without a route update before the packet is
accepted. -/
theorem covers_relNodePacketReceived (env env' : Env) :
    Covers C i s (relNodePacketReceived C env env' s) := by
  have hnote : Covers C i s (noteRecent s) := Covers.of_same rfl rfl rfl rfl
  unfold relNodePacketReceived
  simp only
  split
  · exact Covers.of_same rfl rfl rfl rfl
  · split
    · exact (hnote.trans (covers_relUpdateRtmetric env)).trans
        (covers_sendIf env' (covers_acceptReceived env'))
    · exact hnote.trans (covers_sendIf env' (covers_acceptReceived env'))

/-- A packet of the application is delivered or enqueued. -/
theorem covers_acceptOwn (env : Env) : Covers C i s (acceptOwn env s).2 := by
  unfold acceptOwn
  split
  · exact Covers.of_same rfl rfl rfl rfl
  · exact (covers_enqueueOrDrop env).from_same rfl rfl rfl rfl

/-- A received announcement: every turn of the loop that finds the id of relcollect is a route
update. -/
theorem covers_recvAdv (sender : RimeAddr) (data : List UInt8) (outside : Nat → Memory)
    (env : Nat → Env) : Covers C i s (recvAdv C s sender data outside env) := by
  refine advPacketReceived_rule (P := fun h : Hearing => Covers C i s h.node) ?_ ?_
  · intro h id value hcovers
    unfold announcementHeard
    split
    · exact hcovers.trans ((covers_relUpdateRtmetric _).from_same rfl rfl rfl rfl)
    · exact hcovers
  · exact covers_ipoliteRecv.from_same rfl rfl rfl rfl

/-- Every handler of a relcollect node is a sequence of operations on the buffers, without the
last call of `rel_send_queued_packet` in `remove_queued_packet`. -/
theorem handleEvent_covers {a : NodeAction} (h : NodeInv C s) (ha : enabled C s a = true) :
    Covers C i s (handleEvent C s a) := by
  cases a with
  | relcollectOpen => exact covers_relcollectOpen
  | setSink shouldBeSink env =>
      have hset : Covers C i s (setSinkMetric C s shouldBeSink) :=
        (covers_announcementSetValue _).from_same rfl rfl rfl rfl
      exact hset.trans (covers_relUpdateRtmetric env)
  | relcollectSend pb rexmits env =>
      exact (covers_sendIf env (covers_acceptOwn env)).from_same rfl rfl rfl rfl
  | received pb env env' =>
      exact (covers_relNodePacketReceived env env').from_same rfl rfl rfl rfl
  | recvAdv sender data outside env => exact covers_recvAdv sender data outside env
  | sendTimer mac acked env env' =>
      -- The timer is set, so LPP has no packet of the connection.
      exact covers_send (h.once (Bool.and_eq_true_iff.mp ha).2) env env' mac acked
  | removeQueuedPacket acked env env' env'' =>
      exact covers_dropLppPacket.trans (covers_postSend env env' acked)
  | removeBroadcast b env =>
      simp only [enabled, Bool.and_eq_true, decide_eq_true_eq] at ha
      exact covers_otherFree ha.2
  | ipoliteTimer pb => exact covers_ipoliteTimer pb
  | advTimer => exact covers_sendAdv
  | neighborPeriodic => exact Covers.of_same rfl rfl rfl rfl
  | neighborSetLifetime seconds => exact Covers.of_same rfl rfl rfl rfl
  | otherNew pb => exact covers_otherNew pb
  | otherFree b => exact covers_otherFree (by simpa [enabled] using ha)

/-- Every handler of a relcollect node is a sequence of operations on the buffers. -/
theorem handle_covers {a : NodeAction} (h : NodeInv C s) (ha : enabled C s a = true) :
    Covers C i s (handle C s a) := by
  unfold handle
  split
  · exact (handleEvent_covers h ha).trans (covers_relSendQueuedPacket _)
  · exact handleEvent_covers h ha

/-- Every reachable node belongs to a run of operations that frees no block with a left-over
pointer. -/
theorem exists_owners_of_reachable (i : ι) (h : (nodeMachine C).Reachable s) :
    ∃ o, (machine ι C).ReachableIf FreesNoStale o ∧ OwnersOf i s o := by
  have hinv : NodeInv C s ∧ ∃ o, (machine ι C).ReachableIf FreesNoStale o ∧ OwnersOf i s o := by
    refine h.invariant (fun s => NodeInv C s ∧
      ∃ o, (machine ι C).ReachableIf FreesNoStale o ∧ OwnersOf i s o)
      ⟨nodeInv_boot C, boot, .init, rfl, rfl, rfl, .refl _, fun _ => rfl⟩ ?_
    rintro s a t ⟨hs, o, hreach, ho⟩ hst
    obtain ⟨hen, ⟨⟩⟩ := Option.ite_none_right_eq_some.mp hst
    exact ⟨nodeInv_handle hs hen, handle_covers hs hen o hreach ho⟩
  exact hinv.2

end PTunes.Rime
