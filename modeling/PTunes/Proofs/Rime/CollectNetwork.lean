import PTunes.Proofs.Rime.Events
import PTunes.Rime.CollectNetwork

/-!
# `PTunes.Proofs.Rime.CollectNetwork`: the packets of a collection network are genuine

`Carries ok s` says that all data packets in the queue buffers of a node are `ok`: the one of the
relunicast connection and those of the forwarding queue. Every handler keeps it when the packet
that the handler accepts is `ok` (`Carries.handle`). Nothing else can put a packet into these
buffers, because the pool gives a buffer to one owner only (`NodeInv`).

A reception does not always accept what was received. The route update comes first, and when it
announces a new metric, the announcement overwrites the packet buffer (`accepting_cases`).

Main results:

* `genuine_or_announcement`: in every run, every packet that is sent or delivered was submitted by
  the application of its originator, or it has the bytes of an announcement.
* `genuine_of_reachableIf`: announcements do not get into the queues while no reception changes
  the metric of its node.
* `announcement_reachable`: without this condition they do.
-/

set_option autoImplicit false

namespace PTunes.Rime

open PTunes.Core

/-! ### The packet in a buffer -/

/-- `packetbuf_set_attr` of another attribute leaves the packet alone. -/
theorem dataPacket_setAttr (pb : Packetbuf) {type : PacketbufAttr} (val : UInt16)
    (h : type ≠ .epacketId) : (pb.setAttr type val).dataPacket = pb.dataPacket := by
  simp only [Packetbuf.dataPacket, Queuebuf.dataPacket, Packetbuf.toQueuebuf, Packetbuf.setAttr]
  rw [Function.update_of_ne h.symm]

/-- `packetbuf_set_addr` of another address leaves the packet alone. -/
theorem dataPacket_setAddr (pb : Packetbuf) {type : PacketbufAddr} (addr : RimeAddr)
    (h : type ≠ .esender) : (pb.setAddr type addr).dataPacket = pb.dataPacket := by
  simp only [Packetbuf.dataPacket, Queuebuf.dataPacket, Packetbuf.toQueuebuf, Packetbuf.setAddr]
  rw [Function.update_of_ne h.symm]

/-- `queuebuf_to_packetbuf` restores the packet. -/
@[simp] theorem dataPacket_queuebufToPacketbuf (p : QueuebufPool) (b : QueuebufPtr) :
    (queuebufToPacketbuf p b).dataPacket = (p.bufmem.block b).dataPacket := by
  simp only [Packetbuf.dataPacket, Queuebuf.dataPacket, Packetbuf.toQueuebuf,
    queuebufToPacketbuf, List.nil_append, List.take_take, min_self]

/-- The packet that `relcollect_send` makes of the packet buffer. -/
theorem dataPacket_prepareSend (C : NodeConf) (s : Node) (rexmits : UInt16) :
    (prepareSend C s rexmits).packetbuf.dataPacket =
      ⟨C.addr, s.conn.seqno.toUInt16, (s.packetbuf.hdr ++ s.packetbuf.data).take
        packetbufSize⟩ := by
  simp only [prepareSend]
  rw [dataPacket_setAttr _ _ (by decide), dataPacket_setAttr _ _ (by decide),
    dataPacket_setAttr _ _ (by decide), dataPacket_setAttr _ _ (by decide),
    dataPacket_setAttr _ _ (by decide)]
  simp [Packetbuf.dataPacket, Queuebuf.dataPacket, Packetbuf.toQueuebuf, Packetbuf.setAttr,
    Packetbuf.setAddr]

/-- The packet that an announcement would be, if it were taken for one: it names no
originator. -/
def announcementPacket (C : NodeConf) (value : UInt16) : DataPacket :=
  ⟨rimeaddrNull, 0, announcementMsg C.channels value⟩

/-! ### The packets that a node carries -/

/-- The queue buffers with data packets: the one of the relunicast connection and those of the
forwarding queue. -/
def Node.carried (s : Node) : List QueuebufPtr := s.relunicast.buf.toList ++ s.queue.bufs

/-- All data packets that the node carries are `ok`. -/
def Carries (ok : DataPacket → Prop) (s : Node) : Prop :=
  ∀ b ∈ s.carried, ok (s.pool.bufmem.block b).dataPacket

variable {ok ok' : DataPacket → Prop} {C : NodeConf} {s s' : Node}

/-- What a node carries it owns. -/
theorem mem_owned_of_carried {b : QueuebufPtr} (h : b ∈ s.carried) : b ∈ s.owned := by
  rw [Node.carried, List.mem_append] at h
  simp only [Node.owned, List.mem_append]
  tauto

/-- A weaker property of packets holds of what the node carries, too. -/
theorem Carries.mono (h : Carries ok s) (hok : ∀ p, ok p → ok' p) : Carries ok' s := by
  intro b hb
  exact hok _ (h b hb)

/-- A step that writes to no carried buffer, and adds none, keeps the packets. -/
theorem Carries.congr (h : Carries ok s) (hc : ∀ b ∈ s'.carried, b ∈ s.carried)
    (hb : ∀ b ∈ s.carried, s'.pool.bufmem.block b = s.pool.bufmem.block b) : Carries ok s' := by
  intro b hmem
  rw [hb b (hc b hmem)]
  exact h b (hc b hmem)

/-- A step that changes neither the pool nor the carried buffers. -/
theorem Carries.same (h : Carries ok s) (hc : s'.carried = s.carried) (hp : s'.pool = s.pool) :
    Carries ok s' := by
  refine h.congr (fun b hb => hc ▸ hb) (fun b _ => ?_)
  rw [hp]

/-! ### Announcements and routes -/

/-- `ipolite_send` writes to a buffer that nobody else has. -/
theorem Carries.ipoliteSend (h : Carries ok s) (ho : s.pool.Owns s.owned) (hdrsize : UInt8) :
    Carries ok (ipoliteSend s hdrsize) := by
  have hrest := Node.owns_freeIfSet (ho.perm s.owned_perm_ipolite)
  have hmem : ∀ b ∈ s.carried, b ∈ s.relunicast.buf.toList ++
      (s.queue.bufs ++ (s.lppPacket.toList ++ s.others)) := by
    intro b hb
    rw [Node.carried, List.mem_append] at hb
    simp only [List.mem_append]
    tauto
  refine h.congr (fun b hb => hb) (fun b hb => ?_)
  rcases hrest.new_cases s.packetbuf with ⟨i, p', hnew, _, _, hblock⟩ | ⟨_, hnew⟩
  · simp only [Rime.ipoliteSend, hnew]
    rw [hblock b (hmem b hb), Node.block_freeIfSet]
  · simp only [Rime.ipoliteSend, hnew, Node.block_freeIfSet]

/-- An announcement is put into the packet buffer and waits in a buffer of its own. -/
theorem Carries.sendAdv (h : Carries ok s) (ho : s.pool.Owns s.owned) :
    Carries ok (sendAdv C s) := by
  have hpb : Carries ok { s with packetbuf := { Packetbuf.clear with
      data := announcementMsg C.channels s.conn.announcement } } := h.same rfl rfl
  exact hpb.ipoliteSend ho _

/-- A new value is announced. The packets are not touched. -/
theorem Carries.announcementSetValue (h : Carries ok s) (ho : s.pool.Owns s.owned)
    (value : UInt16) : Carries ok (announcementSetValue C s value) := by
  have hconn : Carries ok { s with conn := { s.conn with announcement := value } } :=
    h.same rfl rfl
  exact hconn.sendAdv ho

/-- Giving up the waiting announcement. -/
theorem Carries.ipoliteRecv (h : Carries ok s) : Carries ok (ipoliteRecv s) := by
  unfold Rime.ipoliteRecv
  split
  · split
    · exact h.congr (fun b hb => hb) (fun b _ => block_queuebufFree _ _ _)
    · exact h
  · exact h

/-- The waiting announcement is sent, and its buffer is given back. -/
theorem Carries.ipoliteTimer (h : Carries ok s) (pb : Packetbuf) :
    Carries ok (ipoliteTimer s pb) := by
  unfold Rime.ipoliteTimer
  split
  · exact h.congr (fun b hb => hb) (fun b _ => block_queuebufFree _ _ _)
  · exact h.same rfl rfl

/-- The packet buffer is as before, or it holds an announcement of the node. -/
def KeptOrAnnouncement (C : NodeConf) (s s' : Node) : Prop :=
  s'.packetbuf.dataPacket = s.packetbuf.dataPacket ∨
    ∃ value, s'.packetbuf.dataPacket = announcementPacket C value

/-- The route update keeps the packets. An announcement of the new metric overwrites the packet
buffer. -/
theorem Carries.updateRoute (h : Carries ok s) (hinv : NodeInv C s) :
    Carries ok (updateRoute C s).2 ∧ KeptOrAnnouncement C s (updateRoute C s).2 := by
  have hset : ∀ t rtmetric,
      Carries ok (Rime.announcementSetValue C (setRtmetric s t rtmetric) rtmetric) := by
    intro t rtmetric
    have hmetric : Carries ok (setRtmetric s t rtmetric) := h.same rfl rfl
    exact hmetric.announcementSetValue hinv.pool rtmetric
  rcases updateRoute_cases C s with
    ⟨_, he⟩ | ⟨_, _, he⟩ | ⟨_, i, _, rtmetric, _, _, he⟩ | ⟨_, i, _, _, he⟩ <;> rw [he]
  · exact ⟨h, .inl rfl⟩
  · exact ⟨hset _ _, .inr ⟨_, rfl⟩⟩
  · exact ⟨hset _ _, .inr ⟨_, rfl⟩⟩
  · exact ⟨h.same rfl rfl, .inl rfl⟩

/-! ### `rel_send_queued_packet` -/

/-- What `rel_send_queued_packet` prepares before the hand-over leaves the packet alone. -/
theorem dataPacket_prepare (C : NodeConf) (env : Env) (s : Node) (i : PacketqueueItemPtr)
    (n : NeighborPtr) :
    (updateQueuingStats C env (noteParent C s n) i).packetbuf.dataPacket =
      s.packetbuf.dataPacket := by
  have hnote : (noteParent C s n).packetbuf.dataPacket = s.packetbuf.dataPacket := by
    unfold noteParent
    split
    · exact dataPacket_setAttr _ _ (by decide)
    · rfl
  simp only [updateQueuingStats]
  split
  · rw [dataPacket_setAttr _ _ (by decide), dataPacket_setAttr _ _ (by decide), hnote]
  · rw [dataPacket_setAttr _ _ (by decide), hnote]

/-- `relunicast_send` takes a copy of the packet buffer. -/
theorem Carries.relunicastSend (h : Carries ok s) (ho : s.pool.Owns s.owned)
    (hpb : ok s.packetbuf.dataPacket) (env : Env) (receiver : RimeAddr)
    (maxRetransmissions : UInt8) (esender : RimeAddr) :
    Carries ok (relunicastSend C env s receiver maxRetransmissions esender).2 ∧
      (relunicastSend C env s receiver maxRetransmissions esender).2.packetbuf.dataPacket =
        s.packetbuf.dataPacket := by
  have hid : (s.packetbuf.setAttr .packetId s.relunicast.sndnxt.toUInt16).dataPacket =
      s.packetbuf.dataPacket := dataPacket_setAttr _ _ (by decide)
  have hqueue : ∀ b ∈ s.queue.bufs, b ∈ s.ipolite.q.toList ++
      (s.queue.bufs ++ (s.lppPacket.toList ++ s.others)) := by
    intro b hb
    simp only [List.mem_append]
    tauto
  have hrest := Node.owns_freeIfSet ho
  unfold Rime.relunicastSend
  split
  · exact ⟨h, rfl⟩
  · -- The copy is a new block, or the pool is full and there is none.
    rcases hrest.new_cases (s.packetbuf.setAttr .packetId s.relunicast.sndnxt.toUInt16) with
      ⟨b, p', hnew, _, hcopy, hblock⟩ | ⟨_, hnew⟩
    · simp only [hnew]
      refine ⟨fun a ha => ?_, hid⟩
      obtain ⟨hi, lo, htime⟩ := setTime_eq C env { s.relunicast with
        buf := some b, maxRxmit := maxRetransmissions, rxmit := 0, isTx := true,
        esender := esender, receiver := receiver }
      simp only [htime, scheduleSend, Node.carried, List.mem_append, Option.mem_toList,
        Option.some.injEq] at ha
      -- The new block has the packet, the other ones have not changed.
      rcases ha with rfl | ha
      · show ok (p'.bufmem.block _).dataPacket
        rw [hcopy]
        show ok (Packetbuf.dataPacket _)
        rw [hid]
        exact hpb
      · show ok (p'.bufmem.block a).dataPacket
        rw [hblock a (hqueue a ha), Node.block_freeIfSet]
        exact h a (List.mem_append_right _ ha)
    · simp only [hnew]
      refine ⟨fun a ha => ?_, hid⟩
      simp only [Node.carried, Option.toList_none, List.nil_append] at ha
      rw [Node.block_freeIfSet]
      exact h a (List.mem_append_right _ ha)

/-- The hand-over of the packet in the packet buffer. -/
theorem Carries.forwardTo (h : Carries ok s) (ho : s.pool.Owns s.owned)
    (hpb : ok s.packetbuf.dataPacket) (env : Env) (i : PacketqueueItemPtr) (n : NeighborPtr) :
    Carries ok (forwardTo C env s i n) ∧
      (forwardTo C env s i n).packetbuf.dataPacket = s.packetbuf.dataPacket := by
  have hkeep := dataPacket_prepare C env s i n
  obtain ⟨parentId, parentId', pb, st, hprep⟩ := prepare_eq C env s i n
  rw [hprep] at hkeep
  -- The state at the call of `relunicast_send`.
  have hcall : Carries ok { s with
      conn := { s.conn with parentId := parentId, forwarding := true }
      parentId := parentId', packetbuf := pb, stats := st } := h.same rfl rfl
  obtain ⟨hsent, hsame⟩ := hcall.relunicastSend (C := C) ho (hkeep ▸ hpb) env
    (s.neighbors.get n).addr (pb.attr .maxRexmit).toUInt8 (pb.addr .esender)
  unfold Rime.forwardTo
  rw [hprep]
  simp only
  split
  · rename_i t heq
    rw [heq] at hsent hsame
    refine ⟨?_, hsame.trans hkeep⟩
    exact hsent.same rfl rfl
  · rename_i t heq
    rw [heq] at hsent hsame
    exact ⟨hsent, hsame.trans hkeep⟩

/-- The packet that `rel_send_queued_packet` takes up is in the queue. -/
theorem mem_bufs_of_packetToForward {env : Env} {i : PacketqueueItemPtr} {q : QueuebufPtr}
    (h : packetToForward C env s = some (i, q)) : q ∈ s.queue.bufs := by
  unfold packetToForward packetqueueFirst at h
  cases hl : s.queue.list with
  | nil =>
      rw [hl] at h
      cases h
  | cons j rest =>
      rw [hl] at h
      simp only [List.head?_cons] at h
      split at h
      · cases h
      · split at h
        · cases h
        · obtain ⟨b, hb, he⟩ := Option.map_eq_some_iff.mp h
          cases he
          refine List.mem_filterMap.mpr ⟨i, ?_, hb⟩
          rw [hl]
          exact List.mem_cons_self

/-- `rel_send_queued_packet` keeps the packets, and the packet buffer is as before or holds one
of them. -/
theorem Carries.relSendQueuedPacket (h : Carries ok s) (hinv : NodeInv C s) (env : Env) :
    Carries ok (relSendQueuedPacket C env s) ∧
      ((relSendQueuedPacket C env s).packetbuf.dataPacket = s.packetbuf.dataPacket ∨
        ok (relSendQueuedPacket C env s).packetbuf.dataPacket) := by
  cases hp : packetToForward C env s with
  | none =>
      simp only [Rime.relSendQueuedPacket, hp]
      exact ⟨h, .inl trivial⟩
  | some r =>
      obtain ⟨i, q⟩ := r
      have hq : ok (queuebufToPacketbuf s.pool q).dataPacket := by
        rw [dataPacket_queuebufToPacketbuf]
        exact h q (List.mem_append_right _ (mem_bufs_of_packetToForward hp))
      obtain ⟨t, ht⟩ := nextHop_eq C { s with packetbuf := queuebufToPacketbuf s.pool q }
      have hnext : Carries ok
          { s with packetbuf := queuebufToPacketbuf s.pool q, neighbors := t } := h.same rfl rfl
      cases hn : nextHop C { s with packetbuf := queuebufToPacketbuf s.pool q } with
      | mk n s' =>
          rw [hn] at ht
          subst ht
          cases n with
          | none =>
              simp only [Rime.relSendQueuedPacket, hp, hn]
              exact ⟨hnext, .inr hq⟩
          | some n =>
              simp only [Rime.relSendQueuedPacket, hp, hn]
              obtain ⟨hfwd, hsame⟩ := hnext.forwardTo (C := C) hinv.pool hq env i n
              exact ⟨hfwd, .inr (hsame ▸ hq)⟩

/-- The route update may send a packet. -/
theorem Carries.relUpdateRtmetric (h : Carries ok s) (hinv : NodeInv C s) (env : Env) :
    Carries ok (relUpdateRtmetric C env s) ∧
      (KeptOrAnnouncement C s (relUpdateRtmetric C env s) ∨
        ok (relUpdateRtmetric C env s).packetbuf.dataPacket) := by
  obtain ⟨hroute, hkept⟩ := h.updateRoute hinv
  unfold Rime.relUpdateRtmetric sendIf
  split
  · obtain ⟨hsent, hpb⟩ := hroute.relSendQueuedPacket hinv.updateRoute env
    refine ⟨hsent, hpb.imp_left fun hsame => ?_⟩
    unfold KeptOrAnnouncement
    rw [hsame]
    exact hkept
  · exact ⟨hroute, .inl hkept⟩

/-- The route update keeps the invariant of the node, and the connection stays open. -/
theorem NodeInv.relUpdateRtmetric (h : NodeInv C s) (ho : s.opened = true) (env : Env) :
    NodeInv C (relUpdateRtmetric C env s) ∧ (relUpdateRtmetric C env s).opened = true := by
  obtain ⟨hinv, hopen, _⟩ := relUpdateRtmetric_rule env (fun _ => True) h ho trivial
    (fun _ _ _ _ => trivial) (fun _ _ _ _ _ => trivial)
  exact ⟨hinv, hopen⟩

/-! ### The forwarding queue -/

/-- `packetqueue_enqueue_packetbuf` copies the packet buffer. -/
theorem Packetqueue.block_of_enqueue {q q' : Packetqueue} {p p' : QueuebufPool}
    {owned : List QueuebufPtr} (hq : q.Inv) (hp : p.Owns owned) {pb : Packetbuf}
    {clockTime : UInt16} {uid : Nat}
    (he : packetqueueEnqueuePacketbuf q p pb clockTime uid = (true, q', p')) :
    ∃ b, q'.bufs = q.bufs ++ [b] ∧ p'.bufmem.block b = pb.toQueuebuf := by
  unfold packetqueueEnqueuePacketbuf at he
  cases ha : q.memb.membAlloc with
  | none =>
      rw [ha] at he
      cases he
  | some r =>
      obtain ⟨i, m⟩ := r
      obtain ⟨hi, _⟩ := hq.owns.alloc ha
      obtain ⟨_, rfl⟩ := Memb.membAlloc_some ha
      rw [ha] at he
      rcases hp.new_cases pb with ⟨b, p'', hnew, _, hcopy, _⟩ | ⟨_, hnew⟩
      · simp only [hnew] at he
        cases he
        refine ⟨b, ?_, hcopy⟩
        rw [bufs_eq, bufs_eq]
        show ((q.list ++ [i]).map _).filterMap id = _
        rw [List.map_append, map_block_write _ hi _ PacketqueueItem.buf, List.filterMap_append]
        simp only [List.map_cons, List.map_nil, Memb.block_write_self]
        rfl
      · simp only [hnew] at he
        cases he

/-- An accepted packet is carried from now on. -/
theorem Carries.enqueueForwarding (h : Carries ok s) (hinv : NodeInv C s)
    (hpb : ok s.packetbuf.dataPacket) (env : Env) : Carries ok (enqueueForwarding env s).2 := by
  rcases Packetqueue.enqueue_cases hinv.queue hinv.pool s.packetbuf env.clockTime s.nextUid with
    ⟨q', p', b, he, _, _, hbufs, _, hblock⟩ | ⟨q', he, _, _, hbufs⟩
  · obtain ⟨b', hbufs', hcopy⟩ := Packetqueue.block_of_enqueue hinv.queue hinv.pool he
    have hb : b' = b := by
      have := hbufs'.symm.trans hbufs
      simpa using this
    subst hb
    simp only [Rime.enqueueForwarding, he]
    intro a ha
    simp only [Node.carried, hbufs, List.mem_append, List.mem_singleton] at ha
    show ok (p'.bufmem.block a).dataPacket
    rcases ha with ha | ha | rfl
    · have hmem : a ∈ s.carried := List.mem_append_left _ ha
      rw [hblock a (mem_owned_of_carried hmem)]
      exact h a hmem
    · have hmem : a ∈ s.carried := List.mem_append_right _ ha
      rw [hblock a (mem_owned_of_carried hmem)]
      exact h a hmem
    · rw [hcopy]
      exact hpb
  · simp only [Rime.enqueueForwarding, he]
    refine h.same ?_ rfl
    simp only [Node.carried, hbufs]

/-- A genuine packet is put at the end of the queue, or it is dropped. -/
theorem Carries.enqueueOrDrop (h : Carries ok s) (hinv : NodeInv C s)
    (hpb : ok s.packetbuf.dataPacket) (env : Env) : Carries ok (enqueueOrDrop env s).2 := by
  have henq := h.enqueueForwarding hinv hpb env
  unfold Rime.enqueueOrDrop
  simp only
  split
  · exact henq
  · exact henq.same rfl rfl

/-- Removing a packet from the queue leaves the others. -/
theorem Carries.dequeueForwarding (h : Carries ok s) (hinv : NodeInv C s) :
    Carries ok (dequeueForwarding s) := by
  cases hl : s.queue.list with
  | nil =>
      have he : packetqueueDequeue s.queue s.pool = (s.queue, s.pool) := by
        simp only [packetqueueDequeue, hl]
      simp only [Rime.dequeueForwarding, he]
      exact h.same rfl rfl
  | cons i rest =>
      obtain ⟨q', b, he, _, _, hbufs⟩ :=
        Packetqueue.dequeue_cons (p := s.pool) hinv.queue hl
      simp only [Rime.dequeueForwarding, he]
      refine h.congr (fun a ha => ?_) (fun a _ => block_queuebufFree _ _ _)
      simp only [Node.carried, List.mem_append] at ha ⊢
      rw [hbufs]
      exact ha.imp_right (List.mem_cons_of_mem b)

/-! ### The events -/

/-- A completion has not touched the packets when it comes to the route update. -/
theorem Carries.completed (h : Carries ok s) {a : NodeAction} {env env' : Env}
    (hc : completed C s a = some (env, env', s')) : Carries ok s' := by
  cases a with
  | sendTimer mac acked e e' =>
      simp only [Rime.completed] at hc
      split at hc
      · cases hc
        exact h.same rfl rfl
      · split at hc
        · cases hc
          exact h.same rfl rfl
        · cases hc
  | removeQueuedPacket acked e e' e'' =>
      simp only [Rime.completed] at hc
      split at hc
      · cases hc
        exact h.congr (fun b hb => hb) fun b _ => Node.block_freeIfSet s.pool s.lppPacket b
      · cases hc
  | _ => cases hc

/-- `send_packet` of LPP writes to a buffer that nobody else has. -/
theorem Carries.lppSendPacket (h : Carries ok s) (hinv : NodeInv C s) (env : Env) :
    Carries ok (Relunicast.lppSendPacket env s) := by
  have hpool : ∀ {b : Option QueuebufPtr} {p : QueuebufPool},
      queuebufNewFromPacketbuf s.pool s.packetbuf = (b, p) →
      ∀ c ∈ s.carried, p.bufmem.block c = s.pool.bufmem.block c := by
    intro b p he c hc
    rcases hinv.pool.new_cases s.packetbuf with ⟨_, _, hnew, _, _, hblock⟩ | ⟨_, hnew⟩
    · rw [hnew] at he
      cases he
      exact hblock c (mem_owned_of_carried hc)
    · rw [hnew] at he
      cases he
      rfl
  rcases lppSendPacket_cases env s with ⟨p, he, rfl | hnew⟩ | ⟨b, p, _, hnew, ⟨_, he⟩ | ⟨_, he⟩⟩ <;>
    rw [he]
  · exact h
  · exact h.congr (fun b hb => hb) (hpool hnew)
  · exact h.congr (fun b hb => hb) (hpool hnew)
  · exact h.congr (fun b hb => hb) (hpool hnew)

/-- An event that completes no transmission leaves the packets of a pending one alone. -/
theorem Carries.pending (h : Carries ok s) (hinv : NodeInv C s) {a : NodeAction}
    (he : enabled C s a = true) (hc : Rime.completed C s a = none) (ha : isAttempt a = true) :
    Carries ok (handleEvent C s a) := by
  have htx := (hinv.pending he ha).2.2
  cases a with
  | sendTimer mac acked env env' =>
      simp only [Rime.completed] at hc
      split at hc
      · cases hc
      · rename_i hr
        split at hc
        · cases hc
        · rename_i hx
          simp only [handleEvent, Relunicast.send, if_neg hr]
          cases hmac : C.mac with
          | xmac =>
              have hacked : acked = false := by simpa [hmac] using hx
              simp only [hacked, Bool.false_eq_true, if_false]
              exact h.same rfl rfl
          | lpp =>
              -- LPP takes a copy of the packet that has been loaded.
              refine Carries.lppSendPacket (C := C) ?_ ?_ env
              · exact h.same rfl rfl
              · exact hinv.timerFired htx _ _
  | removeQueuedPacket acked env env' env'' =>
      simp only [Rime.completed] at hc
      split at hc
      · cases hc
      · rename_i hacked
        simp only [handleEvent, Rime.removeQueuedPacket, Relunicast.postSend, if_neg hacked]
        exact h.congr (fun b hb => hb) fun b _ => Node.block_freeIfSet s.pool s.lppPacket b
  | _ => cases ha

/-- A received packet is delivered, forwarded or dropped. It need not be genuine for the node
without a route, which drops it. -/
theorem Carries.acceptReceived (h : Carries ok s) (hinv : NodeInv C s)
    (hpb : s.conn.rtmetric ≠ rtmetricMax → ok s.packetbuf.dataPacket) (env : Env) :
    Carries ok (acceptReceived env s).2 := by
  unfold Rime.acceptReceived
  split
  · exact h.same rfl rfl
  · split
    · rename_i hmax
      exact h.enqueueOrDrop hinv (hpb hmax) env
    · exact h

/-- A packet of the application is delivered, forwarded or dropped. -/
theorem Carries.acceptOwn (h : Carries ok s) (hinv : NodeInv C s)
    (hpb : ok s.packetbuf.dataPacket) (env : Env) : Carries ok (acceptOwn env s).2 := by
  have hbest : Carries ok { s with neighbors := (neighborBest s.neighbors).2 } :=
    h.same rfl rfl
  have hinv' : NodeInv C { s with neighbors := (neighborBest s.neighbors).2 } :=
    hinv.frame _ s.packetbuf s.stats
  unfold Rime.acceptOwn
  split
  · exact h.same rfl rfl
  · exact hbest.enqueueOrDrop hinv' hpb env

/-- After an accepted packet the first packet of the queue is handed over, which the node carries
already. -/
theorem Carries.sendIf {r : Bool × Node} (h : Carries ok r.2) (hinv : NodeInv C r.2)
    (env : Env) : Carries ok (sendIf C env r) := by
  unfold Rime.sendIf
  split
  · exact (h.relSendQueuedPacket hinv env).1
  · exact h

/-- Other protocols keep their packets in buffers that the node does not carry. -/
theorem Carries.otherNew (h : Carries ok s) (hinv : NodeInv C s) (pb : Packetbuf) :
    Carries ok (otherNew s pb) := by
  rcases hinv.pool.new_cases pb with ⟨b, p', hnew, _, _, hblock⟩ | ⟨_, hnew⟩
  · simp only [Rime.otherNew, hnew]
    exact h.congr (fun b hb => hb) (fun b hb => hblock b (mem_owned_of_carried hb))
  · simp only [Rime.otherNew, hnew]
    exact h.same rfl rfl

/-- A packet that is no duplicate is accepted after the route update, if the node has a route
then. -/
theorem accepting_received {pb : Packetbuf} {env env' : Env}
    (hr : ¬ isRecent { s with packetbuf := pb } = true) :
    accepting C s (.received pb env env') =
      let t := routeReceived C env (noteRecent { s with packetbuf := pb })
      if t.conn.rtmetric = rtmetricMax then none else some t := by
  simp only [accepting, if_neg hr]
  rfl

/-- The route update of a reception. -/
theorem Carries.routeReceived (h : Carries ok s) (hinv : NodeInv C s) (ho : s.opened = true)
    (env : Env) :
    NodeInv C (routeReceived C env s) ∧ Carries ok (routeReceived C env s) := by
  unfold Rime.routeReceived
  split
  · exact ⟨(hinv.relUpdateRtmetric ho env).1, (h.relUpdateRtmetric hinv env).1⟩
  · exact ⟨hinv, h⟩

/-- A received announcement keeps the packets: each turn of its loop is a route update. -/
theorem Carries.recvAdv (h : Carries ok s) (hinv : NodeInv C s) (ho : s.opened = true)
    (sender : RimeAddr) (data : List UInt8) (outside : Nat → Memory) (env : Nat → Env) :
    Carries ok (recvAdv C s sender data outside env) := by
  let Kept (t : Hearing) : Prop :=
    Carries ok t.node ∧ NodeInv C t.node ∧ t.node.opened = true
  have hkept : Kept (hearAdv C s sender data outside env) := by
    refine advPacketReceived_rule (P := Kept) ?_ ?_
    · rintro t id value ⟨hcarries, ht, hopen⟩
      unfold announcementHeard
      split
      · have hnote : Carries ok (noteAnnouncement C t.node sender value) :=
          hcarries.same rfl rfl
        have hnote' := (noteAnnouncement_spec ht sender value).1
        exact ⟨(hnote.relUpdateRtmetric hnote' _).1, hnote'.relUpdateRtmetric hopen _⟩
      · exact ⟨hcarries, ht, hopen⟩
    · have hload : Carries ok (loadPayload s data) := h.same rfl rfl
      exact ⟨hload.ipoliteRecv, (loadPayload_spec hinv data).1.ipoliteRecv,
        (ipoliteRecv_opened _).trans ho⟩
  exact hkept.1

/-- Every event keeps the packets of its node when the packet that it accepts, if any, is
`ok`. -/
theorem Carries.handleEvent (h : Carries ok s) (hinv : NodeInv C s) {a : NodeAction}
    (he : enabled C s a = true)
    (hacc : ∀ t, accepting C s a = some t → ok t.packetbuf.dataPacket) :
    Carries ok (handleEvent C s a) := by
  cases hc : Rime.completed C s a with
  | some r =>
      obtain ⟨env, env', s'⟩ := r
      -- A transmission is complete: the head of the queue goes, the next one is sent.
      obtain ⟨hinv', hcomp⟩ := completed_spec hinv he hc
      obtain ⟨hroute, hopen⟩ := hinv'.relUpdateRtmetric hcomp.opened env
      rw [handleEvent_completed hc]
      have hkept := ((h.completed hc).relUpdateRtmetric hinv' env).1
      exact ((hkept.dequeueForwarding hroute).relSendQueuedPacket
        hroute.dequeueForwarding.1 env').1
  | none =>
      cases a with
      | relcollectOpen =>
          have hopened : Carries ok { s with
              conn := { s.conn with
                seqno := 1, rtmetric := rtmetricMax, announcement := rtmetricMax }
              relunicast := { s.relunicast with isTx := false, rxmit := 0, sndnxt := 0 }
              opened := true } := h.same rfl rfl
          exact hopened.sendAdv hinv.pool
      | setSink shouldBeSink env =>
          have hset : Carries ok (setSinkMetric C s shouldBeSink) := by
            have hmetric : Carries ok { s with conn := { s.conn with
                rtmetric := if shouldBeSink then sinkMetric else rtmetricMax } } :=
              h.same rfl rfl
            exact hmetric.announcementSetValue hinv.pool _
          exact (hset.relUpdateRtmetric (setSinkMetric_spec hinv shouldBeSink).1 env).1
      | relcollectSend pb rexmits env =>
          have hload := hinv.frame s.neighbors pb s.stats
          -- The packet of the application is accepted after its header is set.
          have hprep : Carries ok (prepareSend C { s with packetbuf := pb } rexmits) :=
            h.same rfl rfl
          have hinv' := (prepareSend_spec hload rexmits).1
          have hown := hprep.acceptOwn hinv' (hacc _ rfl) env
          have hown' := (acceptOwn_rule (I := fun _ => True)
            ⟨fun _ _ _ _ => trivial, fun _ _ _ _ => trivial⟩ hinv' trivial env).1
          exact hown.sendIf hown' env
      | received pb env env' =>
          have hload := hinv.frame s.neighbors pb s.stats
          have hload' : Carries ok { s with packetbuf := pb } := h.same rfl rfl
          simp only [Rime.handleEvent, relNodePacketReceived]
          -- A repeated packet is dropped, any other one is accepted after the route update.
          by_cases hr : isRecent { s with packetbuf := pb } = true
          · rw [if_pos hr]
            exact hload'
          · rw [if_neg hr]
            rw [accepting_received hr] at hacc
            have hnoted := (noteRecent_spec hload).1
            have hnoted' : Carries ok (noteRecent { s with packetbuf := pb }) :=
              h.same rfl rfl
            obtain ⟨hroute, hroute'⟩ := hnoted'.routeReceived hnoted he env
            have hrecv := hroute'.acceptReceived hroute (fun hmax => hacc _ (if_neg hmax)) env'
            have hrecv' := (acceptReceived_rule (I := fun _ => True)
              ⟨fun _ _ _ _ => trivial, fun _ _ _ _ => trivial⟩ hroute trivial env').1
            exact hrecv.sendIf hrecv' env'
      | recvAdv sender data outside env => exact h.recvAdv hinv he sender data outside env
      | sendTimer mac acked env env' => exact h.pending hinv he hc rfl
      | removeQueuedPacket acked env env' env'' => exact h.pending hinv he hc rfl
      | removeBroadcast b env =>
          exact h.congr (fun b hb => hb) (fun b _ => block_queuebufFree _ _ _)
      | ipoliteTimer pb => exact h.ipoliteTimer pb
      | advTimer => exact h.sendAdv hinv.pool
      | neighborPeriodic => exact h.same rfl rfl
      | neighborSetLifetime seconds => exact h.same rfl rfl
      | otherNew pb => exact h.otherNew hinv pb
      | otherFree b => exact h.congr (fun b hb => hb) (fun b _ => block_queuebufFree _ _ _)

/-- The whole event, with the last call of `rel_send_queued_packet` in `remove_queued_packet`. -/
theorem Carries.handle (h : Carries ok s) (hinv : NodeInv C s) {a : NodeAction}
    (he : enabled C s a = true)
    (hacc : ∀ t, accepting C s a = some t → ok t.packetbuf.dataPacket) :
    Carries ok (handle C s a) := by
  have hevent := h.handleEvent hinv he hacc
  unfold Rime.handle
  split
  · obtain ⟨hinv', _, _⟩ := handleEvent_rule (I := fun _ => True)
      ⟨fun _ _ _ _ => trivial, fun _ _ _ _ => trivial⟩ hinv trivial he
      (fun _ _ _ _ _ => trivial) (fun _ _ _ => trivial) (fun _ _ _ _ _ _ => trivial)
    exact (hevent.relSendQueuedPacket hinv' _).1
  · exact hevent

/-! ### What an event records -/

/-- The packet that goes to the MAC is the one of the relunicast connection. -/
theorem Carries.handedToMac (h : Carries ok s) (hinv : NodeInv C s) {a : NodeAction}
    (he : enabled C s a = true) : ∀ p ∈ handedToMac C s a, ok p := by
  intro p hp
  cases a with
  | sendTimer mac acked env env' =>
      have htx := (hinv.pending he rfl).2.2
      obtain ⟨b, hb⟩ := Option.ne_none_iff_exists'.mp (hinv.txBuf htx)
      have hmem : b ∈ s.carried := by
        simp [Node.carried, hb]
      simp only [Rime.handedToMac] at hp
      split at hp
      · cases hp
      · rw [List.mem_singleton.mp hp, dataPacket_setAddr _ _ (by decide)]
        simp only [Relunicast.loadPacket, hb]
        split
        · rw [dataPacket_setAttr _ _ (by decide), dataPacket_setAttr _ _ (by decide),
            dataPacket_queuebufToPacketbuf]
          exact h b hmem
        · rw [dataPacket_queuebufToPacketbuf]
          exact h b hmem
  | _ => cases hp

/-- Only accepted packets are delivered. -/
theorem exists_accepting_of_deliveredTo {a : NodeAction} {p : DataPacket}
    (h : p ∈ deliveredTo C s a) :
    ∃ t, accepting C s a = some t ∧ p = t.packetbuf.dataPacket := by
  unfold deliveredTo at h
  split at h
  · rename_i t ht
    split at h
    · exact ⟨t, ht, List.mem_singleton.mp h⟩
    · cases h
  · cases h

/-- What a node accepts: the packet of its application, the packet that it has received, or what
the route update has left in the packet buffer. -/
theorem accepting_cases (h : Carries ok s) (hinv : NodeInv C s) {a : NodeAction} {t : Node}
    (ht : accepting C s a = some t) :
    t.packetbuf.dataPacket ∈ submitted C s a ∨
    (∃ pb env env', a = .received pb env env' ∧
      (t.packetbuf.dataPacket = pb.dataPacket ∨ ok t.packetbuf.dataPacket ∨
        ∃ value, t.packetbuf.dataPacket = announcementPacket C value)) := by
  cases a with
  | relcollectSend pb rexmits env =>
      cases ht
      rw [dataPacket_prepareSend]
      exact .inl (List.mem_singleton_self _)
  | received pb env env' =>
      refine .inr ⟨pb, env, env', rfl, ?_⟩
      by_cases hr : isRecent { s with packetbuf := pb } = true
      · simp only [accepting, if_pos hr] at ht
        cases ht
      · rw [accepting_received hr] at ht
        simp only at ht
        split at ht
        · cases ht
        · cases ht
          have hnoted := (noteRecent_spec (hinv.frame s.neighbors pb s.stats)).1
          have hnoted' : Carries ok (noteRecent { s with packetbuf := pb }) := h.same rfl rfl
          unfold routeReceived
          split
          · -- The route update may send from the packet buffer.
            rcases (hnoted'.relUpdateRtmetric hnoted env).2 with (hkept | hann) | hok
            · exact .inl hkept
            · exact .inr (.inr hann)
            · exact .inr (.inl hok)
          · exact .inl rfl
  | _ => cases ht

/-- The reception of the packet in the buffer changes the metric of the node, which announces the
new one. -/
def changesMetric (s : Node) : Bool :=
  !isRecent s && lowMetric s && s.conn.rtmetric != sinkMetric &&
    match (neighborBest s.neighbors).1 with
    | none => false
    | some i => ((neighborBest s.neighbors).2.get i).cost != s.conn.rtmetric

/-- A route update that keeps the metric leaves the packet in the buffer. -/
theorem dataPacket_of_not_changesMetric {pb : Packetbuf} {env env' : Env} {t : Node}
    (hk : changesMetric { s with packetbuf := pb } = false)
    (ht : accepting C s (.received pb env env') = some t) :
    t.packetbuf.dataPacket = pb.dataPacket := by
  by_cases hr : isRecent { s with packetbuf := pb } = true
  · simp only [accepting, if_pos hr] at ht
    cases ht
  · rw [accepting_received hr] at ht
    simp only at ht
    split at ht
    · cases ht
    · rename_i hmax
      cases ht
      unfold routeReceived at hmax ⊢
      split
      · rename_i hl
        rw [if_pos hl, relUpdateRtmetric, sendIf] at hmax
        rw [relUpdateRtmetric, sendIf]
        rcases updateRoute_cases C (noteRecent { s with packetbuf := pb }) with
          ⟨_, he⟩ | ⟨_, _, he⟩ | ⟨hsink, i, hb, rtmetric, hcost, hne, _⟩ | ⟨_, i, _, _, he⟩
        · rw [he]
          rfl
        · rw [he] at hmax
          exact absurd rfl hmax
        · -- A new metric is announced.
          exfalso
          have hl' : lowMetric { s with packetbuf := pb } = true := hl
          have hb' : (neighborBest s.neighbors).1 = some i := hb
          have hcost' : rtmetric = ((neighborBest s.neighbors).2.get i).cost := hcost
          have hne' : rtmetric ≠ s.conn.rtmetric := hne
          have hsink' : s.conn.rtmetric ≠ sinkMetric := hsink
          subst hcost'
          simp [changesMetric, hr, hl', hb', hne', hsink'] at hk
        · rw [he]
          rfl
      · rfl

/-! ### Runs of the network -/

/-- The packet of an announcement of any node. -/
def IsAnnouncement (conf : RimeAddr → NodeConf) (p : DataPacket) : Prop :=
  ∃ node value, p = announcementPacket (conf node) value

namespace CollectNetwork

variable {conf : RimeAddr → NodeConf} {N : CollectNetwork} {made : DataPacket → Prop}

/-- An application gave the packet to `relcollect_send`, or it is `made`. -/
def Genuine (made : DataPacket → Prop) (N : CollectNetwork) (p : DataPacket) : Prop :=
  p ∈ N.submitted ∨ made p

/-- All packets are genuine: those that the nodes carry, and those in the records. -/
structure Inv (conf : RimeAddr → NodeConf) (made : DataPacket → Prop) (N : CollectNetwork) :
    Prop where
  node : ∀ i, NodeInv (conf i) (N.nodes i)
  carries : ∀ i, Carries (Genuine made N) (N.nodes i)
  frames : ∀ p ∈ N.frames, Genuine made N p
  delivered : ∀ p ∈ N.delivered, Genuine made N p

/-- No node carries a packet at first, and nothing has been sent. -/
theorem inv_boot (conf : RimeAddr → NodeConf) (made : DataPacket → Prop) :
    Inv conf made boot := by
  refine ⟨fun i => nodeInv_boot (conf i), fun i b hb => ?_, fun p hp => ?_, fun p hp => ?_⟩
  · cases hb
  · cases hp
  · cases hp

/-- An event keeps the invariant when the packet that it accepts, if any, is genuine. -/
theorem Inv.act (h : Inv conf made N) {node : RimeAddr} {a : NodeAction}
    (he : enabled (conf node) (N.nodes node) a = true)
    (hacc : ∀ t, accepting (conf node) (N.nodes node) a = some t →
      Genuine made (N.act conf node a) t.packetbuf.dataPacket) :
    Inv conf made (N.act conf node a) := by
  -- The record of `relcollect_send` only grows.
  have hmono : ∀ p, Genuine made N p → Genuine made (N.act conf node a) p := by
    intro p hp
    exact hp.imp_left (List.mem_append_left _)
  have hcarries : Carries (Genuine made (N.act conf node a)) (N.nodes node) :=
    (h.carries node).mono hmono
  refine ⟨fun i => ?_, fun i => ?_, fun p hp => ?_, fun p hp => ?_⟩
  · by_cases hi : i = node
    · subst hi
      simp only [CollectNetwork.act, Function.update_self]
      exact nodeInv_handle (h.node i) he
    · simp only [CollectNetwork.act, Function.update_of_ne hi]
      exact h.node i
  · by_cases hi : i = node
    · subst hi
      have hnode : (N.act conf i a).nodes i = handle (conf i) (N.nodes i) a :=
        Function.update_self _ _ _
      rw [hnode]
      exact hcarries.handle (h.node i) he hacc
    · have hnode : (N.act conf node a).nodes i = N.nodes i := Function.update_of_ne hi _ _
      rw [hnode]
      exact (h.carries i).mono hmono
  · rcases List.mem_append.mp hp with hp | hp
    · exact hmono p (h.frames p hp)
    · exact hcarries.handedToMac (h.node node) he p hp
  · rcases List.mem_append.mp hp with hp | hp
    · exact hmono p (h.delivered p hp)
    · obtain ⟨t, ht, rfl⟩ := exists_accepting_of_deliveredTo hp
      exact hacc t ht

/-- A step keeps the invariant when a packet that it accepts from another node is genuine. -/
theorem Inv.step (h : Inv conf made N) {a : CollectAction} {N' : CollectNetwork}
    (hst : (machine conf).step N a = some N')
    (hreceive : ∀ node pb env env' t, a = .receive node pb env env' →
      enabled (conf node) (N.nodes node) (.received pb env env') = true →
      pb.dataPacket ∈ N.frames →
      accepting (conf node) (N.nodes node) (.received pb env env') = some t →
      Genuine made N' t.packetbuf.dataPacket) : Inv conf made N' := by
  cases a with
  | event node a =>
      simp only [machine] at hst
      split at hst
      · rename_i hcond
        cases hst
        obtain ⟨hrec, he⟩ := Bool.and_eq_true_iff.mp hcond
        refine h.act he fun t ht => ?_
        rcases accepting_cases (h.carries node) (h.node node) ht with hown | ⟨_, _, _, rfl, _⟩
        · exact .inl (List.mem_append_right _ hown)
        · cases hrec
      · cases hst
  | receive node pb env env' =>
      simp only [machine] at hst
      split at hst
      · rename_i hcond
        cases hst
        obtain ⟨hframe, he⟩ := Bool.and_eq_true_iff.mp hcond
        refine h.act he fun t ht => ?_
        exact hreceive node pb env env' t rfl he (of_decide_eq_true hframe) ht
      · cases hst

/-- Every packet that a node hands to its MAC, and every packet that a sink delivers, was given to
`relcollect_send` by the application of the originator that it names, with its packet number and
its payload, or it has the bytes of an announcement and names no originator. -/
theorem genuine_or_announcement (h : (machine conf).Reachable N) :
    ∀ p, p ∈ N.frames ∨ p ∈ N.delivered → p ∈ N.submitted ∨ IsAnnouncement conf p := by
  have hinv : Inv conf (IsAnnouncement conf) N := by
    refine h.invariant (Inv conf (IsAnnouncement conf)) (inv_boot conf _) ?_
    intro N a N' hN hst
    refine hN.step hst ?_
    rintro node pb env env' t rfl he hframe ht
    simp only [machine, hframe, he, decide_true, Bool.and_self, if_true] at hst
    cases hst
    have hmono : ∀ p, Genuine (IsAnnouncement conf) N p →
        Genuine (IsAnnouncement conf) (N.act conf node (.received pb env env')) p := by
      intro p hp
      exact hp.imp_left (List.mem_append_left _)
    rcases accepting_cases (hN.carries node) (hN.node node) ht with
      hown | ⟨_, _, _, heq, hsame | hok | ⟨value, hann⟩⟩
    · cases hown
    · cases heq
      rw [hsame]
      exact hmono _ (hN.frames _ hframe)
    · exact hmono _ hok
    · exact .inr ⟨node, value, hann⟩
  rintro p (hp | hp)
  · exact hinv.frames p hp
  · exact hinv.delivered p hp

/-- No reception makes its node announce a new metric. -/
def KeepsMetric (N : CollectNetwork) : CollectAction → Prop
  | .receive node pb _ _ => changesMetric { N.nodes node with packetbuf := pb } = false
  | _ => True

instance (N : CollectNetwork) : (a : CollectAction) → Decidable (KeepsMetric N a)
  | .receive _ _ _ _ => inferInstanceAs (Decidable (_ = _))
  | .event _ _ => .isTrue trivial

/-- While no reception makes its node announce a new metric, every packet that a node hands to its
MAC, and every packet that a sink delivers, was given to `relcollect_send` by the application of
its originator. -/
theorem genuine_of_reachableIf (h : (machine conf).ReachableIf KeepsMetric N) :
    ∀ p, p ∈ N.frames ∨ p ∈ N.delivered → p ∈ N.submitted := by
  have hinv : Inv conf (fun _ => False) N := by
    refine h.invariant (Inv conf fun _ => False) (inv_boot conf _) ?_
    intro N a N' hN hkeeps hst
    refine hN.step hst ?_
    rintro node pb env env' t rfl he hframe ht
    simp only [machine, hframe, he, decide_true, Bool.and_self, if_true] at hst
    cases hst
    rw [dataPacket_of_not_changesMetric hkeeps ht]
    exact (hN.frames _ hframe).imp_left (List.mem_append_left _)
  rintro p (hp | hp)
  · exact (hinv.frames p hp).resolve_right id
  · exact (hinv.delivered p hp).resolve_right id

/-! ### Samples -/

/-- All nodes run the same build. -/
def sampleConf (addr : RimeAddr) : NodeConf := ⟨addr, .xmac, ⟨0x1100, rimeaddrNull⟩, 128⟩

/-- The outside of the samples: the clocks stand at 0 and LPP has room. -/
def sampleOutside : Env := ⟨0, 0, true, true⟩

/-- A node hears a neighbor that announces its routing metric. -/
def hears (node neighbor : RimeAddr) (value : UInt16) : CollectAction :=
  .event node (.recvAdv neighbor (announcementMsg 128 value) (fun _ _ => 0) fun _ => sampleOutside)

/-- The application of a node sends one byte. -/
def sends (node : RimeAddr) (byte : UInt8) : CollectAction :=
  .event node (.relcollectSend { Packetbuf.clear with data := [byte] } 3 sampleOutside)

/-- The timer of a pending packet expires, and the packet is acknowledged. -/
def transmits (node : RimeAddr) : CollectAction :=
  .event node (.sendTimer id true sampleOutside sampleOutside)

/-- A node receives a packet of `sender` with one byte. -/
def receives (node sender : RimeAddr) (packetId : UInt16) (byte : UInt8) : CollectAction :=
  let pb := { Packetbuf.clear with data := [byte] }
  let pb := ((pb.setAddr .esender sender).setAddr .sender sender).setAttr .epacketId packetId
  .receive node pb sampleOutside sampleOutside

/-- A node hears the sink and sends it a packet. -/
def oneHop : List CollectAction :=
  [.event ⟨2, 0⟩ .relcollectOpen, .event ⟨2, 0⟩ (.setSink true sampleOutside),
    .event ⟨1, 0⟩ .relcollectOpen, hears ⟨1, 0⟩ ⟨2, 0⟩ 0, sends ⟨1, 0⟩ 42, transmits ⟨1, 0⟩,
    receives ⟨2, 0⟩ ⟨1, 0⟩ 1 42]

/-- The sink delivers the packet. -/
theorem genuine_or_announcement_oneHop :
    ∃ N : CollectNetwork, N.delivered = [⟨⟨1, 0⟩, 1, [42]⟩] ∧
      ∀ p, p ∈ N.frames ∨ p ∈ N.delivered → p ∈ N.submitted ∨ IsAnnouncement sampleConf p := by
  have hend : ((machine sampleConf).run oneHop).map (·.delivered) =
      some [⟨⟨1, 0⟩, 1, [42]⟩] := by
    decide +kernel
  obtain ⟨N, hN, hdel⟩ := Machine.exists_reachable_of_run (M := machine sampleConf) hend
  exact ⟨N, hdel, genuine_or_announcement hN⟩

/-- No reception of the run changes a metric. -/
theorem genuine_of_reachableIf_oneHop :
    ∃ N : CollectNetwork, N.delivered = [⟨⟨1, 0⟩, 1, [42]⟩] ∧
      ∀ p, p ∈ N.frames ∨ p ∈ N.delivered → p ∈ N.submitted := by
  have hend : ((machine sampleConf).runIf KeepsMetric boot oneHop).map (·.delivered) =
      some [⟨⟨1, 0⟩, 1, [42]⟩] := by
    decide +kernel
  obtain ⟨N, hN, hdel⟩ := Machine.exists_reachableIf_of_runIf (M := machine sampleConf) hend
  exact ⟨N, hdel, genuine_of_reachableIf hN⟩

/-- A packet from the best neighbor makes a node drop that neighbor when it looks for the next
hop. The next packet then finds another metric. Its announcement takes the place of the packet in
the forwarding queue. -/
theorem announcement_reachable :
    ∃ N : CollectNetwork, (machine sampleConf).Reachable N ∧ ∃ p ∈ N.frames, p ∉ N.submitted := by
  have hend : ((machine sampleConf).run
      [.event ⟨3, 0⟩ .relcollectOpen, hears ⟨3, 0⟩ ⟨4, 0⟩ 0, sends ⟨3, 0⟩ 42, transmits ⟨3, 0⟩,
        sends ⟨3, 0⟩ 43, transmits ⟨3, 0⟩,
        .event ⟨1, 0⟩ .relcollectOpen, hears ⟨1, 0⟩ ⟨3, 0⟩ 0, hears ⟨1, 0⟩ ⟨4, 0⟩ 5,
        receives ⟨1, 0⟩ ⟨3, 0⟩ 1 42, receives ⟨1, 0⟩ ⟨3, 0⟩ 2 43, transmits ⟨1, 0⟩,
        transmits ⟨1, 0⟩]).map
      (fun N => N.frames.all (· ∈ N.submitted)) = some false := by
    decide +kernel
  obtain ⟨N, hN, hall⟩ := Machine.exists_reachable_of_run (M := machine sampleConf) hend
  simp only [List.all_eq_false, decide_eq_true_eq] at hall
  exact ⟨N, hN, hall⟩

end CollectNetwork

end PTunes.Rime
