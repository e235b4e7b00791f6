import PTunes.Rime.Relcollect

/-!
# `PTunes.Proofs.Rime.NodeInv`: what every handler of a node keeps

`NodeInv` is the invariant of all runs of a node, and the base of the results about the
forwarding queue and the routing metric. It has three parts. The queue buffers that the
node refers to are pairwise different and are exactly the allocated ones. A relunicast
transmission is pending when its timer is set or the MAC has the packet, never both, and
while one is pending relcollect is forwarding. The converse fails when LPP drops a packet: the
transmission stays pending without a timer. The announcement carries the routing metric, and
so does the announcement that waits to be sent.

`Quiet s s'` says that nothing changes that concerns the forwarding of packets. The lemmas
about the announcements and the routes conclude `NodeInv` and `Quiet` together. The rest of
the module goes through `rel_send_queued_packet` and the queue. `handle_rule` collects it:
to show that a property holds after an event, it is enough to look at the quiet steps, at
`enqueue`, at the calls of `rel_send_queued_packet` (`sendPoints`), at the completions
(`completed`) and at the transmissions that go on (`Pending`).
-/

set_option autoImplicit false

namespace PTunes.Rime

open PTunes.Core

/-- The queue buffers that the node refers to. -/
def Node.owned (s : Node) : List QueuebufPtr :=
  s.relunicast.buf.toList ++
    (s.ipolite.q.toList ++ (s.queue.bufs ++ (s.lppPacket.toList ++ s.others)))

/-- The buffers and the transmission state are consistent. -/
structure TxInv (s : Node) : Prop where
  pool : s.pool.Owns s.owned
  queue : s.queue.Inv
  tx : s.relunicast.timer = true ∨ s.macOwes = true → s.relunicast.isTx = true
  once : s.relunicast.timer = true → s.lppPacket = none
  txFwd : s.relunicast.isTx = true → s.conn.forwarding = true
  txBuf : s.relunicast.isTx = true → s.relunicast.buf ≠ none
  closed : s.opened = false → s.conn.forwarding = false

/-- The invariant of a node. -/
structure NodeInv (C : NodeConf) (s : Node) : Prop extends TxInv s where
  adv : ∀ b, s.ipolite.q = some b →
    (s.pool.bufmem.block b).data = announcementMsg C.channels s.conn.announcement
  announced : s.opened = true → s.conn.announcement = s.conn.rtmetric

/-- Nothing changes that concerns the forwarding of packets. -/
structure Quiet (s s' : Node) : Prop where
  isTx : s'.relunicast.isTx = s.relunicast.isTx
  timer : s'.relunicast.timer = s.relunicast.timer
  lppPacket : s'.lppPacket = s.lppPacket
  forwarding : s'.conn.forwarding = s.conn.forwarding
  uids : s'.queue.uids = s.queue.uids
  log : s'.log = s.log
  nextUid : s'.nextUid = s.nextUid

/-- Doing nothing is quiet. -/
theorem Quiet.refl (s : Node) : Quiet s s := ⟨rfl, rfl, rfl, rfl, rfl, rfl, rfl⟩

/-- One quiet step after another is quiet. -/
theorem Quiet.trans {s s' s'' : Node} (h : Quiet s s') (h' : Quiet s' s'') : Quiet s s'' where
  isTx := h'.isTx.trans h.isTx
  timer := h'.timer.trans h.timer
  lppPacket := h'.lppPacket.trans h.lppPacket
  forwarding := h'.forwarding.trans h.forwarding
  uids := h'.uids.trans h.uids
  log := h'.log.trans h.log
  nextUid := h'.nextUid.trans h.nextUid

/-- A step that leaves the transmission state alone keeps `TxInv` when it keeps the queue
and the pool. -/
theorem TxInv.same {s s' : Node} (h : TxInv s) (hr : s'.relunicast = s.relunicast)
    (hf : s'.conn.forwarding = s.conn.forwarding) (hm : s'.lppPacket = s.lppPacket)
    (ho : s'.opened = s.opened) (hqueue : s'.queue.Inv) (hp : s'.pool.Owns s'.owned) :
    TxInv s' where
  pool := hp
  queue := hqueue
  tx := by rw [Node.macOwes, hr, hm]; exact h.tx
  once := by rw [hr, hm]; exact h.once
  txFwd := by rw [hr, hf]; exact h.txFwd
  txBuf := by rw [hr]; exact h.txBuf
  closed := by rw [ho, hf]; exact h.closed

/-- A node boots with no buffer, no packet in transmission and a closed connection. -/
theorem nodeInv_boot (C : NodeConf) : NodeInv C Node.boot where
  pool := QueuebufPool.owns_queuebufInit
  queue := Packetqueue.inv_zero
  tx h := by rcases h with h | h <;> cases h
  once _ := rfl
  txFwd h := by cases h
  txBuf h := by cases h
  closed _ := rfl
  adv b hb := by cases hb
  announced h := by cases h

/-! ### Announcements -/

namespace Node

/-- Giving up an optional buffer leaves the owners of the others. -/
theorem owns_freeIfSet {p : QueuebufPool} {q : Option QueuebufPtr} {owned : List QueuebufPtr}
    (h : p.Owns (q.toList ++ owned)) : (freeIfSet p q).Owns owned := by
  cases q with
  | none => exact h
  | some b => exact h.free

/-- Freeing a buffer leaves the contents of all of them. -/
@[simp] theorem block_freeIfSet (p : QueuebufPool) (q : Option QueuebufPtr) (b : QueuebufPtr) :
    (freeIfSet p q).bufmem.block b = p.bufmem.block b := by
  cases q with
  | none => rfl
  | some c => exact block_queuebufFree p c b

/-- The waiting announcement can be put at the head of the owned buffers. -/
theorem owned_perm_ipolite (s : Node) :
    s.owned.Perm (s.ipolite.q.toList ++ (s.relunicast.buf.toList ++
      (s.queue.bufs ++ (s.lppPacket.toList ++ s.others)))) :=
  List.perm_append_comm_assoc _ _ _

/-- The packet on LPP's list can be put at the head of the owned buffers. -/
theorem owned_perm_lpp (s : Node) :
    s.owned.Perm (s.lppPacket.toList ++ (s.relunicast.buf.toList ++
      (s.ipolite.q.toList ++ (s.queue.bufs ++ s.others)))) := by
  have hqueue := List.perm_append_comm_assoc s.queue.bufs s.lppPacket.toList s.others
  have hipolite := (hqueue.append_left s.ipolite.q.toList).trans
    (List.perm_append_comm_assoc _ _ _)
  exact (hipolite.append_left s.relunicast.buf.toList).trans (List.perm_append_comm_assoc _ _ _)

/-- The buffers of the other protocols are the last ones. -/
theorem owned_eq_append_others (s : Node) :
    s.owned = (s.relunicast.buf.toList ++ (s.ipolite.q.toList ++
      (s.queue.bufs ++ s.lppPacket.toList))) ++ s.others := by
  simp only [owned, List.append_assoc]

end Node

/-- An announcement has nothing to do with the forwarding. -/
theorem sendAdv_quiet (C : NodeConf) (s : Node) : Quiet s (sendAdv C s) :=
  ⟨rfl, rfl, rfl, rfl, rfl, rfl, rfl⟩

/-- `ipolite_send` keeps the pool, and the waiting packet is what was in the packet buffer. -/
theorem ipoliteSend_owns {s : Node} (h : s.pool.Owns s.owned) (hdrsize : UInt8) :
    (ipoliteSend s hdrsize).pool.Owns (ipoliteSend s hdrsize).owned ∧
    ∀ b, (ipoliteSend s hdrsize).ipolite.q = some b →
      (ipoliteSend s hdrsize).pool.bufmem.block b = s.packetbuf.toQueuebuf := by
  have hrest := Node.owns_freeIfSet (h.perm s.owned_perm_ipolite)
  rcases hrest.new_cases s.packetbuf with ⟨b, p', hnew, hp', hb, _⟩ | ⟨_, hnew⟩
  · simp only [ipoliteSend, hnew]
    refine ⟨?_, fun c hc => ?_⟩
    · exact hp'.perm List.perm_middle.symm
    · cases hc
      exact hb
  · simp only [ipoliteSend, hnew]
    exact ⟨hrest, fun c hc => nomatch hc⟩

/-- `send_adv` needs the routing metric in the announcement only, and makes the waiting
packet right. -/
theorem TxInv.sendAdv {C : NodeConf} {s : Node} (h : TxInv s)
    (ha : s.opened = true → s.conn.announcement = s.conn.rtmetric) :
    NodeInv C (sendAdv C s) := by
  obtain ⟨hp, hb⟩ := ipoliteSend_owns
    (s := { s with packetbuf := { Packetbuf.clear with
      data := announcementMsg C.channels s.conn.announcement } }) h.pool
    (UInt8.ofNat (announcementMsg C.channels s.conn.announcement).length)
  refine ⟨h.same rfl rfl rfl rfl h.queue hp, fun b hq => ?_, ha⟩
  exact congrArg Queuebuf.data (hb b hq)

/-- `announcement_set_value` of the routing metric. -/
theorem TxInv.announcementSetValue {C : NodeConf} {s : Node} (h : TxInv s) {value : UInt16}
    (hv : s.conn.rtmetric = value) : NodeInv C (announcementSetValue C s value) := by
  have h' : TxInv { s with conn := { s.conn with announcement := value } } :=
    h.same rfl rfl rfl rfl h.queue h.pool
  exact h'.sendAdv fun _ => hv.symm

/-- Giving up the waiting announcement. -/
theorem NodeInv.dropAdv {C : NodeConf} {s : Node} (h : NodeInv C s) {b : QueuebufPtr}
    (hb : s.ipolite.q = some b) (pb : Packetbuf) :
    NodeInv C { s with
      pool := queuebufFree s.pool b
      packetbuf := pb
      ipolite := { s.ipolite with q := none, timer := false } } := by
  have hperm := h.pool.perm s.owned_perm_ipolite
  rw [hb] at hperm
  refine ⟨h.toTxInv.same rfl rfl rfl rfl h.queue hperm.free, ?_, h.announced⟩
  intro c hc
  cases hc

/-- Nor has the announcement that has waited long enough. -/
theorem ipoliteTimer_quiet (s : Node) (pb : Packetbuf) : Quiet s (ipoliteTimer s pb) := by
  unfold ipoliteTimer
  split <;> exact ⟨rfl, rfl, rfl, rfl, rfl, rfl, rfl⟩

/-- The announcement is sent, and its buffer is given back. -/
theorem NodeInv.ipoliteTimer {C : NodeConf} {s : Node} (h : NodeInv C s) (pb : Packetbuf) :
    NodeInv C (ipoliteTimer s pb) := by
  unfold Rime.ipoliteTimer
  split
  · rename_i b hb
    exact h.dropAdv hb pb
  · exact ⟨h.toTxInv.same rfl rfl rfl rfl h.queue h.pool, h.adv, h.announced⟩

/-- A heard announcement may cancel the own one, which is not forwarding. -/
theorem ipoliteRecv_quiet (s : Node) : Quiet s (ipoliteRecv s) := by
  unfold ipoliteRecv
  split
  · split <;> exact ⟨rfl, rfl, rfl, rfl, rfl, rfl, rfl⟩
  · exact Quiet.refl s

/-- It leaves the connection open or closed. -/
theorem ipoliteRecv_opened (s : Node) : (ipoliteRecv s).opened = s.opened := by
  unfold ipoliteRecv
  split
  · split <;> rfl
  · rfl

/-- The buffer of the announcement that is cancelled is given back. -/
theorem NodeInv.ipoliteRecv {C : NodeConf} {s : Node} (h : NodeInv C s) :
    NodeInv C (ipoliteRecv s) := by
  unfold Rime.ipoliteRecv
  split
  · rename_i b hb
    split
    · exact h.dropAdv hb s.packetbuf
    · exact h
  · exact h

/-! ### Routes -/

/-- A change of the neighbor table, the packet buffer and the statistics matters to no
invariant. -/
theorem NodeInv.frame {C : NodeConf} {s : Node} (h : NodeInv C s) (t : NeighborTable)
    (pb : Packetbuf) (st : QueuingStats) :
    NodeInv C { s with neighbors := t, packetbuf := pb, stats := st } :=
  ⟨h.toTxInv.same rfl rfl rfl rfl h.queue h.pool, h.adv, h.announced⟩

/-- The timer of relunicast has fired: `send` loads the packet and counts the transmission. The
timer is off now, so `once` asks nothing of the queue of LPP until it is set again. -/
theorem NodeInv.timerFired {C : NodeConf} {s : Node} (h : NodeInv C s)
    (htx : s.relunicast.isTx = true) (pb : Packetbuf) (rxmit : UInt8) :
    NodeInv C { s with
      packetbuf := pb
      relunicast := { s.relunicast with rxmit := rxmit, timer := false } } := by
  refine ⟨⟨h.pool, h.queue, fun _ => htx, fun htimer => ?_, h.txFwd, h.txBuf, h.closed⟩,
    h.adv, h.announced⟩
  cases htimer

/-- The four results of `rel_update_rtmetric` before its call of `rel_send_queued_packet`:
the sink does nothing, a node without a neighbor announces the maximum, a node with a new
metric announces it, and a node whose metric stays does nothing. -/
theorem updateRoute_cases (C : NodeConf) (s : Node) :
    (s.conn.rtmetric = sinkMetric ∧ updateRoute C s = (false, s)) ∨
    (s.conn.rtmetric ≠ sinkMetric ∧ (neighborBest s.neighbors).1 = none ∧
      updateRoute C s = (false, announcementSetValue C
        (setRtmetric s (neighborBest s.neighbors).2 rtmetricMax) rtmetricMax)) ∨
    (s.conn.rtmetric ≠ sinkMetric ∧ ∃ i, (neighborBest s.neighbors).1 = some i ∧
      ∃ rtmetric, rtmetric = ((neighborBest s.neighbors).2.get i).cost ∧
        rtmetric ≠ s.conn.rtmetric ∧
        updateRoute C s = (decide (s.conn.rtmetric = rtmetricMax), announcementSetValue C
          (setRtmetric s (neighborBest s.neighbors).2 rtmetric) rtmetric)) ∨
    (s.conn.rtmetric ≠ sinkMetric ∧ ∃ i, (neighborBest s.neighbors).1 = some i ∧
      ((neighborBest s.neighbors).2.get i).cost = s.conn.rtmetric ∧
      updateRoute C s = (false, { s with neighbors := (neighborBest s.neighbors).2 })) := by
  by_cases hsink : s.conn.rtmetric = sinkMetric
  · exact Or.inl ⟨hsink, by rw [updateRoute, if_pos hsink]⟩
  · refine Or.inr ?_
    cases hb : (neighborBest s.neighbors).1 with
    | none =>
        refine Or.inl ⟨hsink, rfl, ?_⟩
        simp only [updateRoute, if_neg hsink, hb]
    | some i =>
        refine Or.inr ?_
        by_cases hcost : ((neighborBest s.neighbors).2.get i).cost = s.conn.rtmetric
        · refine Or.inr ⟨hsink, i, rfl, hcost, ?_⟩
          simp only [updateRoute, if_neg hsink, hb, hcost, ne_eq, not_true_eq_false, if_false]
        · refine Or.inl ⟨hsink, i, rfl, _, rfl, hcost, ?_⟩
          simp only [updateRoute, if_neg hsink, hb, ne_eq, hcost, not_false_eq_true, if_true]

/-- The records that are no variables of the source matter to no invariant. -/
theorem NodeInv.record {C : NodeConf} {s : Node} (h : NodeInv C s) (log : List (FifoEvent Nat))
    (nextUid : Nat) (delivered : List (RimeAddr × UInt16)) :
    NodeInv C { s with log := log, nextUid := nextUid, delivered := delivered } :=
  ⟨⟨h.pool, h.queue, h.tx, h.once, h.txFwd, h.txBuf, h.closed⟩, h.adv, h.announced⟩

/-- The route update announces and stores, and forwards nothing. -/
theorem updateRoute_quiet (C : NodeConf) (s : Node) : Quiet s (updateRoute C s).2 := by
  have hset : ∀ t rtmetric,
      Quiet s (announcementSetValue C (setRtmetric s t rtmetric) rtmetric) := fun _ _ =>
    ⟨rfl, rfl, rfl, rfl, rfl, rfl, rfl⟩
  rcases updateRoute_cases C s with
    ⟨_, he⟩ | ⟨_, _, he⟩ | ⟨_, i, _, rtmetric, _, _, he⟩ | ⟨_, i, _, _, he⟩ <;> rw [he]
  · exact Quiet.refl s
  · exact hset _ _
  · exact hset _ _
  · exact ⟨rfl, rfl, rfl, rfl, rfl, rfl, rfl⟩

/-- It leaves the connection open or closed. -/
theorem updateRoute_opened (C : NodeConf) (s : Node) :
    (updateRoute C s).2.opened = s.opened := by
  rcases updateRoute_cases C s with
    ⟨_, he⟩ | ⟨_, _, he⟩ | ⟨_, i, _, rtmetric, _, _, he⟩ | ⟨_, i, _, _, he⟩ <;> rw [he] <;> rfl

/-- The route update stores a metric and announces the same one. -/
theorem NodeInv.updateRoute {C : NodeConf} {s : Node} (h : NodeInv C s) :
    NodeInv C (updateRoute C s).2 := by
  have hset : ∀ t rtmetric,
      NodeInv C (announcementSetValue C (setRtmetric s t rtmetric) rtmetric) := by
    intro t rtmetric
    have hr : TxInv (setRtmetric s t rtmetric) :=
      h.toTxInv.same rfl rfl rfl rfl h.queue h.pool
    exact hr.announcementSetValue rfl
  rcases updateRoute_cases C s with
    ⟨_, he⟩ | ⟨_, _, he⟩ | ⟨_, i, _, rtmetric, _, _, he⟩ | ⟨_, i, _, _, he⟩ <;> rw [he]
  · exact h
  · exact hset _ _
  · exact hset _ _
  · exact h.frame _ _ _

/-! ### `relunicast_send` -/

/-- `relunicast_send` will find a buffer: it frees that of the last packet first, and
without one the pool has a block. -/
def CanSend (s : Node) : Prop :=
  s.relunicast.buf ≠ none ∨ s.pool.queuebufLen.toNat < queuebufNum

instance (s : Node) : Decidable (CanSend s) :=
  inferInstanceAs (Decidable (_ ∨ _))

/-- `setTime` changes the time fields only. -/
theorem setTime_eq (C : NodeConf) (env : Env) (c : RelunicastConn) :
    ∃ h l, setTime C env c = { c with timeHigh := h, timeLow := l } := by
  unfold setTime
  split
  · exact ⟨_, _, rfl⟩
  · exact ⟨c.timeHigh, c.timeLow, rfl⟩

/-- The two results of `relunicast_send` while no transmission is pending: it takes a buffer
and starts the transmission, or it is left without a buffer. -/
theorem relunicastSend_cases {C : NodeConf} {s : Node} (h : NodeInv C s)
    (htx : s.relunicast.isTx = false) (hfwd : s.conn.forwarding = true) (env : Env)
    (receiver : RimeAddr) (maxRetransmissions : UInt8) (esender : RimeAddr) :
    ∃ p pb c, relunicastSend C env s receiver maxRetransmissions esender =
        (decide (CanSend s), { s with pool := p, packetbuf := pb, relunicast := c }) ∧
      c.isTx = decide (CanSend s) ∧ c.timer = decide (CanSend s) ∧
      NodeInv C { s with pool := p, packetbuf := pb, relunicast := c } := by
  have hrest := Node.owns_freeIfSet h.pool
  have hclear : ¬ (s.relunicast.timer = true ∨ s.macOwes = true) := by
    intro hpending
    rw [h.tx hpending] at htx
    cases htx
  have hlpp : s.lppPacket = none := by
    rw [← Option.not_isSome_iff_eq_none]
    exact fun hsome => hclear (Or.inr hsome)
  have hlen : s.pool.queuebufLen.toNat = s.owned.length := h.pool.len
  have hle : s.owned.length ≤ 22 := h.pool.blocks.length_le
  rw [Node.owned, List.length_append] at hlen hle
  rcases hrest.new_cases (s.packetbuf.setAttr .packetId s.relunicast.sndnxt.toUInt16) with
    ⟨b, p', hnew, hp', _, hblock⟩ | ⟨hfull, hnew⟩
  · have hcan : CanSend s := by
      -- The block `b` and the rest fit the pool.
      have hfit := hp'.blocks.length_le
      rw [List.length_cons] at hfit
      unfold CanSend
      cases hbuf : s.relunicast.buf with
      | some _ => exact Or.inl (by simp)
      | none =>
          rw [hbuf, Option.toList_none, List.length_nil] at hlen
          exact Or.inr (by omega)
    obtain ⟨hi, lo, htime⟩ := setTime_eq C env { s.relunicast with
      buf := some b, maxRxmit := maxRetransmissions, rxmit := 0, isTx := true,
      esender := esender, receiver := receiver }
    refine ⟨p', s.packetbuf.setAttr .packetId s.relunicast.sndnxt.toUInt16,
      { s.relunicast with
        buf := some b, receiver := receiver, rxmit := 0, maxRxmit := maxRetransmissions,
        isTx := true, esender := esender, timeHigh := hi, timeLow := lo, timer := true },
      ?_, ?_, ?_, ?_⟩
    · simp only [relunicastSend, htx, hnew, htime, scheduleSend, hcan, decide_true,
        Bool.false_eq_true, if_false]
    · exact (decide_eq_true hcan).symm
    · exact (decide_eq_true hcan).symm
    · refine ⟨⟨hp', h.queue, fun _ => rfl, fun _ => hlpp, fun _ => hfwd, fun _ => ?_,
        h.closed⟩, fun a ha => ?_, h.announced⟩
      · exact Option.some_ne_none b
      · have hmem : a ∈ s.ipolite.q.toList ++
            (s.queue.bufs ++ (s.lppPacket.toList ++ s.others)) := by
          rw [show s.ipolite.q = some a from ha]
          exact List.mem_cons_self
        show (p'.bufmem.block a).data = _
        rw [hblock a hmem, Node.block_freeIfSet]
        exact h.adv a ha
  · have hcan : ¬ CanSend s := by
      have hnum : queuebufNum = 22 := rfl
      unfold CanSend
      cases hbuf : s.relunicast.buf with
      | some _ =>
          rw [hbuf, Option.toList_some, List.length_singleton] at hle
          omega
      | none =>
          rw [hbuf, Option.toList_none, List.length_nil] at hlen
          simp only [ne_eq, not_true_eq_false, false_or]
          omega
    refine ⟨Node.freeIfSet s.pool s.relunicast.buf,
      s.packetbuf.setAttr .packetId s.relunicast.sndnxt.toUInt16,
      { s.relunicast with buf := none }, ?_, ?_, ?_, ?_⟩
    · simp only [relunicastSend, htx, hnew, hcan, decide_false, Bool.false_eq_true, if_false]
    · exact htx.trans (decide_eq_false hcan).symm
    · have htimer : s.relunicast.timer = false := by
        rw [← Bool.not_eq_true]
        exact fun ht => hclear (Or.inl ht)
      exact htimer.trans (decide_eq_false hcan).symm
    · refine ⟨⟨hrest, h.queue, h.tx, h.once, h.txFwd, fun ht => ?_, h.closed⟩, ?_, h.announced⟩
      · rw [show s.relunicast.isTx = true from ht] at htx
        cases htx
      · intro a ha
        rw [Node.block_freeIfSet]
        exact h.adv a ha

/-! ### `rel_send_queued_packet` -/

/-- `rel_send_queued_packet` reaches `relunicast_send`: there is a packet to forward, and a
next hop for it. -/
def handsOver (C : NodeConf) (env : Env) (s : Node) : Bool :=
  match packetToForward C env s with
  | none => false
  | some (_, q) => (nextHop C { s with packetbuf := queuebufToPacketbuf s.pool q }).1.isSome

/-- After `rel_send_queued_packet` has reached `relunicast_send`: the node is forwarding,
and an accepted packet is in transmission, with its timer set, and in the log. -/
structure HandedOver (s s' : Node) (accepted : Bool) : Prop where
  forwarding : s'.conn.forwarding = true
  isTx : s'.relunicast.isTx = accepted
  timer : s'.relunicast.timer = accepted
  uids : s'.queue.uids = s.queue.uids
  nextUid : s'.nextUid = s.nextUid
  log : s'.log = s.log ++ if accepted then (s.queue.uids.take 1).map .handOver else []

/-- `nextHop` changes the neighbor table only. -/
theorem nextHop_eq (C : NodeConf) (s : Node) :
    ∃ t, (nextHop C s).2 = { s with neighbors := t } := by
  unfold nextHop
  simp only
  split
  · exact ⟨_, rfl⟩
  · split <;> exact ⟨_, rfl⟩

/-- What `rel_send_queued_packet` prepares before the hand-over matters to no invariant. -/
theorem prepare_eq (C : NodeConf) (env : Env) (s : Node) (i : PacketqueueItemPtr)
    (n : NeighborPtr) :
    ∃ parentId parentId' pb st, updateQueuingStats C env (noteParent C s n) i =
      { s with
        conn := { s.conn with parentId := parentId }
        parentId := parentId', packetbuf := pb, stats := st } := by
  unfold updateQueuingStats noteParent
  split <;> exact ⟨_, _, _, _, rfl⟩

/-- There is a packet to forward only while the node is not forwarding, and then it is the
head of the queue. -/
theorem packetToForward_some {C : NodeConf} {env : Env} {s : Node} {i : PacketqueueItemPtr}
    {q : QueuebufPtr} (h : packetToForward C env s = some (i, q)) :
    s.conn.forwarding = false ∧ s.queue.uids.take 1 = [(s.queue.memb.block i).uid] := by
  unfold packetToForward packetqueueFirst at h
  cases hl : s.queue.list with
  | nil =>
      rw [hl] at h
      cases h
  | cons j rest =>
      rw [hl] at h
      simp only [List.head?_cons] at h
      split at h
      · cases h
      · rename_i hf
        split at h
        · cases h
        · obtain ⟨_, _, he⟩ := Option.map_eq_some_iff.mp h
          cases he
          refine ⟨by simpa using hf, ?_⟩
          rw [Packetqueue.uids, hl]
          rfl

/-- The hand-over itself. -/
theorem forwardTo_spec {C : NodeConf} {s : Node} (h : NodeInv C s) (ho : s.opened = true)
    (hf : s.conn.forwarding = false) (env : Env) {i : PacketqueueItemPtr}
    (hi : s.queue.uids.take 1 = [(s.queue.memb.block i).uid]) (n : NeighborPtr) :
    NodeInv C (forwardTo C env s i n) ∧ (forwardTo C env s i n).opened = true ∧
      HandedOver s (forwardTo C env s i n) (decide (CanSend s)) := by
  obtain ⟨parentId, parentId', pb, st, hprep⟩ := prepare_eq C env s i n
  have htx : s.relunicast.isTx = false := by
    rw [← Bool.not_eq_true]
    intro ht
    rw [h.txFwd ht] at hf
    cases hf
  -- The state at the call of `relunicast_send`.
  have hcall : NodeInv C { s with
      conn := { s.conn with parentId := parentId, forwarding := true }
      parentId := parentId', packetbuf := pb, stats := st } := by
    refine ⟨⟨h.pool, h.queue, h.tx, h.once, fun _ => rfl, h.txBuf, fun hc => ?_⟩, h.adv,
      h.announced⟩
    rw [show s.opened = false from hc] at ho
    cases ho
  obtain ⟨p, pb', c, hsend, hc, ht, hinv⟩ := relunicastSend_cases hcall htx rfl env
    (s.neighbors.get n).addr (pb.attr .maxRexmit).toUInt8 (pb.addr .esender)
  have hcan : decide (CanSend { s with
      conn := { s.conn with parentId := parentId, forwarding := true }
      parentId := parentId', packetbuf := pb, stats := st }) = decide (CanSend s) := rfl
  rw [hcan] at hsend hc ht
  simp only [forwardTo, hprep, hsend]
  by_cases hs : CanSend s
  · simp only [hs, decide_true] at hc ht ⊢
    exact ⟨hinv.record _ _ _, ho, rfl, hc, ht, rfl, rfl, by simp [logHandOver, hi]⟩
  · simp only [hs, decide_false] at hc ht ⊢
    exact ⟨hinv, ho, rfl, hc, ht, rfl, rfl, by simp⟩

/-- What `rel_send_queued_packet` does: nothing that concerns the forwarding, or it hands
the head of the queue over. -/
theorem relSendQueuedPacket_spec {C : NodeConf} {s : Node} (h : NodeInv C s)
    (ho : s.opened = true) (env : Env) :
    NodeInv C (relSendQueuedPacket C env s) ∧ (relSendQueuedPacket C env s).opened = true ∧
    ((handsOver C env s = false ∧ Quiet s (relSendQueuedPacket C env s)) ∨
     (handsOver C env s = true ∧ s.conn.forwarding = false ∧ s.queue.uids ≠ [] ∧
       HandedOver s (relSendQueuedPacket C env s) (decide (CanSend s)))) := by
  cases hp : packetToForward C env s with
  | none =>
      simp only [relSendQueuedPacket, handsOver, hp]
      exact ⟨h, ho, Or.inl ⟨trivial, Quiet.refl s⟩⟩
  | some r =>
      obtain ⟨i, q⟩ := r
      obtain ⟨hf, hi⟩ := packetToForward_some hp
      obtain ⟨t, ht⟩ := nextHop_eq C { s with packetbuf := queuebufToPacketbuf s.pool q }
      have hnext : NodeInv C
          { s with packetbuf := queuebufToPacketbuf s.pool q, neighbors := t } := h.frame _ _ _
      cases hn : nextHop C { s with packetbuf := queuebufToPacketbuf s.pool q } with
      | mk n s' =>
          rw [hn] at ht
          subst ht
          cases n with
          | none =>
              -- Without a next hop nothing is sent.
              simp only [relSendQueuedPacket, handsOver, hp, hn]
              exact ⟨hnext, ho, Or.inl ⟨rfl, rfl, rfl, rfl, rfl, rfl, rfl, rfl⟩⟩
          | some n =>
              simp only [relSendQueuedPacket, handsOver, hp, hn]
              obtain ⟨hinv, ho', hh⟩ := forwardTo_spec hnext ho hf env hi n
              refine ⟨hinv, ho', Or.inr ⟨rfl, hf, ?_,
                hh.forwarding, hh.isTx, hh.timer, hh.uids, hh.nextUid, hh.log⟩⟩
              -- The queue has a head, since there was a packet to forward.
              intro hnil
              rw [hnil] at hi
              cases hi

/-- The state in which a cut handler calls `rel_send_queued_packet`, if it makes the call. -/
def sendPoint (env : Env) (r : Bool × Node) : List (Env × Node) :=
  if r.1 then [(env, r.2)] else []

/-- A cut handler keeps what its call of `rel_send_queued_packet` keeps. -/
theorem sendIf_rule {C : NodeConf} {env : Env} {r : Bool × Node} (I : Node → Prop)
    (h : NodeInv C r.2) (ho : r.2.opened = true) (hI : I r.2)
    (hsend : ∀ p ∈ sendPoint env r, NodeInv C p.2 → p.2.opened = true → I p.2 →
      I (relSendQueuedPacket C p.1 p.2)) :
    NodeInv C (sendIf C env r) ∧ (sendIf C env r).opened = true ∧ I (sendIf C env r) := by
  unfold sendIf
  unfold sendPoint at hsend
  split
  · rename_i hcall
    rw [if_pos hcall] at hsend
    obtain ⟨hinv, ho', _⟩ := relSendQueuedPacket_spec h ho env
    exact ⟨hinv, ho', hsend (env, r.2) List.mem_cons_self h ho hI⟩
  · exact ⟨h, ho, hI⟩

/-- `rel_update_rtmetric` keeps what quiet steps and its call of `rel_send_queued_packet`
keep. -/
theorem relUpdateRtmetric_rule {C : NodeConf} (env : Env) {s : Node} (I : Node → Prop)
    (h : NodeInv C s) (ho : s.opened = true) (hI : I s)
    (hquiet : ∀ t t', Quiet t t' → I t → I t')
    (hsend : ∀ p ∈ sendPoint env (updateRoute C s), NodeInv C p.2 → p.2.opened = true →
      I p.2 → I (relSendQueuedPacket C p.1 p.2)) :
    NodeInv C (relUpdateRtmetric C env s) ∧ (relUpdateRtmetric C env s).opened = true ∧
      I (relUpdateRtmetric C env s) :=
  sendIf_rule I h.updateRoute ((updateRoute_opened C s).trans ho)
    (hquiet _ _ (updateRoute_quiet C s) hI) hsend

/-! ### The forwarding queue -/

/-- After a packet has been enqueued. -/
structure Enqueued (s s' : Node) : Prop where
  isTx : s'.relunicast.isTx = s.relunicast.isTx
  timer : s'.relunicast.timer = s.relunicast.timer
  lppPacket : s'.lppPacket = s.lppPacket
  forwarding : s'.conn.forwarding = s.conn.forwarding
  uids : s'.queue.uids = s.queue.uids ++ [s.nextUid]
  log : s'.log = s.log ++ [.enqueue s.nextUid]
  nextUid : s'.nextUid = s.nextUid + 1

/-- A buffer of the queue can be put at the head of the owned buffers. -/
theorem owned_perm_queue {α : Type} (a b c d : List α) (x : α) :
    (x :: (a ++ (b ++ (c ++ d)))).Perm (a ++ (b ++ (c ++ x :: d))) :=
  ((List.perm_middle.append_left b).append_left a |>.trans
    (List.perm_middle.append_left a |>.trans List.perm_middle)).symm

/-- What `packetqueue_enqueue_packetbuf` on the forwarding queue does. -/
theorem NodeInv.enqueueForwarding {C : NodeConf} {s : Node} (h : NodeInv C s) (env : Env) :
    NodeInv C (enqueueForwarding env s).2 ∧ (enqueueForwarding env s).2.opened = s.opened ∧
    (((enqueueForwarding env s).1 = true ∧ Enqueued s (enqueueForwarding env s).2) ∨
     ((enqueueForwarding env s).1 = false ∧ Quiet s (enqueueForwarding env s).2)) := by
  rcases Packetqueue.enqueue_cases h.queue h.pool s.packetbuf env.clockTime s.nextUid with
    ⟨q', p', b, he, hq, huids, hbufs, hp, hblock⟩ | ⟨q', he, hq, huids, hbufs⟩
  · simp only [Rime.enqueueForwarding, he]
    refine ⟨⟨⟨?_, hq, h.tx, h.once, h.txFwd, h.txBuf, h.closed⟩, ?_, h.announced⟩, trivial,
      Or.inl ⟨trivial, rfl, rfl, rfl, rfl, huids, rfl, rfl⟩⟩
    · show p'.Owns (s.relunicast.buf.toList ++
        (s.ipolite.q.toList ++ (q'.bufs ++ (s.lppPacket.toList ++ s.others))))
      rw [hbufs, List.append_assoc]
      exact hp.perm (owned_perm_queue _ _ _ _ _)
    · intro a ha
      have hmem : a ∈ s.owned := by
        refine List.mem_append_right _ (List.mem_append_left _ ?_)
        rw [show s.ipolite.q = some a from ha]
        exact List.mem_singleton_self a
      show (p'.bufmem.block a).data = _
      rw [hblock a hmem]
      exact h.adv a ha
  · simp only [Rime.enqueueForwarding, he]
    have hp : s.pool.Owns (s.relunicast.buf.toList ++
        (s.ipolite.q.toList ++ (q'.bufs ++ (s.lppPacket.toList ++ s.others)))) := by
      rw [hbufs]
      exact h.pool
    exact ⟨⟨h.toTxInv.same rfl rfl rfl rfl hq hp, h.adv, h.announced⟩, trivial,
      Or.inr ⟨trivial, rfl, rfl, rfl, rfl, huids, rfl, rfl⟩⟩

/-- After the head of the queue has been removed. -/
structure Dequeued (s s' : Node) : Prop where
  isTx : s'.relunicast.isTx = s.relunicast.isTx
  timer : s'.relunicast.timer = s.relunicast.timer
  lppPacket : s'.lppPacket = s.lppPacket
  forwarding : s'.conn.forwarding = s.conn.forwarding
  uids : s'.queue.uids = s.queue.uids.tail
  log : s'.log = s.log ++ (s.queue.uids.take 1).map .dequeue
  nextUid : s'.nextUid = s.nextUid

/-- What `packetqueue_dequeue` on the forwarding queue does. -/
theorem NodeInv.dequeueForwarding {C : NodeConf} {s : Node} (h : NodeInv C s) :
    NodeInv C (dequeueForwarding s) ∧ (dequeueForwarding s).opened = s.opened ∧
      Dequeued s (dequeueForwarding s) := by
  cases hl : s.queue.list with
  | nil =>
      have he : packetqueueDequeue s.queue s.pool = (s.queue, s.pool) := by
        simp only [packetqueueDequeue, hl]
      have huids : s.queue.uids = [] := by
        rw [Packetqueue.uids, hl]
        rfl
      refine ⟨?_, rfl, rfl, rfl, rfl, rfl, ?_, rfl, rfl⟩
      · simp only [Rime.dequeueForwarding, he]
        exact h.record _ _ _
      · simp only [Rime.dequeueForwarding, he, huids, List.tail_nil]
  | cons i rest =>
      obtain ⟨q', b, he, hq, huids, hbufs⟩ := Packetqueue.dequeue_cons (p := s.pool) h.queue hl
      have hp : (queuebufFree s.pool b).Owns (s.relunicast.buf.toList ++
          (s.ipolite.q.toList ++ (q'.bufs ++ (s.lppPacket.toList ++ s.others)))) := by
        have hown := h.pool
        rw [Node.owned, hbufs] at hown
        exact (hown.perm (owned_perm_queue _ _ [] _ _).symm).free
      refine ⟨?_, rfl, rfl, rfl, rfl, rfl, ?_, rfl, rfl⟩
      · simp only [Rime.dequeueForwarding, he]
        refine ⟨⟨hp, hq, h.tx, h.once, h.txFwd, h.txBuf, h.closed⟩, fun a ha => ?_, h.announced⟩
        rw [block_queuebufFree]
        exact h.adv a ha
      · simp only [Rime.dequeueForwarding, he]
        rw [huids]
        rfl

end PTunes.Rime
