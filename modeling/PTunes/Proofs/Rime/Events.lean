import PTunes.Proofs.Rime.AdvLoop
import PTunes.Proofs.Rime.NodeInv

/-!
# `PTunes.Proofs.Rime.Events`: one rule for all events of a node

`handle_rule` takes the handlers of a node apart. A property that quiet steps and `enqueue`
keep (`Stable`) is kept by an event when it is kept in three more places: by the calls of
`rel_send_queued_packet` that the event makes, in the states that `sendPoints` lists, by a
transmission that goes on (`Pending`), and by the completion of a transmission, which
`completed` describes up to the removal of the packet from the queue. `NodeInv` is available
in each of them, and the rule proves that it holds after the event.

An announcement can have several route updates, one for each turn of the loop in
`adv_packet_received` that finds the id of relcollect. `hearing_rule` is the rule for them.
-/

set_option autoImplicit false

namespace PTunes.Rime

open PTunes.Core

/-- Quiet steps and `enqueue` keep the property. -/
structure Stable (I : Node → Prop) : Prop where
  quiet : ∀ s s', Quiet s s' → I s → I s'
  enqueue : ∀ s s', Enqueued s s' → I s → I s'

/-! ### The events -/

/-- The event completes the transmission: the state after the ETX update, and what the two
calls of `rel_send_queued_packet` read from the outside. -/
def completed (C : NodeConf) (s : Node) : NodeAction → Option (Env × Env × Node)
  | .sendTimer mac acked env env' =>
    let c := s.relunicast
    if c.rxmit > c.maxRxmit then
      let c := Relunicast.finish c
      some (env, env', noteCompletion neighborTimedoutEtx c.receiver c.rxmit
        { s with relunicast := c })
    else if C.mac = .xmac ∧ acked = true then
      let pb := (Relunicast.loadPacket C s).setAddr .receiver c.receiver
      let c := Relunicast.finish { c with rxmit := c.rxmit + 1, timer := false }
      some (env, env', noteCompletion neighborUpdateEtx c.receiver c.rxmit
        { s with packetbuf := mac pb, relunicast := c })
    else none
  | .removeQueuedPacket acked env env' _ =>
    if acked then
      let c := Relunicast.finish s.relunicast
      some (env, env', noteCompletion neighborUpdateEtx c.receiver c.rxmit
        { s with
          pool := Node.freeIfSet s.pool s.lppPacket, lppPacket := none, relunicast := c })
    else none
  | _ => none

/-- The event is about the packet in transmission: the timer has expired, or LPP takes the
packet off its list. -/
def isAttempt : NodeAction → Bool
  | .sendTimer _ _ _ _ => true
  | .removeQueuedPacket _ _ _ _ => true
  | _ => false

/-- A completion is an event about the packet in transmission. -/
theorem isAttempt_of_completed {C : NodeConf} {s : Node} {a : NodeAction}
    {r : Env × Env × Node} (h : completed C s a = some r) : isAttempt a = true := by
  cases a with
  | sendTimer mac acked env env' => rfl
  | removeQueuedPacket acked env env' env'' => rfl
  | _ => cases h

/-- A packet that is no duplicate has been received, and the route has been updated. -/
def routeReceived (C : NodeConf) (env : Env) (s : Node) : Node :=
  if lowMetric s then relUpdateRtmetric C env s else s

/-- The states in which an event calls `rel_send_queued_packet`, without the last call of
`remove_queued_packet`. -/
def innerPoints (C : NodeConf) (s : Node) (a : NodeAction) : List (Env × Node) :=
  match completed C s a with
  | some (env, env', s') =>
    sendPoint env (updateRoute C s') ++ [(env', dequeueForwarding (relUpdateRtmetric C env s'))]
  | none =>
    match a with
    | .setSink shouldBeSink env => sendPoint env (updateRoute C (setSinkMetric C s shouldBeSink))
    | .relcollectSend pb rexmits env =>
      sendPoint env (acceptOwn env (prepareSend C { s with packetbuf := pb } rexmits))
    | .received pb env env' =>
      let s := { s with packetbuf := pb }
      if isRecent s then []
      else
        let s := noteRecent s
        (if lowMetric s then sendPoint env (updateRoute C s) else []) ++
          sendPoint env' (acceptReceived env' (routeReceived C env s))
    | .recvAdv sender data outside env =>
      (hearAdv C s sender data outside env).noted.flatMap fun p =>
        sendPoint p.1 (updateRoute C p.2)
    | _ => []

/-- The states in which an event calls `rel_send_queued_packet`. -/
def sendPoints (C : NodeConf) (s : Node) (a : NodeAction) : List (Env × Node) :=
  innerPoints C s a ++ (lastCall a).toList.map fun env => (env, handleEvent C s a)

/-- A completion calls `rel_send_queued_packet` after the removal of the packet, and before
it when the route update makes the call. -/
theorem innerPoints_completed {C : NodeConf} {s s' : Node} {a : NodeAction} {env env' : Env}
    (h : completed C s a = some (env, env', s')) :
    innerPoints C s a = sendPoint env (updateRoute C s') ++
      [(env', dequeueForwarding (relUpdateRtmetric C env s'))] := by
  unfold innerPoints
  rw [h]

/-- An event that completes the transmission goes on with the removal of the packet. -/
theorem handleEvent_completed {C : NodeConf} {s s' : Node} {a : NodeAction} {env env' : Env}
    (h : completed C s a = some (env, env', s')) :
    handleEvent C s a = completePacket C env env' s' := by
  cases a with
  | sendTimer mac acked e e' =>
      simp only [completed] at h
      simp only [handleEvent, Relunicast.send]
      split at h
      · rename_i hr
        cases h
        rw [if_pos hr]
        rfl
      · rename_i hr
        split at h
        · rename_i hx
          cases h
          rw [if_neg hr, hx.1]
          simp only [hx.2, if_true]
          rfl
        · cases h
  | removeQueuedPacket acked e e' e'' =>
      simp only [completed] at h
      split at h
      · rename_i hacked
        cases h
        simp only [handleEvent, removeQueuedPacket, Relunicast.postSend, hacked, if_true]
        rfl
      · cases h
  | _ => cases h

/-- The end of a transmission keeps the invariant. -/
theorem NodeInv.finish {C : NodeConf} {s : Node} (h : NodeInv C s) {c : RelunicastConn}
    (hbuf : c.buf = s.relunicast.buf) (hlpp : s.lppPacket = none) (pb : Packetbuf) :
    NodeInv C { s with packetbuf := pb, relunicast := Relunicast.finish c } := by
  have howned : Node.owned { s with packetbuf := pb, relunicast := Relunicast.finish c }
      = s.owned := by
    show c.buf.toList ++ _ = _
    rw [hbuf]
    rfl
  refine ⟨⟨?_, h.queue, ?_, ?_, ?_, ?_, h.closed⟩, h.adv, h.announced⟩
  · rw [howned]
    exact h.pool
  · rintro (ht | howes)
    · cases ht
    · rw [Node.macOwes, show _ = none from hlpp] at howes
      cases howes
  · intro ht
    cases ht
  · intro ht
    cases ht
  · intro ht
    cases ht

/-- The queue buffer of LPP's packet is freed. -/
theorem NodeInv.dropLppPacket {C : NodeConf} {s : Node} (h : NodeInv C s) :
    NodeInv C { s with pool := Node.freeIfSet s.pool s.lppPacket, lppPacket := none } := by
  have hpool := Node.owns_freeIfSet (h.pool.perm s.owned_perm_lpp)
  refine ⟨⟨hpool, h.queue, ?_, fun _ => rfl, h.txFwd, h.txBuf, h.closed⟩, fun b hb => ?_,
    h.announced⟩
  · rintro (ht | howes)
    · exact h.tx (Or.inl ht)
    · cases howes
  · rw [Node.block_freeIfSet]
    exact h.adv b hb

/-- The first part of a completion keeps the invariant. -/
theorem NodeInv.noteCompletion {C : NodeConf} {s : Node} (h : NodeInv C s)
    (htx : s.relunicast.isTx = false)
    (etx : NeighborTable → Option NeighborPtr → UInt8 → NeighborTable) (receiver : RimeAddr)
    (retransmissions : UInt8) : NodeInv C (noteCompletion etx receiver retransmissions s) := by
  refine ⟨⟨h.pool, h.queue, h.tx, h.once, fun ht => ?_, h.txBuf, fun _ => rfl⟩, h.adv,
    h.announced⟩
  rw [show s.relunicast.isTx = true from ht] at htx
  cases htx

/-- An enabled event about the packet in transmission finds one pending. -/
theorem NodeInv.pending {C : NodeConf} {s : Node} {a : NodeAction} (h : NodeInv C s)
    (he : enabled C s a = true) (ha : isAttempt a = true) :
    s.opened = true ∧ (s.relunicast.timer = true ∨ s.macOwes = true) ∧
      s.relunicast.isTx = true := by
  cases a with
  | sendTimer mac acked env env' =>
      obtain ⟨ho, ht⟩ := Bool.and_eq_true_iff.mp he
      exact ⟨ho, Or.inl ht, h.tx (Or.inl ht)⟩
  | removeQueuedPacket acked env env' env'' =>
      obtain ⟨ho, hm⟩ := Bool.and_eq_true_iff.mp he
      exact ⟨ho, Or.inr hm, h.tx (Or.inr hm)⟩
  | _ => cases ha

/-- What holds when a transmission completes: it was pending, and it is over. -/
structure Completion (s s' : Node) : Prop where
  wasTx : s.relunicast.isTx = true
  isTx : s'.relunicast.isTx = false
  forwarding : s'.conn.forwarding = false
  opened : s'.opened = true
  uids : s'.queue.uids = s.queue.uids
  log : s'.log = s.log
  nextUid : s'.nextUid = s.nextUid

/-- An enabled event that completes a transmission finds one pending. -/
theorem completed_spec {C : NodeConf} {s s' : Node} {a : NodeAction} {env env' : Env}
    (h : NodeInv C s) (he : enabled C s a = true)
    (hc : completed C s a = some (env, env', s')) : NodeInv C s' ∧ Completion s s' := by
  cases a with
  | sendTimer mac acked e e' =>
      obtain ⟨ho, _, htx⟩ := h.pending he rfl
      have hlpp := h.once (Bool.and_eq_true_iff.mp he).2
      simp only [completed] at hc
      split at hc
      · cases hc
        exact ⟨(h.finish rfl hlpp s.packetbuf).noteCompletion rfl _ _ _,
          htx, rfl, rfl, ho, rfl, rfl, rfl⟩
      · split at hc
        · cases hc
          have hf := h.finish (c := { s.relunicast with
            rxmit := s.relunicast.rxmit + 1, timer := false }) rfl hlpp
          exact ⟨(hf _).noteCompletion rfl _ _ _, htx, rfl, rfl, ho, rfl, rfl, rfl⟩
        · cases hc
  | removeQueuedPacket acked e e' e'' =>
      obtain ⟨ho, _, htx⟩ := h.pending he rfl
      simp only [completed] at hc
      split at hc
      · cases hc
        have hdrop := h.dropLppPacket
        exact ⟨(hdrop.finish rfl rfl s.packetbuf).noteCompletion rfl _ _ _,
          htx, rfl, rfl, ho, rfl, rfl, rfl⟩
      · cases hc
  | _ => cases hc

/-- A transmission goes on: it was pending, and neither the queue nor the flags change. Whether
its timer is set or LPP has the packet can change. -/
structure Pending (s s' : Node) : Prop where
  wasOwed : s.relunicast.timer = true ∨ s.macOwes = true
  opened : s'.opened = s.opened
  isTx : s'.relunicast.isTx = s.relunicast.isTx
  forwarding : s'.conn.forwarding = s.conn.forwarding
  uids : s'.queue.uids = s.queue.uids
  log : s'.log = s.log
  nextUid : s'.nextUid = s.nextUid

/-- LPP drops the packet, keeps it as a broadcast, or puts it on its list as the packet of the
connection. -/
theorem lppSendPacket_cases (env : Env) (s : Node) :
    (∃ p, Relunicast.lppSendPacket env s = { s with pool := p } ∧
      (p = s.pool ∨ queuebufNewFromPacketbuf s.pool s.packetbuf = (none, p))) ∨
    ∃ b p, env.lppItem = true ∧ queuebufNewFromPacketbuf s.pool s.packetbuf = (some b, p) ∧
      (rimeaddrCmp s.relunicast.receiver rimeaddrNull = true ∧
        Relunicast.lppSendPacket env s = { s with pool := p, others := b :: s.others } ∨
       rimeaddrCmp s.relunicast.receiver rimeaddrNull = false ∧
        Relunicast.lppSendPacket env s = { s with pool := p, lppPacket := some b }) := by
  cases hitem : env.lppItem with
  | false =>
      refine Or.inl ⟨s.pool, ?_, Or.inl rfl⟩
      simp only [Relunicast.lppSendPacket, hitem, Bool.false_eq_true, if_false]
  | true =>
      rcases hnew : queuebufNewFromPacketbuf s.pool s.packetbuf with ⟨_ | b, p⟩
      · refine Or.inl ⟨p, ?_, Or.inr rfl⟩
        simp only [Relunicast.lppSendPacket, hitem, if_true, hnew]
      · refine Or.inr ⟨b, p, rfl, rfl, ?_⟩
        cases hnull : rimeaddrCmp s.relunicast.receiver rimeaddrNull with
        | true =>
            refine Or.inl ⟨rfl, ?_⟩
            simp only [Relunicast.lppSendPacket, hitem, if_true, hnew, hnull]
        | false =>
            refine Or.inr ⟨rfl, ?_⟩
            simp only [Relunicast.lppSendPacket, hitem, if_true, hnew, hnull,
              Bool.false_eq_true, if_false]

/-- A new buffer keeps what the waiting announcement says. -/
theorem NodeInv.adv_of_new {C : NodeConf} {s : Node} (h : NodeInv C s) {p : QueuebufPool}
    (hblock : ∀ j ∈ s.owned, p.bufmem.block j = s.pool.bufmem.block j) {b : QueuebufPtr}
    (hb : s.ipolite.q = some b) :
    (p.bufmem.block b).data = announcementMsg C.channels s.conn.announcement := by
  have hmem : b ∈ s.owned := by
    refine List.mem_append_right _ (List.mem_append_left _ ?_)
    rw [hb]
    exact List.mem_singleton_self b
  rw [hblock b hmem]
  exact h.adv b hb

/-- Another protocol takes a new buffer. -/
theorem NodeInv.others_cons {C : NodeConf} {s : Node} (h : NodeInv C s) {p : QueuebufPool}
    {b : QueuebufPtr} (hp : p.Owns (b :: s.owned))
    (hblock : ∀ j ∈ s.owned, p.bufmem.block j = s.pool.bufmem.block j) (pb : Packetbuf) :
    NodeInv C { s with packetbuf := pb, pool := p, others := b :: s.others } := by
  have hperm : (b :: s.owned).Perm
      (Node.owned { s with packetbuf := pb, pool := p, others := b :: s.others }) := by
    rw [Node.owned_eq_append_others, Node.owned_eq_append_others]
    exact List.perm_middle.symm
  exact ⟨h.toTxInv.same rfl rfl rfl rfl h.queue (hp.perm hperm),
    fun a ha => h.adv_of_new hblock ha, h.announced⟩

/-- `send_packet` of LPP keeps the invariant. -/
theorem NodeInv.lppSendPacket {C : NodeConf} {s : Node} (h : NodeInv C s)
    (htx : s.relunicast.isTx = true) (htimer : s.relunicast.timer = false)
    (hlpp : s.lppPacket = none) (env : Env) : NodeInv C (Relunicast.lppSendPacket env s) := by
  rcases lppSendPacket_cases env s with ⟨p, he, hp⟩ | ⟨b, p, _, hnew, hcase⟩
  · -- The packet is dropped, and no block taken.
    have hpool : p = s.pool := by
      rcases hp with rfl | hnew
      · rfl
      · rcases h.pool.new_cases s.packetbuf with ⟨b, p', hsome, _⟩ | ⟨_, hnone⟩
        · rw [hsome] at hnew
          cases hnew
        · rw [hnone] at hnew
          cases hnew
          rfl
    rw [he, hpool]
    exact h
  · rcases h.pool.new_cases s.packetbuf with ⟨b', p', hsome, hp', _, hblock⟩ | ⟨_, hnone⟩
    · rw [hsome] at hnew
      cases hnew
      rcases hcase with ⟨_, he⟩ | ⟨_, he⟩ <;> rw [he]
      · -- A broadcast has nobody who waits for its end.
        exact h.others_cons hp' hblock s.packetbuf
      · -- A unicast is owed to the connection.
        have hperm : (b :: s.owned).Perm
            (Node.owned { s with pool := p, lppPacket := some b }) := by
          rw [Node.owned, hlpp]
          exact owned_perm_queue _ _ _ _ _
        refine ⟨⟨hp'.perm hperm, h.queue, fun _ => htx, fun ht => ?_, h.txFwd, h.txBuf,
          h.closed⟩, fun a ha => h.adv_of_new hblock ha, h.announced⟩
        rw [show s.relunicast.timer = true from ht] at htimer
        cases htimer
    · rw [hnone] at hnew
      cases hnew

/-- What `send_packet` of LPP leaves as it is. -/
theorem lppSendPacket_same (env : Env) (s : Node) :
    (Relunicast.lppSendPacket env s).opened = s.opened ∧
    (Relunicast.lppSendPacket env s).relunicast = s.relunicast ∧
    (Relunicast.lppSendPacket env s).conn = s.conn ∧
    (Relunicast.lppSendPacket env s).queue = s.queue ∧
    (Relunicast.lppSendPacket env s).log = s.log ∧
    (Relunicast.lppSendPacket env s).nextUid = s.nextUid := by
  rcases lppSendPacket_cases env s with ⟨p, he, _⟩ | ⟨b, p, _, _, ⟨_, he⟩ | ⟨_, he⟩⟩ <;>
    rw [he] <;> exact ⟨rfl, rfl, rfl, rfl, rfl, rfl⟩

/-- A transmission that goes on keeps the invariant. -/
theorem handleEvent_pending {C : NodeConf} {s : Node} {a : NodeAction} (h : NodeInv C s)
    (he : enabled C s a = true) (hc : completed C s a = none) (ha : isAttempt a = true) :
    NodeInv C (handleEvent C s a) ∧ Pending s (handleEvent C s a) := by
  obtain ⟨_, howed, htx⟩ := h.pending he ha
  cases a with
  | sendTimer mac acked env env' =>
      have hlpp := h.once (Bool.and_eq_true_iff.mp he).2
      simp only [completed] at hc
      split at hc
      · cases hc
      · rename_i hr
        split at hc
        · cases hc
        · rename_i hx
          simp only [handleEvent, Relunicast.send, if_neg hr]
          -- X-MAC without an acknowledgement sets the timer, LPP takes or drops the packet.
          cases hmac : C.mac with
          | xmac =>
              have hacked : acked = false := by simpa [hmac] using hx
              simp only [hacked, Bool.false_eq_true, if_false]
              exact ⟨⟨⟨h.pool, h.queue, fun _ => htx, fun _ => hlpp, h.txFwd, h.txBuf,
                h.closed⟩, h.adv, h.announced⟩, howed, rfl, rfl, rfl, rfl, rfl, rfl⟩
          | lpp =>
              have hsent : NodeInv C { s with
                  packetbuf := mac ((Relunicast.loadPacket C s).setAddr .receiver
                    s.relunicast.receiver)
                  relunicast := { s.relunicast with
                    rxmit := s.relunicast.rxmit + 1, timer := false } } :=
                h.timerFired htx _ _
              obtain ⟨ho, hr', hconn, hqueue, hlog, hnext⟩ := lppSendPacket_same env { s with
                packetbuf := mac ((Relunicast.loadPacket C s).setAddr .receiver
                  s.relunicast.receiver)
                relunicast := { s.relunicast with
                  rxmit := s.relunicast.rxmit + 1, timer := false } }
              refine ⟨hsent.lppSendPacket htx rfl hlpp env, howed, ho, ?_, ?_, ?_, hlog, hnext⟩
              · rw [hr']
              · rw [hconn]
              · rw [hqueue]
  | removeQueuedPacket acked env env' env'' =>
      simp only [completed] at hc
      split at hc
      · cases hc
      · rename_i hacked
        have hdrop := h.dropLppPacket
        simp only [handleEvent, removeQueuedPacket, Relunicast.postSend, if_neg hacked]
        exact ⟨⟨⟨hdrop.pool, h.queue, fun _ => htx, fun _ => rfl, h.txFwd, h.txBuf, h.closed⟩,
          hdrop.adv, h.announced⟩, howed, rfl, rfl, rfl, rfl, rfl, rfl⟩
  | _ => cases ha

/-! ### The other handlers -/

/-- Opening the connection starts the announcements of the metric, and no packet is forwarded
yet. -/
theorem relcollectOpen_spec {C : NodeConf} {s : Node} (h : NodeInv C s)
    (ho : s.opened = false) :
    NodeInv C (relcollectOpen C s) ∧ Quiet s (relcollectOpen C s) := by
  have hfwd := h.closed ho
  have htx : s.relunicast.isTx = false := by
    rw [← Bool.not_eq_true]
    intro ht
    rw [h.txFwd ht] at hfwd
    cases hfwd
  have hidle : ¬ (s.relunicast.timer = true ∨ s.macOwes = true) := by
    intro hpending
    rw [h.tx hpending] at htx
    cases htx
  refine ⟨?_, htx.symm, rfl, rfl, rfl, rfl, rfl, rfl⟩
  refine TxInv.sendAdv ⟨h.pool, h.queue, fun hp => absurd hp hidle, h.once, (nomatch ·),
    (nomatch ·), (nomatch ·)⟩ fun _ => rfl

/-- `relcollect_set_sink` stores the metric and announces it. -/
theorem setSinkMetric_spec {C : NodeConf} {s : Node} (h : NodeInv C s) (shouldBeSink : Bool) :
    NodeInv C (setSinkMetric C s shouldBeSink) ∧ Quiet s (setSinkMetric C s shouldBeSink) := by
  have hset : TxInv { s with conn := { s.conn with
      rtmetric := if shouldBeSink then sinkMetric else rtmetricMax } } :=
    h.toTxInv.same rfl rfl rfl rfl h.queue h.pool
  exact ⟨hset.announcementSetValue rfl, rfl, rfl, rfl, rfl, rfl, rfl, rfl⟩

/-- The window of recent packets is not read by the forwarding. -/
theorem noteRecent_spec {C : NodeConf} {s : Node} (h : NodeInv C s) :
    NodeInv C (noteRecent s) ∧ Quiet s (noteRecent s) :=
  ⟨⟨h.toTxInv.same rfl rfl rfl rfl h.queue h.pool, h.adv, h.announced⟩,
    rfl, rfl, rfl, rfl, rfl, rfl, rfl⟩

/-- With a low metric the route is updated, which may call `rel_send_queued_packet`. -/
theorem routeReceived_rule {C : NodeConf} {env : Env} {s : Node} {I : Node → Prop}
    (hst : Stable I) (h : NodeInv C s) (ho : s.opened = true) (hI : I s)
    (hsend : ∀ p ∈ (if lowMetric s then sendPoint env (updateRoute C s) else []),
      NodeInv C p.2 → p.2.opened = true → I p.2 → I (relSendQueuedPacket C p.1 p.2)) :
    NodeInv C (routeReceived C env s) ∧ (routeReceived C env s).opened = true ∧
      I (routeReceived C env s) := by
  unfold routeReceived
  by_cases hl : lowMetric s = true
  · rw [if_pos hl] at hsend ⊢
    exact relUpdateRtmetric_rule env I h ho hI hst.quiet hsend
  · rw [if_neg hl]
    exact ⟨h, ho, hI⟩

/-- A dropped packet is only counted. -/
theorem countDropped_spec {C : NodeConf} {s : Node} (h : NodeInv C s) :
    NodeInv C (countDropped s) ∧ Quiet s (countDropped s) :=
  ⟨h.frame s.neighbors s.packetbuf _, rfl, rfl, rfl, rfl, rfl, rfl, rfl⟩

/-- A packet is enqueued or dropped. -/
theorem enqueueOrDrop_rule {C : NodeConf} {s : Node} {I : Node → Prop} (hst : Stable I)
    (h : NodeInv C s) (hI : I s) (env : Env) :
    NodeInv C (enqueueOrDrop env s).2 ∧ (enqueueOrDrop env s).2.opened = s.opened ∧
      I (enqueueOrDrop env s).2 := by
  obtain ⟨hinv, ho, hcase⟩ := h.enqueueForwarding env
  unfold enqueueOrDrop
  rcases hcase with ⟨hr, hq⟩ | ⟨hr, hq⟩
  · simp only [hr, if_true]
    exact ⟨hinv, ho, hst.enqueue _ _ hq hI⟩
  · simp only [hr, Bool.false_eq_true, if_false]
    obtain ⟨hinv', hq'⟩ := countDropped_spec hinv
    exact ⟨hinv', ho, hst.quiet _ _ (hq.trans hq') hI⟩

/-- The sink hands a packet to the application. -/
theorem deliver_spec {C : NodeConf} {s : Node} (h : NodeInv C s) :
    NodeInv C (deliver s) ∧ Quiet s (deliver s) :=
  ⟨h.record _ _ _, rfl, rfl, rfl, rfl, rfl, rfl, rfl⟩

/-- A packet is delivered by the sink, dropped by a node without a route, and enqueued by any
other. -/
theorem acceptReceived_rule {C : NodeConf} {s : Node} {I : Node → Prop} (hst : Stable I)
    (h : NodeInv C s) (hI : I s) (env : Env) :
    NodeInv C (acceptReceived env s).2 ∧ (acceptReceived env s).2.opened = s.opened ∧
      I (acceptReceived env s).2 := by
  unfold acceptReceived
  split
  · exact ⟨(deliver_spec h).1, rfl, hst.quiet _ _ (deliver_spec h).2 hI⟩
  · split
    · exact enqueueOrDrop_rule hst h hI env
    · exact ⟨h, rfl, hI⟩

/-- `relcollect_send` fills in the header of the packet in the packet buffer. -/
theorem prepareSend_spec {C : NodeConf} {s : Node} (h : NodeInv C s) (rexmits : UInt16) :
    NodeInv C (prepareSend C s rexmits) ∧ Quiet s (prepareSend C s rexmits) := by
  -- The attributes do not matter.
  have hany : ∀ conn pb, conn = { s.conn with seqno := s.conn.seqno + 1 } →
      NodeInv C { s with conn := conn, packetbuf := pb } ∧
        Quiet s { s with conn := conn, packetbuf := pb } := by
    intro conn pb hc
    subst hc
    exact ⟨⟨h.toTxInv.same rfl rfl rfl rfl h.queue h.pool, h.adv, h.announced⟩,
      rfl, rfl, rfl, rfl, rfl, rfl, rfl⟩
  exact hany _ _ rfl

/-- The sink delivers its own packets, and any other node enqueues them. -/
theorem acceptOwn_rule {C : NodeConf} {s : Node} {I : Node → Prop} (hst : Stable I)
    (h : NodeInv C s) (hI : I s) (env : Env) :
    NodeInv C (acceptOwn env s).2 ∧ (acceptOwn env s).2.opened = s.opened ∧
      I (acceptOwn env s).2 := by
  unfold acceptOwn
  split
  · exact ⟨(deliver_spec h).1, rfl, hst.quiet _ _ (deliver_spec h).2 hI⟩
  · exact enqueueOrDrop_rule hst (h.frame (neighborBest s.neighbors).2 s.packetbuf s.stats)
      (hst.quiet s _ ⟨rfl, rfl, rfl, rfl, rfl, rfl, rfl⟩ hI) env

/-- A received frame is in the packet buffer, which no queue buffer is. -/
theorem loadPayload_spec {C : NodeConf} {s : Node} (h : NodeInv C s) (data : List UInt8) :
    NodeInv C (loadPayload s data) ∧ Quiet s (loadPayload s data) :=
  ⟨h.frame s.neighbors _ s.stats, rfl, rfl, rfl, rfl, rfl, rfl, rfl⟩

/-- `received_announcement` notes the metric of the neighbor in the table. -/
theorem noteAnnouncement_spec {C : NodeConf} {s : Node} (h : NodeInv C s) (sender : RimeAddr)
    (value : UInt16) :
    NodeInv C (noteAnnouncement C s sender value) ∧
      Quiet s (noteAnnouncement C s sender value) :=
  ⟨h.frame _ s.packetbuf s.stats, rfl, rfl, rfl, rfl, rfl, rfl, rfl⟩

/-- A buffer of another protocol is one that the node does not refer to. -/
theorem otherNew_spec {C : NodeConf} {s : Node} (h : NodeInv C s) (pb : Packetbuf) :
    NodeInv C (otherNew s pb) ∧ Quiet s (otherNew s pb) := by
  rcases h.pool.new_cases pb with ⟨b, p', hnew, hp, _, hblock⟩ | ⟨_, hnew⟩
  · simp only [otherNew, hnew]
    exact ⟨h.others_cons hp hblock pb, rfl, rfl, rfl, rfl, rfl, rfl, rfl⟩
  · simp only [otherNew, hnew]
    exact ⟨h.frame _ _ _, rfl, rfl, rfl, rfl, rfl, rfl, rfl⟩

/-- Another protocol gives back a buffer of its own. -/
theorem otherFree_spec {C : NodeConf} {s : Node} (h : NodeInv C s) {b : QueuebufPtr}
    (hb : b ∈ s.others) : NodeInv C (otherFree s b) ∧ Quiet s (otherFree s b) := by
  refine ⟨⟨h.toTxInv.same rfl rfl rfl rfl h.queue ?_, fun a ha => ?_, h.announced⟩,
    rfl, rfl, rfl, rfl, rfl, rfl, rfl⟩
  · have hperm : s.owned.Perm (b :: Node.owned (otherFree s b)) := by
      rw [Node.owned_eq_append_others, Node.owned_eq_append_others]
      exact ((List.perm_cons_erase hb).append_left _).trans List.perm_middle
    exact (h.pool.perm hperm).free
  · show ((queuebufFree s.pool b).bufmem.block a).data = _
    rw [block_queuebufFree]
    exact h.adv a ha

/-! ### A received announcement -/

/-- One call of `announcement_heard` keeps what quiet steps keep, and what its call of
`rel_send_queued_packet` keeps. -/
theorem announcementHeard_rule {C : NodeConf} {I : Node → Prop} (hst : Stable I)
    {sender : RimeAddr} {outside : Nat → Memory} {env : Nat → Env} {h : Hearing}
    (hinv : NodeInv C h.node) (ho : h.node.opened = true) (hI : I h.node) (id value : UInt16)
    (hsend : ∀ p ∈ (announcementHeard C sender outside env h id value).noted,
      ∀ q ∈ sendPoint p.1 (updateRoute C p.2), NodeInv C q.2 → q.2.opened = true → I q.2 →
        I (relSendQueuedPacket C q.1 q.2)) :
    let h' := announcementHeard C sender outside env h id value
    NodeInv C h'.node ∧ h'.node.opened = true ∧ I h'.node := by
  simp only [announcementHeard] at hsend ⊢
  split
  · rename_i hid
    rw [if_pos hid] at hsend
    obtain ⟨hnote, hq⟩ := noteAnnouncement_spec hinv sender value
    exact relUpdateRtmetric_rule _ I hnote ho (hst.quiet _ _ hq hI) hst.quiet
      (hsend _ (List.mem_append_right _ List.mem_cons_self))
  · exact ⟨hinv, ho, hI⟩

/-- The rule for a received announcement. The invariant of the loop is conditional: it holds
when the calls of `rel_send_queued_packet` that are noted so far keep the property. -/
theorem hearing_rule {C : NodeConf} {I : Node → Prop} (hst : Stable I) {s : Node}
    (h : NodeInv C s) (ho : s.opened = true) (hI : I s) (sender : RimeAddr)
    (data : List UInt8) (outside : Nat → Memory) (env : Nat → Env)
    (hsend : ∀ p ∈ (hearAdv C s sender data outside env).noted,
      ∀ q ∈ sendPoint p.1 (updateRoute C p.2), NodeInv C q.2 → q.2.opened = true → I q.2 →
        I (relSendQueuedPacket C q.1 q.2)) :
    NodeInv C (recvAdv C s sender data outside env) ∧
      (recvAdv C s sender data outside env).opened = true ∧
      I (recvAdv C s sender data outside env) := by
  let Kept (h : Hearing) : Prop := (∀ p ∈ h.noted, ∀ q ∈ sendPoint p.1 (updateRoute C p.2),
      NodeInv C q.2 → q.2.opened = true → I q.2 → I (relSendQueuedPacket C q.1 q.2)) →
    NodeInv C h.node ∧ h.node.opened = true ∧ I h.node
  have hkept : Kept (hearAdv C s sender data outside env) := by
    refine advPacketReceived_rule (P := Kept) ?_ ?_
    · intro t id value ht hnoted
      -- What is noted before the call is still noted after it.
      have hold : ∀ p ∈ t.noted,
          p ∈ (announcementHeard C sender outside env t id value).noted := by
        intro p hp
        unfold announcementHeard
        split
        · exact List.mem_append_left _ hp
        · exact hp
      obtain ⟨hinv, hopen, hIt⟩ := ht fun p hp => hnoted p (hold p hp)
      exact announcementHeard_rule hst hinv hopen hIt id value hnoted
    · intro _
      obtain ⟨hload, hq⟩ := loadPayload_spec h data
      exact ⟨hload.ipoliteRecv, (ipoliteRecv_opened _).trans ho,
        hst.quiet _ _ (hq.trans (ipoliteRecv_quiet _)) hI⟩
  exact hkept hsend

/-! ### The rule -/

/-- The rule for a received packet. A recent packet is ignored, and any other may update the route
first, so that `rel_send_queued_packet` may be called twice. -/
theorem received_rule {C : NodeConf} {I : Node → Prop} (hst : Stable I) {s : Node}
    (h : NodeInv C s) (ho : s.opened = true) (hI : I s) (pb : Packetbuf) (env env' : Env)
    (hcalls : ∀ p ∈ innerPoints C s (.received pb env env'), NodeInv C p.2 → p.2.opened = true →
      I p.2 → I (relSendQueuedPacket C p.1 p.2)) :
    NodeInv C (handleEvent C s (.received pb env env')) ∧
      I (handleEvent C s (.received pb env env')) := by
  have hsend := hcalls
  simp only [innerPoints, completed] at hsend
  simp only [handleEvent, relNodePacketReceived]
  have hload := h.frame s.neighbors pb s.stats
  have hIload : I { s with packetbuf := pb } :=
    hst.quiet s _ ⟨rfl, rfl, rfl, rfl, rfl, rfl, rfl⟩ hI
  by_cases hr : isRecent { s with packetbuf := pb } = true
  · rw [if_pos hr]
    exact ⟨hload, hIload⟩
  · rw [if_neg hr]
    rw [if_neg hr] at hsend
    obtain ⟨hinv, ho, hIroute⟩ := routeReceived_rule hst
      (noteRecent_spec hload).1 ho (hst.quiet _ _ (noteRecent_spec hload).2 hIload)
      fun p hp => hsend p (List.mem_append_left _ hp)
    obtain ⟨hinv', ho', hIacc⟩ := acceptReceived_rule hst hinv hIroute env'
    obtain ⟨hinv'', _, hIsend⟩ := sendIf_rule I hinv' (ho'.trans ho) hIacc
      fun p hp => hsend p (List.mem_append_right _ hp)
    exact ⟨hinv'', hIsend⟩

/-- The rule for an event without the last call of `remove_queued_packet`. Before such a call
the connection is open. -/
theorem handleEvent_rule {C : NodeConf} {s : Node} {a : NodeAction} {I : Node → Prop}
    (hst : Stable I) (h : NodeInv C s) (hI : I s) (he : enabled C s a = true)
    (hcalls : ∀ p ∈ innerPoints C s a, NodeInv C p.2 → p.2.opened = true → I p.2 →
      I (relSendQueuedPacket C p.1 p.2))
    (hpend : completed C s a = none → isAttempt a = true → Pending s (handleEvent C s a) →
      I (handleEvent C s a))
    (hdone : ∀ env env' s', completed C s a = some (env, env', s') → NodeInv C s' →
      Completion s s' → I (dequeueForwarding (relUpdateRtmetric C env s'))) :
    NodeInv C (handleEvent C s a) ∧
      ((lastCall a).isSome = true → (handleEvent C s a).opened = true) ∧
      I (handleEvent C s a) := by
  have hsend := hcalls
  unfold innerPoints at hsend
  cases hc : completed C s a with
  | some r =>
      obtain ⟨env, env', s'⟩ := r
      rw [hc] at hsend
      -- The transmission is complete: route update, dequeue, and the last call.
      obtain ⟨hinv, hcomp⟩ := completed_spec h he hc
      obtain ⟨hupd, ho, _⟩ := relUpdateRtmetric_rule env (fun _ => True) hinv
        hcomp.opened trivial (fun _ _ _ _ => trivial) (fun _ _ _ _ _ => trivial)
      obtain ⟨hdeq, ho', _⟩ := hupd.dequeueForwarding
      have hI' := hdone env env' s' hc hinv hcomp
      rw [handleEvent_completed hc]
      obtain ⟨hlast, holast, _⟩ := relSendQueuedPacket_spec hdeq (ho'.trans ho) env'
      exact ⟨hlast, fun _ => holast,
        hsend (env', _) (List.mem_append_right _ List.mem_cons_self) hdeq (ho'.trans ho) hI'⟩
  | none =>
      rw [hc] at hsend
      cases a with
      | relcollectOpen =>
          have ho : s.opened = false := by simpa [enabled] using he
          obtain ⟨hinv, hq⟩ := relcollectOpen_spec h ho
          exact ⟨hinv, (nomatch ·), hst.quiet _ _ hq hI⟩
      | setSink shouldBeSink env =>
          obtain ⟨hinv, hq⟩ := setSinkMetric_spec h shouldBeSink
          obtain ⟨hinv', _, hI'⟩ := relUpdateRtmetric_rule env I hinv he
            (hst.quiet _ _ hq hI) hst.quiet hsend
          exact ⟨hinv', (nomatch ·), hI'⟩
      | relcollectSend pb rexmits env =>
          -- The packet of the application.
          have hload := h.frame s.neighbors pb s.stats
          have hIload : I { s with packetbuf := pb } :=
            hst.quiet s _ ⟨rfl, rfl, rfl, rfl, rfl, rfl, rfl⟩ hI
          obtain ⟨hprep, hq⟩ := prepareSend_spec hload rexmits
          obtain ⟨hinv, ho, hI'⟩ := acceptOwn_rule hst hprep (hst.quiet _ _ hq hIload) env
          obtain ⟨hinv', _, hI''⟩ := sendIf_rule I hinv (ho.trans he) hI' hsend
          exact ⟨hinv', (nomatch ·), hI''⟩
      | received pb env env' =>
          obtain ⟨hinv, hI'⟩ := received_rule hst h he hI pb env env' hcalls
          exact ⟨hinv, (nomatch ·), hI'⟩
      | recvAdv sender data outside env =>
          obtain ⟨hinv, _, hI'⟩ := hearing_rule hst h he hI sender data outside env
            fun p hp q hq => hsend q (List.mem_flatMap.mpr ⟨p, hp, hq⟩)
          exact ⟨hinv, (nomatch ·), hI'⟩
      | sendTimer mac acked env env' =>
          -- The transmission goes on.
          obtain ⟨hinv, hp⟩ := handleEvent_pending h he hc rfl
          exact ⟨hinv, (nomatch ·), hpend hc rfl hp⟩
      | removeQueuedPacket acked env env' env'' =>
          obtain ⟨hinv, hp⟩ := handleEvent_pending h he hc rfl
          exact ⟨hinv, fun _ => hp.opened.trans (Bool.and_eq_true_iff.mp he).1,
            hpend hc rfl hp⟩
      | removeBroadcast b env =>
          simp only [enabled, Bool.and_eq_true, decide_eq_true_eq] at he
          obtain ⟨hinv, hq⟩ := otherFree_spec h he.2
          exact ⟨hinv, fun _ => he.1.1, hst.quiet _ _ hq hI⟩
      | ipoliteTimer pb =>
          exact ⟨h.ipoliteTimer pb, (nomatch ·), hst.quiet _ _ (ipoliteTimer_quiet s pb) hI⟩
      | advTimer =>
          exact ⟨h.toTxInv.sendAdv h.announced, (nomatch ·),
            hst.quiet _ _ (sendAdv_quiet C s) hI⟩
      | neighborPeriodic =>
          exact ⟨h.frame _ _ _, (nomatch ·), hst.quiet s _ ⟨rfl, rfl, rfl, rfl, rfl, rfl, rfl⟩ hI⟩
      | neighborSetLifetime seconds =>
          exact ⟨h.frame _ _ _, (nomatch ·), hst.quiet s _ ⟨rfl, rfl, rfl, rfl, rfl, rfl, rfl⟩ hI⟩
      | otherNew pb =>
          exact ⟨(otherNew_spec h pb).1, (nomatch ·), hst.quiet _ _ (otherNew_spec h pb).2 hI⟩
      | otherFree b =>
          have hb : b ∈ s.others := by simpa [enabled] using he
          exact ⟨(otherFree_spec h hb).1, (nomatch ·), hst.quiet _ _ (otherFree_spec h hb).2 hI⟩

/-- What holds after every event: the invariant of the node, and every stable property that
the calls of `rel_send_queued_packet`, the completions and the transmissions that go on keep. -/
theorem handle_rule {C : NodeConf} {s : Node} {a : NodeAction} {I : Node → Prop}
    (hst : Stable I) (h : NodeInv C s) (hI : I s) (he : enabled C s a = true)
    (hsend : ∀ p ∈ sendPoints C s a, NodeInv C p.2 → p.2.opened = true → I p.2 →
      I (relSendQueuedPacket C p.1 p.2))
    (hpend : completed C s a = none → isAttempt a = true → Pending s (handleEvent C s a) →
      I (handleEvent C s a))
    (hdone : ∀ env env' s', completed C s a = some (env, env', s') → NodeInv C s' →
      Completion s s' → I (dequeueForwarding (relUpdateRtmetric C env s'))) :
    NodeInv C (handle C s a) ∧ I (handle C s a) := by
  obtain ⟨hinv, hopen, hI'⟩ := handleEvent_rule hst h hI he
    (fun p hp => hsend p (List.mem_append_left _ hp)) hpend hdone
  unfold sendPoints at hsend
  unfold handle
  cases hl : lastCall a with
  | none => exact ⟨hinv, hI'⟩
  | some env =>
      rw [hl] at hsend
      have ho := hopen (by rw [hl]; rfl)
      have hlast := hsend (env, handleEvent C s a)
        (List.mem_append_right _ List.mem_cons_self) hinv ho hI'
      exact ⟨(relSendQueuedPacket_spec hinv ho env).1, hlast⟩

/-- Every handler keeps the invariant of its node. -/
theorem nodeInv_handle {C : NodeConf} {s : Node} {a : NodeAction} (h : NodeInv C s)
    (he : enabled C s a = true) : NodeInv C (handle C s a) :=
  (handle_rule (I := fun _ => True) ⟨fun _ _ _ _ => trivial, fun _ _ _ _ => trivial⟩ h trivial
    he (fun _ _ _ _ _ => trivial) (fun _ _ _ => trivial) (fun _ _ _ _ _ _ => trivial)).1

end PTunes.Rime
