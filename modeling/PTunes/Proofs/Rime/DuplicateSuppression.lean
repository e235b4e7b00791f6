import PTunes.Lib.Window
import PTunes.Proofs.Rime.Forwarding
import PTunes.Proofs.Rime.Frames
import PTunes.Rime.Reception

/-!
# `PTunes.Proofs.Rime.DuplicateSuppression`: received packets and the window of recent packets

relcollect keeps the last 20 packets it has recorded, and drops a packet that is among them.
`rel_node_packet_received` records a packet before it knows whether it will accept it: it may
have no route or no room for the packet, and the route update before may announce a new metric,
which overwrites the packet buffer. A packet that is lost there is in the window, so a
retransmission is dropped as well.

When every packet that is received can be accepted, the window holds exactly the packets that
were accepted last. Then no packet is accepted twice unless 20 others were recorded in between
(`duplicate_suppression`). `canAcceptPacket` looks at the node before the reception only.
`canAccept_of_acceptedPacket` says that nothing less is enough for a node that has a route.
-/

set_option autoImplicit false

namespace PTunes.Rime

/-! ### Only receptions write to the window -/

namespace Node

variable (C : NodeConf) (s : Node)

/-- A received announcement leaves the window alone, however often its loop calls
`received_announcement`. -/
theorem recent_recvAdv (sender : RimeAddr) (data : List UInt8) (outside : Nat → Memory)
    (env : Nat → Env) : (recvAdv C s sender data outside env).recent = s.recent := by
  refine advPacketReceived_rule (P := fun h : Hearing => h.node.recent = s.recent) ?_ ?_
  · intro h id value hrecent
    unfold announcementHeard
    split
    · exact (recent_relUpdateRtmetric C _ _).trans hrecent
    · exact hrecent
  · exact recent_of_kept (kept_ipoliteRecv (loadPayload s data))

/-- Every event but a reception leaves the window alone. A completion reaches it through its route
update only, and that announces a metric but does not receive anything. -/
theorem recent_handle {a : NodeAction} (ha : ∀ pb env env', a ≠ .received pb env env') :
    (handle C s a).recent = s.recent := by
  rw [recent_of_kept (kept_handle C s a)]
  cases hc : completed C s a with
  | some r =>
      obtain ⟨env, env', s'⟩ := r
      rw [handleEvent_completed hc, recent_of_kept (kept_completePacket C env env' s'),
        recent_relUpdateRtmetric]
      exact recent_of_kept (kept_of_completed C env env' s hc)
  | none =>
      cases a with
      | relcollectOpen => rfl
      | setSink shouldBeSink env => exact recent_relUpdateRtmetric C env _
      | relcollectSend pb rexmits env =>
          exact recent_of_kept ((kept_sendIf C env _).trans (kept_acceptOwn env _))
      | received pb env env' => exact absurd rfl (ha pb env env')
      | recvAdv sender data outside env => exact recent_recvAdv C s sender data outside env
      | sendTimer mac acked env env' =>
          exact recent_of_kept (kept_of_not_completed C s hc rfl)
      | removeQueuedPacket acked env env' env'' =>
          exact recent_of_kept (kept_of_not_completed C s hc rfl)
      | removeBroadcast b env => rfl
      | ipoliteTimer pb => exact recent_of_kept (kept_ipoliteTimer s pb)
      | advTimer => rfl
      | neighborPeriodic => rfl
      | neighborSetLifetime seconds => rfl
      | otherNew pb => exact recent_of_kept (kept_otherNew s pb)
      | otherFree b => rfl

end Node

/-! ### The window -/

/-- The packet of an entry. The window stores the sequence number in 8 bits, the packet has one of
16. -/
def RecentPacket.key (r : RecentPacket) : PacketKey := (r.originator, r.seqno.toUInt16)

/-- The packets in the window, oldest first. The array is a ring, and `recent_packet_ptr` is where
the next packet will be written, so the entry there is the oldest one. -/
def Node.window (s : Node) : List PacketKey :=
  (s.recentPackets.toList.map RecentPacket.key).rotate s.recentPacketPtr.toNat

/-- The window is a function of the array and its pointer. -/
theorem window_congr {s t : Node} (h : s.recent = t.recent) : s.window = t.window := by
  obtain ⟨hr, hp⟩ := Prod.mk.inj h
  rw [Node.window, Node.window, hr, hp]

/-- A packet is dropped as a duplicate exactly when it is in the window. `isRecent` compares the
originator and all 16 bits of the sequence number with the 8 bits of the entry. -/
theorem isRecent_iff (s : Node) : isRecent s = true ↔ packetKey s.packetbuf ∈ s.window := by
  rw [Node.window, List.mem_rotate, List.mem_map, isRecent, ← Vector.any_toList, List.any_eq_true]
  refine exists_congr fun r => and_congr_right fun _ => ?_
  rw [Bool.and_eq_true, beq_iff_eq, rimeaddrCmp_iff, RecentPacket.key, packetKey, Prod.mk.injEq]
  exact and_comm

/-- A recorded packet takes the place of the oldest one, and becomes the newest. This needs a
sequence number of 8 bits: a greater one is cut off when it is stored. -/
theorem window_noteRecent {s : Node} (hptr : s.recentPacketPtr.toNat < numRecentPackets)
    (hseqno : (s.packetbuf.attr .epacketId).toNat < 256) :
    (noteRecent s).window = s.window.tail ++ [packetKey s.packetbuf] := by
  have hkey : RecentPacket.key ⟨s.packetbuf.addr .esender,
      (s.packetbuf.attr .epacketId).toUInt8⟩ = packetKey s.packetbuf := by
    rw [RecentPacket.key, packetKey]
    congr 1
    refine UInt16.toNat_inj.mp ?_
    rw [UInt8.toNat_toUInt16, UInt16.toNat_toUInt8]
    exact Nat.mod_eq_of_lt hseqno
  have hnext : (UInt8.ofNat ((s.recentPacketPtr.toNat + 1) % numRecentPackets)).toNat =
      (s.recentPacketPtr.toNat + 1) % numRecentPackets :=
    Nat.mod_eq_of_lt ((Nat.mod_lt _ (by decide)).trans (by decide))
  have hlen : (s.recentPackets.toList.map RecentPacket.key).length = numRecentPackets := by
    rw [List.length_map, Vector.length_toList]
  have hset := Window.rotate_set_succ (s.recentPackets.toList.map RecentPacket.key)
    (hptr.trans_eq hlen.symm) (packetKey s.packetbuf)
  rw [hlen, ← hkey, ← List.map_set] at hset
  rw [← hkey]
  show List.rotate (List.map _ (Vector.toList (Vector.setIfInBounds _ _ _)))
    (UInt8.ofNat _).toNat = _
  rw [hnext, Vector.toList_setIfInBounds]
  exact hset

/-! ### The packets that are accepted -/

/-- The route update leaves the routing metric as it is. Either there is none, because the packet
carries a higher metric than that of the node, or the best neighbor has the cost that the metric
already is. -/
def keepsMetric (s : Node) : Bool :=
  !lowMetric s || match (neighborBest s.neighbors).1 with
    | none => false
    | some i => ((neighborBest s.neighbors).2.get i).cost == s.conn.rtmetric

/-- There is room for one more packet in the forwarding queue. It takes an item of the queue and a
queue buffer, and the buffers are shared with the MAC and the other channels. -/
def hasRoom (s : Node) : Bool :=
  s.queue.list.length < maxForwardingQueue && s.pool.queuebufLen.toNat < queuebufNum

/-- The packet in the buffer can be accepted: the node is the sink, or it has a route which the
route update does not change, and room for the packet. All of this is said of the state before the
reception. -/
def canAcceptPacket (s : Node) : Bool :=
  s.conn.rtmetric == sinkMetric ||
    (s.conn.rtmetric != rtmetricMax && keepsMetric s && hasRoom s)

/-- A packet that is received is a duplicate or can be accepted. The other events are free. -/
def canAccept (s : Node) : NodeAction → Bool
  | .received pb _ _ =>
    let s := { s with packetbuf := pb }
    isRecent s || canAcceptPacket s
  | _ => true

/-- A packet is enqueued exactly when there is room for it. One direction counts what the new queue
and the new buffer take up, the other one goes through the two allocations of the code. -/
theorem enqueueForwarding_iff {C : NodeConf} {s : Node} (h : NodeInv C s) (env : Env) :
    (enqueueForwarding env s).1 = true ↔ hasRoom s = true := by
  have hlen : s.pool.queuebufLen.toNat = s.owned.length := h.pool.len
  rw [hasRoom, Bool.and_eq_true, decide_eq_true_eq, decide_eq_true_eq, hlen]
  constructor
  · intro hr
    rcases Packetqueue.enqueue_cases h.queue h.pool s.packetbuf env.clockTime s.nextUid with
      ⟨q', p', b, _, hq, huids, _, hp, _⟩ | ⟨q', he, _⟩
    · -- The new queue and the new buffer fit, so there was room before.
      have hq' : q'.list.length = s.queue.list.length + 1 := by
        have := congrArg List.length huids
        simpa [Packetqueue.uids] using this
      have hle := hq.owns.length_le
      have hle' := hp.blocks.length_le
      rw [List.length_cons] at hle'
      omega
    · simp only [enqueueForwarding, he] at hr
      cases hr
  · rintro ⟨hq, hp⟩
    unfold enqueueForwarding packetqueueEnqueuePacketbuf
    cases ha : s.queue.memb.membAlloc with
    | none =>
        have := h.queue.owns.length_of_alloc_none ha
        omega
    | some r =>
        rcases h.pool.new_cases s.packetbuf with ⟨b, p', hnew, _⟩ | ⟨hfull, _⟩
        · simp only [hnew]
        · omega

/-- The announcement of a new metric overwrites the packet buffer, and what is there now has no
originator. So the packet that was received is lost. -/
theorem packetKey_announcementSetValue (C : NodeConf) (s : Node) (value : UInt16) :
    packetKey (announcementSetValue C s value).packetbuf = (rimeaddrNull, 0) := rfl

/-- A route update that keeps the metric only refreshes the neighbor table. The packet in the buffer
is the one that was received. -/
theorem routeReceived_keeps {C : NodeConf} {s : Node} (env : Env)
    (h : s.conn.rtmetric = sinkMetric ∨ keepsMetric s = true) :
    ∃ t, routeReceived C env s = { s with neighbors := t } := by
  unfold routeReceived
  by_cases hl : lowMetric s = true
  · rw [if_pos hl, relUpdateRtmetric]
    rw [keepsMetric, hl] at h
    rcases updateRoute_cases C s with
      ⟨_, he⟩ | ⟨hsink, hb, _⟩ | ⟨hsink, i, hb, rtmetric, hcost, hne, _⟩ | ⟨_, i, _, _, he⟩
    · rw [he]
      exact ⟨s.neighbors, rfl⟩
    · rw [hb] at h
      simp [hsink] at h
    · rw [hb] at h
      subst hcost
      simp [hsink, hne] at h
    · rw [he]
      exact ⟨_, rfl⟩
  · rw [if_neg hl]
    exact ⟨s.neighbors, rfl⟩

/-- A packet that can be accepted is delivered or enqueued. It is recorded before that, but nothing
in between touches the queue or the packet buffer. -/
theorem acceptedPacket_of_canAccept {C : NodeConf} {s : Node} (h : NodeInv C s) (env env' : Env)
    (hc : canAcceptPacket s = true) :
    acceptedPacket env' (routeReceived C env s) = some (packetKey s.packetbuf) := by
  rw [canAcceptPacket, Bool.or_eq_true, beq_iff_eq, Bool.and_eq_true, Bool.and_eq_true,
    bne_iff_ne] at hc
  obtain ⟨t, ht⟩ := routeReceived_keeps (C := C) env (hc.imp_right fun hc => hc.1.2)
  rw [ht, acceptedPacket]
  refine if_pos ?_
  by_cases hsink : s.conn.rtmetric = sinkMetric
  · exact Or.inl hsink
  · obtain ⟨⟨hmax, _⟩, hroom⟩ := hc.resolve_left hsink
    refine Or.inr ?_
    have hinv : NodeInv C { s with neighbors := t } := h.frame t s.packetbuf s.stats
    unfold acceptReceived
    rw [if_neg (show ({ s with neighbors := t } : Node).conn.rtmetric ≠ sinkMetric from hsink),
      if_pos (show ({ s with neighbors := t } : Node).conn.rtmetric ≠ rtmetricMax from hmax)]
    exact (enqueueForwarding_iff hinv env').mpr hroom

/-- The other direction, for a node that has a route and a packet with an originator: nothing
but a packet that can be accepted is delivered or enqueued. -/
theorem canAccept_of_acceptedPacket {C : NodeConf} {s : Node} (h : NodeInv C s) (env env' : Env)
    (hmax : s.conn.rtmetric ≠ rtmetricMax) (horig : s.packetbuf.addr .esender ≠ rimeaddrNull)
    (hacc : acceptedPacket env' (routeReceived C env s) = some (packetKey s.packetbuf)) :
    canAcceptPacket s = true := by
  rw [canAcceptPacket, Bool.or_eq_true, beq_iff_eq, Bool.and_eq_true, Bool.and_eq_true,
    bne_iff_ne]
  by_cases hsink : s.conn.rtmetric = sinkMetric
  · exact Or.inl hsink
  · refine Or.inr ?_
    by_cases hkeep : keepsMetric s = true
    · obtain ⟨t, ht⟩ := routeReceived_keeps (C := C) env (Or.inr hkeep)
      have hinv : NodeInv C { s with neighbors := t } := h.frame t s.packetbuf s.stats
      rw [ht, acceptedPacket, acceptReceived,
        if_neg (show ({ s with neighbors := t } : Node).conn.rtmetric ≠ sinkMetric from hsink),
        if_pos (show ({ s with neighbors := t } : Node).conn.rtmetric ≠ rtmetricMax from hmax)]
        at hacc
      refine ⟨⟨hmax, hkeep⟩, ?_⟩
      -- Without room it would be dropped, and nothing accepted.
      have hroom := (enqueueForwarding_iff hinv env').mp
      by_contra hno
      have henq : ¬ (enqueueOrDrop env' { s with neighbors := t }).1 = true := fun he =>
        hno (hroom he)
      rw [if_neg (not_or.mpr ⟨hsink, henq⟩)] at hacc
      cases hacc
    · -- A new metric is announced, and the packet is lost.
      exfalso
      have hl : lowMetric s = true := by
        rw [keepsMetric] at hkeep
        cases hl : lowMetric s with
        | true => rfl
        | false => simp [hl] at hkeep
      -- The announcement has no originator.
      have hlost : ∀ t rtmetric, acceptedPacket env'
          (announcementSetValue C (setRtmetric s t rtmetric) rtmetric) ≠
            some (packetKey s.packetbuf) := by
        intro t rtmetric
        rw [acceptedPacket]
        split
        · intro he
          rw [packetKey_announcementSetValue] at he
          exact horig (congrArg Prod.fst (Option.some.inj he)).symm
        · exact fun he => nomatch he
      rw [routeReceived, if_pos hl, relUpdateRtmetric] at hacc
      -- Of the branches of `rel_update_rtmetric` only those that keep the metric do not announce.
      rcases updateRoute_cases C s with
        ⟨hs, _⟩ | ⟨_, _, he⟩ | ⟨_, i, _, rtmetric, _, _, he⟩ | ⟨_, i, hb, hcost, _⟩
      · exact hsink hs
      · rw [he] at hacc
        exact hlost _ _ hacc
      · rw [he, sendIf, decide_eq_false hmax] at hacc
        exact hlost _ _ hacc
      · rw [keepsMetric, hb] at hkeep
        simp [hcost] at hkeep

/-! ### Runs -/

/-- A packet is accepted at most once while fewer than `NUM_RECENT_PACKETS` other packets are
recorded in between. Between two acceptances of `k` the others are counted once each, however often
they were received. -/
def AtMostOnce (l : List Reception) : Prop :=
  ∀ l₁ r l₂ r' l₃ k, l = l₁ ++ r :: (l₂ ++ r' :: l₃) →
    r.accepted = some k → r'.accepted = some k →
    numRecentPackets ≤ ((recordedPackets l₂).toFinset.erase k).card

/-- Only packets that are accepted are recorded. A packet that is recorded and lost would be dropped
when it is sent again. -/
def RecordsAccepted (l : List Reception) : Prop :=
  ∀ r ∈ l, r.recorded = true → r.accepted = some r.packet

/-- The packet of a reception is recorded and accepted, or neither. In the runs below every
reception is one of these two. -/
def Reception.Sound (r : Reception) : Prop :=
  r.accepted = if r.recorded then some r.packet else none

/-- What holds in the runs in which every packet can be accepted. The window holds the packets that
were recorded last, so a packet that is not in it differs from each of them, and the recorded
packets are distinct within every stretch of 20 (`Window.Distinct`). -/
structure ReceiverInv (C : NodeConf) (w : ReceivingNode) : Prop where
  node : NodeInv C w.node
  ptr : w.node.recentPacketPtr.toNat < numRecentPackets
  window : w.node.window =
    Window.lastOf numRecentPackets (rimeaddrNull, 0) (recordedPackets w.receptions)
  distinct : Window.Distinct numRecentPackets (rimeaddrNull, 0) (recordedPackets w.receptions)
  sound : ∀ r ∈ w.receptions, r.Sound

/-- The start of the node: nothing was received, and the entries of the window are zeros. -/
theorem receiverInv_boot (C : NodeConf) : ReceiverInv C ⟨Node.boot, []⟩ where
  node := nodeInv_boot C
  ptr := by decide
  window := by decide +kernel
  distinct := .nil
  sound r hr := nomatch hr

/-- The record of one more reception. -/
theorem recordedPackets_concat (l : List Reception) (r : Reception) :
    recordedPackets (l ++ [r]) = recordedPackets l ++ if r.recorded then [r.packet] else [] := by
  rw [recordedPackets, List.filter_append, List.map_append]
  cases hr : r.recorded <;> simp [recordedPackets, hr]

/-- One more reception is recorded and accepted, or neither. -/
theorem ReceiverInv.sound_concat {C : NodeConf} {w : ReceivingNode} (h : ReceiverInv C w)
    {r : Reception} (hr : r.Sound) : ∀ r' ∈ w.receptions ++ [r], r'.Sound := by
  intro r' hmem
  rcases List.mem_append.mp hmem with hmem | hmem
  · exact h.sound r' hmem
  · cases List.mem_singleton.mp hmem
    exact hr

/-- The reception of a duplicate. `rel_node_packet_received` drops it at once, so only the packet
buffer changes, and nothing is recorded. -/
theorem ReceiverInv.receive_duplicate {C : NodeConf} {w : ReceivingNode} (h : ReceiverInv C w)
    {pb : Packetbuf} {env env' : Env} (he : enabled C w.node (.received pb env env') = true)
    (hr : isRecent { w.node with packetbuf := pb } = true) :
    ReceiverInv C ⟨handle C w.node (.received pb env env'),
      w.receptions ++ receptionsOf C w.node (.received pb env env')⟩ := by
  have hnode := nodeInv_handle h.node he
  have hrec : receptionsOf C w.node (.received pb env env') = [⟨packetKey pb, false, none⟩] := by
    rw [receptionsOf, Rime.receive, if_pos hr]
  have hhandle : handle C w.node (.received pb env env') = { w.node with packetbuf := pb } := by
    show relNodePacketReceived C env env' { w.node with packetbuf := pb } = _
    rw [relNodePacketReceived, if_pos hr]
  rw [hhandle] at hnode ⊢
  rw [hrec]
  have hsame : recordedPackets (w.receptions ++ [⟨packetKey pb, false, none⟩]) =
      recordedPackets w.receptions := by
    rw [recordedPackets_concat]
    exact List.append_nil _
  refine ⟨hnode, h.ptr, ?_, ?_, h.sound_concat rfl⟩
  · rw [hsame]
    exact h.window
  · rw [hsame]
    exact h.distinct

/-- The window and its pointer after the reception of a new packet are those that `note_recent`
leaves. Neither the route update nor the queue writes to them. -/
theorem recent_received {C : NodeConf} {s : Node} {pb : Packetbuf} (env env' : Env)
    (hr : ¬ isRecent { s with packetbuf := pb } = true) :
    (handle C s (.received pb env env')).recent =
      (noteRecent { s with packetbuf := pb }).recent := by
  show (relNodePacketReceived C env env' { s with packetbuf := pb }).recent = _
  rw [relNodePacketReceived, if_neg hr]
  refine (Node.recent_of_kept ((Node.kept_sendIf C _ _).trans
    (Node.kept_acceptReceived _ _))).trans ?_
  split
  · rw [Node.recent_relUpdateRtmetric]
  · rfl

/-- The reception of a new packet that can be accepted. It is recorded and accepted, and as it was
not in the window, it is distinct from the packets recorded last. -/
theorem ReceiverInv.receive_new {C : NodeConf} {w : ReceivingNode} (h : ReceiverInv C w)
    {pb : Packetbuf} {env env' : Env} (he : enabled C w.node (.received pb env env') = true)
    (hair : fromAir (.received pb env env') = true)
    (hr : ¬ isRecent { w.node with packetbuf := pb } = true)
    (hpkt : canAcceptPacket { w.node with packetbuf := pb } = true) :
    ReceiverInv C ⟨handle C w.node (.received pb env env'),
      w.receptions ++ receptionsOf C w.node (.received pb env env')⟩ := by
  have hnode := nodeInv_handle h.node he
  have hload : NodeInv C { w.node with packetbuf := pb } :=
    h.node.frame w.node.neighbors pb w.node.stats
  -- A packet over the air has a sequence number of 8 bits, so the window loses nothing of it.
  have hseqno : (pb.attr .epacketId).toNat < 256 := by simpa [fromAir] using hair
  have hnew : packetKey pb ∉ w.node.window := fun hmem => hr ((isRecent_iff _).mpr hmem)
  have hnoted := (noteRecent_spec hload).1
  have haccepted := acceptedPacket_of_canAccept hnoted env env' hpkt
  have hrec : receptionsOf C w.node (.received pb env env') =
      [⟨packetKey pb, true, some (packetKey pb)⟩] := by
    rw [receptionsOf, Rime.receive, if_neg hr]
    exact congrArg (fun a => [(⟨packetKey pb, true, a⟩ : Reception)]) haccepted
  have hrecent := recent_received (C := C) env env' hr
  have hconcat : recordedPackets (w.receptions ++ [⟨packetKey pb, true, some (packetKey pb)⟩]) =
      recordedPackets w.receptions ++ [packetKey pb] := recordedPackets_concat _ _
  rw [hrec]
  refine ⟨hnode, ?_, ?_, ?_, h.sound_concat rfl⟩
  · rw [show (handle C w.node (.received pb env env')).recentPacketPtr = _ from
      congrArg Prod.snd hrecent]
    show (UInt8.ofNat _).toNat < _
    rw [UInt8.toNat_ofNat']
    exact (Nat.mod_le _ _).trans_lt (Nat.mod_lt _ (by decide))
  · rw [window_congr hrecent,
      window_noteRecent (s := { w.node with packetbuf := pb }) h.ptr hseqno, hconcat,
      Window.lastOf_concat (by decide), ← h.window]
    rfl
  · rw [hconcat]
    refine h.distinct.concat ?_
    rw [← h.window]
    exact hnew

/-- A reception of a packet that is a duplicate or can be accepted. -/
theorem ReceiverInv.receive {C : NodeConf} {w : ReceivingNode} (h : ReceiverInv C w)
    {pb : Packetbuf} {env env' : Env} (he : enabled C w.node (.received pb env env') = true)
    (hair : fromAir (.received pb env env') = true)
    (hacc : canAccept w.node (.received pb env env') = true) :
    ReceiverInv C ⟨handle C w.node (.received pb env env'),
      w.receptions ++ receptionsOf C w.node (.received pb env env')⟩ := by
  by_cases hr : isRecent { w.node with packetbuf := pb } = true
  · exact h.receive_duplicate he hr
  · refine h.receive_new he hair hr ?_
    simpa [canAccept, hr] using hacc

/-- Every other event leaves the window and the record alone. -/
theorem ReceiverInv.other {C : NodeConf} {w : ReceivingNode} (h : ReceiverInv C w) {a : NodeAction}
    (he : enabled C w.node a = true) (ha : ∀ pb env env', a ≠ .received pb env env') :
    ReceiverInv C ⟨handle C w.node a, w.receptions ++ receptionsOf C w.node a⟩ := by
  have hrecent := Node.recent_handle C w.node ha
  have hnone : receptionsOf C w.node a = [] := by
    cases a with
    | received pb env env' => exact absurd rfl (ha pb env env')
    | _ => rfl
  rw [hnone, List.append_nil]
  refine ⟨nodeInv_handle h.node he, ?_, ?_, h.distinct, h.sound⟩
  · rw [show (handle C w.node a).recentPacketPtr = _ from congrArg Prod.snd hrecent]
    exact h.ptr
  · rw [window_congr hrecent]
    exact h.window

/-- What was recorded was accepted: a sound reception does both or neither. -/
theorem ReceiverInv.recordsAccepted {C : NodeConf} {w : ReceivingNode} (h : ReceiverInv C w) :
    RecordsAccepted w.receptions := by
  intro r hr hrec
  rw [h.sound r hr, if_pos hrec]

/-- A packet that is accepted is recorded, and the recorded packets are distinct. So between two
acceptances of `k` the window was filled with others. -/
theorem ReceiverInv.atMostOnce {C : NodeConf} {w : ReceivingNode} (h : ReceiverInv C w) :
    AtMostOnce w.receptions := by
  intro l₁ r l₂ r' l₃ k hl hr hr'
  have hrecorded : ∀ t ∈ w.receptions, t.accepted = some k →
      t.recorded = true ∧ t.packet = k := by
    intro t ht hacc
    rw [h.sound t ht] at hacc
    split at hacc
    · rename_i hrec
      exact ⟨hrec, Option.some.inj hacc⟩
    · cases hacc
  obtain ⟨hrec, hpkt⟩ := hrecorded r (by simp [hl]) hr
  obtain ⟨hrec', hpkt'⟩ := hrecorded r' (by simp [hl]) hr'
  have hsplit : recordedPackets w.receptions =
      recordedPackets l₁ ++ k :: (recordedPackets l₂ ++ k :: recordedPackets l₃) := by
    rw [hl]
    simp [recordedPackets, hrec, hrec', hpkt, hpkt']
  have hdistinct := h.distinct
  rw [hsplit] at hdistinct
  exact hdistinct.le_card

/-- In every run in which each packet that comes over the air is a duplicate or can be accepted,
a packet is accepted at most once while fewer than `NUM_RECENT_PACKETS` other packets are
recorded, and every recorded packet is accepted. -/
theorem duplicate_suppression (C : NodeConf) (w : ReceivingNode)
    (h : (receiverMachine C).ReachableIf
      (fun w a => fromAir a = true ∧ canAccept w.node a = true) w) :
    AtMostOnce w.receptions ∧ RecordsAccepted w.receptions := by
  have hinv : ReceiverInv C w := by
    refine h.invariant (ReceiverInv C) (receiverInv_boot C) ?_
    rintro w a w' hw ⟨hair, hacc⟩ hstep
    simp only [receiverMachine] at hstep
    split at hstep
    · rename_i he
      cases hstep
      cases a with
      | received pb env env' => exact hw.receive he hair hacc
      | _ => exact hw.other he (by intros; exact fun hc => nomatch hc)
    · cases hstep
  exact ⟨hinv.atMostOnce, hinv.recordsAccepted⟩

/-- A packet of another node, with sequence number 7. -/
def sampleReceived : Packetbuf :=
  (Packetbuf.clear.setAddr .esender ⟨3, 0⟩).setAttr .epacketId 7

/-- The sample node receives the packet. -/
def receiveSample : NodeAction := .received sampleReceived sampleEnv sampleEnv

/-- The sink delivers a packet that it receives twice once. -/
theorem duplicate_suppression_sample :
    ∃ w : ReceivingNode, w.receptions =
        [⟨(⟨3, 0⟩, 7), true, some (⟨3, 0⟩, 7)⟩, ⟨(⟨3, 0⟩, 7), false, none⟩] ∧
      AtMostOnce w.receptions ∧ RecordsAccepted w.receptions := by
  have hend : ((receiverMachine sampleNode).runIf
      (fun w a => fromAir a = true ∧ canAccept w.node a = true) (receiverMachine sampleNode).init
      [.relcollectOpen, .setSink true sampleEnv, receiveSample, receiveSample]).map
        (·.receptions) =
      some [⟨(⟨3, 0⟩, 7), true, some (⟨3, 0⟩, 7)⟩, ⟨(⟨3, 0⟩, 7), false, none⟩] := by
    decide +kernel
  obtain ⟨w, hw, hrec⟩ := Machine.exists_reachableIf_of_runIf
    (M := receiverMachine sampleNode) hend
  exact ⟨w, hrec, duplicate_suppression sampleNode w hw⟩

/-- A node without a route records a packet and drops it. When it has got a route and the packet is
sent again, it drops it once more, as a duplicate. -/
theorem not_forall_recordsAccepted :
    ¬ ∀ (C : NodeConf) (w : ReceivingNode),
      (receiverMachine C).ReachableIf (fun _ a => fromAir a = true) w →
        AtMostOnce w.receptions ∧ RecordsAccepted w.receptions := by
  intro h
  have hend : ((receiverMachine sampleNode).runIf (fun _ a => fromAir a = true)
      (receiverMachine sampleNode).init
      [.relcollectOpen, receiveSample, hear 0, receiveSample]).map (·.receptions) =
      some [⟨(⟨3, 0⟩, 7), true, none⟩, ⟨(⟨3, 0⟩, 7), false, none⟩] := by
    decide +kernel
  obtain ⟨w, hw, hrec⟩ := Machine.exists_reachableIf_of_runIf
    (M := receiverMachine sampleNode) hend
  have hlost := (h sampleNode w hw).2 ⟨(⟨3, 0⟩, 7), true, none⟩ (by rw [hrec]; simp) rfl
  cases hlost

end PTunes.Rime
