import PTunes.Proofs.Rime.Forwarding
import PTunes.Proofs.Rime.Frames
import PTunes.Proofs.Rime.Neighbor
import PTunes.Rime.Network

/-!
# `PTunes.Proofs.Rime.Metric`: the stored metric is the announced one

`neighbor_add` and `neighbor_update` take the metric as an 8-bit value, the announcement and
the routing metric have 16 bits. So the table stores the announced metric exactly when it
is below 256 (`storedMetric_eq`). A node can have the metrics 256 and 257, because
`neighbor_best` keeps its parent while that costs at most 2 more than `RTMETRIC_MAX`
(`updateRoute_rtmetric_le`).

Two more things go wrong. A node that is not the sink can have the metric 0, when its parent is
the sink and the ETX of the parent has wrapped to 0. And the route update of a received
announcement can load a data packet over the announcement, whose bytes the loop of
`adv_packet_received` then takes for more announcements.

`Storable` excludes all three, by conditions on what a step starts from. The announcement that
is heard carries a metric below 256. The packet that its route update loads has no number
above 1 where the loop reads it. And no route update finds a neighbor with the cost 0. In
every run whose steps meet them, every stored metric is the announced one, and it is 0 only
for a sink (`stored_metric_sound`). The invariant ties an announcement in the air to the
routing metric of its sender: by `NodeInv`, the packet that waits to be sent carries the
current metric. And only a sink has the metric 0.
-/

set_option autoImplicit false

namespace PTunes.Rime

open PTunes.Core

/-- No neighbor that `neighbor_best` can return has the cost 0: neither an entry of the table
nor the block of the last parent. A sink does not look. -/
def NoFreeParent (s : Node) : Prop :=
  s.conn.rtmetric ≠ sinkMetric → ∀ i : NeighborPtr,
    IsEntry s.neighbors i ∨ s.neighbors.lastBest = some i → (s.neighbors.get i).cost ≠ 0

instance : DecidablePred NoFreeParent := fun s =>
  inferInstanceAs (Decidable (_ → ∀ _ : NeighborPtr, (_ ∧ _) ∨ _ → _))

/-- The states in which an event calls `rel_update_rtmetric`. -/
def updatePoints (C : NodeConf) (s : Node) (a : NodeAction) : List Node :=
  match completed C s a with
  | some (_, _, s') => [s']
  | none =>
    match a with
    | .setSink shouldBeSink _ => [setSinkMetric C s shouldBeSink]
    | .received pb _ _ =>
      let s := { s with packetbuf := pb }
      if isRecent s then []
      else
        let s := noteRecent s
        if lowMetric s then [s] else []
    | .recvAdv sender data outside env =>
      (hearAdv C s sender data outside env).noted.map Prod.snd
    | _ => []

/-- The node that notes the announcement in a message, before its route update. -/
def firstNoted (C : NodeConf) (s : Node) (m : Announcement) : Node :=
  noteAnnouncement C (ipoliteRecv (loadPayload s m.data)) m.sender m.value

/-- The packets that a route update would write over a received announcement have no number
above 1 at their bytes 10 and 11, where the number of the announcement is. -/
def KeepsNumber (C : NodeConf) (env : Env) (s : Node) : Prop :=
  ∀ packet ∈ routeWrites C env s, readLe16 packet 10 ≤ 1

/-- A node can store what an announcement says. It carries a metric below 256, the packets that
its route update writes keep its number, and no route update finds a neighbor with the
cost 0. -/
structure CanStore (C : NodeConf) (s : Node) (m : Announcement) (outside : Nat → Memory)
    (env : Nat → Env) : Prop where
  value : m.value < 256
  number : KeepsNumber C (env 0) (firstNoted C s m)
  free : ∀ t ∈ updatePoints C s (.recvAdv m.sender m.data outside env), NoFreeParent t

instance (C : NodeConf) (s : Node) (m : Announcement) (outside : Nat → Memory)
    (env : Nat → Env) : Decidable (CanStore C s m outside env) :=
  decidable_of_iff (m.value < 256 ∧
      (∀ packet ∈ routeWrites C (env 0) (firstNoted C s m), readLe16 packet 10 ≤ 1) ∧
      ∀ t ∈ updatePoints C s (.recvAdv m.sender m.data outside env), NoFreeParent t)
    ⟨fun h => ⟨h.1, h.2.1, h.2.2⟩, fun h => ⟨h.value, h.number, h.free⟩⟩

/-- What a step starts from lets it store the announced metrics: a node can store the
announcement that it hears, and in its other events no route update finds a neighbor with the
cost 0. -/
def Storable (conf : RimeAddr → NodeConf) (N : Network) : NetworkAction → Prop
  | .event node a => ∀ t ∈ updatePoints (conf node) (N.nodes node) a, NoFreeParent t
  | .hear node i outside env =>
    ∀ m ∈ N.air[i]?, CanStore (conf node) (N.nodes node) m outside env

instance (conf : RimeAddr → NodeConf) (N : Network) : DecidablePred (Storable conf N)
  | .event _ _ => inferInstanceAs (Decidable (∀ _ ∈ _, NoFreeParent _))
  | .hear _ _ _ _ => inferInstanceAs (Decidable (∀ _ ∈ _, CanStore _ _ _ _ _))

/-- The record of a stored metric is right: the announced metric is stored, and it is 0 only
for the sink. -/
def StoredMetric.Sound (m : StoredMetric) : Prop :=
  m.stored = m.announced ∧ (m.stored = sinkMetric → m.wasSink = true)

/-! ### What is stored -/

/-- After a write to one block, an entry with an address that no entry had before is that
block. -/
theorem find_write_of_none {t : NeighborTable} {addr : RimeAddr}
    (h : neighborFind t addr = none) {i j : NeighborPtr} {n : Neighbor}
    (hj : neighborFind (t.write i n) addr = some j) : j = i := by
  obtain ⟨hmem, haddr⟩ := neighborFind_some hj
  by_contra hne
  rw [t.get_write_ne n (Ne.symm hne)] at haddr
  exact neighborFind_none h hmem haddr

/-- The entry of a neighbor after `neighbor_add` of a new neighbor has the added metric. -/
theorem rtmetric_neighborAdd {P : Platform} {t : NeighborTable} {addr : RimeAddr}
    {rtmetric etx : UInt8} {j : NeighborPtr} (h : neighborFind t addr = none)
    (hj : neighborFind (neighborAdd P t addr rtmetric etx) addr = some j) :
    ((neighborAdd P t addr rtmetric etx).get j).rtmetric = rtmetric.toUInt16 := by
  rcases neighborAdd_cases P t addr rtmetric etx with
    ⟨i, _, _, he⟩ | ⟨i, m, halloc, he⟩ | ⟨i, _, _, he⟩ | he <;> rw [he] at hj ⊢
  · rw [find_write_of_none h hj, NeighborTable.get_write_self]
    rfl
  · obtain ⟨hmem, haddr⟩ := neighborFind_some hj
    obtain ⟨_, rfl⟩ := Memb.membAlloc_some halloc
    have hji : j = i := by
      by_contra hne
      have hget : (Memb.block (Memb.write _ i (freshNeighbor addr rtmetric etx)) j).addr = addr :=
        haddr
      rw [Memb.block_write_ne _ _ (Ne.symm hne)] at hget
      have hold : j ∈ t.neighborsList := by
        simpa [hne] using hmem
      exact neighborFind_none h hold hget
    subst hji
    show (Memb.block (Memb.write _ j (freshNeighbor addr rtmetric etx)) j).rtmetric = _
    rw [Memb.block_write_self]
    rfl
  · rw [find_write_of_none h hj, NeighborTable.get_write_self]
    rfl
  · rw [h] at hj
    cases hj

/-- The entry of a neighbor after `neighbor_update` has the new metric. -/
theorem rtmetric_neighborUpdate {t : NeighborTable} {addr : RimeAddr} {i j : NeighborPtr}
    {rtmetric : UInt8} (h : neighborFind t addr = some i)
    (hj : neighborFind (neighborUpdate t (some i) rtmetric) addr = some j) :
    ((neighborUpdate t (some i) rtmetric).get j).rtmetric = rtmetric.toUInt16 := by
  -- The update keeps all addresses, so the same entry is found.
  have hsame : neighborFind (neighborUpdate t (some i) rtmetric) addr = neighborFind t addr := by
    have haddr : ∀ k, ((neighborUpdate t (some i) rtmetric).get k).addr = (t.get k).addr := by
      intro k
      by_cases hk : i = k
      · subst hk
        rw [neighborUpdate, NeighborTable.get_write_self]
      · rw [neighborUpdate, t.get_write_ne _ hk]
    simp only [neighborFind, haddr]
    rfl
  rw [hsame, h] at hj
  cases hj
  rw [neighborUpdate, NeighborTable.get_write_self]

/-- `received_announcement` stores the low byte of the metric that it gets. -/
theorem storedMetric_stored {C : NodeConf} {s : Node} {m : Announcement} {value : UInt16}
    {st : StoredMetric} (h : storedMetric m (noteAnnouncement C s m.sender value) = some st) :
    st = ⟨m.value, value.toUInt8.toUInt16, m.wasSink⟩ := by
  obtain ⟨j, hj, rfl⟩ := Option.map_eq_some_iff.mp h
  have hr : ((noteAnnouncement C s m.sender value).neighbors.get j).rtmetric
      = value.toUInt8.toUInt16 := by
    simp only [noteAnnouncement] at hj ⊢
    cases hf : neighborFind s.neighbors m.sender with
    | none =>
        simp only [hf] at hj ⊢
        exact rtmetric_neighborAdd hf hj
    | some i =>
        simp only [hf] at hj ⊢
        exact rtmetric_neighborUpdate hf hj
  rw [hr]

/-- The low byte of a metric is the metric exactly when it is below 256. -/
theorem toUInt8_toUInt16_eq_iff (value : UInt16) :
    value.toUInt8.toUInt16 = value ↔ value < 256 := by
  rw [← UInt16.toNat_inj, UInt16.lt_iff_toNat_lt, UInt8.toNat_toUInt16, UInt16.toNat_toUInt8]
  show value.toNat % 256 = value.toNat ↔ value.toNat < 256
  omega

/-- `received_announcement` stores the announced metric exactly when it is below 256. -/
theorem storedMetric_eq {C : NodeConf} {s : Node} {m : Announcement} {st : StoredMetric}
    (h : storedMetric m (noteAnnouncement C s m.sender m.value) = some st) :
    st.stored = st.announced ↔ m.value < 256 := by
  rw [storedMetric_stored h]
  exact toUInt8_toUInt16_eq_iff m.value

/-! ### What is announced -/

/-- A routing metric that `rel_update_rtmetric` computes is at most 257. -/
theorem updateRoute_rtmetric_le (C : NodeConf) (s : Node)
    (h : s.conn.rtmetric.toNat ≤ 257) : (updateRoute C s).2.conn.rtmetric.toNat ≤ 257 := by
  rcases updateRoute_cases C s with
    ⟨_, he⟩ | ⟨_, _, he⟩ | ⟨_, i, hi, rtmetric, hr, _, he⟩ | ⟨_, i, _, _, he⟩ <;> rw [he]
  · exact h
  · show rtmetricMax.toNat ≤ 257
    decide
  · -- `neighbor_best` writes `last_best` only, so the parent's block is as it was.
    have hget : (neighborBest s.neighbors).2.get i = s.neighbors.get i := by
      rw [neighborBest_lastBest]
      rfl
    show rtmetric.toNat ≤ 257
    rw [hr, hget]
    exact neighborBest_cost_le hi
  · exact h

/-- The three values of a message with one announcement. -/
theorem readLe16_announcementMsg (id value : UInt16) :
    readLe16 (announcementMsg id value) 0 = 1 ∧ readLe16 (announcementMsg id value) 2 = id ∧
      readLe16 (announcementMsg id value) 4 = value := by
  have hle : ∀ v : UInt16,
      UInt16.ofNat ((UInt8.ofNat (v.toNat % 256)).toNat +
        256 * (UInt8.ofNat (v.toNat / 256)).toNat) = v := by
    intro v
    have hv := v.toNat_lt
    rw [← UInt16.toNat_inj]
    show (((v.toNat % 256) % 256) + 256 * ((v.toNat / 256) % 256)) % 65536 = v.toNat
    omega
  exact ⟨rfl, hle id, hle value⟩

/-- A packet that a node broadcasts carries its routing metric. -/
theorem broadcasts_rtmetric {C : NodeConf} {s : Node} {a : NodeAction} {data : List UInt8}
    (h : NodeInv C s) (he : enabled C s a = true) (hb : broadcasts s a = some data) :
    s.opened = true ∧ data = announcementMsg C.channels s.conn.rtmetric := by
  cases a with
  | ipoliteTimer pb =>
      obtain ⟨ho, _⟩ := Bool.and_eq_true_iff.mp he
      obtain ⟨b, hq, rfl⟩ := Option.map_eq_some_iff.mp hb
      refine ⟨ho, ?_⟩
      rw [h.adv b hq, h.announced ho]
  | _ => cases hb

/-! ### Where a routing metric comes from -/

/-- The metric after a route update: the old one, `RTMETRIC_MAX`, or the cost of a neighbor. -/
theorem updateRoute_metric {C : NodeConf} {s : Node} {M : UInt16 → Prop}
    (hs : M s.conn.rtmetric) (hmax : M rtmetricMax)
    (hcost : s.conn.rtmetric ≠ sinkMetric → ∀ i, (neighborBest s.neighbors).1 = some i →
      M (s.neighbors.get i).cost) : M (updateRoute C s).2.conn.rtmetric := by
  rcases updateRoute_cases C s with
    ⟨_, he⟩ | ⟨_, _, he⟩ | ⟨hsink, i, hi, rtmetric, hr, _, he⟩ | ⟨_, i, _, _, he⟩ <;> rw [he]
  · exact hs
  · exact hmax
  · -- `neighbor_best` writes `last_best` only, so the parent's block is as it was.
    have hget : (neighborBest s.neighbors).2.get i = s.neighbors.get i := by
      rw [neighborBest_lastBest]
      rfl
    rw [hget] at hr
    rw [hr]
    exact hcost hsink i hi
  · exact hs

/-- `rel_update_rtmetric` in a state without a neighbor of the cost 0. -/
theorem relUpdateRtmetric_metric {C : NodeConf} {env : Env} {s : Node} {M : UInt16 → Prop}
    (hs : M s.conn.rtmetric) (hmax : M rtmetricMax) (hpos : ∀ v : UInt16, v ≠ 0 → M v)
    (hfree : NoFreeParent s) : M (relUpdateRtmetric C env s).conn.rtmetric := by
  rw [relUpdateRtmetric, Node.rtmetric_of_kept (Node.kept_sendIf C env (updateRoute C s))]
  refine updateRoute_metric hs hmax fun hsink i hi => hpos _ (hfree hsink i ?_)
  rcases neighborBest_cases s.neighbors with ⟨l, hl, _, he⟩ | ⟨he, _⟩ <;> rw [he] at hi
  · exact Or.inr (hl.trans hi)
  · exact Or.inl ((lowest_isLowest s.neighbors).1 i hi).1

/-- A received announcement, when none of its route updates finds a neighbor with the cost 0.
The invariant of the loop is conditional: it is about the route updates noted so far. -/
theorem hearing_metric {C : NodeConf} {s : Node} {sender : RimeAddr} {data : List UInt8}
    {outside : Nat → Memory} {env : Nat → Env} {M : UInt16 → Prop} (hs : M s.conn.rtmetric)
    (hmax : M rtmetricMax) (hpos : ∀ v : UInt16, v ≠ 0 → M v)
    (hfree : ∀ t ∈ (hearAdv C s sender data outside env).noted.map Prod.snd, NoFreeParent t) :
    M (recvAdv C s sender data outside env).conn.rtmetric := by
  let Kept (h : Hearing) : Prop :=
    (∀ t ∈ h.noted.map Prod.snd, NoFreeParent t) → M h.node.conn.rtmetric
  have hkept : Kept (hearAdv C s sender data outside env) := by
    refine advPacketReceived_rule (P := Kept) ?_ ?_
    · intro h id value hh
      unfold announcementHeard
      split
      · intro hnoted
        simp only [List.map_append, List.map_cons, List.map_nil] at hnoted
        have hold := hh fun t ht => hnoted t (List.mem_append_left _ ht)
        exact relUpdateRtmetric_metric hold hmax hpos
          (hnoted _ (List.mem_append_right _ List.mem_cons_self))
      · exact hh
    · intro _
      show M (ipoliteRecv (loadPayload s data)).conn.rtmetric
      rw [Node.rtmetric_of_kept (Node.kept_ipoliteRecv _)]
      exact hs
  exact hkept hfree

/-- The metric after an event whose route updates find no neighbor with the cost 0: a property
of the old metric, of `RTMETRIC_MAX`, of all metrics but 0, and of what `relcollect_set_sink`
sets, is one of the new metric. -/
theorem handle_metric {C : NodeConf} {s : Node} {a : NodeAction} {M : UInt16 → Prop}
    (hs : M s.conn.rtmetric) (hpos : ∀ v : UInt16, v ≠ 0 → M v)
    (hset : ∀ shouldBeSink env, a = .setSink shouldBeSink env →
      M (if shouldBeSink then sinkMetric else rtmetricMax))
    (hfree : ∀ t ∈ updatePoints C s a, NoFreeParent t) :
    M (handle C s a).conn.rtmetric := by
  have hmax : M rtmetricMax := hpos _ (by decide)
  rw [Node.rtmetric_of_kept (Node.kept_handle C s a)]
  unfold updatePoints at hfree
  cases hc : completed C s a with
  | some r =>
      obtain ⟨env, env', s'⟩ := r
      rw [hc] at hfree
      rw [handleEvent_completed hc, Node.rtmetric_of_kept (Node.kept_completePacket C env env' s')]
      -- The completion updates the route before it sends.
      refine relUpdateRtmetric_metric ?_ hmax hpos (hfree s' List.mem_cons_self)
      rw [Node.rtmetric_of_kept (Node.kept_of_completed C env env' s hc)]
      exact hs
  | none =>
      rw [hc] at hfree
      cases a with
      | relcollectOpen => exact hmax
      | setSink shouldBeSink env =>
          -- What `relcollect_set_sink` sets, and then the route update.
          exact relUpdateRtmetric_metric (hset shouldBeSink env rfl) hmax hpos
            (hfree _ List.mem_cons_self)
      | relcollectSend pb rexmits env =>
          show M (sendIf C env
            (acceptOwn env (prepareSend C { s with packetbuf := pb } rexmits))).conn.rtmetric
          -- What is accepted and sent does not change the metric.
          rw [Node.rtmetric_of_kept ((Node.kept_sendIf C env _).trans (Node.kept_acceptOwn env _))]
          exact hs
      | received pb env env' =>
          simp only at hfree
          show M (relNodePacketReceived C env env' { s with packetbuf := pb }).conn.rtmetric
          unfold relNodePacketReceived
          split
          · exact hs
          · rename_i hr
            rw [if_neg hr] at hfree
            refine (Node.rtmetric_of_kept ((Node.kept_sendIf C env' _).trans
              (Node.kept_acceptReceived env' _))).symm ▸ ?_
            split
            · rename_i hl
              rw [if_pos hl] at hfree
              exact relUpdateRtmetric_metric hs hmax hpos (hfree _ List.mem_cons_self)
            · exact hs
      | recvAdv sender data outside env =>
          exact hearing_metric hs hmax hpos hfree
      | sendTimer mac acked env env' =>
          rw [Node.rtmetric_of_kept (Node.kept_of_not_completed C s hc rfl)]
          exact hs
      | removeQueuedPacket acked env env' env'' =>
          rw [Node.rtmetric_of_kept (Node.kept_of_not_completed C s hc rfl)]
          exact hs
      | removeBroadcast b env => exact hs
      | ipoliteTimer pb =>
          rw [show handleEvent C s (.ipoliteTimer pb) = ipoliteTimer s pb from rfl,
            Node.rtmetric_of_kept (Node.kept_ipoliteTimer s pb)]
          exact hs
      | advTimer => exact hs
      | neighborPeriodic => exact hs
      | neighborSetLifetime seconds => exact hs
      | otherNew pb =>
          rw [show handleEvent C s (.otherNew pb) = otherNew s pb from rfl,
            Node.rtmetric_of_kept (Node.kept_otherNew s pb)]
          exact hs
      | otherFree b => exact hs

/-! ### What is heard -/

/-- Of a message with one announcement the loop hears this one and no other, when the route
update of the announcement keeps the number of the message. -/
theorem hearAdv_announcementMsg {C : NodeConf} {s : Node} {sender : RimeAddr}
    {id value : UInt16} {outside : Nat → Memory} {env : Nat → Env}
    (h : KeepsNumber C (env 0)
      (noteAnnouncement C (ipoliteRecv (loadPayload s (announcementMsg id value))) sender value)) :
    hearAdv C s sender (announcementMsg id value) outside env =
      announcementHeard C sender outside env
        (startHearing s (announcementMsg id value) outside) id value := by
  obtain ⟨hnum, hid, hvalue⟩ := readLe16_announcementMsg id value
  have hread : ∀ i : UInt16, i.toNat + 1 < 6 →
      (startHearing s (announcementMsg id value) outside).adata.read16 i =
        readLe16 (announcementMsg id value) i.toNat := fun i hi =>
    Memory.read16_write hi (by omega)
  have hone := (hread 0 (by decide)).trans hnum
  refine advPacketReceived_of_once hone ?_ ?_
  · rw [(hread 2 (by decide)).trans hid, (hread 4 (by decide)).trans hvalue]
  · unfold announcementHeard
    split
    · exact read16_overwrite_le (by rw [hone]; decide) h
    · rw [hone]
      exact UInt16.le_refl 1

/-- An announcement in the air has one announcement, whose metric is 0 only when the sender was
the sink. -/
def Announcement.Sound (m : Announcement) : Prop :=
  (∃ id, m.data = announcementMsg id m.value) ∧ (m.value = sinkMetric → m.wasSink = true)

/-- What is stored for an announcement below 256 in the air is right. -/
theorem storedMetric_sound {C : NodeConf} {s : Node} {m : Announcement} {outside : Nat → Memory}
    {env : Nat → Env} {st : StoredMetric} (hm : m.Sound) (hlt : m.value < 256)
    (hkeeps : KeepsNumber C (env 0) (firstNoted C s m))
    (hst : st ∈ (hearAdv C s m.sender m.data outside env).noted.filterMap
      fun p => storedMetric m p.2) : st.Sound := by
  obtain ⟨⟨id, hdata⟩, hsink⟩ := hm
  rw [firstNoted, hdata] at hkeeps
  rw [hdata, hearAdv_announcementMsg hkeeps] at hst
  unfold announcementHeard at hst
  split at hst
  · -- The announcement is noted, and it is the only one.
    rw [List.filterMap_append, startHearing, List.filterMap_nil, List.nil_append,
      List.mem_filterMap] at hst
    obtain ⟨p, hp, hst⟩ := hst
    cases List.mem_singleton.mp hp
    have hstored := storedMetric_stored hst
    rw [(toUInt8_toUInt16_eq_iff m.value).mpr hlt] at hstored
    subst hstored
    exact ⟨rfl, hsink⟩
  · cases hst

/-! ### Runs -/

/-- The invariant of the network. -/
structure NetworkInv (conf : RimeAddr → NodeConf) (N : Network) : Prop where
  nodes : ∀ a, NodeInv (conf a) (N.nodes a)
  sinks : ∀ a, (N.nodes a).opened = true → (N.nodes a).conn.rtmetric = sinkMetric →
    N.sinks a = true
  air : ∀ m ∈ N.air, m.Sound
  stores : ∀ st ∈ N.stores, st.Sound

/-- The nodes are closed at first, and nothing is announced. -/
theorem networkInv_boot (conf : RimeAddr → NodeConf) : NetworkInv conf Network.boot where
  nodes a := nodeInv_boot (conf a)
  sinks a ho := by cases ho
  air m hm := by cases hm
  stores st hst := by cases hst

/-- After a step of one node, what holds of every node and its neighborhood still holds. -/
theorem forall_update {P : RimeAddr → Node → Prop} {nodes : RimeAddr → Node}
    (h : ∀ a, P a (nodes a)) {node : RimeAddr} {s : Node} (hs : P node s) (a : RimeAddr) :
    P a (Function.update nodes node s a) := by
  by_cases ha : a = node
  · subst ha
    rw [Function.update_self]
    exact hs
  · rw [Function.update_of_ne ha]
    exact h a

/-- A node that is not open stays so, or it opens with the metric `RTMETRIC_MAX`. -/
theorem handle_of_not_opened {C : NodeConf} {s : Node} {a : NodeAction}
    (he : enabled C s a = true) (ho : s.opened = false) :
    (handle C s a).opened = false ∨ (handle C s a).conn.rtmetric = rtmetricMax := by
  cases a with
  | relcollectOpen => exact Or.inr rfl
  | neighborPeriodic => exact Or.inl ho
  | neighborSetLifetime seconds => exact Or.inl ho
  | otherNew pb =>
      refine Or.inl ?_
      show (otherNew s pb).opened = false
      unfold otherNew
      split <;> exact ho
  | otherFree b => exact Or.inl ho
  | _ => simp [enabled, ho] at he

/-- Only a sink has the metric 0: after an event whose route updates find no neighbor with the
cost 0, the metric 0 is that of `relcollect_set_sink`. -/
theorem sink_of_metric_zero {C : NodeConf} {s : Node} {a : NodeAction} {wasSink isSink : Bool}
    (he : enabled C s a = true)
    (hs : s.opened = true → s.conn.rtmetric = sinkMetric → wasSink = true)
    (hset : ∀ shouldBeSink env, a = .setSink shouldBeSink env → isSink = shouldBeSink)
    (hsame : (∀ shouldBeSink env, a ≠ .setSink shouldBeSink env) → isSink = wasSink)
    (hfree : ∀ t ∈ updatePoints C s a, NoFreeParent t)
    (ho : (handle C s a).opened = true) (hzero : (handle C s a).conn.rtmetric = sinkMetric) :
    isSink = true := by
  cases hopen : s.opened with
  | false =>
      rcases handle_of_not_opened he hopen with hclosed | hmax
      · rw [hclosed] at ho
        cases ho
      · rw [hmax] at hzero
        cases hzero
  | true =>
      by_cases hsink : ∃ shouldBeSink env, a = .setSink shouldBeSink env
      · obtain ⟨shouldBeSink, env, rfl⟩ := hsink
        rw [hset _ _ rfl]
        -- The metric that `relcollect_set_sink` sets is 0 for a sink only.
        refine handle_metric (M := fun v => v = sinkMetric → shouldBeSink = true)
          (s := { s with conn := { s.conn with rtmetric := rtmetricMax } })
          (C := C) (a := .setSink shouldBeSink env) (nomatch ·) (fun v hv h => absurd h hv) ?_
          ?_ hzero
        · intro b e hb
          cases hb
          cases shouldBeSink with
          | true => exact fun _ => rfl
          | false => exact fun h => by cases h
        · exact hfree
      · have hsame' := hsame fun b env hb => hsink ⟨b, env, hb⟩
        refine handle_metric (M := fun v => v = sinkMetric → isSink = true) ?_
          (fun v hv h => absurd h hv) (fun b env hb => absurd ⟨b, env, hb⟩ hsink) hfree hzero
        rw [hsame']
        exact hs hopen

/-- What an own event of a node keeps. -/
theorem NetworkInv.event {conf : RimeAddr → NodeConf} {N : Network} (h : NetworkInv conf N)
    {node : RimeAddr} {a : NodeAction} (he : enabled (conf node) (N.nodes node) a = true)
    (hfree : ∀ t ∈ updatePoints (conf node) (N.nodes node) a, NoFreeParent t) :
    NetworkInv conf (N.event conf node a) where
  nodes := forall_update (P := fun a s => NodeInv (conf a) s) h.nodes
    (nodeInv_handle (h.nodes node) he)
  sinks := by
    intro b hb hzero
    by_cases hnode : b = node
    · subst hnode
      simp only [Network.event, Function.update_self] at hb hzero
      refine sink_of_metric_zero he (h.sinks b) ?_ ?_ hfree hb hzero
      · intro shouldBeSink env ha
        subst ha
        simp [Network.event]
      · intro hne
        cases a with
        | setSink shouldBeSink env => exact absurd rfl (hne shouldBeSink env)
        | _ => rfl
    · simp only [Network.event, Function.update_of_ne hnode] at hb hzero
      have hsame : (N.event conf node a).sinks b = N.sinks b := by
        cases a with
        | setSink shouldBeSink env => exact Function.update_of_ne hnode _ _
        | _ => rfl
      rw [hsame]
      exact h.sinks b hb hzero
  air m hmem := by
    rcases List.mem_append.mp hmem with hold | hnew
    · exact h.air m hold
    · rw [Option.mem_toList, Option.map_eq_some_iff] at hnew
      obtain ⟨data, hb, rfl⟩ := hnew
      obtain ⟨ho, hdata⟩ := broadcasts_rtmetric (h.nodes node) he hb
      have hvalue : readLe16 data 4 = (N.nodes node).conn.rtmetric := by
        rw [hdata]
        exact (readLe16_announcementMsg _ _).2.2
      refine ⟨⟨(conf node).channels, ?_⟩, fun hzero => ?_⟩
      · rw [Announcement.value, hvalue]
        exact hdata
      · rw [Announcement.value, hvalue] at hzero
        exact h.sinks node ho hzero
  stores := h.stores

/-- What the reception of an announcement keeps. -/
theorem NetworkInv.hear {conf : RimeAddr → NodeConf} {N : Network} (h : NetworkInv conf N)
    {node : RimeAddr} {m : Announcement} (hm : m ∈ N.air)
    (ho : (N.nodes node).opened = true) {outside : Nat → Memory} {env : Nat → Env}
    (hcan : CanStore (conf node) (N.nodes node) m outside env) :
    NetworkInv conf (N.hear conf node m outside env) where
  nodes := forall_update (P := fun a s => NodeInv (conf a) s) h.nodes
    (nodeInv_handle (h.nodes node) ho)
  sinks := forall_update (P := fun a s => s.opened = true → s.conn.rtmetric = sinkMetric →
      N.sinks a = true) h.sinks
    (sink_of_metric_zero ho (h.sinks node) (fun _ _ hb => nomatch hb) (fun _ => rfl) hcan.free)
  air := h.air
  stores st hmem := by
    rcases List.mem_append.mp hmem with hold | hnew
    · exact h.stores st hold
    · exact storedMetric_sound (h.air m hm) hcan.value hcan.number hnew

/-- In every run whose steps are `Storable`: every metric that `received_announcement` stores
for a neighbor is the metric the neighbor announced, and it is 0 only when the neighbor was
the sink. -/
theorem stored_metric_sound (conf : RimeAddr → NodeConf) (N : Network)
    (h : (Network.machine conf).ReachableIf (Storable conf) N) (st : StoredMetric)
    (hst : st ∈ N.stores) : st.Sound := by
  have hinv : NetworkInv conf N := by
    refine h.invariant (NetworkInv conf) (networkInv_boot conf) ?_
    intro N a N' hN hm hstep
    cases a with
    | event node a =>
        simp only [Network.machine] at hstep
        split at hstep
        · rename_i hc
          cases hstep
          exact hN.event (Bool.and_eq_true_iff.mp hc).2 hm
        · cases hstep
    | hear node i outside env =>
        simp only [Network.machine] at hstep
        split at hstep
        · rename_i m hi
          split at hstep
          · rename_i ho
            cases hstep
            exact hN.hear (List.mem_of_getElem? hi) ho (hm m hi)
          · cases hstep
        · cases hstep
  exact hinv.stores st hst

/-- Nodes on one channel, for concrete runs. -/
def sampleConf (addr : RimeAddr) : NodeConf := { sampleNode with addr := addr }

/-- A node hears the announcement `air[i]`. -/
def hears (node : RimeAddr) (i : Nat) : NetworkAction :=
  .hear node i (fun _ _ => 0) fun _ => sampleEnv

/-- A node broadcasts its announcement. -/
def announce (node : RimeAddr) : NetworkAction := .event node (.ipoliteTimer Packetbuf.clear)

/-- A sink announces itself, and a node hears it. -/
theorem stored_metric_sound_sample :
    ∃ N, (Network.machine sampleConf).ReachableIf (Storable sampleConf) N ∧
      ⟨0, 0, true⟩ ∈ N.stores ∧ StoredMetric.Sound ⟨0, 0, true⟩ := by
  have hrun := Machine.reachableIf_of_runIf (M := Network.machine sampleConf)
    (Storable sampleConf)
    [.event ⟨1, 0⟩ .relcollectOpen, .event ⟨1, 0⟩ (.setSink true sampleEnv), announce ⟨1, 0⟩,
      .event ⟨2, 0⟩ .relcollectOpen, hears ⟨2, 0⟩ 0] rfl
  exact ⟨_, hrun, by decide +kernel,
    stored_metric_sound sampleConf _ hrun ⟨0, 0, true⟩ (by decide +kernel)⟩

/-- Node 2 announces 255 before it hears the sink, and 1 afterwards. Node 3 hears the second
announcement first, so it keeps node 2 as its parent and gets the metric 256. Node 4 stores
it as 0. -/
theorem not_forall_stored_metric_sound :
    ¬ ∀ (conf : RimeAddr → NodeConf) (N : Network), (Network.machine conf).Reachable N →
      ∀ st ∈ N.stores, st.Sound := by
  intro h
  refine Machine.not_forall_reachable
    [.event ⟨1, 0⟩ .relcollectOpen, .event ⟨1, 0⟩ (.setSink true sampleEnv), announce ⟨1, 0⟩,
      .event ⟨2, 0⟩ .relcollectOpen, announce ⟨2, 0⟩, hears ⟨2, 0⟩ 0,
      announce ⟨2, 0⟩, .event ⟨3, 0⟩ .relcollectOpen, hears ⟨3, 0⟩ 2,
      hears ⟨3, 0⟩ 1, announce ⟨3, 0⟩, .event ⟨4, 0⟩ .relcollectOpen,
      hears ⟨4, 0⟩ 3] rfl ?_ (h sampleConf)
  intro hs
  exact absurd (hs ⟨256, 0, false⟩ (by decide +kernel)).1 (by decide)

end PTunes.Rime
