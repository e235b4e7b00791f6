import PTunes.Glossy.FloodPackets
import PTunes.Proofs.Glossy.FloodSync

/-!
# `PTunes.Proofs.Glossy.FloodPackets`: constructive interference, and what the nodes hold

In the idealised flood a packet whose CRC is right is one that a node has sent. So every packet on
the air is the initiator's, up to the slot field.

* `sameTime_of_overlap`: two transmissions for the synchronisation that overlap start at the same
  time, and send the same packet. This is what lets them interfere constructively.
* `holdsInitiator_of_reachableIf`: a node that has received a packet holds the data of the
  initiator, in floods in which the relay of the first packet begins before anything else happens.
-/

set_option autoImplicit false

namespace PTunes.Glossy

open PTunes.Rime (RimeAddr)
open Flood

/-- The packet of the initiator, up to the slot field. -/
def SyncFlood.Good (F : SyncFlood) (p : Packet) : Prop :=
  p = ⟨(F.conf F.initiator).packetLen, glossyHeader, F.data F.initiator, p.slot⟩

/-- What a node holds: it sends packets of the initiator only. -/
structure PacketFloodInv (F : SyncFlood) (source : Option Packet) (n : RimeAddr) (s : Flood) :
    Prop where
  source : ∀ p, source = some p → F.Good p
  packet : s.status = .received → F.Good s.packet
  data : n = F.initiator → s.data = F.data F.initiator
  timeout : s.tbcctl4 = true → n = F.initiator
  received : ∀ d ∈ s.received, d = F.data F.initiator

/-- The invariant of the flood. -/
structure PacketNetInv (F : SyncFlood) (s : PacketNet) : Prop where
  nodes : ∀ n, PacketFloodInv F (s.source n) n (s.net.nodes n).flood
  packets : ∀ tr p, (tr, p) ∈ s.packets → tr ∈ s.net.air ∧ p.slot = tr.slot ∧ F.Good p

variable {F : SyncFlood} {n : RimeAddr} {source : Option Packet} {x y : Flood} {i : Interrupt}

/-- The length of the packet is the same at all nodes: it follows from that of the data and from the
synchronisation, which all of them share. -/
theorem packetLen_conf (F : SyncFlood) (n : RimeAddr) :
    (F.conf n).packetLen = (F.conf F.initiator).packetLen := rfl

/-- The initiator's packet with another slot. -/
theorem SyncFlood.Good.withSlot {p : Packet} (h : F.Good p) (slot : UInt8) :
    F.Good { p with slot := slot } := by
  rw [SyncFlood.Good] at h ⊢
  rw [h]

/-! ### One node -/

/-- The node receives nothing and is about to send nothing. -/
theorem PacketFloodInv.quiet (h : PacketFloodInv F source n x) (hdata : y.data = x.data)
    (htimeout : y.tbcctl4 = true → x.tbcctl4 = true) (hreceived : y.received = x.received)
    (hstatus : y.status = .received → x.status = .received ∧ y.packet = x.packet) :
    PacketFloodInv F source n y where
  source := h.source
  packet hy := by
    obtain ⟨hx, hpacket⟩ := hstatus hy
    rw [hpacket]
    exact h.packet hx
  data hn := by
    rw [hdata]
    exact h.data hn
  timeout ht := h.timeout (htimeout ht)
  received := by
    rw [hreceived]
    exact h.received

/-- A node after `glossy_start` has no packet of this flood yet, or it is the initiator with the
packet that it will send. -/
theorem packetFloodInv_start (F : SyncFlood) (n : RimeAddr) :
    PacketFloodInv F none n
      ((F.before n).glossyStart (F.conf n) (F.data n) (F.memory n) (F.now n)) where
  source p hp := by cases hp
  packet hstatus := by
    have hn : n = F.initiator := by
      by_cases hn : n = F.initiator
      · exact hn
      · simp [glossyStart, SyncFlood.conf, hn] at hstatus
    subst hn
    simp [SyncFlood.Good, glossyStart, SyncFlood.conf]
  data hn := by
    subst hn
    rfl
  timeout ht := by
    by_cases hn : n = F.initiator
    · exact hn
    · simp [glossyStart, SyncFlood.conf, hn] at ht
  received d hd := by cases hd

/-- A reception begins. -/
theorem PacketFloodInv.beginRx (h : PacketFloodInv F source n x) {source' : Option Packet}
    (hsource : ∀ p, source' = some p → F.Good p) :
    PacketFloodInv F source' n (glossyBeginRx (F.conf n) x i) := by
  have hq : PacketFloodInv F source n (glossyBeginRx (F.conf n) x i) := by
    simp only [glossyBeginRx]
    split
    · exact h.quiet rfl id rfl fun hs => by simp [Flood.radioAbortRx] at hs
    · exact h.quiet rfl id rfl fun hs => by cases hs
  exact ⟨hsource, hq.packet, hq.data, hq.timeout, hq.received⟩

/-- A reception ends. -/
theorem PacketFloodInv.endRx (h : PacketFloodInv F source n x)
    (hfaithful : i.crcOk = true → source = some i.fifo) :
    PacketFloodInv F source n (glossyEndRx (F.conf n) x i) := by
  cases hcrc : i.crcOk with
  | false =>
      simp only [glossyEndRx, hcrc]
      exact h.quiet rfl id rfl fun hs => by cases hs
  | true =>
      have hgood : F.Good i.fifo := h.source _ (hfaithful hcrc)
      obtain ⟨tSlotH, tSlotHSum, winCnt, heq⟩ := glossyEndRx_ok (F.conf n) x hcrc
      rw [heq]
      refine ⟨h.source, fun _ => hgood.withSlot _, h.data, fun ht => ?_, fun d hd => ?_⟩
      · by_cases hinit : (F.conf n).initiator = true
        · simpa [SyncFlood.conf] using hinit
        · simp only [hinit] at ht
          exact h.timeout ht
      · rcases List.mem_append.mp hd with hd | hd
        · exact h.received d hd
        · rw [List.mem_singleton.mp hd, hgood]

/-- A transmission begins. -/
theorem PacketFloodInv.beginTx (h : PacketFloodInv F source n x) :
    PacketFloodInv F source n (glossyBeginTx (F.conf n) x i) := by
  obtain ⟨tRefL, tOffsetH, slot, tRefLUpdated, heq⟩ := glossyBeginTx_eq (F.conf n) x i
  rw [heq]
  refine ⟨h.source, fun hs => (by cases hs), fun hn => ?_, h.timeout, h.received⟩
  show (if !(F.conf n).initiator && x.rxCnt == 1 then x.packet.data else x.data) = _
  rw [if_neg (by simp [SyncFlood.conf, hn])]
  exact h.data hn

/-- The initiator timeout. -/
theorem PacketFloodInv.initiatorTimeout (h : PacketFloodInv F source n x)
    (htimeout : x.tbcctl4 = true) (hstatus : x.status = .waiting) :
    PacketFloodInv F source n (Flood.initiatorTimeout (F.conf n) x) := by
  have hn := h.timeout htimeout
  unfold Flood.initiatorTimeout
  split
  · refine ⟨h.source, fun _ => ?_, h.data, h.timeout, h.received⟩
    simp only [SyncFlood.Good, h.data hn, packetLen_conf F n]
  · exact h.quiet rfl (fun ht => by cases ht) rfl fun hs => by simp [hstatus] at hs

/-- `timerb1_interrupt`, apart from the source of a reception. -/
theorem PacketFloodInv.timerb1Interrupt (h : PacketFloodInv F source n x)
    (hmay : x.mayInterrupt i = true)
    (hfaithful : x.dispatch i = .endRx → i.crcOk = true → source = some i.fifo) :
    PacketFloodInv F source n (timerb1Interrupt (F.conf n) x i) := by
  have hspec := dispatch_spec x i
  unfold Flood.timerb1Interrupt
  cases hevent : x.dispatch i with
  | endRx => exact h.endRx (hfaithful hevent)
  | beginRx => exact h.beginRx h.source
  | beginTx => exact h.beginTx
  | endTx =>
      refine h.quiet rfl id rfl fun hs => ?_
      have hne : (if _ then FloodStatus.off else .waiting) = .received := hs
      split at hne <;> cases hne
  | initiatorTimeout =>
      rw [hevent] at hspec
      refine h.initiatorTimeout ?_ hspec.1
      simpa [mayInterrupt, hspec.2] using hmay
  | afterAbort | flush => exact h.quiet rfl id rfl fun hs => by cases hs
  | notGlossy => exact h

/-! ### The flood -/

/-- Before the first transmission no packet is in the air. -/
theorem packetNetInv_init (F : SyncFlood) : PacketNetInv F (PacketNet.init F) where
  nodes n := packetFloodInv_start F n
  packets tr p hp := by cases hp

/-- A node changes, and nothing is sent. -/
theorem PacketNetInv.setNode {s : PacketNet} (h : PacketNetInv F s) {node : FloodNode}
    (hnode : PacketFloodInv F (s.source n) n node.flood) :
    PacketNetInv F { s with net := s.net.setNode n node } where
  nodes m := by
    show PacketFloodInv F (s.source m) m ((s.net.setNode n node).nodes m).flood
    rw [FloodNet.setNode_nodes]
    split
    · rename_i hm
      rw [hm]
      exact hnode
    · exact h.nodes m
  packets := h.packets

/-- An interrupt at a node. -/
theorem PacketNetInv.interrupt {s : PacketNet} (h : PacketNetInv F s) {e : Instant} {p : Packet}
    (hfaithful : PacketNet.isFaithful s n i e p = true)
    (hideal : FloodNet.isIdeal F s.net n i e = true) :
    PacketNetInv F (s.record n i e p (FloodNet.interrupt F s.net n i e)) := by
  have hmay : (s.net.nodes n).flood.mayInterrupt i = true := by
    simp only [FloodNet.isIdeal, Bool.and_eq_true] at hideal
    exact hideal.1
  have hspec := dispatch_spec (s.net.nodes n).flood i
  have hnode := (h.nodes n).timerb1Interrupt hmay (i := i) fun hevent hcrc => by
    rw [PacketNet.isFaithful, hevent] at hfaithful
    simpa [hcrc] using hfaithful
  rw [PacketNet.record, FloodNet.interrupt]
  cases hevent : (s.net.nodes n).flood.dispatch i with
  | beginRx =>
      dsimp only
      -- The packet of the transmission that is read is one on the air.
      have hgood : ∀ q, (e.source.map fun _ => p) = some q → F.Good q := by
        intro q hq
        obtain ⟨tr, htr, rfl⟩ := Option.map_eq_some_iff.mp hq
        rw [PacketNet.isFaithful, hevent, htr] at hfaithful
        exact (h.packets tr p (by simpa using hfaithful)).2.2
      refine ⟨fun m => ?_, h.packets⟩
      show PacketFloodInv F (Function.update s.source n _ m) m
        ((s.net.setNode n ⟨_, e.source⟩).nodes m).flood
      rw [FloodNet.setNode_nodes]
      by_cases hm : m = n
      · subst hm
        rw [Function.update_self, if_pos rfl]
        exact ⟨hgood, hnode.packet, hnode.data, hnode.timeout, hnode.received⟩
      · rw [Function.update_of_ne hm, if_neg hm]
        exact h.nodes m
  | beginTx =>
      rw [hevent] at hspec
      dsimp only
      refine ⟨(h.setNode hnode).nodes, fun tr q hq => ?_⟩
      -- The new transmission has the packet that its node holds.
      rcases List.mem_append.mp hq with hq | hq
      · obtain ⟨hair, hslot, hgood⟩ := h.packets tr q hq
        exact ⟨List.mem_append_left _ hair, hslot, hgood⟩
      · cases List.mem_singleton.mp hq
        exact ⟨List.mem_append_right _ (by simp), rfl, (h.nodes n).packet hspec⟩
  | initiatorTimeout | endRx | endTx | afterAbort | flush | notGlossy => exact h.setNode hnode

/-- Every step keeps the invariant. -/
theorem PacketNetInv.step {s t : PacketNet} {a : PacketAction} (h : PacketNetInv F s)
    (hst : (PacketNet.machine F).step s a = some t) : PacketNetInv F t := by
  obtain ⟨a, p⟩ := a
  cases a with
  | interrupt n i e =>
      obtain ⟨hfaithful, hst⟩ := Option.ite_none_right_eq_some.mp hst
      obtain ⟨net, hnet, rfl⟩ := Option.map_eq_some_iff.mp hst
      obtain ⟨hideal, ⟨⟩⟩ := Option.ite_none_right_eq_some.mp hnet
      exact h.interrupt hfaithful hideal
  | rxTimeout n =>
      cases hst
      refine h.setNode ?_
      refine (h.nodes n).quiet rfl id rfl fun hs => ?_
      simp only [radioAbortRx] at hs ⊢
      split at hs
      · cases hs
      · exact ⟨hs, trivial⟩
  | stop n =>
      cases hst
      refine h.setNode ((h.nodes n).quiet rfl (fun ht => by cases ht) rfl fun hs => ?_)
      cases hs

/-- A step of the flood with its packets is one of the flood. -/
theorem net_step {s t : PacketNet} {a : PacketAction}
    (hst : (PacketNet.machine F).step s a = some t) :
    (FloodNet.machine F).step s.net a.action = some t.net := by
  obtain ⟨a, p⟩ := a
  cases a with
  | interrupt n i e =>
      obtain ⟨_, hst⟩ := Option.ite_none_right_eq_some.mp hst
      obtain ⟨net, hnet, rfl⟩ := Option.map_eq_some_iff.mp hst
      rw [hnet, PacketNet.record]
      split <;> rfl
  | rxTimeout n | stop n =>
      cases hst
      rfl

/-- No packet with the slot 255 is received. -/
def PacketNoWrap (s : PacketNet) (a : PacketAction) : Prop := NoWrap s.net a.action

instance (s : PacketNet) (a : PacketAction) : Decidable (PacketNoWrap s a) :=
  inferInstanceAs (Decidable (NoWrap s.net a.action))

/-- **Constructive interference.** Two transmissions for the synchronisation that overlap start at
the same time, and send the same packet. -/
theorem sameTime_of_overlap {s : PacketNet}
    (h : (PacketNet.machine F).ReachableIf PacketNoWrap s) {tr₁ tr₂ : Transmission}
    {p₁ p₂ : Packet} (h₁ : (tr₁, p₁) ∈ s.packets) (h₂ : (tr₂, p₂) ∈ s.packets)
    (hslot₁ : tr₁.slot.toNat < 200) (hslot₂ : tr₂.slot.toNat < 200)
    (hoverlap : tr₁.start < tr₂.start + F.tSlot.toNat ∧ tr₂.start < tr₁.start + F.tSlot.toNat) :
    tr₁.start = tr₂.start ∧ p₁ = p₂ := by
  obtain ⟨hnet, hpackets⟩ : FloodNetInv F s.net ∧ PacketNetInv F s :=
    h.invariant (fun s => FloodNetInv F s.net ∧ PacketNetInv F s)
      ⟨floodNetInv_init F, packetNetInv_init F⟩
      fun s a t hs (ha : NoWrap s.net a.action) hst =>
        ⟨hs.1.step ha (net_step hst), hs.2.step hst⟩
  obtain ⟨hair₁, hp₁, hgood₁⟩ := hpackets.packets _ _ h₁
  obtain ⟨hair₂, hp₂, hgood₂⟩ := hpackets.packets _ _ h₂
  obtain ⟨t₀, ht₀, hstart₁⟩ := hnet.air _ hair₁ hslot₁
  obtain ⟨t₀', ht₀', hstart₂⟩ := hnet.air _ hair₂ hslot₂
  obtain rfl : t₀ = t₀' := Option.some.inj (ht₀.symm.trans ht₀')
  -- Both start at slot boundaries, and less than a slot apart.
  have hle : ∀ a b : Nat, t₀ + a * F.tSlot.toNat < t₀ + b * F.tSlot.toNat + F.tSlot.toNat →
      a ≤ b := by
    intro a b hlt
    have hmul : a * F.tSlot.toNat < (b + 1) * F.tSlot.toNat := by
      rw [Nat.add_mul, Nat.one_mul]
      omega
    exact Nat.le_of_lt_succ (Nat.lt_of_mul_lt_mul_right hmul)
  rw [hstart₁, hstart₂] at hoverlap
  have hslots : tr₁.slot = tr₂.slot :=
    UInt8.toNat_inj.mp (Nat.le_antisymm (hle _ _ hoverlap.1) (hle _ _ hoverlap.2))
  refine ⟨by rw [hstart₁, hstart₂, hslots], ?_⟩
  rw [hgood₁, hgood₂, hp₁, hp₂, hslots]

/-- `sampleFlood` with the packet of `sampleEdge`. -/
def samplePacketFlood : SyncFlood := { sampleFlood with data := fun _ => [1, 2, 3, 4, 5, 6] }

/-- A flood in which the receivers lock on the packet that is on the air. -/
def samplePackets (actions : List FloodNetAction) : List PacketAction :=
  actions.map fun a =>
    match a with
    | .interrupt _ i _ => ⟨a, i.fifo⟩
    | _ => ⟨a, (sampleEdge false 0 0 0).fifo⟩

/-- Nodes 2 and 3 relay the first packet, and the initiator receives the relay of both. -/
def overlappingRun : List PacketAction :=
  samplePackets (sampleSend 1 0 ++ sampleRelay 2 ⟨0, 0⟩ ++ sampleRelay 3 ⟨0, 0⟩ ++
    sampleRelay 1 ⟨3000, 1⟩)

/-- The two relays start at the same time, and send the same packet. -/
theorem sameTime_of_overlap_sample :
    ∃ s, (PacketNet.machine samplePacketFlood).ReachableIf PacketNoWrap s ∧
      ∃ p₁ p₂, (⟨3000, 1⟩, p₁) ∈ s.packets.take 2 ∧ (⟨3000, 1⟩, p₂) ∈ s.packets.drop 2 ∧
        p₁ = p₂ := by
  have hend : ((PacketNet.machine samplePacketFlood).runIf PacketNoWrap
      (PacketNet.init samplePacketFlood) overlappingRun).map PacketNet.packets =
      some [(⟨0, 0⟩, (sampleEdge true 0 0 0).fifo), (⟨3000, 1⟩, (sampleEdge true 1 0 0).fifo),
        (⟨3000, 1⟩, (sampleEdge true 1 0 0).fifo), (⟨6000, 2⟩, (sampleEdge true 2 0 0).fifo)] := by
    decide +kernel
  obtain ⟨s, hreach, hs⟩ := Machine.exists_reachableIf_of_runIf hend
  have h₁ : (⟨3000, 1⟩, (sampleEdge true 1 0 0).fifo) ∈ s.packets.take 2 := by simp [hs]
  have h₂ : (⟨3000, 1⟩, (sampleEdge true 1 0 0).fifo) ∈ s.packets.drop 2 := by simp [hs]
  exact ⟨s, hreach, _, _, h₁, h₂, (sameTime_of_overlap hreach (List.mem_of_mem_take h₁)
    (List.mem_of_mem_drop h₂) (by decide) (by decide) (by decide)).2⟩

/-! ### What the nodes hold -/

/-- Right after the first packet comes the rising edge of SFD, the beginning of its relay. -/
def NodesRelayFirst (s : PacketNet) (a : PacketAction) : Prop :=
  match a.action with
  | .interrupt n i _ => (s.net.nodes n).flood.atFirst = true → i.sfd = true
  | .stop n => (s.net.nodes n).flood.atFirst = false
  | .rxTimeout _ => True

instance (s : PacketNet) (a : PacketAction) : Decidable (NodesRelayFirst s a) := by
  obtain ⟨a, p⟩ := a
  cases a <;> unfold NodesRelayFirst <;> infer_instance

/-- Every receiver relays its first packet at once. -/
def Receivers (F : SyncFlood) (s : PacketNet) : Prop :=
  ∀ n, n ≠ F.initiator → ReceiverInv (F.conf n) (s.net.nodes n).flood

/-- One node changes. The receivers among the others are as before. -/
theorem Receivers.setNode {s t : PacketNet} (h : Receivers F s) (n : RimeAddr) (flood : Flood)
    (hnodes : ∀ m, (t.net.nodes m).flood = if m = n then flood else (s.net.nodes m).flood)
    (hnode : n ≠ F.initiator → ReceiverInv (F.conf n) flood) : Receivers F t := by
  intro m hm
  rw [hnodes]
  split
  · rename_i hmn
    subst hmn
    exact hnode hm
  · exact h m hm

/-- A step keeps every receiver at the place where its first packet will be relayed. Only the node
of the step changes, and there it is the step of a flood. -/
theorem Receivers.step {s t : PacketNet} {a : PacketAction} (h : Receivers F s)
    (ha : NodesRelayFirst s a) (hst : (PacketNet.machine F).step s a = some t) :
    Receivers F t := by
  have hnet := net_step hst
  obtain ⟨a, p⟩ := a
  have hconf : ∀ n, n ≠ F.initiator → (F.conf n).initiator = false := by
    intro n hn
    simp [SyncFlood.conf, hn]
  cases a with
  | interrupt n i e =>
      obtain ⟨hideal, hnet⟩ := Option.ite_none_right_eq_some.mp hnet
      have hmay : (s.net.nodes n).flood.mayInterrupt i = true := by
        simp only [FloodNet.isIdeal, Bool.and_eq_true] at hideal
        exact hideal.1
      refine h.setNode n _ (fun m => ?_)
        fun hn => (h n hn).timerb1Interrupt (hconf n hn) hmay ha
      rw [← Option.some.inj hnet, FloodNet.interrupt]
      dsimp only
      split <;>
        exact (congrArg FloodNode.flood (FloodNet.setNode_nodes ..)).trans (apply_ite _ _ _ _)
  | rxTimeout n =>
      refine h.setNode n _ (fun m => ?_) fun hn => (h n hn).radioAbortRx
      rw [← Option.some.inj hnet, FloodNet.setNode_nodes]
      exact apply_ite _ _ _ _
  | stop n =>
      -- Glossy is not stopped before the first packet is relayed.
      have hfirst : (s.net.nodes n).flood.atFirst = false := ha
      refine h.setNode n (s.net.nodes n).flood.glossyStop.2 (fun m => ?_) fun hn => ?_
      · rw [← Option.some.inj hnet, FloodNet.setNode_nodes]
        exact apply_ite _ _ _ _
      · exact ⟨rfl, fun hon => absurd rfl hon, fun hs => (by cases hs),
          fun hne _ => (h n hn).data hne hfirst⟩

/-- **The nodes hold the data of the initiator.** When the relay of the first packet begins before
anything else happens, every node that has counted a packet, and is not about to begin this relay,
has the initiator's data in its buffer. -/
theorem holdsInitiator_of_reachableIf {s : PacketNet} (hmax : F.txMax ≠ 0)
    (h : (PacketNet.machine F).ReachableIf NodesRelayFirst s) (n : RimeAddr)
    (hcount : (s.net.nodes n).flood.rxCnt ≠ 0) (hfirst : (s.net.nodes n).flood.atFirst = false) :
    (s.net.nodes n).flood.data = F.data F.initiator := by
  obtain ⟨hpackets, hreceivers⟩ : PacketNetInv F s ∧ Receivers F s := by
    refine h.invariant (fun s => PacketNetInv F s ∧ Receivers F s)
      ⟨packetNetInv_init F, fun n hn => ?_⟩
      fun s a t hs ha hst => ⟨hs.1.step hst, hs.2.step ha hst⟩
    exact receiverInv_start (by simp [SyncFlood.conf, hn]) hmax _ _ _ _
  by_cases hn : n = F.initiator
  · exact (hpackets.nodes n).data hn
  · exact (hpackets.nodes n).received _ ((hreceivers n hn).data hcount hfirst)

/-- After the overlapping relays node 3 holds the initiator's data. -/
theorem holdsInitiator_of_reachableIf_sample :
    ∃ s, (PacketNet.machine samplePacketFlood).ReachableIf NodesRelayFirst s ∧
      (s.net.nodes (sampleNode 3)).flood.data = [1, 2, 3, 4, 5, 6] := by
  have hend : ((PacketNet.machine samplePacketFlood).runIf NodesRelayFirst
      (PacketNet.init samplePacketFlood) overlappingRun).map (fun s =>
        ((s.net.nodes (sampleNode 3)).flood.rxCnt,
          (s.net.nodes (sampleNode 3)).flood.atFirst)) = some (1, false) := by
    decide +kernel
  obtain ⟨s, hreach, hs⟩ := Machine.exists_reachableIf_of_runIf hend
  simp only [Prod.mk.injEq] at hs
  exact ⟨s, hreach, holdsInitiator_of_reachableIf (by decide) hreach (sampleNode 3)
    (by rw [hs.1]; decide) hs.2⟩

end PTunes.Glossy
