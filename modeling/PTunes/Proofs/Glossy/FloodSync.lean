import PTunes.Glossy.FloodNetwork
import PTunes.Proofs.Glossy.FloodData

/-!
# `PTunes.Proofs.Glossy.FloodSync`: agreement on the reference point

In an idealised flood the slot field of a packet counts the relays since the initiator's first
transmission, and a transmission with slot `k` starts `k` slots after it. So all nodes that
compute the reference point find the start of the first transmission. The two clocks of a node
and the rounding cancel out: the low-frequency tick and the offset are one exact time
(`reference_of_compute`).

A packet that the initiator timeout sends carries the slot 200 and starts at no slot boundary.
Slots from 200 on are not used for the synchronisation. But the field has 8 bits, and after 56
relays it is 0 again. The node that receives such a packet computes a wrong reference point
(`not_forall_agrees`). In the floods in which no packet with the slot 255 is received, all nodes
agree (`agrees_of_reachableIf`).
-/

set_option autoImplicit false

namespace PTunes.Glossy

open PTunes.Rime (RimeAddr)
open Flood

/-! ### The reference point of one node -/

/-- The reference point, in ticks of the DCO since the node's low-frequency clock began. -/
def Flood.referencePoint (s : Flood) : Nat := s.tRefL.toNat * clockPhi + s.tOffsetH.toNat + 1

/-- The node holds the time `t` as its reference point, up to the wrap of its clock. -/
def HoldsReference (F : SyncFlood) (n : RimeAddr) (t : Nat) (s : Flood) : Prop :=
  s.referencePoint % (65536 * clockPhi) = (t + F.low n) % (65536 * clockPhi)

/-- The time between two values of the high-frequency clock. -/
theorem tbr_sub (F : SyncFlood) (n : RimeAddr) {t u : Nat} (hle : t ≤ u) (hlt : u < t + 65536) :
    (F.tbr n u - F.tbr n t).toNat = u - t := by
  simp only [SyncFlood.tbr, UInt16.toNat_sub, UInt16.toNat_ofNat']
  omega

/-- The time from the reference point to the capture, for a packet that is `k` slots old. -/
theorem refToCap_toNat {slot : UInt8} {tSlotH tRxToCapH : UInt16} {k : Nat}
    (hslot : slot.toNat = k + 1) :
    ((slot.toUInt32 - 1) * tSlotH.toUInt32 + tRxToCapH.toUInt32).toNat =
      k * tSlotH.toNat + tRxToCapH.toNat := by
  have hk := slot.toNat_lt
  have hT := tSlotH.toNat_lt
  have hcap := tRxToCapH.toNat_lt
  have hmul : k * tSlotH.toNat ≤ 255 * 65535 := Nat.mul_le_mul (by omega) (by omega)
  have hold : (slot.toUInt32 - 1).toNat = k := by
    rw [UInt32.toNat_sub, UInt8.toNat_toUInt32, hslot, show (1 : UInt32).toNat = 1 from rfl]
    omega
  rw [UInt32.toNat_add, UInt32.toNat_mul, hold, UInt16.toNat_toUInt32, UInt16.toNat_toUInt32]
  omega

/-- A node that relays a packet whose slots add up to the time since `t0` finds `t0`. -/
theorem reference_of_compute (F : SyncFlood) (n : RimeAddr) {s : Flood} {i : Interrupt}
    {t0 start capture k : Nat} (hslot : s.packet.slot.toNat = k + 1)
    (hstart : start = t0 + k * s.tSlotH.toNat) (hrx : s.tRxStart = F.tbr n start)
    (hle : start ≤ capture) (hlt : capture < start + 65536)
    (htick : (capture + F.low n) % clockPhi = 0) (hcapH : i.capH = F.tbr n capture)
    (hcapL : i.capL = F.tar n capture) :
    HoldsReference F n t0 (glossyComputeSyncReferencePoint s i) := by
  have hrefToCap : ((s.packet.slot.toUInt32 - 1) * s.tSlotH.toUInt32 +
      (i.capH - s.tRxStart).toUInt32).toNat = capture - t0 := by
    rw [refToCap_toNat hslot, hcapH, hrx, tbr_sub F n hle hlt]
    omega
  simp only [HoldsReference, Flood.referencePoint, glossyComputeSyncReferencePoint]
  generalize (s.packet.slot.toUInt32 - 1) * s.tSlotH.toUInt32 +
    (i.capH - s.tRxStart).toUInt32 = refToCap at hrefToCap ⊢
  have hbound := refToCap.toNat_lt
  have hlow : (1 + refToCap / UInt32.ofNat clockPhi).toUInt16.toNat =
      (1 + (capture - t0) / 128) % 65536 := by
    rw [UInt32.toNat_toUInt16, UInt32.toNat_add, UInt32.toNat_div, hrefToCap,
      show (UInt32.ofNat clockPhi).toNat = 128 from rfl, show (1 : UInt32).toNat = 1 from rfl]
    omega
  have hoffset : (UInt32.ofNat (clockPhi - 1) - refToCap % UInt32.ofNat clockPhi).toUInt16.toNat =
      127 - (capture - t0) % 128 := by
    rw [UInt32.toNat_toUInt16, UInt32.toNat_sub, UInt32.toNat_mod, hrefToCap,
      show (UInt32.ofNat clockPhi).toNat = 128 from rfl,
      show (UInt32.ofNat (clockPhi - 1)).toNat = 127 from rfl]
    omega
  rw [UInt16.toNat_sub, hlow, hoffset, hcapL, SyncFlood.tar, UInt16.toNat_ofNat']
  simp only [clockPhi] at htick ⊢
  omega

/-! ### The invariant -/

/-- Every node that has computed the reference point holds the start of the initiator's first
transmission. -/
def Agrees (F : SyncFlood) (s : FloodNet) : Prop :=
  ∀ n, (s.nodes n).flood.tRefLUpdated = true →
    ∃ t0, s.first = some t0 ∧ HoldsReference F n t0 (s.nodes n).flood

/-- No packet with the slot 255 is received. -/
def NoWrap (s : FloodNet) : FloodNetAction → Prop
  | .interrupt n i _ =>
    (s.nodes n).flood.dispatch i = .endRx → i.crcOk = true → i.fifo.slot ≠ 255
  | .rxTimeout _ | .stop _ => True

instance (s : FloodNet) (a : FloodNetAction) : Decidable (NoWrap s a) :=
  match a with
  | .interrupt _ _ _ => inferInstanceAs (Decidable (_ → _ → _))
  | .rxTimeout _ | .stop _ => inferInstanceAs (Decidable True)

/-- A transmission for the synchronisation starts at its slot. -/
def OnTime (F : SyncFlood) (first : Option Nat) (tr : Transmission) : Prop :=
  tr.slot.toNat < 200 →
    ∃ t0, first = some t0 ∧ tr.start = t0 + tr.slot.toNat * F.tSlot.toNat

/-- The packet that a node is about to send: one of the initiator, or the next slot of the
packet that was received. -/
def PacketInv (n : RimeAddr) (initiator : RimeAddr) (first : Option Nat) (x : FloodNode) : Prop :=
  match x.source with
  | some tr => x.flood.packet.slot.toNat = tr.slot.toNat + 1
  | none =>
    x.flood.rxCnt = 0 ∧
      (x.flood.packet.slot = 200 ∨ x.flood.packet.slot = 0 ∧ first = none ∧ n = initiator)

/-- The invariant of a node. -/
structure SyncInv (F : SyncFlood) (air : List Transmission) (first : Option Nat) (n : RimeAddr)
    (x : FloodNode) : Prop where
  source : ∀ tr, x.source = some tr → tr ∈ air ∧ x.flood.tRxStart = F.tbr n tr.start
  packet : x.flood.status = .received → PacketInv n F.initiator first x
  reference : x.flood.tRefLUpdated = true →
    ∃ t0, first = some t0 ∧ HoldsReference F n t0 x.flood

/-- The invariant of the flood. -/
structure FloodNetInv (F : SyncFlood) (s : FloodNet) : Prop where
  air : ∀ tr ∈ s.air, OnTime F s.first tr
  nodes : ∀ n, SyncInv F s.air s.first n (s.nodes n)

/-- A node that has computed the reference point has computed the start of the first transmission,
so any two of them agree. -/
theorem FloodNetInv.agrees {F : SyncFlood} {s : FloodNet} (h : FloodNetInv F s) : Agrees F s :=
  fun n hupdated => (h.nodes n).reference hupdated

/-- After `glossy_start` nothing is in the air, and no node has a reference point. -/
theorem floodNetInv_init (F : SyncFlood) : FloodNetInv F (FloodNet.init F) where
  air tr htr := by cases htr
  nodes n := by
    constructor
    case source =>
      intro tr htr
      cases htr
    case packet =>
      intro hstatus
      have hn : n = F.initiator := by
        by_cases hn : n = F.initiator
        · exact hn
        · simp [FloodNet.init, glossyStart, SyncFlood.conf, hn] at hstatus
      exact ⟨rfl, .inr ⟨rfl, rfl, hn⟩⟩
    case reference =>
      intro hupdated
      cases hupdated

/-! ### One node -/

variable {F : SyncFlood} {air air' : List Transmission} {first first' : Option Nat}
  {n : RimeAddr} {x y : FloodNode} {i : Interrupt}

/-- The other nodes go on: transmissions begin, and the initiator may have begun. -/
theorem SyncInv.mono (h : SyncInv F air first n x) (hair : ∀ tr ∈ air, tr ∈ air')
    (hfirst : ∀ t0, first = some t0 → first' = some t0)
    (hinitiator : n = F.initiator → first' = first) : SyncInv F air' first' n x where
  source tr htr := ⟨hair tr (h.source tr htr).1, (h.source tr htr).2⟩
  packet hstatus := by
    have hpacket := h.packet hstatus
    unfold PacketInv at hpacket ⊢
    split
    · rename_i tr htr
      simpa only [htr] using hpacket
    · rename_i htr
      simp only [htr] at hpacket
      refine ⟨hpacket.1, hpacket.2.imp_right fun hzero => ?_⟩
      exact ⟨hzero.1, by rw [hinitiator hzero.2.2, hzero.2.1], hzero.2.2⟩
  reference hupdated := by
    obtain ⟨t0, ht0, hholds⟩ := h.reference hupdated
    exact ⟨t0, hfirst t0 ht0, hholds⟩

/-- The node does something that has no part in the synchronisation. -/
theorem SyncInv.quiet (h : SyncInv F air first n x)
    (hsource : y.source = x.source ∨ y.source = none)
    (hrx : y.flood.tRxStart = x.flood.tRxStart)
    (hupdated : y.flood.tRefLUpdated = x.flood.tRefLUpdated)
    (hpoint : y.flood.referencePoint = x.flood.referencePoint)
    (hstatus : y.flood.status ≠ .received) : SyncInv F air first n y where
  source tr htr := by
    rcases hsource with heq | heq
    · rw [heq] at htr
      rw [hrx]
      exact h.source tr htr
    · rw [heq] at htr
      cases htr
  packet hreceived := absurd hreceived hstatus
  reference := by
    simp only [HoldsReference, hupdated, hpoint]
    exact h.reference

/-- A reception begins. -/
theorem SyncInv.beginRx (h : SyncInv F air first n x) {source : Option Transmission}
    (hsource : ∀ tr, source = some tr → tr ∈ air ∧ i.tbccr1 = F.tbr n tr.start) :
    SyncInv F air first n ⟨glossyBeginRx (F.conf n) x.flood i, source⟩ := by
  constructor
  case source =>
    intro tr htr
    obtain ⟨hmem, hstart⟩ := hsource tr htr
    refine ⟨hmem, ?_⟩
    rw [← hstart]
    simp only [glossyBeginRx]
    split <;> rfl
  case packet =>
    intro hstatus
    simp only [glossyBeginRx] at hstatus
    split at hstatus <;> cases hstatus
  case reference =>
    have hsame : (glossyBeginRx (F.conf n) x.flood i).tRefLUpdated = x.flood.tRefLUpdated ∧
        (glossyBeginRx (F.conf n) x.flood i).referencePoint = x.flood.referencePoint := by
      simp only [glossyBeginRx]
      split <;> exact ⟨rfl, rfl⟩
    simp only [HoldsReference, hsame.1, hsame.2]
    exact h.reference

/-- A reception ends. The packet gets the next slot. -/
theorem SyncInv.endRx (h : SyncInv F air first n x) (hintact : FloodNet.isIntact x i = true)
    (hwrap : i.crcOk = true → i.fifo.slot ≠ 255) :
    SyncInv F air first n ⟨glossyEndRx (F.conf n) x.flood i, x.source⟩ := by
  cases hcrc : i.crcOk with
  | false =>
      simp only [glossyEndRx, hcrc]
      exact h.quiet (.inl rfl) rfl rfl rfl (by simp)
  | true =>
      obtain ⟨tSlotH, tSlotHSum, winCnt, heq⟩ := glossyEndRx_ok (F.conf n) x.flood hcrc
      rw [heq]
      refine ⟨h.source, fun _ => ?_, h.reference⟩
      unfold PacketInv FloodNet.isIntact at *
      cases hsource : x.source with
      | none => simp [hcrc, hsource] at hintact
      | some tr =>
          simp only [hcrc, hsource, Bool.not_true, Bool.false_or, beq_iff_eq] at hintact
          show (i.fifo.slot + 1).toNat = tr.slot.toNat + 1
          have hne : i.fifo.slot.toNat ≠ 255 := fun heq =>
            hwrap hcrc (UInt8.toNat_inj.mp heq)
          have hlt := i.fifo.slot.toNat_lt
          rw [UInt8.toNat_add, show (1 : UInt8).toNat = 1 from rfl, ← hintact]
          omega

/-- A transmission ends. -/
theorem SyncInv.endTx (h : SyncInv F air first n x) :
    SyncInv F air first n ⟨glossyEndTx (F.conf n) x.flood i, x.source⟩ := by
  refine h.quiet (.inl rfl) rfl rfl rfl ?_
  show (if _ then FloodStatus.off else .waiting) ≠ .received
  split <;> decide

/-- The initiator timeout. -/
theorem SyncInv.initiatorTimeout (h : SyncInv F air first n x)
    (hstatus : x.flood.status = .waiting) :
    SyncInv F air first n ⟨Flood.initiatorTimeout (F.conf n) x.flood, none⟩ := by
  unfold Flood.initiatorTimeout
  split
  · rename_i hrx
    exact ⟨fun tr htr => (nomatch htr), fun _ => ⟨hrx, .inl rfl⟩, h.reference⟩
  · exact h.quiet (.inr rfl) rfl rfl rfl (by rw [hstatus]; decide)

/-! ### A transmission begins -/

/-- The start of the initiator's first transmission, after a transmission of `n`. -/
def firstAfter (F : SyncFlood) (first : Option Nat) (n : RimeAddr) (txStart : Nat) :
    Option Nat :=
  if n = F.initiator then some (first.getD txStart) else first

/-- The first transmission of the initiator stays the first one. -/
theorem firstAfter_of_some {t0 : Nat} (h : first = some t0) (txStart : Nat) :
    firstAfter F first n txStart = some t0 := by
  unfold firstAfter
  split
  · rw [h]
    rfl
  · exact h

/-- What `transmits` says about a relay. -/
theorem transmits_relay {e : Instant} {tr : Transmission}
    (h : FloodNet.transmits F n x i e = true) (hsource : x.source = some tr) :
    x.flood.tSlotH = F.tSlot ∧ e.txStart = tr.start + F.tSlot.toNat ∧ e.txStart ≤ e.capture ∧
      e.capture < tr.start + 65536 ∧ (e.capture + F.low n) % clockPhi = 0 ∧
      i.capH = F.tbr n e.capture ∧ i.capL = F.tar n e.capture := by
  simp only [FloodNet.transmits, hsource, Bool.and_eq_true, beq_iff_eq, decide_eq_true_eq] at h
  obtain ⟨⟨⟨⟨⟨hslot, hle⟩, htick⟩, hcapH⟩, hcapL⟩, hstart, hlt⟩ := h
  exact ⟨hslot, hstart, hle, hlt, htick, hcapH, hcapL⟩

/-- A relay is on time when the transmission that it relays is. -/
theorem OnTime.relay {tr : Transmission} {slot : UInt8} {txStart : Nat} (h : OnTime F first tr)
    (hslot : slot.toNat = tr.slot.toNat + 1) (hstart : txStart = tr.start + F.tSlot.toNat)
    (hfirst : ∀ t0, first = some t0 → first' = some t0) : OnTime F first' ⟨txStart, slot⟩ := by
  intro hlt
  have hlt' : slot.toNat < 200 := hlt
  obtain ⟨t0, ht0, hold⟩ := h (by omega)
  refine ⟨t0, hfirst t0 ht0, ?_⟩
  show txStart = t0 + slot.toNat * F.tSlot.toNat
  rw [hstart, hold, hslot, Nat.add_mul, Nat.one_mul, Nat.add_assoc]

/-- The transmission that begins is on time. -/
theorem SyncInv.onTime_beginTx {e : Instant} (h : SyncInv F air first n x)
    (hair : ∀ tr ∈ air, OnTime F first tr) (hstatus : x.flood.status = .received)
    (htx : FloodNet.transmits F n x i e = true) :
    OnTime F (firstAfter F first n e.txStart) ⟨e.txStart, x.flood.packet.slot⟩ := by
  have hpacket := h.packet hstatus
  unfold PacketInv at hpacket
  cases hsource : x.source with
  | some tr =>
      simp only [hsource] at hpacket
      obtain ⟨-, hstart, -⟩ := transmits_relay htx hsource
      exact (hair tr (h.source tr hsource).1).relay hpacket hstart
        fun t0 ht0 => firstAfter_of_some ht0 e.txStart
  | none =>
      simp only [hsource] at hpacket
      intro hlt
      rcases hpacket.2 with h200 | ⟨hzero, hnone, hn⟩
      · -- The packet of the initiator timeout.
        have hlt' : x.flood.packet.slot.toNat < 200 := hlt
        rw [h200] at hlt'
        exact absurd hlt' (by decide)
      · -- The first packet of the initiator.
        refine ⟨e.txStart, ?_, ?_⟩
        · rw [firstAfter, if_pos hn, hnone]
          rfl
        · show e.txStart = e.txStart + x.flood.packet.slot.toNat * F.tSlot.toNat
          rw [hzero]
          simp

/-- A node that computes the reference point relays a packet that is on time. -/
theorem SyncInv.reference_beginTx {e : Instant} (h : SyncInv F air first n x)
    (hair : ∀ tr ∈ air, OnTime F first tr) (hstatus : x.flood.status = .received)
    (htx : FloodNet.transmits F n x i e = true)
    (hupdated : (glossyBeginTx (F.conf n) x.flood i).tRefLUpdated = true) :
    ∃ t0, first = some t0 ∧ HoldsReference F n t0 (glossyBeginTx (F.conf n) x.flood i) := by
  simp only [glossyBeginTx] at hupdated ⊢
  cases hcomputes : computesReference (F.conf n) (startTx (F.conf n) x.flood i.tbccr1) with
  | false =>
      rw [hcomputes] at hupdated
      simp only [Bool.false_eq_true, if_false] at hupdated ⊢
      exact h.reference hupdated
  | true =>
      -- The node computes the point from a packet it has received, below the limit of the slots.
      have hcond : x.flood.rxCnt ≠ 0 ∧ x.flood.packet.slot < 200 := by
        simp only [computesReference, startTx, Bool.and_eq_true, bne_iff_ne,
          decide_eq_true_eq] at hcomputes
        exact ⟨hcomputes.1.2, hcomputes.2⟩
      have hslot := UInt8.lt_iff_toNat_lt.mp hcond.2
      rw [show (200 : UInt8).toNat = 200 from rfl] at hslot
      have hpacket := h.packet hstatus
      unfold PacketInv at hpacket
      cases hsource : x.source with
      | none =>
          simp only [hsource] at hpacket
          -- Without a source nothing has been received.
          exact absurd hpacket.1 hcond.1
      | some tr =>
          simp only [hsource] at hpacket
          obtain ⟨hmem, hrx⟩ := h.source tr hsource
          obtain ⟨hT, hstart, hle, hlt, htick, hcapH, hcapL⟩ := transmits_relay htx hsource
          -- The transmission it has heard was on time.
          obtain ⟨t0, ht0, hold⟩ := hair tr hmem (by omega)
          refine ⟨t0, ht0, ?_⟩
          have hage : tr.start = t0 + tr.slot.toNat * x.flood.tSlotH.toNat := by rw [hold, hT]
          rw [if_pos rfl]
          exact reference_of_compute F n (s := startTx (F.conf n) x.flood i.tbccr1) hpacket hage
            hrx (by omega) hlt htick hcapH hcapL

/-- `glossy_begin_tx`. -/
theorem SyncInv.beginTx {e : Instant} (h : SyncInv F air first n x)
    (hair : ∀ tr ∈ air, OnTime F first tr) (hstatus : x.flood.status = .received)
    (htx : FloodNet.transmits F n x i e = true) :
    SyncInv F (air ++ [⟨e.txStart, x.flood.packet.slot⟩]) (firstAfter F first n e.txStart) n
      ⟨glossyBeginTx (F.conf n) x.flood i, x.source⟩ := by
  obtain ⟨tRefL, tOffsetH, slot, tRefLUpdated, heq⟩ := glossyBeginTx_eq (F.conf n) x.flood i
  constructor
  case source =>
    intro tr htr
    obtain ⟨hmem, hrx⟩ := h.source tr htr
    refine ⟨List.mem_append_left _ hmem, ?_⟩
    show (glossyBeginTx (F.conf n) x.flood i).tRxStart = _
    rw [heq]
    exact hrx
  case packet =>
    intro hreceived
    have hstatus' : (glossyBeginTx (F.conf n) x.flood i).status = .received := hreceived
    rw [heq] at hstatus'
    cases hstatus'
  case reference =>
    intro hupdated
    obtain ⟨t0, ht0, hholds⟩ := h.reference_beginTx hair hstatus htx hupdated
    exact ⟨t0, firstAfter_of_some ht0 e.txStart, hholds⟩

/-! ### The flood -/

/-- The nodes after a change of one of them. -/
theorem FloodNet.setNode_nodes (s : FloodNet) (n m : RimeAddr) (x : FloodNode) :
    (s.setNode n x).nodes m = if m = n then x else s.nodes m := by
  simp [FloodNet.setNode, Function.update_apply]

/-- One node changes, and no transmission begins. -/
theorem FloodNetInv.setNode {s : FloodNet} (h : FloodNetInv F s)
    (hx : SyncInv F s.air s.first n x) : FloodNetInv F (s.setNode n x) where
  air := h.air
  nodes m := by
    rw [FloodNet.setNode_nodes]
    split
    · rename_i hm
      rw [hm]
      exact hx
    · exact h.nodes m

/-- A transmission of one node begins. -/
theorem FloodNetInv.beginTx {s : FloodNet} {e : Instant} (h : FloodNetInv F s)
    (hstatus : (s.nodes n).flood.status = .received)
    (htx : FloodNet.transmits F n (s.nodes n) i e = true) :
    FloodNetInv F
      { s.setNode n ⟨glossyBeginTx (F.conf n) (s.nodes n).flood i, (s.nodes n).source⟩ with
        air := s.air ++ [⟨e.txStart, (s.nodes n).flood.packet.slot⟩]
        first := firstAfter F s.first n e.txStart } where
  air tr htr := by
    rcases List.mem_append.mp htr with hold | hnew
    · intro hlt
      obtain ⟨t0, ht0, hstart⟩ := h.air tr hold hlt
      exact ⟨t0, firstAfter_of_some ht0 e.txStart, hstart⟩
    · rw [List.mem_singleton.mp hnew]
      exact (h.nodes n).onTime_beginTx h.air hstatus htx
  nodes m := by
    show SyncInv F _ _ m ((s.setNode n _).nodes m)
    rw [FloodNet.setNode_nodes]
    split
    · rename_i hm
      rw [hm]
      exact (h.nodes n).beginTx h.air hstatus htx
    · rename_i hm
      apply (h.nodes m).mono (fun tr htr => List.mem_append_left _ htr)
        (fun t0 ht0 => firstAfter_of_some ht0 e.txStart)
      -- Another node than the initiator leaves `first` as it is.
      intro hinitiator
      exact if_neg fun hn => hm (hinitiator.trans hn.symm)

/-- An interrupt that is ideal and no wrap of the slot field. -/
theorem FloodNetInv.interrupt {s : FloodNet} {e : Instant} (h : FloodNetInv F s)
    (hideal : FloodNet.isIdeal F s n i e = true) (hwrap : NoWrap s (.interrupt n i e)) :
    FloodNetInv F (FloodNet.interrupt F s n i e) := by
  have hspec := dispatch_spec (s.nodes n).flood i
  have hnode := h.nodes n
  simp only [FloodNet.isIdeal, Bool.and_eq_true] at hideal
  simp only [FloodNet.interrupt, timerb1Interrupt]
  cases hevent : (s.nodes n).flood.dispatch i with
  | beginRx =>
      rw [hevent] at hideal
      apply h.setNode
      apply hnode.beginRx
      intro tr htr
      simpa [FloodNet.receives, htr] using hideal.2
  | endRx =>
      rw [hevent] at hideal
      exact h.setNode (hnode.endRx hideal.2 fun hcrc => hwrap hevent hcrc)
  | beginTx =>
      rw [hevent] at hideal hspec
      exact h.beginTx hspec hideal.2
  | endTx =>
      exact h.setNode hnode.endTx
  | initiatorTimeout =>
      rw [hevent] at hspec
      exact h.setNode (hnode.initiatorTimeout hspec.1)
  | afterAbort | flush =>
      exact h.setNode (hnode.quiet (.inl rfl) rfl rfl rfl (by simp))
  | notGlossy => exact h.setNode hnode

/-- A step that is no wrap of the slot field keeps the invariant. -/
theorem FloodNetInv.step {s t : FloodNet} {a : FloodNetAction} (h : FloodNetInv F s)
    (hwrap : NoWrap s a) (hst : (FloodNet.machine F).step s a = some t) : FloodNetInv F t := by
  cases a with
  | interrupt n i e =>
      obtain ⟨hideal, ⟨⟩⟩ := Option.ite_none_right_eq_some.mp hst
      exact h.interrupt hideal hwrap
  | rxTimeout n =>
      cases hst
      apply h.setNode
      by_cases hstatus : (s.nodes n).flood.status = .receiving
      · exact (h.nodes n).quiet (.inl rfl) rfl rfl rfl (by simp [radioAbortRx, hstatus])
      · rw [radioAbortRx_of_ne hstatus]
        exact ⟨(h.nodes n).source, (h.nodes n).packet, (h.nodes n).reference⟩
  | stop n =>
      cases hst
      refine h.setNode ((h.nodes n).quiet (.inl rfl) rfl rfl rfl ?_)
      intro heq
      cases heq

/-- In the idealised floods in which no packet with the slot 255 is received, all nodes that
compute the reference point agree: it is the start of the initiator's first transmission. -/
theorem agrees_of_reachableIf {F : SyncFlood} {s : FloodNet}
    (h : (FloodNet.machine F).ReachableIf NoWrap s) : Agrees F s :=
  (Machine.ReachableIf.invariant (FloodNetInv F) (floodNetInv_init F)
    (fun _ _ _ hs hwrap hst => hs.step hwrap hst) h).agrees

/-! ### The slot field wraps -/

/-- The node `k` of the samples. -/
def sampleNode (k : Nat) : RimeAddr := ⟨UInt8.ofNat k, 0⟩

/-- A flood from node 1 with three transmissions at each node and slots of 3000 ticks. -/
def sampleFlood : SyncFlood where
  initiator := sampleNode 1
  txMax := 3
  dataLen := 6
  tSlot := 3000
  dco _ := 0
  low _ := 0
  before _ := { zeroFlood with tSlotH := 3000 }
  data _ := []
  memory _ := ⟨0, 0, [], 0⟩
  now _ := 0

/-- The next tick of the low-frequency clock. -/
def nextTick (t : Nat) : Nat := (t / clockPhi + 1) * clockPhi

/-- An interrupt at an edge of SFD, with a packet for the slot in the RXFIFO. -/
def sampleEdge (sfd : Bool) (slot : UInt8) (start capture : Nat) : Interrupt where
  sinceSfd := 21
  sfd := sfd
  tbiv := .tbccr1
  tbccr1 := UInt16.ofNat start
  now := 0
  fifoTimeout := false
  fifo := ⟨10, glossyHeader, [1, 2, 3, 4, 5, 6], slot⟩
  crcOk := true
  capH := UInt16.ofNat capture
  capL := UInt16.ofNat (capture / clockPhi)

/-- A node sends its packet. -/
def sampleSend (k : Nat) (t : Nat) : List FloodNetAction :=
  [.interrupt (sampleNode k) (sampleEdge true 0 0 (nextTick t)) ⟨none, t, nextTick t⟩,
    .interrupt (sampleNode k) (sampleEdge false 0 0 0) ⟨none, 0, 0⟩]

/-- A node receives a transmission and relays it. -/
def sampleRelay (k : Nat) (tr : Transmission) : List FloodNetAction :=
  [.interrupt (sampleNode k) (sampleEdge true tr.slot tr.start 0) ⟨some tr, 0, 0⟩,
    .interrupt (sampleNode k) (sampleEdge false tr.slot tr.start 0) ⟨none, 0, 0⟩] ++
    sampleSend k (tr.start + 3000)

/-- Two nodes relay the first packet, and the initiator receives the first relay. -/
def agreeingRun : List FloodNetAction :=
  sampleSend 1 0 ++ sampleRelay 2 ⟨0, 0⟩ ++ sampleRelay 3 ⟨3000, 1⟩ ++ sampleRelay 1 ⟨3000, 1⟩

/-- All three nodes hold the start of the first transmission. -/
theorem agrees_of_reachableIf_sample :
    ∃ s, (FloodNet.machine sampleFlood).ReachableIf NoWrap s ∧ Agrees sampleFlood s ∧
      [1, 2, 3].map (fun k => (s.nodes (sampleNode k)).flood.tRefLUpdated) =
        [true, true, true] := by
  have hend : ((FloodNet.machine sampleFlood).runIf NoWrap (FloodNet.init sampleFlood)
      agreeingRun).map (fun s => [1, 2, 3].map fun k =>
        (s.nodes (sampleNode k)).flood.tRefLUpdated) = some [true, true, true] := by
    decide +kernel
  obtain ⟨s, hreach, hs⟩ := Machine.exists_reachableIf_of_runIf hend
  exact ⟨s, hreach, agrees_of_reachableIf hreach, hs⟩

/-- The first packet is lost. The packet of the initiator timeout starts at 10485, and twenty
nodes relay it 56 times. -/
def wrappingRun : List FloodNetAction :=
  sampleSend 1 0 ++
    [.interrupt (sampleNode 1) { sampleEdge false 0 0 0 with tbiv := .tbccr4 } ⟨none, 0, 0⟩] ++
    sampleSend 1 10485 ++
    (List.range 56).flatMap fun k =>
      sampleRelay (2 + k % 20) ⟨10485 + 3000 * k, UInt8.ofNat (200 + k)⟩

/-- The node that relays the packet with the slot 255 computes the start of its own relay
instead of the start of the first transmission. -/
theorem not_forall_agrees :
    ¬ ∀ (F : SyncFlood) (s : FloodNet), (FloodNet.machine F).Reachable s → Agrees F s := by
  intro hall
  have hend : ((FloodNet.machine sampleFlood).run wrappingRun).map (fun s =>
      (s.first, (s.nodes (sampleNode 17)).flood.tRefLUpdated,
        (s.nodes (sampleNode 17)).flood.referencePoint)) =
      some (some 0, true, 10485 + 56 * 3000) := by decide +kernel
  obtain ⟨s, hreach, hs⟩ := Machine.exists_reachable_of_run hend
  simp only [Prod.mk.injEq] at hs
  obtain ⟨t0, ht0, hholds⟩ := hall _ s hreach (sampleNode 17) hs.2.1
  have hzero : t0 = 0 := Option.some.inj (ht0.symm.trans hs.1)
  rw [HoldsReference, hs.2.2, hzero] at hholds
  exact absurd hholds (by decide)

end PTunes.Glossy
