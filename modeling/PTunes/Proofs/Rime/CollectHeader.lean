import PTunes.Proofs.Rime.ChameleonBitopt
import PTunes.Rime.Relcollect

/-!
# `PTunes.Proofs.Rime.CollectHeader`: the headers of collection packets

A header comes back for every attribute list with fields of less than 8 bits or of whole bytes,
and so for the list of relcollect. Two more conditions are needed. `hdrsize` has 8 bits, so a
header has less than 256. And `unpack_header` reads an address into a variable that has no
value before, so an address field must not be shorter than an address.

* `roundTrips_declarable`: all values and the payload come back.
* `not_roundTrips`: an address field of 8 bits, and a header of 256 bits.
* `agrees_ownPacket`: a retransmission limit of up to 255 in the field of 5 bits changes no
  other value of a packet of `relcollect_send`.
-/

set_option autoImplicit false

namespace PTunes.Rime

variable {α : Type}

/-! ### Attribute lists -/

/-- What an attribute list has to satisfy. -/
structure Declarable (l : List (PacketbufAttrlist α)) : Prop where
  width : ∀ a ∈ l, WidthOk a
  addr : ∀ a ∈ l, AddrOk a
  size : headerSize l < 256

/-- The headers of a list come back: for every packet whose values fit, the frame that
`pack_header` builds leads to the same channel, values and payload. -/
def RoundTrips [DecidableEq α] (l : List (PacketbufAttrlist α)) : Prop :=
  ∀ (lookup : UInt16 → Option (Channel α)) (channelno : UInt16)
    (stack beyond : Nat → Nat → UInt8) (b rb : PacketbufMem α),
    lookup channelno = some (Channel.ofAttributes channelno l) →
    b.hdrptr = packetbufHdrSize →
    (∀ a ∈ l, Fits b a) →
    rb.data = (packHeader beyond (Channel.ofAttributes channelno l) b).copyto →
    (unpackHeader lookup stack rb).1 = some (Channel.ofAttributes channelno l) ∧
      (∀ a ∈ l, Agrees (unpackHeader lookup stack rb).2 b a.type) ∧
      (unpackHeader lookup stack rb).2.data = b.data

/-- The frame is the payload of the packet buffer that it is copied to. -/
theorem data_copyfrom (b : PacketbufMem α) {bytes : List UInt8}
    (h : bytes.length ≤ packetbufSize) : (b.copyfrom bytes).data = bytes := by
  have hmin : min bytes.length packetbufSize = bytes.length := Nat.min_eq_left h
  rw [PacketbufMem.data, PacketbufMem.copyfrom]
  simp only [hmin]
  refine List.ext_getElem (by simp) fun i _ hi => ?_
  rw [List.getElem_map, List.getElem_range]
  show (if 64 ≤ 0 + 64 + i ∧ 0 + 64 + i < 64 + bytes.length then
    bytes.getD (0 + 64 + i - 64) 0 else _) = _
  rw [if_pos (by omega), show 0 + 64 + i - 64 = i by omega, List.getD_eq_getElem?_getD,
    List.getElem?_eq_getElem hi]
  rfl

/-- The widths of the fields of collection packets. -/
theorem declarable_relcollectAttributes (queuingStats withTime : Bool) :
    Declarable (relcollectAttributes queuingStats withTime) := by
  have haddr : ∀ q t, ∀ a ∈ relcollectAttributes q t,
      (match a.type with
        | .attr _ => true
        | .addr _ => 16 ≤ a.len.toNat) = true := by
    decide
  refine ⟨?_, fun a ha type htype => ?_, ?_⟩
  · have h : ∀ q t, ∀ a ∈ relcollectAttributes q t,
        a.len.toNat < 8 ∨ a.len.toNat % 8 = 0 := by
      decide
    exact h queuingStats withTime
  · have h := haddr queuingStats withTime a ha
    rw [htype] at h
    exact of_decide_eq_true h
  · have h : ∀ q t, headerSize (relcollectAttributes q t) < 256 := by decide
    exact h queuingStats withTime

/-- Such a list satisfies the conditions under which `unpack_header` undoes `pack_header`, and
values that fit do not reach into other fields. -/
theorem roundTrips_of_declarable [DecidableEq α] {l : List (PacketbufAttrlist α)}
    (h : Declarable l) : RoundTrips l := by
  intro lookup channelno stack beyond b rb hlookup hhdr hfits hframe
  obtain ⟨hchannel, hagrees, hdata⟩ := unpackHeader_copyto h.width h.addr h.size hlookup stack
    beyond hhdr (allTame_of_fits hfits 0) hframe
  exact ⟨hchannel, fun a ha => hagrees a ha fun a' ha' _ => hfits a' ha', hdata⟩

/-- The headers of all such lists come back, those of relcollect among them. -/
theorem roundTrips_declarable :
    (∀ (α : Type) [DecidableEq α] (l : List (PacketbufAttrlist α)), Declarable l →
      RoundTrips l) ∧
    ∀ queuingStats withTime : Bool, RoundTrips (relcollectAttributes queuingStats withTime) :=
  ⟨fun _ _ _ h => roundTrips_of_declarable h,
    fun queuingStats withTime =>
      roundTrips_of_declarable (declarable_relcollectAttributes queuingStats withTime)⟩

/-- An address field of 8 bits. -/
def shortAddress : List (PacketbufAttrlist Nat) := [⟨.addr .sender, 8⟩]

/-- A header of 256 bits. -/
def longHeader : List (PacketbufAttrlist Nat) :=
  (List.range 16).map fun i => ⟨.attr i, 16⟩

/-- A packet from the sender 1.0, with the payload 1. -/
def samplePacket : PacketbufMem Nat where
  packetbuf i := if i = 64 then 1 else 0
  hdrptr := 64
  bufptr := 0
  buflen := 1
  attrs _ := 0
  addrs _ := ⟨1, 0⟩

/-- The second byte of a short address is what the stack held before. A header of 256 bits gets
no room, so that it is written over the payload. -/
theorem not_roundTrips :
    ((∀ a ∈ shortAddress, WidthOk a) ∧ headerSize shortAddress < 256 ∧
      ¬ RoundTrips shortAddress) ∧
    (∀ a ∈ longHeader, WidthOk a) ∧ (∀ a ∈ longHeader, AddrOk a) ∧ ¬ RoundTrips longHeader := by
  refine ⟨⟨?_, by decide, fun h => ?_⟩, ?_, ?_, fun h => ?_⟩
  · have hwidth : ∀ a ∈ shortAddress, a.len.toNat < 8 ∨ a.len.toNat % 8 = 0 := by decide
    exact hwidth
  · -- The stack holds a 7 where `unpack_header` reads the second byte.
    have hdata := h (fun no => some (Channel.ofAttributes no shortAddress)) 5 (fun _ _ => 7)
      (fun _ _ => 0) samplePacket
      (samplePacket.copyfrom
        (packHeader (fun _ _ => 0) (Channel.ofAttributes 5 shortAddress) samplePacket).copyto)
      rfl rfl (by unfold Fits; decide) (data_copyfrom _ (by decide))
    have haddr := hdata.2.1 ⟨.addr .sender, 8⟩ List.mem_cons_self
    have hne : ((unpackHeader (fun no => some (Channel.ofAttributes no shortAddress))
        (fun _ _ => 7) (samplePacket.copyfrom (packHeader (fun _ _ => 0)
          (Channel.ofAttributes 5 shortAddress) samplePacket).copyto)).2.addrs .sender) ≠
        ⟨1, 0⟩ := by
      decide +kernel
    exact hne haddr
  · have hwidth : ∀ a ∈ longHeader, a.len.toNat < 8 ∨ a.len.toNat % 8 = 0 := by decide
    exact hwidth
  · intro a ha type htype
    obtain ⟨i, _, rfl⟩ := List.mem_map.mp ha
    exact nomatch htype
  · -- `hdrsize` wraps to 0, so `pack_header` gets no bytes for the fields.
    have hdata := (h (fun no => some (Channel.ofAttributes no longHeader)) 5 (fun _ _ => 0)
      (fun _ _ => 0) samplePacket
      (samplePacket.copyfrom
        (packHeader (fun _ _ => 0) (Channel.ofAttributes 5 longHeader) samplePacket).copyto)
      rfl rfl (by unfold Fits; decide +kernel) (data_copyfrom _ (by decide +kernel))).2.2
    have hne : (unpackHeader (fun no => some (Channel.ofAttributes no longHeader))
        (fun _ _ => 0) (samplePacket.copyfrom (packHeader (fun _ _ => 0)
          (Channel.ofAttributes 5 longHeader) samplePacket).copyto)).2.data ≠
        samplePacket.data := by
      decide +kernel
    exact hne hdata

/-! ### Packets of `relcollect_send` -/

/-- The attributes of a packet of `relcollect_send` when it goes out: those that
`relcollect_send` sets, with the updates of `rel_send_queued_packet` for an own packet, of
`relunicast_send`, of `send`, and of the unicast and broadcast layers below. The queue and the
queue buffers keep the attributes. The nodes are any states in which the two functions run. -/
def ownPacket (C : NodeConf) (env : Env) (s₀ s₁ : Node) (rexmits : UInt16) (n : NeighborPtr)
    (i : PacketqueueItemPtr) (sndnxt : UInt8) (timeHigh timeLow : UInt16)
    (receiver : RimeAddr) : Packetbuf :=
  let pb := (prepareSend C s₀ rexmits).packetbuf
  let pb := (updateQueuingStats C env (noteParent C { s₁ with packetbuf := pb } n) i).packetbuf
  let pb := pb.setAttr .packetId sndnxt.toUInt16
  let pb := (pb.setAttr .timeHigh timeHigh).setAttr .timeLow timeLow
  (pb.setAddr .receiver receiver).setAddr .sender C.addr

/-- A packet whose header has not been built yet, in the array of the packet buffer. -/
def Packetbuf.inMemory (pb : Packetbuf) (m : Nat → UInt8) (bufptr buflen : Nat) :
    PacketbufMem PacketbufAttr where
  packetbuf := m
  hdrptr := packetbufHdrSize
  bufptr := bufptr
  buflen := buflen
  attrs := pb.attrs
  addrs := pb.addrs

/-- The attributes of an own packet with 8 bits hold values of 8 bits. -/
theorem ownPacket_lt (C : NodeConf) (env : Env) (s₀ s₁ : Node) (rexmits : UInt16)
    (n : NeighborPtr) (i : PacketqueueItemPtr) (sndnxt : UInt8) (timeHigh timeLow : UInt16)
    (receiver : RimeAddr) (type : PacketbufAttr)
    (htype : type = .epacketId ∨ type = .rtmetric ∨ type = .queueSize ∨ type = .packetId) :
    ((ownPacket C env s₀ s₁ rexmits n i sndnxt timeHigh timeLow receiver).attrs type).toNat <
      2 ^ 8 := by
  have hesender : rimeaddrCmp C.addr C.addr = true := (rimeaddrCmp_iff _ _).mpr rfl
  have hbyte : ∀ v : UInt8, v.toNat < 256 := fun v => v.toNat_lt
  rcases htype with rfl | rfl | rfl | rfl <;>
    simp [ownPacket, prepareSend, updateQueuingStats, noteParent, isOriginator,
      Packetbuf.setAttr, Packetbuf.setAddr, Packetbuf.addr, Function.update, hesender, hbyte,
      Nat.mod_lt]

/-- Fields of less than 8 bits start with a byte. -/
def shortAligned : Nat → List (PacketbufAttrlist α) → Bool
  | _, [] => true
  | bitptr, a :: rest =>
    (8 ≤ a.len.toNat || bitptr % 8 = 0) && shortAligned (bitptr + a.len.toNat) rest

/-- Then no value reaches into another field. -/
theorem allTame_of_shortAligned (b : PacketbufMem α) {l : List (PacketbufAttrlist α)}
    {bitptr : Nat} (h : shortAligned bitptr l = true) : AllTame b bitptr l := by
  induction l generalizing bitptr with
  | nil => trivial
  | cons a rest ih =>
      obtain ⟨ha, hrest⟩ := Bool.and_eq_true_iff.mp h
      refine ⟨fun hlt => Or.inl ?_, ih hrest⟩
      rcases Bool.or_eq_true_iff.mp ha with hlen | haligned
      · exact absurd (of_decide_eq_true hlen) (Nat.not_le.mpr hlt)
      · exact of_decide_eq_true haligned

/-- The only short field of the list is that of the retransmission limit. It is behind 32
bits. -/
theorem shortAligned_relcollectAttributes (queuingStats withTime : Bool) :
    shortAligned 0 (relcollectAttributes queuingStats withTime) = true := by
  have h : ∀ q t, shortAligned 0 (relcollectAttributes q t) = true := by decide
  exact h queuingStats withTime

/-- Every value of an own packet but the retransmission limit fits into its field. -/
theorem fits_ownPacket {b : PacketbufMem PacketbufAttr}
    (hbyte : ∀ type, type = .epacketId ∨ type = .rtmetric ∨ type = .queueSize ∨
      type = .packetId → (b.attrs type).toNat < 2 ^ 8) {queuingStats withTime : Bool}
    {a : PacketbufAttrlist PacketbufAttr} (ha : a ∈ relcollectAttributes queuingStats withTime)
    (hne : a.type ≠ .attr .maxRexmit) : Fits b a := by
  -- A field has 16 bits or more, or it is one of the four with 8 bits.
  have hcases : ∀ q t, ∀ a ∈ relcollectAttributes q t, a.type ≠ .attr .maxRexmit →
      16 ≤ a.len.toNat ∨ a.len.toNat = 8 ∧ (a.type = .attr .epacketId ∨
        a.type = .attr .rtmetric ∨ a.type = .attr .queueSize ∨ a.type = .attr .packetId) := by
    decide
  obtain ⟨type, len⟩ := a
  have hword : fieldValue b type < 2 ^ 16 := by
    cases type with
    | attr type => exact (b.attrs type).toNat_lt
    | addr type =>
        have h₀ := (b.addrs type).u8_0.toNat_lt
        have h₁ := (b.addrs type).u8_1.toNat_lt
        show (b.addrs type).u8_0.toNat + 256 * (b.addrs type).u8_1.toNat < 2 ^ 16
        omega
  rcases hcases _ _ _ ha hne with hlen | ⟨hlen, htype⟩
  · exact Nat.lt_of_lt_of_le hword (Nat.pow_le_pow_right (by decide) hlen)
  · have hlen' : len.toNat = 8 := hlen
    rw [Fits, hlen']
    rcases htype with rfl | rfl | rfl | rfl
    · exact hbyte .epacketId (Or.inl rfl)
    · exact hbyte .rtmetric (Or.inr (Or.inl rfl))
    · exact hbyte .queueSize (Or.inr (Or.inr (Or.inl rfl)))
    · exact hbyte .packetId (Or.inr (Or.inr (Or.inr rfl)))

/-- Whatever the limit `rexmits` of 8 bits is, the next hop sees every other attribute and every
address of the packet as they were, and the same payload. -/
theorem agrees_ownPacket (C : NodeConf) (env : Env) (s₀ s₁ : Node) (rexmits : UInt8)
    (n : NeighborPtr) (i : PacketqueueItemPtr) (sndnxt : UInt8) (timeHigh timeLow : UInt16)
    (receiver : RimeAddr) (queuingStats withTime : Bool)
    (lookup : UInt16 → Option (Channel PacketbufAttr)) (channelno : UInt16)
    (hlookup : lookup channelno =
      some (Channel.ofAttributes channelno (relcollectAttributes queuingStats withTime)))
    (stack beyond : Nat → Nat → UInt8) (m : Nat → UInt8) (bufptr buflen : Nat)
    (b rb : PacketbufMem PacketbufAttr)
    (hb : b = (ownPacket C env s₀ s₁ rexmits.toUInt16 n i sndnxt timeHigh timeLow
      receiver).inMemory m bufptr buflen)
    (hframe : rb.data = (packHeader beyond (Channel.ofAttributes channelno
      (relcollectAttributes queuingStats withTime)) b).copyto) :
    (∀ a ∈ relcollectAttributes queuingStats withTime, a.type ≠ .attr .maxRexmit →
      Agrees (unpackHeader lookup stack rb).2 b a.type) ∧
      (unpackHeader lookup stack rb).2.data = b.data := by
  subst hb
  have hlist := declarable_relcollectAttributes queuingStats withTime
  obtain ⟨_, hagrees, hdata⟩ := @unpackHeader_copyto _ _ _ hlist.width hlist.addr hlist.size _ _
    hlookup stack beyond _ _ rfl
    (allTame_of_shortAligned _ (shortAligned_relcollectAttributes queuingStats withTime)) hframe
  refine ⟨fun a ha hne => hagrees a ha fun a' ha' heq => ?_, hdata⟩
  refine fits_ownPacket (fun type htype => ?_) ha' (heq ▸ hne)
  exact ownPacket_lt C env s₀ s₁ rexmits.toUInt16 n i sndnxt timeHigh timeLow receiver type htype

/-- The packet of node 2 with the limit `rexmits` and the payload 9, which the receiver reads. -/
def limitPacket (rexmits : UInt8) : PacketbufMem PacketbufAttr :=
  (ownPacket ⟨⟨2, 0⟩, .xmac, ⟨0x1100, rimeaddrNull⟩, 131⟩ ⟨500, 70000, true, true⟩ Node.boot
    Node.boot rexmits.toUInt16 0 0 3 1 4464 ⟨1, 0⟩).inMemory (fun _ => 9) 0 1

/-- All channels carry collection packets. -/
def collectLookup (no : UInt16) : Option (Channel PacketbufAttr) :=
  some (Channel.ofAttributes no (relcollectAttributes true true))

/-- The frame of this packet. -/
def limitFrame (rexmits : UInt8) : List UInt8 :=
  (packHeader (fun _ _ => 0) (Channel.ofAttributes 131 (relcollectAttributes true true))
    (limitPacket rexmits)).copyto

/-- `agrees_ownPacket` with the limit 200, which does not fit into its field. -/
theorem agrees_ownPacket_limit :
    (∀ a ∈ relcollectAttributes true true, a.type ≠ .attr .maxRexmit →
      Agrees (unpackHeader collectLookup (fun _ _ => 0)
        ((limitPacket 200).copyfrom (limitFrame 200))).2 (limitPacket 200) a.type) ∧
      (unpackHeader collectLookup (fun _ _ => 0)
        ((limitPacket 200).copyfrom (limitFrame 200))).2.data = (limitPacket 200).data :=
  agrees_ownPacket _ _ _ _ 200 _ _ _ _ _ _ true true collectLookup 131 rfl _ _ _ _ _
    (limitPacket 200) _ rfl (data_copyfrom _ (by decide +kernel))

/-- `roundTrips_declarable` with the limit 31, the largest one that fits. -/
theorem roundTrips_declarable_limit :
    (∀ a ∈ relcollectAttributes true true, Fits (limitPacket 31) a) ∧
      (unpackHeader collectLookup (fun _ _ => 0)
        ((limitPacket 31).copyfrom (limitFrame 31))).1 = collectLookup 131 ∧
      (∀ a ∈ relcollectAttributes true true,
        Agrees (unpackHeader collectLookup (fun _ _ => 0)
          ((limitPacket 31).copyfrom (limitFrame 31))).2 (limitPacket 31) a.type) ∧
      (unpackHeader collectLookup (fun _ _ => 0)
        ((limitPacket 31).copyfrom (limitFrame 31))).2.data = (limitPacket 31).data := by
  have hfits : ∀ a ∈ relcollectAttributes true true, Fits (limitPacket 31) a := by
    unfold Fits
    decide +kernel
  exact ⟨hfits, roundTrips_declarable.2 true true collectLookup 131 (fun _ _ => 0) (fun _ _ => 0)
    (limitPacket 31) _ rfl rfl hfits (data_copyfrom _ (by decide +kernel))⟩

end PTunes.Rime
