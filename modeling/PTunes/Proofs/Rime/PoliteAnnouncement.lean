import PTunes.Proofs.Rime.AdvLoop
import PTunes.Rime.PoliteAnnouncement

/-!
# `PTunes.Proofs.Rime.PoliteAnnouncement`: what is heard of an announced list

`send_adv` writes every registered announcement into the packet, and `adv_packet_received`
rejects each packet whose number is not 1. Main results:

* `recv_sentPacket`: of a list with one announcement a receiver hears this one first, and it
  hears no other pair when its callback leaves the number in the packet buffer at most 1. Of a
  longer list it hears nothing, and an empty list is not sent.
* `not_forall_exchanges`: so a list with two announcements is not exchanged.
* `block_sendAdv`: the packet waits unchanged in the queue buffer of the ipolite connection.
* `node_sendAdv_one` and `node_recv`: with the one announcement of relcollect and its callback
  this is the exchange of `PTunes.Rime.Node`.
-/

set_option autoImplicit false

namespace PTunes.Rime.PoliteAnnouncement

variable {l : List RegisteredAnnouncement}

/-! ### The bytes of a message -/

/-- The value that is written at an offset is read there. -/
theorem readLe16_append (front back : List UInt8) (v : UInt16) :
    readLe16 (front ++ (le16 v ++ back)) front.length = v := by
  have hlow : (front ++ (le16 v ++ back)).getD front.length 0 = UInt8.ofNat (v.toNat % 256) := by
    simp [le16, List.getD_eq_getElem?_getD]
  have hhigh : (front ++ (le16 v ++ back)).getD (front.length + 1) 0 =
      UInt8.ofNat (v.toNat / 256) := by
    simp [le16, List.getD_eq_getElem?_getD]
  have hv := v.toNat_lt
  -- The two bytes are the digits of `v` in base 256.
  rw [readLe16, hlow, hhigh, ← UInt16.toNat_inj]
  show ((v.toNat % 256 % 256) + 256 * (v.toNat / 256 % 256)) % 65536 = v.toNat
  omega

/-- An entry takes four bytes. -/
@[simp] theorem length_bytes_data (d : AnnouncementData) :
    d.bytes.length = announcementDataSize := rfl

/-- A message takes its header and its entries. -/
theorem length_bytes (m : AnnouncementMsg) :
    m.bytes.length = announcementMsgHeaderlen + announcementDataSize * m.data.length := by
  have hdata : (m.data.flatMap AnnouncementData.bytes).length =
      announcementDataSize * m.data.length := by
    induction m.data with
    | nil => rfl
    | cons d ds ih =>
        rw [List.flatMap_cons, List.length_append, ih, length_bytes_data, List.length_cons,
          Nat.mul_add, Nat.mul_one, Nat.add_comm]
  rw [AnnouncementMsg.bytes, List.length_append, hdata]
  rfl

/-- The loop of `send_adv` adds an entry for each announcement. -/
theorem foldl_add (l : List RegisteredAnnouncement) (m : AnnouncementMsg) :
    l.foldl AnnouncementMsg.add m =
      ⟨m.num + UInt16.ofNat l.length, m.data ++ l.map fun a => ⟨a.id, a.value⟩⟩ := by
  induction l generalizing m with
  | nil => simp
  | cons a l ih =>
      rw [List.foldl_cons, ih]
      simp [AnnouncementMsg.add, UInt16.add_assoc, UInt16.add_comm]

/-- The message has all the announcements. -/
theorem fillMsg_eq (l : List RegisteredAnnouncement) :
    fillMsg l = ⟨UInt16.ofNat l.length, l.map fun a => ⟨a.id, a.value⟩⟩ := by
  rw [fillMsg, foldl_add]
  simp

/-! ### The packet -/

/-- The message of the list fits the packet buffer. -/
def FitsPacket (l : List RegisteredAnnouncement) : Prop :=
  announcementMsgHeaderlen + announcementDataSize * l.length ≤ packetbufSize

instance (l : List RegisteredAnnouncement) : Decidable (FitsPacket l) :=
  inferInstanceAs (Decidable (_ ≤ _))

/-- The packet that `send_adv` hands to `ipolite_send`, if any. -/
def sentPacket (s : Station) : Option (List UInt8) :=
  if 0 < (fillMsg s.announcements).num then some (sendAdv s).node.packetbuf.data else none

/-- The number of a list that fits. -/
theorem FitsPacket.toNat_num (h : FitsPacket l) : (fillMsg l).num.toNat = l.length := by
  have hlen : 2 + 4 * l.length ≤ 128 := h
  rw [fillMsg_eq]
  exact Nat.mod_eq_of_lt (by omega)

/-- The whole message is in the packet. -/
theorem FitsPacket.take_bytes (h : FitsPacket l) :
    (fillMsg l).bytes.take (fillMsg l).datalen = (fillMsg l).bytes := by
  have hlen : (fillMsg l).bytes.length = (fillMsg l).datalen := by
    rw [length_bytes, AnnouncementMsg.datalen, h.toNat_num, fillMsg_eq, List.length_map]
  rw [← hlen, List.take_length]

/-- `ipolite_send` leaves the packet buffer as it is. -/
@[simp] theorem packetbuf_ipoliteSend (s : Node) (hdrsize : UInt8) :
    (ipoliteSend s hdrsize).packetbuf = s.packetbuf := rfl

/-- The packet buffer after `send_adv`. -/
theorem FitsPacket.packetbuf_sendAdv {s : Station} (h : FitsPacket s.announcements) :
    (sendAdv s).node.packetbuf.data = (fillMsg s.announcements).bytes := by
  rw [sendAdv, h.take_bytes]
  split <;> rfl

/-- An empty list is not sent, and of another list the message is. -/
theorem FitsPacket.sentPacket_eq {s : Station} (h : FitsPacket s.announcements) :
    sentPacket s =
      if s.announcements = [] then none else some (fillMsg s.announcements).bytes := by
  rw [sentPacket, h.packetbuf_sendAdv]
  have hnum : 0 < (fillMsg s.announcements).num ↔ ¬ s.announcements = [] := by
    rw [UInt16.lt_iff_toNat_lt, h.toNat_num]
    exact List.length_pos_iff
  by_cases hnil : s.announcements = []
  · rw [if_pos hnil, if_neg fun hpos => hnum.mp hpos hnil]
  · rw [if_neg hnil, if_pos (hnum.mpr hnil)]

/-- The packet of `send_adv` waits in the queue buffer of the ipolite connection, and goes back
into the packet buffer unchanged when the timer expires. -/
theorem block_sendAdv {s : Station} {owned : List QueuebufPtr} {packet : List UInt8}
    (h : FitsPacket s.announcements) (hsent : sentPacket s = some packet)
    (howns : QueuebufPool.Owns (Node.freeIfSet s.node.pool s.node.ipolite.q) owned)
    {b : QueuebufPtr} (hb : (sendAdv s).node.ipolite.q = some b) :
    (queuebufToPacketbuf (sendAdv s).node.pool b).data = packet := by
  have hpacket : packet = (fillMsg s.announcements).bytes := by
    rw [h.sentPacket_eq] at hsent
    split at hsent
    · cases hsent
    · exact (Option.some.inj hsent).symm
  have hpos : 0 < (fillMsg s.announcements).num := by
    rw [sentPacket] at hsent
    split at hsent
    · assumption
    · cases hsent
  rw [sendAdv, if_pos hpos, h.take_bytes] at hb ⊢
  -- A queue buffer is taken, or there is none and nothing waits.
  rcases howns.new_cases { Packetbuf.clear with data := (fillMsg s.announcements).bytes } with
    ⟨i, p, hnew, _, hblock, _⟩ | ⟨_, hnew⟩
  · simp only [ipoliteSend, hnew] at hb ⊢
    obtain rfl := Option.some.inj hb
    -- The message is within `PACKETBUF_SIZE`, so `queuebuf_to_packetbuf` copies all of it.
    have hlen : (fillMsg s.announcements).bytes.length ≤ packetbufSize := by
      rw [length_bytes, fillMsg_eq, List.length_map]
      exact h
    rw [queuebufToPacketbuf, hblock, hpacket]
    exact List.take_of_length_le hlen
  · simp [ipoliteSend, hnew] at hb

/-! ### Reception -/

/-- The number in a message. -/
theorem readLe16_num (m : AnnouncementMsg) : readLe16 m.bytes 0 = m.num :=
  readLe16_append [] _ m.num

/-- `recv` of `ipolite.c` leaves the packet buffer as it is. -/
@[simp] theorem packetbuf_ipoliteRecv (s : Node) : (ipoliteRecv s).packetbuf = s.packetbuf := by
  unfold ipoliteRecv
  split
  · split <;> rfl
  · rfl

/-- What the callbacks of `announcement_heard` should get: each announcement once. -/
def announced (sender : RimeAddr) (l : List RegisteredAnnouncement) : List Heard :=
  l.map fun a => ⟨sender, a.id, a.value⟩

/-- The values of a message in the memory of a station that has received it. -/
theorem read16_received {m : AnnouncementMsg} (r : Station) (outside : Memory) {i : UInt16}
    (hi : i.toNat + 1 < m.bytes.length) (hlt : i.toNat + 1 < 65536) :
    (received r m.bytes outside).adata.read16 i = readLe16 m.bytes i.toNat :=
  Memory.read16_write hi hlt

/-- The number of a message in the memory of a station that has received it. -/
theorem num_received {m : AnnouncementMsg} (r : Station) (outside : Memory) :
    (received r m.bytes outside).adata.read16 0 = m.num := by
  have hlen : (0 : UInt16).toNat + 1 < m.bytes.length := by
    rw [length_bytes]
    show 1 < 2 + 4 * _
    omega
  rw [read16_received r outside hlen (by decide)]
  exact readLe16_num m

/-- A message with another number than 1 is rejected. -/
theorem recv_of_num_ne {m : AnnouncementMsg} (h : m.num ≠ 1) (cb : Callback) (r : Station)
    (sender : RimeAddr) (outside : Memory) :
    (recv cb r sender m.bytes outside).heard = r.heard := by
  rw [recv, advPacketReceived_of_num_ne (by rwa [num_received])]
  rfl

/-- `announcement_heard` records its arguments. -/
theorem heard_announcementHeard (cb : Callback) (sender : RimeAddr) (s : Station)
    (id value : UInt16) :
    (announcementHeard cb sender s id value).heard = s.heard ++ [⟨sender, id, value⟩] := by
  unfold announcementHeard
  simp only
  split <;> rfl

/-- The station after the one entry of its packet has been heard. -/
def afterEntry (cb : Callback) (r : Station) (sender : RimeAddr) (d : AnnouncementData)
    (outside : Memory) : Station :=
  announcementHeard cb sender (received r (AnnouncementMsg.bytes ⟨1, [d]⟩) outside) d.id d.value

/-- The one entry of a message is heard first, and nothing else when the number in the packet
buffer is at most 1 after its callback. -/
theorem recv_of_num_eq {d : AnnouncementData} (cb : Callback) (r : Station) (sender : RimeAddr)
    (outside : Memory) :
    (∃ more, (recv cb r sender (AnnouncementMsg.bytes ⟨1, [d]⟩) outside).heard =
      r.heard ++ ⟨sender, d.id, d.value⟩ :: more) ∧
    ((afterEntry cb r sender d outside).adata.read16 0 ≤ 1 →
      (recv cb r sender (AnnouncementMsg.bytes ⟨1, [d]⟩) outside).heard =
        r.heard ++ [⟨sender, d.id, d.value⟩]) := by
  have hnum := num_received (m := ⟨1, [d]⟩) r outside
  have hid : (received r (AnnouncementMsg.bytes ⟨1, [d]⟩) outside).adata.read16 2 = d.id :=
    (read16_received (m := ⟨1, [d]⟩) (i := 2) r outside (show 3 < 6 by decide) (by decide)).trans
      (readLe16_append (le16 1) (le16 d.value) d.id)
  have hvalue : (received r (AnnouncementMsg.bytes ⟨1, [d]⟩) outside).adata.read16 4 = d.value :=
    (read16_received (m := ⟨1, [d]⟩) (i := 4) r outside (show 5 < 6 by decide) (by decide)).trans
      (readLe16_append (le16 1 ++ le16 d.id) [] d.value)
  have hfirst : (afterEntry cb r sender d outside).heard =
      r.heard ++ [⟨sender, d.id, d.value⟩] := heard_announcementHeard cb sender _ _ _
  refine ⟨?_, fun hend => ?_⟩
  · rw [recv, advPacketReceived_of_num_eq hnum, hid, hvalue]
    -- The turns after the first one only add calls.
    refine advLoop_rule (P := fun s : Station => ∃ more, s.heard =
      r.heard ++ ⟨sender, d.id, d.value⟩ :: more) ?_ _ _ _ ⟨[], hfirst⟩
    rintro s id value ⟨more, hs⟩
    refine ⟨more ++ [⟨sender, id, value⟩], ?_⟩
    rw [heard_announcementHeard, hs, List.append_assoc, List.cons_append]
  · rw [recv, advPacketReceived_of_once hnum (by rw [hid, hvalue]; rfl) hend]
    exact hfirst

/-- The list is exchanged: every receiver of its packet hears each of its announcements once,
and nothing else. -/
def Exchanges (l : List RegisteredAnnouncement) : Prop :=
  ∀ s : Station, s.announcements = l → ∀ packet, sentPacket s = some packet →
    ∀ (cb : Callback) (r : Station) (sender : RimeAddr) (outside : Memory),
      ∃ calls, (recv cb r sender packet outside).heard = r.heard ++ calls ∧
        calls.Perm (announced sender l)

/-- The callback of the first entry of a packet leaves the number in the packet buffer at
most 1, so that the loop of `adv_packet_received` ends. -/
def KeepsNumber (cb : Callback) (r : Station) (sender : RimeAddr) (outside : Memory)
    (l : List RegisteredAnnouncement) : Prop :=
  ∀ a ∈ l.head?, (afterEntry cb r sender ⟨a.id, a.value⟩ outside).adata.read16 0 ≤ 1

/-- Of a list with one announcement every receiver hears this one first, and it hears nothing
else when its callback leaves the number in the packet buffer at most 1. Of a longer list none
hears anything. An empty list is not sent. -/
theorem recv_sentPacket {s : Station} (hfits : FitsPacket s.announcements) :
    (s.announcements = [] ↔ sentPacket s = none) ∧
    ∀ packet, sentPacket s = some packet →
      ∀ (cb : Callback) (r : Station) (sender : RimeAddr) (outside : Memory),
        (s.announcements.length = 1 →
          (∃ more, (recv cb r sender packet outside).heard =
            r.heard ++ (announced sender s.announcements ++ more)) ∧
          (KeepsNumber cb r sender outside s.announcements →
            (recv cb r sender packet outside).heard =
              r.heard ++ announced sender s.announcements)) ∧
        (s.announcements.length ≠ 1 → (recv cb r sender packet outside).heard = r.heard) := by
  rw [hfits.sentPacket_eq]
  refine ⟨by simp, fun packet hpacket cb r sender outside => ?_⟩
  split at hpacket
  · cases hpacket
  · obtain rfl := Option.some.inj hpacket
    -- The receiver tests the number, so the length decides.
    refine ⟨fun hone => ?_, fun hne => ?_⟩
    · obtain ⟨a, ha⟩ := List.length_eq_one_iff.mp hone
      rw [ha, fillMsg_eq]
      obtain ⟨hfirst, hkeeps⟩ := recv_of_num_eq (d := ⟨a.id, a.value⟩) cb r sender outside
      exact ⟨hfirst, fun h => hkeeps (h a rfl)⟩
    · refine recv_of_num_ne (fun hnum => hne ?_) cb r sender outside
      rw [← hfits.toNat_num, hnum]
      rfl

/-- A station that announces the list. -/
def announcing (l : List RegisteredAnnouncement) : Station where
  node := Node.boot
  adata := fun _ => 0
  announcements := l
  heard := []
  callbacks := []

/-- A callback that leaves the packet buffer alone. -/
def quietCallback : Callback := fun _ _ _ r => r

/-- The announcement of relcollect is exchanged: its packet has the six bytes, and a receiver
whose callback leaves the packet buffer alone hears it once. -/
theorem recv_sentPacket_one :
    ∃ packet, sentPacket (announcing [⟨129, 1, true⟩]) = some packet ∧ packet.length = 6 ∧
      ∀ sender : RimeAddr,
        (recv quietCallback (announcing [⟨129, 7, true⟩]) sender packet fun _ => 0).heard =
          [⟨sender, 129, 1⟩] := by
  have hfits : FitsPacket (announcing [⟨129, 1, true⟩]).announcements := by decide
  obtain ⟨_, hrecv⟩ := recv_sentPacket hfits
  refine ⟨_, rfl, by decide, fun sender => ?_⟩
  obtain ⟨hone, _⟩ := hrecv _ rfl quietCallback (announcing [⟨129, 7, true⟩]) sender fun _ => 0
  refine (hone rfl).2 fun a ha => ?_
  cases ha
  exact UInt16.le_refl 1

/-- A list with two announcements fits a packet and is not exchanged. -/
theorem not_forall_exchanges :
    ¬ ∀ l : List RegisteredAnnouncement, FitsPacket l → Exchanges l := by
  intro hall
  let l : List RegisteredAnnouncement := [⟨129, 1, true⟩, ⟨31, 0, true⟩]
  have hfits : FitsPacket l := by decide
  obtain ⟨calls, hcalls, hperm⟩ :=
    hall l hfits (announcing l) rfl (fillMsg l).bytes
      (hfits.sentPacket_eq (s := announcing l)) quietCallback (announcing []) ⟨2, 0⟩ fun _ => 0
  -- The number in the message is 2.
  rw [recv_of_num_ne (by decide)] at hcalls
  obtain rfl : calls = [] := (List.append_right_eq_self.mp hcalls.symm)
  exact absurd hperm.length_eq (by decide)

/-! ### The announcement of a collection node -/

/-- The message of one announcement is the one of the node. -/
theorem bytes_fillMsg_one (a : RegisteredAnnouncement) :
    (fillMsg [a]).bytes = announcementMsg a.id a.value := by
  rw [fillMsg_eq]
  simp [AnnouncementMsg.bytes, AnnouncementData.bytes, announcementMsg]

/-- A station with one announcement sends what the node of a relcollect connection sends. -/
theorem node_sendAdv_one (C : NodeConf) (s : Station) (callback : Bool)
    (h : s.announcements = [⟨C.channels, s.node.conn.announcement, callback⟩]) :
    (sendAdv s).node = Rime.sendAdv C s.node := by
  have hfits : FitsPacket s.announcements := by
    rw [h]
    exact (by decide : 6 ≤ 128)
  rw [sendAdv, hfits.take_bytes, h, bytes_fillMsg_one]
  rfl

/-- A station and a node in the loop of `adv_packet_received` go through the same turns: they
have the same memory and the same node, and the callbacks that were called are the announcements
that were noted. -/
structure SameTurn (C : NodeConf) (value : UInt16) (s : Station) (h : Hearing) : Prop where
  node : s.node = h.node
  adata : s.adata = h.adata
  announcements : s.announcements = [⟨C.channels, value, true⟩]
  calls : s.callbacks.length = h.noted.length

/-- `announcement_heard` keeps the relation. -/
theorem SameTurn.announcementHeard {C : NodeConf} {v : UInt16} {s : Station} {h : Hearing}
    (hsame : SameTurn C v s h) (outside : Nat → Memory) (env : Nat → Env) (sender : RimeAddr)
    (id value : UInt16) :
    SameTurn C v (announcementHeard (relcollectCallback C outside env) sender s id value)
      (Rime.announcementHeard C sender outside env h id value) := by
  obtain ⟨hnode, hadata, hlist, hcalls⟩ := hsame
  simp only [PoliteAnnouncement.announcementHeard, Rime.announcementHeard, hlist]
  by_cases hid : id = C.channels
  · subst hid
    simp only [List.find?_cons, beq_self_eq_true, Option.filter_some, if_true]
    refine ⟨?_, ?_, rfl, ?_⟩
    · simp only [relcollectCallback, hnode, hcalls]
    · simp only [relcollectCallback, hnode, hadata, hcalls]
    · simp only [List.length_append, hcalls, List.length_cons, List.length_nil]
  · have hne : (C.channels == id) = false := beq_eq_false_iff_ne.mpr (Ne.symm hid)
    simp only [List.find?_cons, hne, List.find?_nil, Option.filter_none, if_neg hid]
    exact ⟨hnode, hadata, rfl, hcalls⟩

/-- A station with the one announcement of relcollect and its callback receives what the node
of a relcollect connection receives, whatever the packet. -/
theorem node_recv (C : NodeConf) (r : Station) (value : UInt16)
    (h : r.announcements = [⟨C.channels, value, true⟩]) (sender : RimeAddr)
    (packet : List UInt8) (outside : Nat → Memory) (env : Nat → Env) :
    (recv (relcollectCallback C outside env) r sender packet (outside 0)).node =
      recvAdv C r.node sender packet outside env := by
  have hstart : SameTurn C value (received r packet (outside 0))
      (startHearing r.node packet outside) := ⟨rfl, rfl, h, rfl⟩
  exact (advPacketReceived_rel (fun _ _ hsame => hsame.adata)
    (fun _ _ id v hsame => hsame.announcementHeard outside env sender id v) hstart).node

end PTunes.Rime.PoliteAnnouncement
