import Mathlib.Data.List.Perm.Basic
import PTunes.Mac.Lpp
import PTunes.Proofs.Rime.Relunicast

/-!
# `PTunes.Proofs.Mac.LppService`: LPP and the completion of unicasts

While a packet of the connection is in transmission, its timer is set or LPP owes one call of
`post_send`: then the packet is on the queue, and its removal timer runs (`Served`). This
breaks when `send_packet` has no item or no queue buffer for a packet. It drops the packet
without a word, and `send` has not set its timer, so the connection waits forever
(`not_forall_served`). It also breaks for a packet to the null address, which LPP takes for a
broadcast. In the runs in which `send` never meets this, the connection is always served
(`served_of_reachableIf`).

The invariant `Inv`: the items on the list are the allocated ones, their timers are the ones
that run, and the unicasts among them are the packets that LPP owes a completion.
-/

set_option autoImplicit false

namespace PTunes.Mac.Lpp

open PTunes.Core PTunes.Rime
open Handoff (owes)

/-- The receiver of a unicast on the queue. -/
def unicastTo (memb : Memb QueueListItem maxQueuedPackets) (i : Fin maxQueuedPackets) :
    Option RimeAddr :=
  let receiver := (memb.block i).packet.hdr.receiver
  if rimeaddrCmp receiver rimeaddrNull then none else some receiver

/-- The receivers of the unicasts on the queue. -/
def unicasts (s : Lpp) : List RimeAddr :=
  s.queuedPacketsList.filterMap (unicastTo s.queuedPacketsMemb)

/-- While a packet is in transmission, its timer is set and nothing is owed, or one call of
`post_send` is owed. Then the packet is the one unicast on the queue, with its removal timer
running. -/
def Served (s : Lpp) : Prop :=
  let c := s.node.relunicast
  c.isTx = true →
    (c.timer = true ∧ owes s.events = some false ∧ s.unicasts = []) ∨
    (owes s.events = some true ∧ s.unicasts = [c.receiver] ∧
      ∃ i ∈ s.queuedPacketsList, (s.item i).removalTimer = true ∧
        (s.item i).packet.hdr.receiver = c.receiver)

/-- When `send` hands over a packet, there are an item and a queue buffer for it, and it is not
for the null address. -/
def Allocates (s : Lpp) : Action → Prop
  | .sendTimer _ queuebuf _ =>
    s.node.relunicast.rxmit ≤ s.node.relunicast.maxRxmit →
      s.queuedPacketsMemb.membAlloc.isSome = true ∧ queuebuf = true ∧
        s.node.relunicast.receiver ≠ rimeaddrNull
  | _ => True

instance (s : Lpp) (a : Action) : Decidable (Allocates s a) :=
  match a with
  | .sendTimer _ _ _ => inferInstanceAs (Decidable (_ → _))
  | .client _ | .broadcast _ _ | .removalTimer _ _ | .probe _ _ _ =>
    inferInstanceAs (Decidable True)

/-! ### The invariant -/

/-- A completion is owed to the connection. -/
def owed (c : RelunicastConn) : Bool := c.isTx && !c.timer

/-- The connection, the record and the unicasts on the queue fit together. -/
structure ConnInv (c : RelunicastConn) (events : List Handoff.Event)
    (unicasts : List RimeAddr) : Prop where
  timer : c.timer = true → c.isTx = true
  record : owes events = some (owed c)
  unicasts : unicasts = if owed c then [c.receiver] else []

/-- The invariant of LPP. -/
structure Inv (s : Lpp) : Prop where
  owns : Memb.Owns s.queuedPacketsMemb s.queuedPacketsList
  running : ∀ i, (s.item i).removalTimer = true ↔ i ∈ s.queuedPacketsList
  conn : ConnInv s.node.relunicast s.events s.unicasts

/-- A packet in transmission waits for its timer, or it is the one unicast on the queue. -/
theorem Inv.served {s : Lpp} (h : Inv s) : Served s := by
  intro hisTx
  have howes := h.conn.record
  have hunicasts := h.conn.unicasts
  cases htimer : s.node.relunicast.timer with
  | true =>
      simp only [owed, hisTx, htimer] at howes hunicasts
      exact .inl ⟨rfl, howes, hunicasts⟩
  | false =>
      simp only [owed, hisTx, htimer] at howes hunicasts
      -- The unicast is an item of the list, and its timer runs.
      have hmem : s.node.relunicast.receiver ∈ s.unicasts := by
        rw [hunicasts]
        simp
      obtain ⟨i, hi, hto⟩ := List.mem_filterMap.mp hmem
      have hreceiver : (s.item i).packet.hdr.receiver = s.node.relunicast.receiver := by
        simp only [unicastTo] at hto
        split at hto
        · cases hto
        · exact Option.some.inj hto
      exact .inr ⟨howes, hunicasts, i, hi, (h.running i).mpr hi, hreceiver⟩

/-- The queue is empty at first, and the connection has nothing in transmission. -/
theorem inv_boot : Inv boot where
  owns := Memb.owns_membInit _
  running i := by simp [boot, item, Memb.membInit, Memb.block]
  conn := ⟨fun h => Bool.noConfusion h, rfl, rfl⟩

/-- The order of the unicasts does not matter: there is one at most. -/
theorem ConnInv.perm {c : RelunicastConn} {events : List Handoff.Event}
    {unicasts unicasts' : List RimeAddr} (h : ConnInv c events unicasts)
    (hperm : unicasts'.Perm unicasts) : ConnInv c events unicasts' where
  timer := h.timer
  record := h.record
  unicasts := by
    rw [h.unicasts] at hperm
    cases howed : owed c with
    | true => simpa [howed] using hperm
    | false => simpa [howed] using hperm

/-- A unicast on the queue is the only one, and its completion is owed. -/
theorem ConnInv.only {c : RelunicastConn} {events : List Handoff.Event}
    {unicasts rest : List RimeAddr} {receiver : RimeAddr} (h : ConnInv c events unicasts)
    (hperm : (receiver :: rest).Perm unicasts) : owed c = true ∧ rest = [] := by
  rw [h.unicasts] at hperm
  cases howed : owed c with
  | true =>
      have hlength := hperm.length_eq
      simp only [howed, if_true, List.length_cons, List.length_nil] at hlength
      exact ⟨rfl, List.length_eq_zero_iff.mp (by omega)⟩
  | false =>
      have hlength := hperm.length_eq
      simp [howed] at hlength

/-! ### The client -/

/-- When nothing is owed, another connection to which nothing is owed fits as well. -/
theorem ConnInv.of_not_owed {c c' : RelunicastConn} {events : List Handoff.Event}
    {unicasts : List RimeAddr} (h : ConnInv c events unicasts) (hc : owed c = false)
    (hc' : owed c' = false) (htimer : c'.timer = true → c'.isTx = true) :
    ConnInv c' events unicasts where
  timer := htimer
  record := by rw [hc', ← hc, h.record]
  unicasts := by simpa [hc, hc'] using h.unicasts

/-- `relunicast_send` is refused, or its packet waits for the timer. -/
theorem ConnInv.call {C : NodeConf} {events : List Handoff.Event} {unicasts : List RimeAddr}
    {r : Recorded} (h : ConnInv r.node.relunicast events unicasts) (a : SendCall) :
    ConnInv (Recorded.call C r a).node.relunicast events unicasts := by
  rw [Recorded.call]
  rcases hsend : relunicastSend C a.env r.node a.receiver a.maxRetransmissions a.esender
    with ⟨_ | _, s⟩
  · rcases relunicastSend_refused hsend with rfl | ⟨hidle, hisTx, htimer⟩
    · exact h
    · refine h.of_not_owed (by simp [owed, hidle]) (by simp [owed, hisTx]) fun hset => ?_
      have hwas := h.timer (htimer ▸ hset)
      rw [hidle] at hwas
      cases hwas
  · obtain ⟨hidle, hisTx, htimer, -, -⟩ := relunicastSend_accepted hsend
    exact h.of_not_owed (by simp [owed, hidle]) (by simp [owed, hisTx, htimer]) fun _ => hisTx

/-- The steps of a client keep what is owed. -/
theorem ConnInv.client {C : NodeConf} {events : List Handoff.Event} {unicasts : List RimeAddr}
    (steps : List ClientStep) {r : Recorded} (h : ConnInv r.node.relunicast events unicasts) :
    ConnInv (Recorded.client C r steps).node.relunicast events unicasts := by
  induction steps generalizing r with
  | nil => exact h
  | cons step steps ih =>
      apply ih
      cases step with
      | call a => exact h.call a
      | other f => exact h

/-! ### `post_send` -/

/-- `post_send` gives the completion that is owed, and no unicast is left. -/
theorem ConnInv.postSend {C : NodeConf} {callback : List ClientStep} {s : Lpp}
    {unicasts : List RimeAddr} (h : ConnInv s.node.relunicast s.events unicasts)
    (howed : owed s.node.relunicast = true) (acknowledged : Bool) :
    ConnInv (postSend C callback s acknowledged).node.relunicast
      (postSend C callback s acknowledged).events [] := by
  have hcomplete : owes (s.events ++ [.complete]) = some false := by
    apply Handoff.owes_complete
    rw [h.record, howed]
  cases acknowledged with
  | true =>
      -- The packet is done, and the callback may send the next one.
      apply ConnInv.client callback
      exact ⟨fun htimer => Bool.noConfusion htimer, hcomplete, rfl⟩
  | false =>
      -- The next transmission is scheduled.
      have hisTx : s.node.relunicast.isTx = true := (Bool.and_eq_true_iff.mp howed).1
      have hnone : owed (Lpp.postSend C callback s false).node.relunicast = false := by
        simp [owed, Lpp.postSend, Relunicast.postSend, scheduleSend]
      exact ⟨fun _ => hisTx, by rw [hnone]; exact hcomplete, by rw [hnone]; rfl⟩

/-! ### `remove_queued_packet` -/

/-- The unicasts depend on the packets of the items alone. -/
theorem unicastTo_congr {memb memb' : Memb QueueListItem maxQueuedPackets}
    (h : ∀ i, (memb'.block i).packet = (memb.block i).packet) :
    unicastTo memb' = unicastTo memb := by
  funext i
  simp only [unicastTo, h]

/-- The other unicasts when one is removed from the list. -/
theorem filterMap_erase {α β : Type} [DecidableEq α] {f : α → Option β} {l : List α} {a : α}
    (ha : a ∈ l) :
    ((f a).toList ++ (l.erase a).filterMap f).Perm (l.filterMap f) := by
  have hperm := (List.perm_cons_erase ha).filterMap f
  rw [List.filterMap_cons] at hperm
  cases hfa : f a with
  | none => simpa [hfa] using hperm.symm
  | some b => simpa [hfa] using hperm.symm

/-- `remove_queued_packet` stops the removal timer of the item and frees its block. -/
theorem removeQueuedPacket_memb (C : NodeConf) (r : Reaction) (s : Lpp)
    (i : Fin maxQueuedPackets) :
    (removeQueuedPacket C r s i).queuedPacketsMemb =
      (s.queuedPacketsMemb.write i { s.item i with removalTimer := false }).membFree i := by
  simp only [removeQueuedPacket]
  split <;> rfl

/-- It takes the item off the list, and no other. -/
theorem removeQueuedPacket_list (C : NodeConf) (r : Reaction) (s : Lpp)
    (i : Fin maxQueuedPackets) :
    (removeQueuedPacket C r s i).queuedPacketsList = s.queuedPacketsList.erase i := by
  simp only [removeQueuedPacket]
  split <;> rfl

/-- The items after a removal: the timer of the item is stopped. -/
theorem removeQueuedPacket_item (C : NodeConf) (r : Reaction) (s : Lpp)
    (i j : Fin maxQueuedPackets) :
    (removeQueuedPacket C r s i).item j =
      if i = j then { s.item i with removalTimer := false } else s.item j := by
  rw [item, removeQueuedPacket_memb, Memb.block_membFree, Memb.block_write]
  rfl

/-- The unicasts that stay on the list. -/
theorem removeQueuedPacket_unicasts (C : NodeConf) (r : Reaction) (s : Lpp)
    (i : Fin maxQueuedPackets) :
    (removeQueuedPacket C r s i).unicasts =
      (s.queuedPacketsList.erase i).filterMap (unicastTo s.queuedPacketsMemb) := by
  have hpacket : ∀ j, ((removeQueuedPacket C r s i).queuedPacketsMemb.block j).packet =
      (s.queuedPacketsMemb.block j).packet := by
    intro j
    have hitem : (removeQueuedPacket C r s i).queuedPacketsMemb.block j = _ :=
      removeQueuedPacket_item C r s i j
    rw [hitem]
    split
    · rename_i hij
      exact hij ▸ rfl
    · rfl
  rw [unicasts, removeQueuedPacket_list, unicastTo_congr hpacket]

/-- A removal completes a unicast, and nothing else. -/
theorem Inv.removeQueuedPacket {C : NodeConf} {s : Lpp} (h : Inv s) (r : Reaction)
    {i : Fin maxQueuedPackets} (hi : i ∈ s.queuedPacketsList) :
    Inv (removeQueuedPacket C r s i) where
  owns := by
    rw [removeQueuedPacket_memb, removeQueuedPacket_list]
    exact (h.owns.write _).free_erase hi
  running j := by
    rw [removeQueuedPacket_item, removeQueuedPacket_list, h.owns.nodup.mem_erase_iff,
      ← h.running j]
    split
    · rename_i hij
      simp [hij]
    · rename_i hij
      simp [Ne.symm hij]
  conn := by
    rw [removeQueuedPacket_unicasts]
    have hperm := filterMap_erase (f := unicastTo s.queuedPacketsMemb) hi
    simp only [Lpp.removeQueuedPacket]
    apply ConnInv.client r.relSendQueuedPacket
    cases hto : rimeaddrCmp (s.item i).packet.hdr.receiver rimeaddrNull with
    | true =>
        -- A broadcast: the unicasts are the same, and nothing is recorded.
        have hnone : unicastTo s.queuedPacketsMemb i = none := if_pos hto
        rw [hnone] at hperm
        exact h.conn.perm hperm
    | false =>
        -- The unicast was the only one.
        have hsome : unicastTo s.queuedPacketsMemb i = some (s.item i).packet.hdr.receiver :=
          if_neg (Bool.eq_false_iff.mp hto)
        rw [hsome, Option.toList_some, List.singleton_append] at hperm
        obtain ⟨howed, hrest⟩ := h.conn.only hperm
        rw [hrest]
        exact h.conn.postSend howed _

/-! ### `read_packet` -/

/-- Halving the counters of the handshakes leaves the queue as it is. -/
theorem age_list (s : Lpp) : (age s).queuedPacketsList = s.queuedPacketsList := by
  unfold age
  split <;> rfl

/-- The counters of the handshakes are no part of the invariant. -/
theorem Inv.age {s : Lpp} (h : Inv s) : Inv (age s) := by
  unfold Lpp.age
  split
  · exact ⟨h.owns, h.running, h.conn⟩
  · exact h

/-- A write to an item that keeps its packet and its timer. -/
theorem Inv.writeItem {s : Lpp} (h : Inv s) {i : Fin maxQueuedPackets} {a : QueueListItem}
    (hpacket : a.packet = (s.item i).packet) (htimer : a.removalTimer = (s.item i).removalTimer) :
    Inv { s with queuedPacketsMemb := s.queuedPacketsMemb.write i a } where
  owns := h.owns.write a
  running j := by
    rw [← h.running j]
    simp only [item, Memb.block_write]
    split
    · rename_i hij
      rw [htimer, hij]
      rfl
    · rfl
  conn := by
    have hto : unicastTo (s.queuedPacketsMemb.write i a) = unicastTo s.queuedPacketsMemb := by
      apply unicastTo_congr
      intro j
      rw [Memb.block_write]
      split
      · rename_i hij
        rw [hpacket, hij]
        rfl
      · rfl
    show ConnInv _ _ (s.queuedPacketsList.filterMap (unicastTo (s.queuedPacketsMemb.write i a)))
    rw [hto]
    exact h.conn

/-- A unicast is sent and removed. -/
theorem Inv.sendUnicastToRadio {C : NodeConf} {s : Lpp} (h : Inv s) (r : Reaction)
    {i : Fin maxQueuedPackets} (hi : i ∈ s.queuedPacketsList) (acked : Bool) :
    Inv (sendUnicastToRadio C r s i acked) := by
  have hacked := h.writeItem (i := i)
    (a := { s.item i with acknowledged := (s.item i).acknowledged || acked }) rfl rfl
  have hcounted : Inv { s with
      queuedPacketsMemb := s.queuedPacketsMemb.write i
        { s.item i with acknowledged := (s.item i).acknowledged || acked }
      handshakesTotal := s.handshakesTotal + 1
      handshakesSucc := if acked then s.handshakesSucc + 1 else s.handshakesSucc } :=
    ⟨hacked.owns, hacked.running, hacked.conn⟩
  apply hcounted.age.removeQueuedPacket r
  rw [age_list]
  exact hi

/-- The loop over the items of the list. -/
theorem Inv.probeLoop {C : NodeConf} {s : Lpp} (h : Inv s) (r : Reaction) (acked : Bool)
    {items : List (Fin maxQueuedPackets)} (hitems : ∀ i ∈ items, i ∈ s.queuedPacketsList)
    (sender : RimeAddr) : Inv (probeLoop C r acked s sender items) := by
  induction items generalizing sender with
  | nil => exact h
  | cons i rest ih =>
      have hrest : ∀ j ∈ rest, j ∈ s.queuedPacketsList :=
        fun j hj => hitems j (List.mem_cons_of_mem i hj)
      simp only [Lpp.probeLoop]
      split
      · exact ih hrest _
      · split
        · exact h.sendUnicastToRadio r (hitems i List.mem_cons_self) acked
        · exact ih hrest _

/-! ### `send_packet` -/

/-- The receiver of a packet, if it is a unicast. -/
def packetTo (pb : Packetbuf) : Option RimeAddr :=
  if rimeaddrCmp (pb.addr .receiver) rimeaddrNull then none else some (pb.addr .receiver)

/-- An allocation leaves the items as they are. -/
theorem block_of_membAlloc {memb memb' : Memb QueueListItem maxQueuedPackets}
    {i : Fin maxQueuedPackets} (ha : memb.membAlloc = some (i, memb')) (j : Fin maxQueuedPackets) :
    memb'.block j = memb.block j := by
  obtain ⟨-, rfl⟩ := Memb.membAlloc_some ha
  rfl

/-- A packet without a queue buffer: the item is given back. -/
theorem Inv.withoutQueuebuf {s : Lpp} (h : Inv s)
    {memb : Memb QueueListItem maxQueuedPackets} {i : Fin maxQueuedPackets}
    (ha : s.queuedPacketsMemb.membAlloc = some (i, memb)) :
    Inv { s with queuedPacketsMemb := memb.membFree i } where
  owns := (h.owns.alloc ha).2.free
  running j := by
    rw [← h.running j]
    simp only [item, Memb.block_membFree, block_of_membAlloc ha]
  conn := by
    have hto : unicastTo (memb.membFree i) = unicastTo s.queuedPacketsMemb := by
      apply unicastTo_congr
      intro j
      rw [Memb.block_membFree, block_of_membAlloc ha]
    show ConnInv _ _ (s.queuedPacketsList.filterMap (unicastTo (memb.membFree i)))
    rw [hto]
    exact h.conn

/-- The queue with one more packet: its timer runs, and a unicast is one more. The connection
and the record must fit this. -/
theorem Inv.enqueue {s : Lpp} (howns : Memb.Owns s.queuedPacketsMemb s.queuedPacketsList)
    (hrunning : ∀ i, (s.item i).removalTimer = true ↔ i ∈ s.queuedPacketsList)
    {memb : Memb QueueListItem maxQueuedPackets} {i : Fin maxQueuedPackets}
    (ha : s.queuedPacketsMemb.membAlloc = some (i, memb)) (self : RimeAddr) (pb : Packetbuf)
    (hconn : ConnInv s.node.relunicast s.events (s.unicasts ++ (packetTo pb).toList)) :
    Inv (sendPacket self s pb true).2 := by
  have hsent : (sendPacket self s pb true).2 = { s with
      queuedPacketsMemb := memb.write i ⟨dataPacket self pb, true, false⟩
      queuedPacketsList := listAdd s.queuedPacketsList i } := by
    rw [sendPacket, ha]
    rfl
  rw [hsent]
  obtain ⟨hnew, howns'⟩ := howns.alloc ha
  have hlist : listAdd s.queuedPacketsList i = s.queuedPacketsList ++ [i] := by
    rw [listAdd, List.erase_of_not_mem hnew]
  constructor
  case owns =>
    rw [hlist]
    exact (howns'.write _).perm (List.perm_append_singleton i _).symm
  case running =>
    intro j
    simp only [hlist, item, Memb.block_write, block_of_membAlloc ha, List.mem_append,
      List.mem_singleton]
    -- The new item is not one of the old ones, so their timers are as before.
    by_cases hij : i = j
    · simp [hij]
    · have hold := hrunning j
      simp only [item] at hold
      simp [hij, hold, Ne.symm hij]
  case conn =>
    let unicast := unicastTo (memb.write i ⟨dataPacket self pb, true, false⟩)
    -- The receivers of the old items are read from blocks that the allocation leaves alone.
    have hold : s.queuedPacketsList.filterMap unicast = s.unicasts := by
      apply List.filterMap_congr
      intro j hj
      have hij : i ≠ j := fun heq => hnew (heq ▸ hj)
      simp only [unicast, unicastTo, Memb.block_write_ne _ _ hij, block_of_membAlloc ha]
    have hlast : unicast i = packetTo pb := by
      simp only [unicast, unicastTo, Memb.block_write_self]
      rfl
    show ConnInv _ _ ((listAdd s.queuedPacketsList i).filterMap unicast)
    rw [hlist, List.filterMap_append, hold]
    cases hto : packetTo pb with
    | none => simpa [hlast, hto] using hconn
    | some receiver => simpa [hlast, hto] using hconn

/-- A broadcast is queued or dropped. -/
theorem Inv.sendBroadcast {s : Lpp} (h : Inv s) (self : RimeAddr) {pb : Packetbuf}
    (hpb : packetTo pb = none) (queuebuf : Bool) : Inv (sendPacket self s pb queuebuf).2 := by
  cases ha : s.queuedPacketsMemb.membAlloc with
  | none =>
      rw [sendPacket, ha]
      exact h
  | some a =>
      cases queuebuf with
      | false =>
          rw [sendPacket, ha]
          exact h.withoutQueuebuf ha
      | true =>
          apply Inv.enqueue h.owns h.running ha
          rw [hpb]
          simpa using h.conn

/-! ### `send` -/

/-- `send` gives up, or a unicast goes on the queue. -/
theorem Inv.send {C : NodeConf} (hC : C.mac = .lpp) {s : Lpp} (h : Inv s)
    (htimer : s.node.relunicast.timer = true) (callback : List ClientStep)
    (mac : Packetbuf → Packetbuf) {queuebuf : Bool}
    (hallocates : s.node.relunicast.rxmit ≤ s.node.relunicast.maxRxmit →
      s.queuedPacketsMemb.membAlloc.isSome = true ∧ queuebuf = true ∧
        s.node.relunicast.receiver ≠ rimeaddrNull) :
    Inv (send C callback s mac queuebuf) := by
  have hisTx := h.conn.timer htimer
  have hnone : owed s.node.relunicast = false := by simp [owed, hisTx, htimer]
  have howes : owes s.events = some false := by rw [h.conn.record, hnone]
  have hempty : s.unicasts = [] := by simpa [hnone] using h.conn.unicasts
  simp only [Lpp.send]
  split
  · rename_i hover
    -- The callback reports that the packet is given up.
    refine ⟨h.owns, h.running, ?_⟩
    have hidle : ConnInv (Relunicast.finish s.node.relunicast) s.events [] :=
      ⟨fun hset => Bool.noConfusion hset, howes, rfl⟩
    have hnode : Relunicast.send C (Recorded.callbacks C callback) s.node mac false id =
        Relunicast.gaveUp (Recorded.callbacks C callback) s.node := if_pos hover
    show ConnInv (Relunicast.send C (Recorded.callbacks C callback) s.node mac false id).relunicast
      s.events s.unicasts
    rw [hnode, hempty]
    exact hidle.client callback
  · rename_i hover
    -- The packet goes on the queue, and its completion is owed.
    have hle : s.node.relunicast.rxmit ≤ s.node.relunicast.maxRxmit := by
      rw [UInt8.le_iff_toNat_le]
      rw [gt_iff_lt, UInt8.lt_iff_toNat_lt] at hover
      omega
    obtain ⟨hsome, rfl, hreceiver⟩ := hallocates hle
    obtain ⟨⟨i, memb⟩, ha⟩ := Option.isSome_iff_exists.mp hsome
    have hconn : (Relunicast.send C (Recorded.callbacks C callback) s.node mac false
        id).relunicast = { s.node.relunicast with
          rxmit := s.node.relunicast.rxmit + 1, timer := false } := by
      simp only [Relunicast.send, if_neg hover, hC, id_eq]
    have hto : packetTo (outgoing C s) = some s.node.relunicast.receiver := by
      have haddr : (outgoing C s).addr .receiver = s.node.relunicast.receiver := by
        simp [outgoing, Packetbuf.addr, Packetbuf.setAddr]
      rw [packetTo, haddr, if_neg (by simpa using hreceiver)]
    let s' : Lpp := { s with
      node := Relunicast.send C (Recorded.callbacks C callback) s.node mac false id
      events := s.events ++ [.request] }
    refine @Inv.enqueue s' h.owns h.running memb i ha C.addr (outgoing C s) ?_
    show ConnInv (Relunicast.send C _ s.node mac false id).relunicast _ (s.unicasts ++ _)
    rw [hconn, hto, hempty]
    have howed : owed { s.node.relunicast with
        rxmit := s.node.relunicast.rxmit + 1, timer := false } = true := by
      simp [owed, hisTx]
    exact ⟨fun hset => Bool.noConfusion hset, by rw [howed]; exact Handoff.owes_request howes,
      by rw [howed]; rfl⟩

/-! ### The main result -/

/-- A step in which `send` gets an item and a queue buffer keeps the invariant. -/
theorem Inv.step {C : NodeConf} (hC : C.mac = .lpp) {s t : Lpp} {a : Action} (h : Inv s)
    (hok : Allocates s a) (hst : (machine C).step s a = some t) : Inv t := by
  cases a with
  | client step =>
      cases hst
      exact ⟨h.owns, h.running, ConnInv.client [step] h.conn⟩
  | sendTimer mac queuebuf callback =>
      obtain ⟨htimer, ⟨⟩⟩ := Option.ite_none_right_eq_some.mp hst
      exact h.send hC htimer callback mac hok
  | broadcast pb queuebuf =>
      obtain ⟨hnull, ⟨⟩⟩ := Option.ite_none_right_eq_some.mp hst
      exact h.sendBroadcast C.addr (if_pos hnull) queuebuf
  | removalTimer i r =>
      obtain ⟨hrunning, ⟨⟩⟩ := Option.ite_none_right_eq_some.mp hst
      exact h.removeQueuedPacket r ((h.running i).mp hrunning)
  | probe sender acked r =>
      cases hst
      exact h.probeLoop r acked (fun _ hi => hi) sender

/-- In the runs in which `send` always gets an item and a queue buffer, the connection is
served, whatever the client, the other protocols and the medium do. -/
theorem served_of_reachableIf {C : NodeConf} {s : Lpp} (hC : C.mac = .lpp)
    (h : (machine C).ReachableIf Allocates s) : Served s :=
  (Machine.ReachableIf.invariant Inv inv_boot (fun _ _ _ hs hok hst => hs.step hC hok hst)
    h).served

/-- A configuration with LPP. -/
def lppConf : NodeConf := ⟨⟨1, 0⟩, .lpp, ⟨0x1100, rimeaddrNull⟩, 131⟩

/-- A packet for node 2. -/
def lppCall : SendCall := ⟨⟨0, 0, true, true⟩, ⟨2, 0⟩, 3, ⟨1, 0⟩⟩

/-- A packet is not acknowledged after the first probe, and it is on the queue again. -/
theorem served_of_reachableIf_sample :
    ∃ s, (machine lppConf).ReachableIf Allocates s ∧ Served s ∧
      s.events = [.request, .complete, .request] := by
  let run : List Action :=
    [.client (.call lppCall), .sendTimer id true [], .probe ⟨2, 0⟩ false ⟨[], []⟩,
      .sendTimer id true []]
  have hevents : ((machine lppConf).runIf Allocates boot run).map (·.events) =
      some [.request, .complete, .request] := by decide
  obtain ⟨s, hreach, hs⟩ := Machine.exists_reachableIf_of_runIf hevents
  exact ⟨s, hreach, served_of_reachableIf rfl hreach, hs⟩

/-- The pool has no queue buffer for the first packet: the connection waits forever. -/
theorem not_forall_served :
    ¬ ∀ (C : NodeConf) (s : Lpp), C.mac = .lpp → (machine C).Reachable s → Served s := by
  intro hall
  let run : List Action := [.client (.call lppCall), .sendTimer id false []]
  have hend : ((machine lppConf).run run).map (fun s => (s.node.relunicast.isTx,
      s.node.relunicast.timer, s.unicasts)) = some (true, false, []) := by decide
  obtain ⟨s, hreach, hs⟩ := Machine.exists_reachable_of_run hend
  simp only [Prod.mk.injEq] at hs
  obtain ⟨hisTx, htimer, hunicasts⟩ := hs
  rcases hall _ s rfl hreach hisTx with h | h
  · rw [htimer] at h
    cases h.1
  · rw [hunicasts] at h
    cases h.2.1

end PTunes.Mac.Lpp
