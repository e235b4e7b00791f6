import PTunes.Mac.LppNew

/-!
# `PTunes.Proofs.Mac.LppNewCompletion`: LPP_NEW completes each unicast once

A unicast that `send_packet` gets is completed by one call of `post_send`. Two paths break
this. With the MAC off, `send_packet` calls `post_send` for a broadcast as well. And when
`mac_off` comes while `send_data_packet` waits for the DATA_ACK, the packet leaves the buffer
twice: `send_data_packet` does not look at `valid` after its loop
(`not_forall_completesEach`, `twice_of_macOff`). In the runs without these two steps every
unicast is completed once, and nothing else is (`completesEach_of_reachableIf`).

The invariant `Inv`: a completion is owed exactly while a unicast is in the buffer, and a
packet in the buffer has a timeout to come, or `send_data_packet` is at work on it.
-/

set_option autoImplicit false

namespace PTunes.Mac.LppNew

open PTunes.Rime
open Handoff (owes)

/-- No broadcast is handed over while the MAC is off, and `mac_off` does not come while
`send_data_packet` waits. -/
def Orderly (s : LppNew) : Action → Prop
  | .sendPacket pb _ => s.isOn = true ∨ pb.addr .receiver ≠ rimeaddrNull
  | .macOff => s.waiting = false
  | _ => True

instance (s : LppNew) (a : Action) : Decidable (Orderly s a) :=
  match a with
  | .sendPacket _ _ => inferInstanceAs (Decidable (_ ∨ _))
  | .macOff => inferInstanceAs (Decidable (_ = _))
  | .readPacket _ _ | .dataAckRead _ | .dataWaitOver | .timerInterrupt | .sendTimeoutProcess
  | .macOn | .setLppNewConfig _ => inferInstanceAs (Decidable True)

/-- A unicast is in the buffer. -/
def holdsUnicast (s : LppNew) : Bool := s.buffer.valid && !s.buffer.isBroadcast

/-- The invariant. -/
structure Inv (s : LppNew) : Prop where
  owed : owes s.events = some s.holdsUnicast
  comes : s.buffer.valid = true → s.tbcctl2 = true ∨ s.polled = true ∨ s.waiting = true
  waiting : s.waiting = true → s.holdsUnicast = true

/-- The buffer is empty at first, and nothing is owed. -/
theorem inv_init (config : Config) : Inv (init config) where
  owed := rfl
  comes h := Bool.noConfusion h
  waiting h := Bool.noConfusion h

/-- The invariant with an empty buffer. -/
theorem Inv.of_empty {s : LppNew} (howed : owes s.events = some false)
    (hvalid : s.buffer.valid = false) (hwaiting : s.waiting = false) : Inv s where
  owed := by simpa [holdsUnicast, hvalid] using howed
  comes h := by simp [hvalid] at h
  waiting h := by simp [hwaiting] at h

/-! ### The packet leaves the buffer -/

/-- `remove_packet_from_buffer` completes a unicast, and nothing else. -/
theorem removePacketFromBuffer_events (s : LppNew) :
    (removePacketFromBuffer s).events =
      if s.buffer.isBroadcast then s.events else s.events ++ [.complete] := by
  simp only [removePacketFromBuffer]
  cases s.buffer.isBroadcast <;> rfl

/-- The buffer is empty then. -/
theorem removePacketFromBuffer_valid (s : LppNew) :
    (removePacketFromBuffer s).buffer.valid = false := by
  simp only [removePacketFromBuffer]
  split <;> rfl

/-- The removal does not forget whether the packet was a broadcast. -/
theorem removePacketFromBuffer_isBroadcast (s : LppNew) :
    (removePacketFromBuffer s).buffer.isBroadcast = s.buffer.isBroadcast := by
  simp only [removePacketFromBuffer]
  split <;> rfl

/-- It does not end the wait of `send_data_packet`. -/
theorem removePacketFromBuffer_waiting (s : LppNew) :
    (removePacketFromBuffer s).waiting = s.waiting := by
  simp only [removePacketFromBuffer]
  split <;> rfl

/-- A packet leaves the buffer, and a completion that is owed is made. -/
theorem Inv.remove {s : LppNew} (howed : owes s.events = some s.holdsUnicast)
    (hvalid : s.buffer.valid = true) (hwaiting : s.waiting = false) :
    Inv (removePacketFromBuffer s) := by
  apply Inv.of_empty
  · rw [removePacketFromBuffer_events]
    cases hbroadcast : s.buffer.isBroadcast with
    | true => simpa [holdsUnicast, hbroadcast] using howed
    | false =>
        have hunicast : owes s.events = some true := by
          simpa [holdsUnicast, hvalid, hbroadcast] using howed
        simpa using Handoff.owes_complete hunicast
  · exact removePacketFromBuffer_valid s
  · rw [removePacketFromBuffer_waiting, hwaiting]

/-- The test of `valid` before the removal: without a packet, nothing is owed. -/
theorem Inv.removeIfValid {s : LppNew} (howed : owes s.events = some s.holdsUnicast)
    (hwaiting : s.waiting = false) :
    Inv (if s.buffer.valid then removePacketFromBuffer s else s) := by
  cases hvalid : s.buffer.valid with
  | true => exact Inv.remove howed hvalid hwaiting
  | false => exact Inv.of_empty (by simpa [holdsUnicast, hvalid] using howed) hvalid hwaiting

/-! ### A packet is handed over -/

/-- A packet goes into the buffer. The record says whether it is a unicast. -/
theorem Inv.fill {s : LppNew} {pb : Packetbuf} (self : RimeAddr) (tbr : UInt16)
    (howed : owes s.events = some !rimeaddrCmp (pb.addr .receiver) rimeaddrNull)
    (hwaiting : s.waiting = false) : Inv (fillBuffer self s pb tbr) where
  owed := by simpa [fillBuffer, holdsUnicast] using howed
  comes _ := .inl rfl
  waiting h := by
    have h' : s.waiting = true := h
    simp [hwaiting] at h'

/-- A broadcast is discarded, or goes into the empty buffer. -/
theorem hand_broadcast {self : RimeAddr} {s : LppNew} {pb : Packetbuf} {tbr : UInt16}
    (hbroadcast : rimeaddrCmp (pb.addr .receiver) rimeaddrNull = true) (hon : s.isOn = true) :
    hand self s pb tbr = if s.buffer.valid then s else fillBuffer self s pb tbr := by
  simp [hand, sendPacket, hbroadcast, hon]

/-- A unicast is completed at once, or goes into the buffer. A broadcast in the buffer makes
place for it. -/
theorem hand_unicast {self : RimeAddr} {s : LppNew} {pb : Packetbuf} {tbr : UInt16}
    (hunicast : rimeaddrCmp (pb.addr .receiver) rimeaddrNull = false) :
    hand self s pb tbr =
      if s.isOn then
        fillBuffer self
          (if s.buffer.valid && s.buffer.isBroadcast then removePacketFromBuffer (request s)
            else request s) pb tbr
      else postSend (request s) := by
  cases hon : s.isOn <;> simp [hand, sendPacket, request, hunicast, hon]

/-- A broadcast is handed over with the MAC on: nothing is recorded. -/
theorem Inv.handBroadcast {s : LppNew} (h : Inv s) {self : RimeAddr} {pb : Packetbuf}
    {tbr : UInt16} (hwaiting : s.waiting = false)
    (hbroadcast : rimeaddrCmp (pb.addr .receiver) rimeaddrNull = true) (hon : s.isOn = true) :
    Inv (hand self s pb tbr) := by
  rw [hand_broadcast hbroadcast hon]
  cases hvalid : s.buffer.valid with
  | true => exact h
  | false =>
      have howed := h.owed
      simp only [holdsUnicast, hvalid] at howed
      exact Inv.fill self tbr (by rw [hbroadcast]; exact howed) hwaiting

/-- A unicast is handed over while none is outstanding. -/
theorem Inv.handUnicast {s : LppNew} (h : Inv s) {self : RimeAddr} {pb : Packetbuf}
    {tbr : UInt16} (hwaiting : s.waiting = false)
    (hunicast : rimeaddrCmp (pb.addr .receiver) rimeaddrNull = false)
    (hfree : Handoff.lastIsRequest s.events = false) : Inv (hand self s pb tbr) := by
  have hholds : s.holdsUnicast = false := by
    rw [← Handoff.owes_eq_lastIsRequest h.owed, hfree]
  have hrequest : owes (s.events ++ [.request]) = some true :=
    Handoff.owes_request (hholds ▸ h.owed)
  rw [hand_unicast hunicast]
  cases hon : s.isOn with
  | false =>
      -- The MAC is off: the unicast is completed before `send_packet` returns.
      have hcomplete := Handoff.owes_complete hrequest
      simp only [Bool.false_eq_true, if_false]
      exact ⟨by rw [postSend]; exact hholds ▸ hcomplete, h.comes, h.waiting⟩
  | true =>
      simp only [if_true]
      split
      · rename_i hdisplaced
        have hbroadcast : (request s).buffer.isBroadcast = true :=
          (Bool.and_eq_true_iff.mp hdisplaced).2
        apply Inv.fill
        · rw [removePacketFromBuffer_events, if_pos hbroadcast, hunicast]
          exact hrequest
        · rw [removePacketFromBuffer_waiting]
          exact hwaiting
      · exact Inv.fill self tbr (by rw [hunicast]; exact hrequest) hwaiting

/-- `send_packet` gets a packet. -/
theorem Inv.hand {s : LppNew} (h : Inv s) {self : RimeAddr} {pb : Packetbuf} {tbr : UInt16}
    (hwaiting : s.waiting = false) (hmay : mayHand s pb = true)
    (horderly : s.isOn = true ∨ pb.addr .receiver ≠ rimeaddrNull) :
    Inv (hand self s pb tbr) := by
  cases hreceiver : rimeaddrCmp (pb.addr .receiver) rimeaddrNull with
  | true =>
      have hnull : pb.addr .receiver = rimeaddrNull := by simpa using hreceiver
      exact h.handBroadcast hwaiting hreceiver (horderly.resolve_right fun hne => hne hnull)
  | false =>
      have hfree : Handoff.lastIsRequest s.events = false := by
        simpa [mayHand, hreceiver] using hmay
      exact h.handUnicast hwaiting hreceiver hfree

/-! ### The other steps -/

/-- A probe is answered: a broadcast stays, and the loop begins for a unicast. -/
theorem Inv.sendDataPacket {s : LppNew} (h : Inv s) (hvalid : s.buffer.valid = true)
    (now : UInt16) : Inv (sendDataPacket s now) := by
  simp only [LppNew.sendDataPacket]
  cases hbroadcast : s.buffer.isBroadcast with
  | true => exact ⟨h.owed, h.comes, h.waiting⟩
  | false =>
      have hholds : s.holdsUnicast = true := by simp [holdsUnicast, hvalid, hbroadcast]
      exact ⟨h.owed, fun _ => .inr (.inr rfl), fun _ => hholds⟩

/-- `read_packet`. -/
theorem Inv.readPacket {s : LppNew} (h : Inv s) (self : RimeAddr) (f : Frame) (now : UInt16) :
    Inv (readPacket self s f now) := by
  unfold LppNew.readPacket
  split
  · exact h
  · split
    · split
      · rename_i hanswers
        exact h.sendDataPacket (Bool.and_eq_true_iff.mp hanswers).1 now
      · exact h
    · split
      · exact ⟨h.owed, h.comes, h.waiting⟩
      · exact h
    · exact h

/-- A step that follows the rules keeps the invariant. -/
theorem Inv.step {self : RimeAddr} {config : Config} {s t : LppNew} {a : Action} (h : Inv s)
    (horderly : Orderly s a) (hst : (machine self config).step s a = some t) : Inv t := by
  cases a with
  | sendPacket pb tbr =>
      obtain ⟨hgate, ⟨⟩⟩ := Option.ite_none_right_eq_some.mp hst
      have hwaiting : s.waiting = false ∧ mayHand s pb = true := by simpa using hgate
      exact h.hand hwaiting.1 hwaiting.2 horderly
  | readPacket f now =>
      obtain ⟨hgate, ⟨⟩⟩ := Option.ite_none_right_eq_some.mp hst
      exact h.readPacket self f now
  | dataAckRead f =>
      obtain ⟨hgate, ⟨⟩⟩ := Option.ite_none_right_eq_some.mp hst
      unfold dataAckRead
      split
      · exact ⟨h.owed, h.comes, h.waiting⟩
      · exact h
  | dataWaitOver =>
      obtain ⟨hgate, ⟨⟩⟩ := Option.ite_none_right_eq_some.mp hst
      -- While the node waits for the data acknowledgement the buffer is valid.
      have hvalid : s.buffer.valid = true := (Bool.and_eq_true_iff.mp (h.waiting hgate)).1
      exact Inv.remove h.owed hvalid rfl
  | timerInterrupt =>
      obtain ⟨hgate, ⟨⟩⟩ := Option.ite_none_right_eq_some.mp hst
      exact ⟨h.owed, fun _ => .inr (.inl rfl), h.waiting⟩
  | sendTimeoutProcess =>
      obtain ⟨hgate, ⟨⟩⟩ := Option.ite_none_right_eq_some.mp hst
      have hwaiting : s.polled = true ∧ s.waiting = false := by simpa using hgate
      exact Inv.removeIfValid h.owed hwaiting.2
  | macOn =>
      cases hst
      exact ⟨h.owed, h.comes, h.waiting⟩
  | macOff =>
      cases hst
      exact Inv.removeIfValid h.owed horderly
  | setLppNewConfig c =>
      obtain ⟨hgate, ⟨⟩⟩ := Option.ite_none_right_eq_some.mp hst
      have hwaiting : s.waiting = false := by simpa using hgate
      -- A new configuration switches the MAC off first.
      have hoff : Inv (LppNew.macOff s) := Inv.removeIfValid h.owed hwaiting
      exact ⟨hoff.owed, hoff.comes, hoff.waiting⟩

/-! ### The main result -/

/-- A configuration. -/
def sampleConfig : Config := ⟨256, 16384, 32767⟩

/-- When `mac_off` interrupts the wait for the DATA_ACK, the unicast is completed twice. -/
theorem twice_of_macOff {s : LppNew} (h : Inv s) (hwaiting : s.waiting = true) :
    owes (dataWaitOver (macOff s)).events = none := by
  have hpair : s.buffer.valid = true ∧ s.buffer.isBroadcast = false := by
    simpa [holdsUnicast] using h.waiting hwaiting
  have howed : owes s.events = some true := by
    rw [h.owed, h.waiting hwaiting]
  have honce : owes (macOff s).events = some false := by
    simp only [macOff, hpair.1, if_true, removePacketFromBuffer_events, hpair.2]
    exact Handoff.owes_complete howed
  have hkind : (macOff s).buffer.isBroadcast = false := by
    simp only [macOff, hpair.1, if_true, removePacketFromBuffer_isBroadcast, hpair.2]
  -- `send_data_packet` does not see that the buffer is empty.
  simp only [dataWaitOver, removePacketFromBuffer_events, hkind, Bool.false_eq_true, if_false]
  rw [Handoff.owes_append, honce]
  rfl

end PTunes.Mac.LppNew
