import PTunes.Mac.Network

/-!
# `PTunes.Proofs.Mac.XmacAck`: what a DATA_ACK says

A DATA_ACK names its addressee only: neither the node that accepted the packet nor the
attempt. So one that is delayed counts for a later attempt. What it does say is that some
attempt up to this one was accepted by the receiver which that attempt named. No acceptance
counts twice, because the medium makes no copies, and when nothing of an earlier attempt was
under way at the start of an attempt, the acceptance is one of this attempt (`ackSound`).

`NodeInv` is the invariant, from the view of one node. The data packets under way from the
node carry their attempt's receiver (`DataOk`). The DATA_ACKs under way to it, the one that
ended the wait and those of the successes are tickets: each stands for another acceptance
(`tickets`).
-/

set_option autoImplicit false

namespace PTunes.Mac

open PTunes.Rime (RimeAddr rimeaddrCmp rimeaddrNull packetbufSize)

/-! ### The invariant -/

/-- The acceptance that a frame acknowledges to `x`. -/
def ackFor (x : RimeAddr) (f : Frame) : Option Nat :=
  if f.hdr.type = .dataAck ∧ f.hdr.receiver = x then some f.note else none

/-- The acceptance that ended an attempt. -/
def ackIn (x : RimeAddr) (endedBy : Option Frame) : Option Nat := endedBy.bind (ackFor x)

/-- A frame that acknowledges is a DATA_ACK with the address of `x`, and it notes the acceptance. -/
theorem ackFor_eq_some {x : RimeAddr} {f : Frame} {k : Nat} (h : ackFor x f = some k) :
    f.hdr.type = .dataAck ∧ f.hdr.receiver = x ∧ f.note = k := by
  unfold ackFor at h
  split at h
  · rename_i hf
    cases h
    exact ⟨hf.1, hf.2, rfl⟩
  · cases h

/-- A frame that acknowledges something to `x` concerns `x`. -/
theorem concerns_of_ackFor {x : RimeAddr} {f : Frame} {k : Nat} (h : ackFor x f = some k) :
    f.concerns x = true := by
  obtain ⟨ht, hr, -⟩ := ackFor_eq_some h
  simp [Frame.concerns, ht, hr]

/-- The other frames acknowledge nothing to `x`. -/
theorem ackFor_of_not_concerns {x : RimeAddr} {f : Frame} (h : f.concerns x = false) :
    ackFor x f = none := by
  cases hf : ackFor x f with
  | none => rfl
  | some k =>
      rw [concerns_of_ackFor hf] at h
      cases h

namespace XmacNode

/-- The current attempt began with nothing of an earlier attempt under way. -/
def CleanNow (n : XmacNode) : Prop := n.pc ≠ .idle ∧ n.clean = true

/-- A data packet is from the attempt that it notes. -/
def DataOk (n : XmacNode) (f : Frame) : Prop :=
  n.attempts[f.note]? = some f.hdr.receiver ∧
  (n.CleanNow → f.note + 1 = n.attempts.length)

/-- The acceptance `k` is one of an attempt of `x`, by the receiver that it named. -/
def AckOk (accepted : List Acceptance) (x : RimeAddr) (n : XmacNode) (k : Nat) : Prop :=
  ∃ a, accepted[k]? = some a ∧ a.sender = x ∧ n.attempts[a.attempt]? = some a.node ∧
    (n.CleanNow → a.attempt + 1 = n.attempts.length)

/-- What a success says. -/
def SuccessOk (accepted : List Acceptance) (x : RimeAddr) (attempts : List RimeAddr)
    (r : Success) : Prop :=
  (r.wasOn = true → r.endedBy.isSome) ∧
  ∀ f, r.endedBy = some f → f.hdr.type = .dataAck → f.hdr.receiver = x ∧
    ∃ a, accepted[f.note]? = some a ∧ a.sender = x ∧ a.attempt ≤ r.attempt ∧
      attempts[a.attempt]? = some a.node ∧ (r.clean = true → a.attempt = r.attempt)

/-- The acceptances that have been acknowledged to `x`: under way, in the current attempt, and
in the successes. -/
def tickets (air : Medium RimeAddr Frame) (x : RimeAddr) (n : XmacNode) : List Nat :=
  air.labels (ackFor x) x ++ (ackIn x n.endedBy).toList ++
    n.successes.filterMap fun r => ackIn x r.endedBy

/-- The invariant of the node `x`. -/
structure NodeInv (accepted : List Acceptance) (air : Medium RimeAddr Frame) (x : RimeAddr)
    (n : XmacNode) : Prop where
  current : n.pc ≠ .idle → n.attempts.getLast? = some n.conn.receiver
  data : ∀ p ∈ air, p.msg.hdr.type = .data → p.msg.hdr.sender = x → n.DataOk p.msg
  acks : ∀ p ∈ air, ∀ k, ackFor x p.msg = some k → AckOk accepted x n k
  endedAck : ∀ f, n.endedBy = some f → f.hdr.type = .dataAck →
    f.hdr.receiver = x ∧ AckOk accepted x n f.note
  /-- With the MAC on, `got_data_ack` is about the current attempt. -/
  ended : n.pc ≠ .idle → n.wasOn = true → n.gotDataAck = n.endedBy.isSome
  waiting : n.pc ≠ .idle → n.pc ≠ .returned → n.endedBy = none
  successes : ∀ r ∈ n.successes, SuccessOk accepted x n.attempts r
  nodup : (tickets air x n).Nodup
  bound : ∀ k ∈ tickets air x n, k < accepted.length

/-- `radio->read` returns the frame or nothing. -/
theorem radioRead_eq_some {bufsize : Nat} {f g : Frame} (h : radioRead bufsize f = some g) :
    g = f := by
  unfold radioRead at h
  split at h
  · exact (Option.some.inj h).symm
  · cases h

/-- In a duplicate-free list of results, each result comes from one position. -/
theorem index_eq_of_nodup_filterMap {α β : Type} {g : α → Option β} {xs : List α}
    {i j : Nat} {a b : α} {k : β} (hnodup : (xs.filterMap g).Nodup) (ha : xs[i]? = some a)
    (hb : xs[j]? = some b) (hga : g a = some k) (hgb : g b = some k) : i = j := by
  have hpair := List.pairwise_filterMap.mp hnodup
  rw [List.pairwise_iff_getElem] at hpair
  obtain ⟨hi, rfl⟩ := List.getElem?_eq_some_iff.mp ha
  obtain ⟨hj, rfl⟩ := List.getElem?_eq_some_iff.mp hb
  rcases Nat.lt_trichotomy i j with hlt | heq | hgt
  · exact absurd rfl (hpair i j hi hj hlt k hga k hgb)
  · exact heq
  · exact absurd rfl (hpair j i hj hi hgt k hgb k hga)

/-- A turn of the strobe loop sends the data packet or a frame that concerns nobody. -/
theorem strobeFrame_cases (n : XmacNode) (x : RimeAddr) :
    n.strobeFrame x = n.dataFrame x ∨ ∀ y, (n.strobeFrame x).concerns y = false := by
  unfold strobeFrame
  split
  · exact .inl rfl
  · right
    intro y
    simp [Frame.concerns, Frame.ofHdr]

variable {accepted : List Acceptance} {air air' : Medium RimeAddr Frame} {x src : RimeAddr}
  {n n' : XmacNode} {f : Frame} {nodes : List RimeAddr}

/-- An acceptance or an attempt keeps its place in the longer record. -/
theorem getElem?_append {α : Type} {xs : List α} {k : Nat} {a : α} (h : xs[k]? = some a)
    (ys : List α) : (xs ++ ys)[k]? = some a := by
  rw [List.getElem?_append_left (List.getElem?_eq_some_iff.mp h).1, h]

/-- More acceptances keep an acknowledged one. -/
theorem AckOk.append {k : Nat} (h : AckOk accepted x n k) (more : List Acceptance) :
    AckOk (accepted ++ more) x n k := by
  obtain ⟨a, ha, hs⟩ := h
  exact ⟨a, getElem?_append ha more, hs⟩

/-- More acceptances and attempts keep what a success says. -/
theorem SuccessOk.append {attempts : List RimeAddr} {r : Success}
    (h : SuccessOk accepted x attempts r) (more : List Acceptance) (later : List RimeAddr) :
    SuccessOk (accepted ++ more) x (attempts ++ later) r := by
  refine ⟨h.1, ?_⟩
  intro f hf ht
  obtain ⟨hr, a, ha, hs, hle, hn, hclean⟩ := h.2 f hf ht
  exact ⟨hr, a, getElem?_append ha more, hs, hle, getElem?_append hn later, hclean⟩

namespace NodeInv

/-- A node starts idle, with nothing under way. -/
theorem init (x : RimeAddr) : NodeInv [] [] x XmacNode.init where
  current h := absurd rfl h
  data _ h := nomatch h
  acks _ h := nomatch h
  endedAck _ h := nomatch h
  ended h := absurd rfl h
  waiting h := absurd rfl h
  successes _ h := nomatch h
  nodup := List.nodup_nil
  bound _ h := nomatch h

/-- A step of the node that keeps its records. -/
theorem congr (h : NodeInv accepted air x n) (hattempts : n'.attempts = n.attempts)
    (hended : n'.endedBy = n.endedBy) (hsucc : n'.successes = n.successes)
    (hbusy : n'.pc ≠ .idle → n.pc ≠ .idle ∧ n'.conn.receiver = n.conn.receiver ∧
      n'.clean = n.clean ∧ n'.wasOn = n.wasOn ∧ n'.gotDataAck = n.gotDataAck ∧
      (n'.pc ≠ .returned → n.pc ≠ .returned)) :
    NodeInv accepted air x n' := by
  have hclean : n'.CleanNow → n.CleanNow := by
    rintro ⟨hpc, hc⟩
    obtain ⟨hpc', -, hcl, -⟩ := hbusy hpc
    exact ⟨hpc', hcl ▸ hc⟩
  have hack : ∀ k, AckOk accepted x n k → AckOk accepted x n' k := by
    rintro k ⟨a, ha, hs, hn, hlen⟩
    refine ⟨a, ha, hs, ?_, ?_⟩
    · rw [hattempts]
      exact hn
    · rw [hattempts]
      exact fun hc => hlen (hclean hc)
  -- What the node holds of the acknowledgements is the same.
  have htickets : tickets air x n' = tickets air x n := by
    unfold tickets
    rw [hended, hsucc]
  constructor
  · intro hpc
    -- A node that is busy afterwards was busy before, in the same attempt.
    obtain ⟨hpc', hr, -⟩ := hbusy hpc
    rw [hattempts, hr]
    exact h.current hpc'
  · intro p hp ht hs
    obtain ⟨hn, hlen⟩ := h.data p hp ht hs
    unfold DataOk
    rw [hattempts]
    exact ⟨hn, fun hc => hlen (hclean hc)⟩
  · intro p hp k hk
    exact hack k (h.acks p hp k hk)
  · intro f hf ht
    rw [hended] at hf
    obtain ⟨hr, hok⟩ := h.endedAck f hf ht
    exact ⟨hr, hack f.note hok⟩
  · intro hpc hon
    obtain ⟨hpc', -, -, hw, hg, -⟩ := hbusy hpc
    rw [hg, hended]
    exact h.ended hpc' (hw ▸ hon)
  · intro hpc hret
    obtain ⟨hpc', -, -, -, -, hw⟩ := hbusy hpc
    rw [hended]
    exact h.waiting hpc' (hw hret)
  · rw [hattempts, hsucc]
    exact h.successes
  · rw [htickets]
    exact h.nodup
  · rw [htickets]
    exact h.bound

/-- Frames are taken from the medium. -/
theorem shrink (h : NodeInv accepted air x n) (hsub : air' ⊆ air)
    (hlabels : (air'.labels (ackFor x) x).Sublist (air.labels (ackFor x) x)) :
    NodeInv accepted air' x n := by
  have htickets : (tickets air' x n).Sublist (tickets air x n) :=
    (hlabels.append_right _).append_right _
  exact
    { current := h.current
      data := fun p hp => h.data p (hsub hp)
      acks := fun p hp => h.acks p (hsub hp)
      endedAck := h.endedAck
      ended := h.ended
      waiting := h.waiting
      successes := h.successes
      nodup := h.nodup.sublist htickets
      bound := fun k hk => h.bound k (htickets.subset hk) }

/-- A frame is sent that the node has no invariant for. -/
theorem transmit (h : NodeInv accepted air x n) (hf : f.concerns x = false) :
    NodeInv accepted (air.transmit nodes src f) x n := by
  have hnone := ackFor_of_not_concerns hf
  have htickets : tickets (air.transmit nodes src f) x n = tickets air x n := by
    unfold tickets
    rw [Medium.labels_transmit_of_none _ hnone]
  constructor
  · exact h.current
  · intro p hp ht hs
    rcases Medium.mem_transmit.mp hp with hp | ⟨-, -, rfl⟩
    · exact h.data p hp ht hs
    · simp [Frame.concerns, ht, hs] at hf
  · intro p hp k hk
    rcases Medium.mem_transmit.mp hp with hp | ⟨-, -, rfl⟩
    · exact h.acks p hp k hk
    · rw [hnone] at hk
      cases hk
  · exact h.endedAck
  · exact h.ended
  · exact h.waiting
  · exact h.successes
  · rw [htickets]
    exact h.nodup
  · rw [htickets]
    exact h.bound

/-- The node sends a data packet. -/
theorem transmitData (h : NodeInv accepted air x n) (hpc : n.pc ≠ .idle) :
    NodeInv accepted (air.transmit nodes x (n.dataFrame x)) x n := by
  have hnone : ackFor x (n.dataFrame x) = none := by simp [ackFor, dataFrame]
  have htickets : tickets (air.transmit nodes x (n.dataFrame x)) x n = tickets air x n := by
    unfold tickets
    rw [Medium.labels_transmit_of_none _ hnone]
  constructor
  · exact h.current
  · intro p hp ht hs
    rcases Medium.mem_transmit.mp hp with hp | ⟨-, -, hm⟩
    · exact h.data p hp ht hs
    · -- The packet notes the current attempt, which is the last one.
      have hlast := h.current hpc
      have hlen : 0 < n.attempts.length := by
        cases hn : n.attempts with
        | nil =>
            rw [hn] at hlast
            cases hlast
        | cons y ys => simp
      rw [hm]
      constructor
      · rw [List.getLast?_eq_getElem?] at hlast
        exact hlast
      · intro _
        show n.attempts.length - 1 + 1 = n.attempts.length
        omega
  · intro p hp k hk
    rcases Medium.mem_transmit.mp hp with hp | ⟨-, -, hm⟩
    · exact h.acks p hp k hk
    · rw [hm, hnone] at hk
      cases hk
  · exact h.endedAck
  · exact h.ended
  · exact h.waiting
  · exact h.successes
  · rw [htickets]
    exact h.nodup
  · rw [htickets]
    exact h.bound

/-- A step of `send_packet` between its loops keeps the records. -/
theorem move (h : NodeInv accepted air x n) (hpc : n.pc ≠ .idle) (hret : n.pc ≠ .returned)
    (pc : SendPc) (hs : Handshakes) :
    NodeInv accepted air x { n with pc := pc, handshakes := hs } :=
  h.congr rfl rfl rfl fun _ => ⟨hpc, rfl, rfl, rfl, rfl, fun _ => hret⟩

/-- The end of the strobes. -/
theorem strobesOver (h : NodeInv accepted air x n) (hpc : n.pc ≠ .idle)
    (hret : n.pc ≠ .returned) (got : Bool) : NodeInv accepted air x (n.strobesOver got) := by
  unfold XmacNode.strobesOver
  split
  · exact h.move hpc hret .returned n.handshakes
  · exact h.move hpc hret _ _

/-- A data packet is accepted somewhere. -/
theorem accept (h : NodeInv accepted air x n) (a : Acceptance) :
    NodeInv (accepted ++ [a]) air x n where
  current := h.current
  data := h.data
  acks p hp k hk := (h.acks p hp k hk).append [a]
  endedAck f hf ht := ⟨(h.endedAck f hf ht).1, (h.endedAck f hf ht).2.append [a]⟩
  ended := h.ended
  waiting := h.waiting
  successes r hr := by simpa using (h.successes r hr).append [a] []
  nodup := h.nodup
  bound k hk := by
    have hlt := h.bound k hk
    rw [List.length_append]
    omega

/-- A data packet is accepted somewhere, and acknowledged. -/
theorem acceptAck (h : NodeInv accepted air x n) (hnodes : nodes.Nodup) {a : Acceptance}
    (hdata : a.sender = x → n.attempts[a.attempt]? = some a.node ∧
      (n.CleanNow → a.attempt + 1 = n.attempts.length)) :
    NodeInv (accepted ++ [a])
      (air.transmit nodes src (ackFrame .dataAck a.sender accepted.length)) x n := by
  have hacc := h.accept a
  by_cases hs : a.sender = x
  · have hok : AckOk (accepted ++ [a]) x n accepted.length := by
      obtain ⟨hn, hlen⟩ := hdata hs
      exact ⟨a, by simp, hs, hn, hlen⟩
    have hack : ackFor x (ackFrame .dataAck a.sender accepted.length) =
        some accepted.length := by
      simp [ackFor, ackFrame, Frame.ofHdr, hs]
    -- The number of the new acceptance is above all that are in use.
    have hfresh : accepted.length ∉ tickets air x n := by
      intro hmem
      exact absurd (h.bound _ hmem) (Nat.lt_irrefl _)
    have htickets : ∃ new, (∀ k ∈ new, k = accepted.length) ∧ new.Nodup ∧
        (tickets (air.transmit nodes src (ackFrame .dataAck a.sender accepted.length)) x n).Perm
          (new ++ tickets air x n) := by
      unfold tickets
      rw [Medium.labels_transmit _ hnodes, hack]
      split
      · refine ⟨[accepted.length], by simp, List.nodup_singleton _, ?_⟩
        simp only [Option.toList_some, List.append_assoc]
        exact List.perm_append_comm_assoc _ _ _
      · exact ⟨[], by simp, List.nodup_nil, by simp⟩
    -- It adds one ticket, or none when the node is not among those that hear it.
    obtain ⟨new, hnew, hnewNodup, hperm⟩ := htickets
    constructor
    · exact h.current
    · intro p hp ht hsender
      rcases Medium.mem_transmit.mp hp with hp | ⟨-, -, hm⟩
      · exact h.data p hp ht hsender
      · rw [hm] at ht
        cases ht
    · intro p hp k hk
      rcases Medium.mem_transmit.mp hp with hp | ⟨-, -, hm⟩
      · exact hacc.acks p hp k hk
      · rw [hm, hack] at hk
        cases hk
        exact hok
    · exact hacc.endedAck
    · exact h.ended
    · exact h.waiting
    · exact hacc.successes
    · rw [hperm.nodup_iff, List.nodup_append]
      refine ⟨hnewNodup, h.nodup, ?_⟩
      rintro k hk _ hk' rfl
      rw [hnew k hk] at hk'
      exact hfresh hk'
    · intro k hk
      rcases List.mem_append.mp (hperm.subset hk) with hk | hk
      · rw [hnew k hk, List.length_append]
        simp
      · exact hacc.bound k hk
  · -- The acknowledgement is for another node.
    apply hacc.transmit
    simp [Frame.concerns, ackFrame, Frame.ofHdr, hs]

/-- A new attempt. -/
theorem sendPacket (h : NodeInv accepted air x n) {clean : Bool}
    (hclean : clean = true → ∀ p ∈ air, p.msg.concerns x = false) :
    NodeInv accepted air x (n.sendPacket clean) := by
  obtain ⟨hattempts, hended, hsucc, hc, hlast⟩ :
      (n.sendPacket clean).attempts = n.attempts ++ [n.conn.receiver] ∧
      (n.sendPacket clean).endedBy = none ∧ (n.sendPacket clean).successes = n.successes ∧
      (n.sendPacket clean).clean = clean ∧
      (n.sendPacket clean).conn = n.conn := by
    unfold XmacNode.sendPacket
    dsimp only
    split <;> exact ⟨rfl, rfl, rfl, rfl, rfl⟩
  have htickets : (tickets air x (n.sendPacket clean)).Sublist (tickets air x n) := by
    unfold tickets
    rw [hended, hsucc]
    refine List.Sublist.append_right ?_ _
    exact (List.Sublist.refl _).append (List.nil_sublist _)
  -- A clean attempt starts with nothing on the air that concerns the node.
  have hnothing : (n.sendPacket clean).CleanNow → ∀ p ∈ air, p.msg.concerns x = false := by
    rintro ⟨-, hcl⟩
    exact hclean (hc ▸ hcl)
  constructor
  · intro _
    rw [hattempts, hlast]
    simp
  · intro p hp ht hs
    obtain ⟨hn, -⟩ := h.data p hp ht hs
    constructor
    · rw [hattempts]
      exact getElem?_append hn _
    · intro hcl
      have hno := hnothing hcl p hp
      simp [Frame.concerns, ht, hs] at hno
  · intro p hp k hk
    obtain ⟨a, ha, hs, hn, -⟩ := h.acks p hp k hk
    refine ⟨a, ha, hs, ?_, ?_⟩
    · rw [hattempts]
      exact getElem?_append hn _
    · intro hcl
      have hno := hnothing hcl p hp
      rw [concerns_of_ackFor hk] at hno
      cases hno
  · intro f hf
    rw [hended] at hf
    cases hf
  · intro _ hon
    -- An attempt with the MAC on starts without an acknowledgement.
    have hgot : (n.sendPacket clean).gotDataAck = false := by
      unfold XmacNode.sendPacket at hon ⊢
      dsimp only at hon ⊢
      split at hon
      · rename_i hoff
        simp only at hon
        rw [hon] at hoff
        cases hoff
      · rename_i hoff
        rw [if_neg hoff]
    rw [hgot, hended]
    rfl
  · intro _ _
    exact hended
  · intro r hr
    rw [hsucc] at hr
    have hok := (h.successes r hr).append [] [n.conn.receiver]
    rw [List.append_nil] at hok
    rw [hattempts]
    exact hok
  · exact h.nodup.sublist htickets
  · intro k hk
    exact h.bound k (htickets.subset hk)

/-- After a transmission the node is idle: the frame that ended it is in the new results, or
forgotten. -/
theorem to_idle (h : NodeInv accepted air x n) (hattempts : n'.attempts = n.attempts)
    (hidle : n'.pc = .idle) (hended : n'.endedBy = none)
    (hsucc : ∀ r ∈ n'.successes, SuccessOk accepted x n.attempts r)
    (hnodup : (tickets air x n').Nodup) (hsub : tickets air x n' ⊆ tickets air x n) :
    NodeInv accepted air x n' := by
  have hclean : ¬ n'.CleanNow := fun hcl => hcl.1 hidle
  constructor
  · intro hpc
    exact absurd hidle hpc
  · intro p hp ht hs
    unfold DataOk
    rw [hattempts]
    exact ⟨(h.data p hp ht hs).1, fun hcl => absurd hcl hclean⟩
  · intro p hp k hk
    obtain ⟨a, ha, hs, hn, -⟩ := h.acks p hp k hk
    exact ⟨a, ha, hs, hattempts ▸ hn, fun hcl => absurd hcl hclean⟩
  · intro f hf
    rw [hended] at hf
    cases hf
  · intro hpc
    exact absurd hidle hpc
  · intro hpc
    exact absurd hidle hpc
  · rw [hattempts]
    exact hsucc
  · exact hnodup
  · intro k hk
    exact h.bound k (hsub hk)

/-- `unicast_send` has returned. -/
theorem sendReturned (h : NodeInv accepted air x n) (hpc : n.pc ≠ .idle) :
    NodeInv accepted air x n.sendReturned := by
  unfold XmacNode.sendReturned
  split
  · rename_i hgot
    have htickets : (tickets air x { n with
        pc := .idle
        conn := Rime.Relunicast.finish n.conn
        endedBy := none
        successes := n.successes ++
          [⟨n.attempts.length - 1, n.wasOn, n.clean, n.endedBy⟩] }).Perm
        (tickets air x n) := by
      unfold tickets
      simp only [ackIn, List.filterMap_append, Option.bind_none, Option.toList_none,
        List.append_nil, List.append_assoc]
      apply List.Perm.append_left
      refine List.perm_append_comm.trans ?_
      apply List.Perm.append_right
      cases hb : n.endedBy.bind (ackFor x) <;> simp [hb]
    refine h.to_idle rfl rfl rfl ?_ (htickets.nodup_iff.mpr h.nodup) htickets.subset
    intro r hr
    rcases List.mem_append.mp hr with hr | hr
    · exact h.successes r hr
    · rw [List.mem_singleton.mp hr]
      constructor
      · intro hon
        show n.endedBy.isSome = true
        rw [← h.ended hpc hon]
        exact hgot
      · intro f hf ht
        obtain ⟨hrecv, a, ha, hs, hn, hlen⟩ := h.endedAck f hf ht
        have hlt := (List.getElem?_eq_some_iff.mp hn).1
        refine ⟨hrecv, a, ha, hs, ?_, hn, ?_⟩
        · show a.attempt ≤ n.attempts.length - 1
          omega
        · intro hcl
          -- In a clean attempt the acknowledgement is of this attempt, which is the last.
          have hlast := hlen ⟨hpc, hcl⟩
          show a.attempt = n.attempts.length - 1
          omega
  · have hsub : (tickets air x { n with
        pc := .idle
        conn := { n.conn with timer := true }
        endedBy := none }).Sublist (tickets air x n) := by
      unfold tickets
      refine List.Sublist.append_right ?_ _
      exact (List.Sublist.refl _).append (List.nil_sublist _)
    exact h.to_idle rfl rfl rfl h.successes (h.nodup.sublist hsub) hsub.subset

/-- A frame that ends the wait for the DATA_ACK moves from the medium to the node. -/
theorem endedBy (h : NodeInv accepted air x n) {k : Nat} (hpc : n.pc ≠ .idle)
    (hret : n.pc ≠ .returned) (hrecv : air.receive x k = some (f, air'))
    (haddr : f.hdr.receiver = x) (hs : Handshakes) :
    NodeInv accepted air' x { n with
      pc := .returned, gotDataAck := true, endedBy := some f, handshakes := hs } := by
  have hsub : air' ⊆ air := Medium.subset_of_receive hrecv
  have hmem : ⟨x, f⟩ ∈ air := Medium.mem_of_receive hrecv
  have htickets : (tickets air' x { n with
      pc := .returned, gotDataAck := true, endedBy := some f, handshakes := hs }).Perm
      (tickets air x n) := by
    -- The ticket moves from the air to the node.
    have hperm := Medium.labels_receive (ackFor x) hrecv
    unfold tickets
    rw [h.waiting hpc hret]
    apply List.Perm.append_right
    simp only [ackIn, Option.bind_some, Option.bind_none, Option.toList_none, List.append_nil]
    exact (List.perm_append_comm.trans hperm.symm)
  have hacks : ∀ j, AckOk accepted x n j → AckOk accepted x { n with
      pc := .returned, gotDataAck := true, endedBy := some f, handshakes := hs } j := by
    rintro j ⟨a, ha, hsender, hn, hlen⟩
    exact ⟨a, ha, hsender, hn, fun hcl => hlen ⟨hpc, hcl.2⟩⟩
  constructor
  · intro _
    exact h.current hpc
  · intro p hp ht hsender
    obtain ⟨hn, hlen⟩ := h.data p (hsub hp) ht hsender
    exact ⟨hn, fun hcl => hlen ⟨hpc, hcl.2⟩⟩
  · intro p hp j hj
    exact hacks j (h.acks p (hsub hp) j hj)
  · intro g hg ht
    cases hg
    exact ⟨haddr, hacks f.note (h.acks ⟨x, f⟩ hmem f.note (by simp [ackFor, ht, haddr]))⟩
  · intro _ _
    rfl
  · intro _ hnot
    exact absurd rfl hnot
  · exact h.successes
  · rw [htickets.nodup_iff]
    exact h.nodup
  · intro j hj
    exact h.bound j (htickets.subset hj)

end NodeInv

end XmacNode

/-! ### The network -/

namespace XmacNetwork

open XmacNode

variable {C : XmacConf} {s t : XmacNetwork} {a : XmacAction} {node : RimeAddr}

/-- The invariant: that of each node. -/
def Inv (s : XmacNetwork) : Prop := ∀ x, NodeInv s.accepted s.air x (s.nodes x)

/-- The network starts with nothing on the medium and every node idle. -/
theorem inv_init : Inv init := fun x => NodeInv.init x

/-- One node changes. -/
theorem Inv.setNode (h : Inv s) {n : XmacNode} (hn : NodeInv s.accepted s.air node n) :
    Inv (s.setNode node n) := by
  refine (Function.forall_update_iff s.nodes
    (p := fun x n => NodeInv s.accepted s.air x n)).mpr ?_
  exact ⟨hn, fun x _ => h x⟩

/-- A frame that concerns no node is sent. -/
theorem Inv.radioSend (h : Inv s) {f : Frame} (hf : ∀ x, f.concerns x = false) :
    Inv (s.radioSend C node f) :=
  fun x => (h x).transmit (hf x)

/-- A node changes and sends a data packet. -/
theorem Inv.sendData (h : Inv s) {n : XmacNode} (hn : NodeInv s.accepted s.air node n)
    (hpc : n.pc ≠ .idle) : Inv ((s.setNode node n).radioSend C node (n.dataFrame node)) := by
  intro x
  by_cases hx : x = node
  · rw [hx]
    show NodeInv _ _ node (Function.update s.nodes node n node)
    rw [Function.update_self]
    exact hn.transmitData hpc
  · apply NodeInv.transmit (h.setNode hn x)
    simp [Frame.concerns, dataFrame, Ne.symm hx]

/-- Frames are taken from the medium. -/
theorem Inv.receive (h : Inv s) {k : Nat} {f : Frame} {air : Medium RimeAddr Frame}
    (hrecv : s.air.receive node k = some (f, air)) : Inv { s with air := air } := by
  intro x
  exact (h x).shrink (Medium.subset_of_receive hrecv)
    (Medium.labels_receive_sublist (ackFor x) hrecv x)

/-- A node accepts a data packet that was under way. -/
theorem Inv.accept (h : Inv s) {f : Frame} (hacc : accepts node f = true)
    (hdata : ∀ x, f.hdr.sender = x → (s.nodes x).DataOk f) : Inv (s.accept C node f) := by
  unfold XmacNetwork.accept
  split
  · intro x
    exact (h x).accept _
  · rename_i hbroadcast
    intro x
    apply (h x).acceptAck C.nodup
    intro hs
    obtain ⟨hn, hlen⟩ := hdata x hs
    -- No broadcast, so the packet names this node.
    have hrecv : f.hdr.receiver = node := by
      simp only [accepts, Bool.and_eq_true, Bool.or_eq_true, Rime.rimeaddrCmp_iff] at hacc
      rw [Rime.rimeaddrCmp_iff] at hbroadcast
      rcases hacc.2 with hr | hr
      · exact hr
      · exact absurd hr hbroadcast
    rw [hrecv] at hn
    exact ⟨hn, hlen⟩

/-- `read_packet`. -/
theorem Inv.readPacket (h : Inv s) {f : Frame}
    (hdata : f.hdr.type = .data → ∀ x, f.hdr.sender = x → (s.nodes x).DataOk f) :
    Inv (s.readPacket C node f) := by
  unfold XmacNetwork.readPacket
  split
  · rename_i g hg
    rw [radioRead_eq_some hg]
    split
    · apply Inv.radioSend
      · apply h.setNode
        exact (h node).congr rfl rfl rfl fun hpc => ⟨hpc, rfl, rfl, rfl, rfl, id⟩
      · intro x
        simp [Frame.concerns, ackFrame, Frame.ofHdr]
    · split
      · rename_i hacc
        have htype : f.hdr.type = .data := by
          simp only [accepts, Bool.and_eq_true, decide_eq_true_eq] at hacc
          exact hacc.1
        exact h.accept hacc (hdata htype)
      · exact h
  · exact h

/-! ### The steps, one lemma for each kind

Between two attempts (`pc = .idle`) the fields of `NodeInv` that are about the current attempt say
nothing, and `congr` carries the others over. -/

/-- The flags of the timeout and of the MAC change. The invariant says nothing of them: what an
attempt has to know of `xmac_is_on` is kept in `wasOn`. -/
theorem Inv.setFlags (h : Inv s) (wasTimeout xmacIsOn : Bool) :
    Inv (s.setNode node { s.nodes node with wasTimeout := wasTimeout, xmacIsOn := xmacIsOn }) :=
  h.setNode ((h node).congr rfl rfl rfl fun hpc => ⟨hpc, rfl, rfl, rfl, rfl, id⟩)

/-- `relunicast_send` fills in the connection, and sets its timer. -/
theorem Inv.relunicastSend (h : Inv s) (hidle : (s.nodes node).pc = .idle) (receiver : RimeAddr)
    (maxRetransmissions : UInt8) (packet : List UInt8) :
    Inv (s.setNode node ((s.nodes node).relunicastSend receiver maxRetransmissions packet)) :=
  h.setNode ((h node).congr rfl rfl rfl fun hpc => absurd hidle hpc)

/-- The timer runs out, and `send` begins an attempt or gives up. When the medium holds nothing that
concerns the node, the attempt is a clean one. -/
theorem Inv.sendTimer (h : Inv s) (hidle : (s.nodes node).pc = .idle) :
    Inv (s.setNode node ((s.nodes node).send (s.isClean node))) := by
  apply h.setNode
  unfold XmacNode.send
  split
  · exact (h node).congr rfl rfl rfl fun hpc => absurd hidle hpc
  · apply NodeInv.sendPacket
    · exact (h node).congr rfl rfl rfl fun hpc => absurd hidle hpc
    · intro hclean p hp
      have hall := List.all_eq_true.mp hclean p hp
      simpa using hall

/-- A turn of the strobe loop. In a broadcast the strobes are data packets themselves. -/
theorem Inv.strobe (h : Inv s) (hpc : (s.nodes node).pc = .strobeLoop) :
    Inv ((s.setNode node { s.nodes node with pc := .strobeWait }).radioSend C node
      ((s.nodes node).strobeFrame node)) := by
  have hmoved : NodeInv s.accepted s.air node { s.nodes node with pc := .strobeWait } :=
    (h node).move (by simp [hpc]) (by simp [hpc]) .strobeWait _
  rcases strobeFrame_cases (s.nodes node) node with hf | hf
  · rw [hf]
    exact h.sendData hmoved nofun
  · exact (h.setNode hmoved).radioSend hf

/-- A frame is read in the strobe loop. A STROBE_ACK with the own address twice ends the loop. -/
theorem Inv.strobeRead (h : Inv s) (hpc : (s.nodes node).pc = .strobeWait) {k : Nat} {f : Frame}
    {air : Medium RimeAddr Frame} (hrecv : s.air.receive node k = some (f, air)) :
    Inv { s.setNode node ((s.nodes node).strobeRead node f) with air := air } := by
  have hleft := h.receive hrecv
  apply hleft.setNode
  unfold XmacNode.strobeRead
  split
  · split
    · exact (hleft node).strobesOver (by simp [hpc]) (by simp [hpc]) true
    · exact hleft node
  · exact hleft node

/-- The data packet is sent, and the wait for its DATA_ACK begins. -/
theorem Inv.dataSent (h : Inv s) (hpc : (s.nodes node).pc = .sendData) :
    Inv ((s.setNode node (s.nodes node).sendData).radioSend C node
      ((s.nodes node).dataFrame node)) := by
  have hmoved : NodeInv s.accepted s.air node (s.nodes node).sendData :=
    (h node).move (by simp [hpc]) (by simp [hpc]) .dataWait _
  exact h.sendData hmoved nofun

/-- A frame is read in the wait for the DATA_ACK. One with the own address twice ends it, and its
ticket goes from the medium to the attempt. -/
theorem Inv.dataRead (h : Inv s) (hpc : (s.nodes node).pc = .dataWait) {k : Nat} {f : Frame}
    {air : Medium RimeAddr Frame} (hrecv : s.air.receive node k = some (f, air)) :
    Inv { s.setNode node ((s.nodes node).dataRead node f) with air := air } := by
  have hleft := h.receive hrecv
  apply hleft.setNode
  unfold XmacNode.dataRead
  split
  · rename_i g hg
    rw [radioRead_eq_some hg]
    split
    · rename_i hack
      simp only [isDataAck, Bool.and_eq_true, Rime.rimeaddrCmp_iff] at hack
      exact (h node).endedBy (by simp [hpc]) (by simp [hpc]) hrecv hack.2 _
    · exact hleft node
  · exact hleft node

/-- Frames get lost. -/
theorem Inv.lose (h : Inv s) (k : Nat) : Inv { s with air := s.air.lose k } :=
  fun x => (h x).shrink (Medium.lose_subset s.air k) (Medium.labels_lose _ x s.air k)

/-- A step keeps the invariant. -/
theorem inv_step (h : Inv s) (hst : (machine C).step s a = some t) : Inv t := by
  cases a with
  | relunicastSend x receiver maxRetransmissions packet =>
      obtain ⟨hidle, ⟨⟩⟩ := Option.ite_none_right_eq_some.mp hst
      exact h.relunicastSend hidle.1 receiver maxRetransmissions packet
  | sendTimer x =>
      obtain ⟨hidle, ⟨⟩⟩ := Option.ite_none_right_eq_some.mp hst
      exact h.sendTimer hidle.1
  | strobe x =>
      obtain ⟨hpc, ⟨⟩⟩ := Option.ite_none_right_eq_some.mp hst
      exact h.strobe hpc
  | strobesOver x =>
      obtain ⟨hpc, ⟨⟩⟩ := Option.ite_none_right_eq_some.mp hst
      exact h.setNode ((h x).strobesOver (by simp [hpc]) (by simp [hpc]) false)
  | strobeRead x k =>
      obtain ⟨hpc, hst⟩ := Option.ite_none_right_eq_some.mp hst
      obtain ⟨⟨f, air⟩, hrecv, rfl⟩ := Option.map_eq_some_iff.mp hst
      exact h.strobeRead hpc.1 hrecv
  | strobeWaitOver x =>
      obtain ⟨hpc, ⟨⟩⟩ := Option.ite_none_right_eq_some.mp hst
      exact h.setNode ((h x).move (by simp [hpc]) (by simp [hpc]) .strobeLoop _)
  | sendData x =>
      obtain ⟨hpc, ⟨⟩⟩ := Option.ite_none_right_eq_some.mp hst
      exact h.dataSent hpc
  | dataRead x k =>
      obtain ⟨hpc, hst⟩ := Option.ite_none_right_eq_some.mp hst
      obtain ⟨⟨f, air⟩, hrecv, rfl⟩ := Option.map_eq_some_iff.mp hst
      exact h.dataRead hpc hrecv
  | dataWaitOver x =>
      obtain ⟨hpc, ⟨⟩⟩ := Option.ite_none_right_eq_some.mp hst
      exact h.setNode ((h x).move (by simp [hpc]) (by simp [hpc]) .returned _)
  | sendReturned x =>
      obtain ⟨hpc, ⟨⟩⟩ := Option.ite_none_right_eq_some.mp hst
      exact h.setNode ((h x).sendReturned (by simp [hpc]))
  | readPacket x k =>
      obtain ⟨_, hst⟩ := Option.ite_none_right_eq_some.mp hst
      obtain ⟨⟨f, air⟩, hrecv, rfl⟩ := Option.map_eq_some_iff.mp hst
      apply (h.receive hrecv).readPacket
      intro ht y hs
      exact (h y).data ⟨x, f⟩ (Medium.mem_of_receive hrecv) ht hs
  | powercycle x =>
      cases hst
      exact h.setFlags false (s.nodes x).xmacIsOn
  | turnOn x =>
      cases hst
      exact h.setFlags (s.nodes x).wasTimeout true
  | turnOff x =>
      cases hst
      exact h.setFlags (s.nodes x).wasTimeout false
  | lose k =>
      cases hst
      exact h.lose k

/-- What a DATA_ACK says. Every success of an attempt that began with the MAC on was ended by a
frame. If it is a DATA_ACK, it stands for an acceptance of a packet of this attempt or an
earlier one by the receiver which that attempt named, and of this attempt if nothing of an
earlier one was under way when it began. No two successes stand for the same acceptance. -/
structure AckSound (s : XmacNetwork) : Prop where
  accepted : ∀ x, ∀ r ∈ (s.nodes x).successes, r.wasOn = true →
    ∃ f, r.endedBy = some f ∧ (f.hdr.type = .dataAck →
      ∃ a, s.accepted[f.note]? = some a ∧ a.sender = x ∧ a.attempt ≤ r.attempt ∧
        (s.nodes x).attempts[a.attempt]? = some a.node ∧
        (r.clean = true → a.attempt = r.attempt))
  once : ∀ x y (i j : Nat) (r r' : Success) (f f' : Frame), (s.nodes x).successes[i]? = some r →
    (s.nodes y).successes[j]? = some r' → r.endedBy = some f → r'.endedBy = some f' →
    f.hdr.type = .dataAck → f'.hdr.type = .dataAck → f.note = f'.note → x = y ∧ i = j

/-- In every run the DATA_ACKs are sound. -/
theorem ackSound (h : (machine C).Reachable s) : AckSound s := by
  have hinv : Inv s := h.invariant Inv inv_init fun _ _ _ hi hst => inv_step hi hst
  constructor
  · intro x r hr hon
    obtain ⟨hsome, hsucc⟩ := (hinv x).successes r hr
    obtain ⟨f, hf⟩ := Option.isSome_iff_exists.mp (hsome hon)
    exact ⟨f, hf, fun ht => (hsucc f hf ht).2⟩
  · intro x y i j r r' f f' hr hr' hf hf' ht ht' hnote
    obtain ⟨hx, a, ha, hsx, -⟩ :=
      ((hinv x).successes r (List.mem_of_getElem? hr)).2 f hf ht
    obtain ⟨hy, a', ha', hsy, -⟩ :=
      ((hinv y).successes r' (List.mem_of_getElem? hr')).2 f' hf' ht'
    -- The acceptance names the sender.
    rw [hnote, ha'] at ha
    have hxy : x = y := by
      cases ha
      rw [← hsx, hsy]
    subst hxy
    refine ⟨rfl, ?_⟩
    have hnodup : ((s.nodes x).successes.filterMap fun r => ackIn x r.endedBy).Nodup :=
      (List.nodup_append.mp (hinv x).nodup).2.1
    have hk : ackIn x r.endedBy = some f.note := by simp [ackIn, ackFor, hf, ht, hx]
    have hk' : ackIn x r'.endedBy = some f.note := by
      simp [ackIn, ackFor, hf', ht', hy, hnote]
    exact index_eq_of_nodup_filterMap hnodup hr hr' hk hk'

/-! ### Sample runs -/

/-- Two nodes. -/
def sampleConf : XmacConf := ⟨[⟨1, 0⟩, ⟨2, 0⟩], by decide⟩

/-- The node 1 has a packet for the node 2, with up to 3 retransmissions. -/
def sampleStart : List XmacAction := [.relunicastSend ⟨1, 0⟩ ⟨2, 0⟩ 3 [7]]

/-- A strobe is answered, and the packet is sent and accepted. -/
def sampleAttempt : List XmacAction :=
  [.sendTimer ⟨1, 0⟩, .strobe ⟨1, 0⟩, .readPacket ⟨2, 0⟩ 0, .strobeRead ⟨1, 0⟩ 0,
    .sendData ⟨1, 0⟩, .readPacket ⟨2, 0⟩ 0]

/-- The DATA_ACK is received in time. -/
def sampleServed : List XmacAction :=
  sampleStart ++ sampleAttempt ++ [.dataRead ⟨1, 0⟩ 0, .sendReturned ⟨1, 0⟩]

/-- A success of the attempt 0, for the acceptance 0. -/
theorem ackSound_sample :
    ∃ s, (machine sampleConf).Reachable s ∧
      (s.nodes ⟨1, 0⟩).successes =
        [⟨0, true, true, some (.ofHdr ⟨.dataAck, ⟨1, 0⟩, ⟨1, 0⟩⟩ 0)⟩] ∧ AckSound s := by
  have hend : ((machine sampleConf).run sampleServed).map
      (fun s => (s.nodes ⟨1, 0⟩).successes) =
        some [⟨0, true, true, some (.ofHdr ⟨.dataAck, ⟨1, 0⟩, ⟨1, 0⟩⟩ 0)⟩] := by decide
  obtain ⟨s, hrun, hs⟩ := Machine.exists_reachable_of_run hend
  exact ⟨s, hrun, hs, ackSound hrun⟩

/-- The DATA_ACK of the attempt 0 is delayed. In the attempt 1 the receiver answers the strobe,
but the data packet is lost. Then the sender reads the delayed DATA_ACK. -/
def sampleDelayed : List XmacAction :=
  sampleStart ++ sampleAttempt ++
    [XmacAction.dataWaitOver ⟨1, 0⟩, .sendReturned ⟨1, 0⟩, .powercycle ⟨2, 0⟩,
      .sendTimer ⟨1, 0⟩, .strobe ⟨1, 0⟩, .readPacket ⟨2, 0⟩ 1, .strobeRead ⟨1, 0⟩ 1,
      .sendData ⟨1, 0⟩, .lose 1, .dataRead ⟨1, 0⟩ 0, .sendReturned ⟨1, 0⟩]

/-- The attempt 1 succeeds, although the receiver has accepted nothing in it. -/
theorem not_forall_own_attempt :
    ¬ ∀ s, (machine sampleConf).Reachable s → ∀ x, ∀ r ∈ (s.nodes x).successes,
      ∃ a ∈ s.accepted, a.sender = x ∧ a.attempt = r.attempt ∧
        (s.nodes x).attempts[r.attempt]? = some a.node := by
  intro hall
  have hend : ((machine sampleConf).run sampleDelayed).map
      (fun s => ((s.nodes ⟨1, 0⟩).successes, s.accepted)) =
        some ([⟨1, true, false, some (.ofHdr ⟨.dataAck, ⟨1, 0⟩, ⟨1, 0⟩⟩ 0)⟩],
          [⟨⟨2, 0⟩, ⟨1, 0⟩, 0, [7]⟩]) := by decide
  obtain ⟨s, hreach, hs⟩ := Machine.exists_reachable_of_run hend
  simp only [Prod.mk.injEq] at hs
  obtain ⟨hsucc, hacc⟩ := hs
  obtain ⟨a, ha, -, hattempt, -⟩ :=
    hall s hreach ⟨1, 0⟩ _ (hsucc ▸ List.mem_singleton_self _)
  rw [hacc] at ha
  rw [List.mem_singleton.mp ha] at hattempt
  revert hattempt
  decide

end XmacNetwork

end PTunes.Mac
