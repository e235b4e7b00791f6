import Mathlib.Data.List.TakeWhile
import PTunes.Mac.LppProbe
import PTunes.Proofs.Mac.LppService

/-!
# `PTunes.Proofs.Mac.LppProbe`: which packets LPP sends after a probe

After a probe from `x` the broadcasts on the queue and the unicasts to `x` should be sent. But
the first packet that is sent overwrites the header of the probe, so a unicast to `x` behind a
broadcast is not recognized. And a unicast that is sent is taken off the list and freed before
its `next` is read. `list_remove` has cleared it, so the loop is over then.

* `loop_eq`: the loop ends, and what it does. The induction is on the rest of the list, and
  nothing has been removed before.
* `readPacketProbe_lpp`: the loop does what `readProbe` says.
* `servesProbe_iff`: the packets are served as they should exactly when there is no unicast to
  `x` on the queue and none that the overwritten header selects.
-/

set_option autoImplicit false

namespace PTunes.Mac.Lpp

open PTunes.Rime
open Probing (Surroundings)

/-- The item is a broadcast. -/
def isBroadcast (s : Lpp) (i : Fin maxQueuedPackets) : Bool :=
  rimeaddrCmp (s.item i).packet.hdr.receiver rimeaddrNull

/-- The item is a unicast to `x`. -/
def isUnicastTo (s : Lpp) (x : RimeAddr) (i : Fin maxQueuedPackets) : Bool :=
  !s.isBroadcast i && rimeaddrCmp (s.item i).packet.hdr.receiver x

/-! ### Following the list -/

/-- The first item of the rest of a list comes next. -/
theorem next_append {before rest : List (Fin maxQueuedPackets)} {i : Fin maxQueuedPackets}
    (hnodup : (before ++ i :: rest).Nodup) : next (before ++ i :: rest) i = rest.head? := by
  have hbefore : ∀ j ∈ before, decide (j ≠ i) = true := by
    intro j hj
    rw [decide_eq_true_iff]
    rintro rfl
    exact (List.nodup_append.mp hnodup).2.2 j hj j List.mem_cons_self rfl
  have hdrop : (before ++ i :: rest).dropWhile (· ≠ i) = i :: rest := by
    rw [List.dropWhile_append_of_pos hbefore]
    simp
  rw [next, hdrop]
  rfl

/-- An item that is not on the list has no next one. -/
theorem next_of_notMem {l : List (Fin maxQueuedPackets)} {i : Fin maxQueuedPackets}
    (h : i ∉ l) : next l i = none := by
  have hdrop : l.dropWhile (· ≠ i) = [] := by
    refine List.dropWhile_eq_nil_iff.mpr fun j hj => ?_
    rw [decide_eq_true_iff]
    rintro rfl
    exact h hj
  rw [next, hdrop]
  rfl

/-! ### What the loop does -/

/-- The broadcasts that the loop sends on the rest of the list, and the unicast with which it
ends, when `hdr->sender` is `sender`. -/
def serve (s : Lpp) : RimeAddr → List (Fin maxQueuedPackets) →
    List (Fin maxQueuedPackets) × Option (Fin maxQueuedPackets)
  | _, [] => ([], none)
  | sender, i :: rest =>
    let hdr := (s.item i).packet.hdr
    if rimeaddrCmp hdr.receiver rimeaddrNull then
      let (broadcasts, unicast) := serve s hdr.sender rest
      (i :: broadcasts, unicast)
    else if rimeaddrCmp hdr.receiver sender then ([], some i)
    else serve s sender rest

/-- What is left of the node after the unicast. -/
def afterUnicast (e : Surroundings) (s : Lpp) : Option (Fin maxQueuedPackets) → Lpp
  | none => s
  | some i => sendUnicastToRadio e.conf (e.reaction i) s i (e.acked i)

/-- How the loop ends that goes on with the rest of the list in `p`. -/
structure Outcome (e : Surroundings) (p : Probing) (rest : List (Fin maxQueuedPackets))
    (q : Probing) : Prop where
  lpp : q.lpp = afterUnicast e p.lpp (serve p.lpp p.hdrSender rest).2
  sent : q.sent =
    p.sent ++ (serve p.lpp p.hdrSender rest).1 ++ (serve p.lpp p.hdrSender rest).2.toList
  removed : q.removed = p.removed ++ (serve p.lpp p.hdrSender rest).2.toList
  stale : q.stale = p.stale ++ (serve p.lpp p.hdrSender rest).2.toList

/-- The unicast with which the loop ends is taken off the list. -/
theorem afterUnicast_list (e : Surroundings) (s : Lpp) (i : Fin maxQueuedPackets) :
    (afterUnicast e s (some i)).queuedPacketsList = s.queuedPacketsList.erase i := by
  rw [afterUnicast, sendUnicastToRadio, removeQueuedPacket_list, age_list]

/-- A packet that is not selected is passed over. -/
theorem visit_of_not {e : Surroundings} {p : Probing} {i : Fin maxQueuedPackets}
    (hnull : rimeaddrCmp (p.lpp.item i).packet.hdr.receiver rimeaddrNull = false)
    (hsender : rimeaddrCmp (p.lpp.item i).packet.hdr.receiver p.hdrSender = false) :
    p.visit e i = p := by
  simp [Probing.visit, hnull, hsender]

/-- A broadcast is sent, and its header overwrites the one of the probe. -/
theorem visit_of_broadcast {e : Surroundings} {p : Probing} {i : Fin maxQueuedPackets}
    (hnull : rimeaddrCmp (p.lpp.item i).packet.hdr.receiver rimeaddrNull = true) :
    p.visit e i =
      { p with hdrSender := (p.lpp.item i).packet.hdr.sender, sent := p.sent ++ [i] } := by
  simp [Probing.visit, Probing.sendPacketToRadio, hnull]

/-- A unicast is sent and removed. -/
theorem visit_of_unicast {e : Surroundings} {p : Probing} {i : Fin maxQueuedPackets}
    (hnull : rimeaddrCmp (p.lpp.item i).packet.hdr.receiver rimeaddrNull = false)
    (hsender : rimeaddrCmp (p.lpp.item i).packet.hdr.receiver p.hdrSender = true) :
    p.visit e i =
      { p with
        lpp := afterUnicast e p.lpp (some i)
        hdrSender := (p.lpp.item i).packet.hdr.sender
        sent := p.sent ++ [i]
        removed := p.removed ++ [i] } := by
  simp [Probing.visit, Probing.sendPacketToRadio, hnull, hsender, afterUnicast]

/-- A turn that only sends the broadcasts `turn`, or nothing, leaves the outcome to the rest. -/
theorem Outcome.cons {e : Surroundings} {p q : Probing} {i : Fin maxQueuedPackets}
    {rest : List (Fin maxQueuedPackets)} {sender : RimeAddr}
    (turn : List (Fin maxQueuedPackets))
    (hserve : serve p.lpp p.hdrSender (i :: rest) =
      (turn ++ (serve p.lpp sender rest).1, (serve p.lpp sender rest).2))
    (h : Outcome e { p with hdrSender := sender, sent := p.sent ++ turn } rest q) :
    Outcome e p (i :: rest) q where
  lpp := by
    rw [hserve]
    exact h.lpp
  sent := by
    rw [hserve, ← List.append_assoc]
    exact h.sent
  removed := by
    rw [hserve]
    exact h.removed
  stale := by
    rw [hserve]
    exact h.stale

/-- The loop ends, and what it does. -/
theorem loop_eq (e : Surroundings) (before : List (Fin maxQueuedPackets))
    {rest : List (Fin maxQueuedPackets)} {p : Probing} {fuel : Nat}
    (hlist : p.lpp.queuedPacketsList = before ++ rest)
    (hnodup : (before ++ rest).Nodup) (hfuel : rest.length ≤ fuel) :
    ∃ q, Probing.loop e fuel rest.head? p = some q ∧ Outcome e p rest q := by
  induction rest generalizing before p fuel with
  | nil => exact ⟨p, by cases fuel <;> rfl, by simp [serve, afterUnicast], by simp [serve],
      by simp [serve], by simp [serve]⟩
  | cons i rest ih =>
      obtain ⟨fuel, rfl⟩ : ∃ n, fuel = n + 1 := ⟨fuel - 1, by simp at hfuel; omega⟩
      have hfuel : rest.length ≤ fuel := by simpa using hfuel
      have hmem : i ∈ p.lpp.queuedPacketsList := by simp [hlist]
      have hnext : next p.lpp.queuedPacketsList i = rest.head? := by
        rw [hlist]
        exact next_append hnodup
      -- Nothing was removed, so the loop goes on with the rest of the same list.
      have hon : ∀ p' : Probing, p.visit e i = p' → p'.lpp = p.lpp →
          Probing.loop e (fuel + 1) (i :: rest).head? p = Probing.loop e fuel rest.head? p' := by
        intro p' hvisit hlpp
        simp only [List.head?_cons, Probing.loop, hvisit, Probing.readNext, hlpp, hnext, hmem,
          if_true]
      have hsplit : p.lpp.queuedPacketsList = (before ++ [i]) ++ rest := by simp [hlist]
      have hnodup' : ((before ++ [i]) ++ rest).Nodup := by simpa using hnodup
      cases hnull : rimeaddrCmp (p.lpp.item i).packet.hdr.receiver rimeaddrNull with
      | true =>
          obtain ⟨q, hq, hout⟩ := ih _
            (p := { p with
              hdrSender := (p.lpp.item i).packet.hdr.sender, sent := p.sent ++ [i] })
            hsplit hnodup' hfuel
          exact ⟨q, (hon _ (visit_of_broadcast hnull) rfl).trans hq,
            Outcome.cons [i] (by simp [serve, hnull]) hout⟩
      | false =>
          cases hsender : rimeaddrCmp (p.lpp.item i).packet.hdr.receiver p.hdrSender with
          | false =>
              obtain ⟨q, hq, hout⟩ := ih _ hsplit hnodup' hfuel
              have hp : { p with sent := p.sent ++ [] } = p := by rw [List.append_nil]
              exact ⟨q, (hon p (visit_of_not hnull hsender) rfl).trans hq,
                Outcome.cons [] (by simp [serve, hnull, hsender]) (hp.symm ▸ hout)⟩
          | true =>
              -- The item is off the list, so it has no next one.
              have hgone : i ∉ (afterUnicast e p.lpp (some i)).queuedPacketsList := by
                rw [afterUnicast_list, hlist]
                exact hnodup.not_mem_erase
              refine ⟨{ p with
                lpp := afterUnicast e p.lpp (some i)
                hdrSender := (p.lpp.item i).packet.hdr.sender
                sent := p.sent ++ [i]
                removed := p.removed ++ [i]
                stale := p.stale ++ [i] }, ?_, ?_⟩
              · simp only [List.head?_cons, Probing.loop, visit_of_unicast hnull hsender,
                  Probing.readNext, next_of_notMem hgone, hgone, if_false]
              · constructor <;> simp [serve, hnull, hsender]

/-- `readProbe` is this loop. -/
theorem probeLoop_eq (e : Surroundings) (r : Reaction) (acked : Bool)
    (hr : ∀ i, e.reaction i = r) (hacked : ∀ i, e.acked i = acked) (s : Lpp) (sender : RimeAddr)
    (l : List (Fin maxQueuedPackets)) :
    probeLoop e.conf r acked s sender l = afterUnicast e s (serve s sender l).2 := by
  induction l generalizing sender with
  | nil => rfl
  | cons i rest ih =>
      simp only [probeLoop, serve]
      split
      · exact ih _
      · split
        · rw [afterUnicast, hr, hacked]
        · exact ih _

/-- The loop over the pointers does to the node what `readProbe` says. -/
theorem readPacketProbe_lpp (e : Surroundings) (r : Reaction) (acked : Bool)
    (hr : ∀ i, e.reaction i = r) (hacked : ∀ i, e.acked i = acked) {s : Lpp}
    (hnodup : s.queuedPacketsList.Nodup) (sender : RimeAddr) {fuel : Nat}
    (hfuel : s.queuedPacketsList.length ≤ fuel) :
    (readPacketProbe e s sender fuel).map Probing.lpp =
      some (readProbe e.conf r s sender acked) := by
  obtain ⟨q, hq, hout⟩ := loop_eq e [] (p := ⟨s, sender, [], [], []⟩) rfl hnodup
    hfuel
  have hq : readPacketProbe e s sender fuel = some q := hq
  rw [hq, Option.map_some, hout.lpp, readProbe, probeLoop_eq e r acked hr hacked]

/-! ### Serving a probe -/

/-- The probe of `x` is served: the broadcasts and the unicasts to `x` are sent, the unicasts
among them are removed, each with one call of `post_send`, and no removed item is used. -/
structure ServesProbe (s : Lpp) (x : RimeAddr) (q : Probing) : Prop where
  sent : q.sent.Perm (s.queuedPacketsList.filter fun i => s.isBroadcast i || s.isUnicastTo x i)
  removed : q.removed.Perm (s.queuedPacketsList.filter (s.isUnicastTo x))
  list : q.lpp.queuedPacketsList = s.queuedPacketsList.filter fun i => !s.isUnicastTo x i
  events : q.lpp.events =
    s.events ++ List.replicate (s.queuedPacketsList.countP (s.isUnicastTo x)) Handoff.Event.complete
  unused : q.stale = []

/-- No unicast on the list is for `x`, and none is for the sender in the header that is in the
packet buffer by then. -/
def NoUnicast (s : Lpp) (x : RimeAddr) : RimeAddr → List (Fin maxQueuedPackets) → Prop
  | _, [] => True
  | sender, i :: rest =>
    let hdr := (s.item i).packet.hdr
    if rimeaddrCmp hdr.receiver rimeaddrNull then NoUnicast s x hdr.sender rest
    else rimeaddrCmp hdr.receiver x = false ∧ rimeaddrCmp hdr.receiver sender = false ∧
      NoUnicast s x sender rest

instance decidableNoUnicast (s : Lpp) (x : RimeAddr) :
    (sender : RimeAddr) → (l : List (Fin maxQueuedPackets)) → Decidable (NoUnicast s x sender l)
  | _, [] => isTrue trivial
  | sender, i :: rest =>
    have := decidableNoUnicast s x (s.item i).packet.hdr.sender rest
    have := decidableNoUnicast s x sender rest
    inferInstanceAs (Decidable (
      if rimeaddrCmp (s.item i).packet.hdr.receiver rimeaddrNull then
        NoUnicast s x (s.item i).packet.hdr.sender rest
      else rimeaddrCmp (s.item i).packet.hdr.receiver x = false ∧
        rimeaddrCmp (s.item i).packet.hdr.receiver sender = false ∧ NoUnicast s x sender rest))

/-- Without a unicast at its end the loop sends the broadcasts. -/
theorem serve_fst {s : Lpp} {sender : RimeAddr} {l : List (Fin maxQueuedPackets)}
    (h : (serve s sender l).2 = none) : (serve s sender l).1 = l.filter s.isBroadcast := by
  induction l generalizing sender with
  | nil => rfl
  | cons i rest ih =>
      cases hnull : rimeaddrCmp (s.item i).packet.hdr.receiver rimeaddrNull with
      | true =>
          simp only [serve, hnull, if_true] at h ⊢
          rw [ih h, List.filter_cons_of_pos (show s.isBroadcast i = true from hnull)]
      | false =>
          have hnot : ¬ s.isBroadcast i = true := by simp [isBroadcast, hnull]
          rw [List.filter_cons_of_neg hnot]
          cases hsender : rimeaddrCmp (s.item i).packet.hdr.receiver sender with
          | true => simp [serve, hnull, hsender] at h
          | false =>
              simp only [serve, hnull, hsender, Bool.false_eq_true, if_false] at h ⊢
              exact ih h

/-- The loop does not end with a unicast, and there is none to `x`. -/
theorem noUnicast_iff {s : Lpp} {x sender : RimeAddr} {l : List (Fin maxQueuedPackets)} :
    NoUnicast s x sender l ↔
      (serve s sender l).2 = none ∧ ∀ i ∈ l, s.isUnicastTo x i = false := by
  induction l generalizing sender with
  | nil => simp [NoUnicast, serve]
  | cons i rest ih =>
      cases hnull : rimeaddrCmp (s.item i).packet.hdr.receiver rimeaddrNull with
      | true =>
          have hnot : s.isUnicastTo x i = false := by simp [isUnicastTo, isBroadcast, hnull]
          simp only [NoUnicast, serve, hnull, if_true, List.forall_mem_cons, hnot, ih, true_and]
      | false =>
          have hto : s.isUnicastTo x i = rimeaddrCmp (s.item i).packet.hdr.receiver x := by
            simp [isUnicastTo, isBroadcast, hnull]
          cases hsender : rimeaddrCmp (s.item i).packet.hdr.receiver sender with
          | true => simp [NoUnicast, serve, hnull, hsender]
          | false =>
              simp only [NoUnicast, serve, hnull, hsender, Bool.false_eq_true, if_false,
                List.forall_mem_cons, hto, ih, true_and]
              exact and_left_comm

/-- Without unicasts to `x`, the packets to send are the broadcasts. -/
theorem filter_of_noUnicast {s : Lpp} {x : RimeAddr} {l : List (Fin maxQueuedPackets)}
    (h : ∀ i ∈ l, s.isUnicastTo x i = false) :
    l.filter (fun i => s.isBroadcast i || s.isUnicastTo x i) = l.filter s.isBroadcast :=
  List.filter_congr fun i hi => by rw [h i hi, Bool.or_false]

/-- The probe is served when the loop sends broadcasts only and there is no unicast to `x`. -/
theorem Outcome.serves_iff {e : Surroundings} {s : Lpp} {x : RimeAddr} {q : Probing}
    (h : Outcome e ⟨s, x, [], [], []⟩ s.queuedPacketsList q) :
    ServesProbe s x q ↔ NoUnicast s x x s.queuedPacketsList := by
  have hlpp := h.lpp
  have hsent := h.sent
  have hremoved := h.removed
  have hstale := h.stale
  dsimp only at hlpp hsent hremoved hstale
  refine ⟨fun hserves => ?_, fun hno => ?_⟩
  · have hnone : (serve s x s.queuedPacketsList).2 = none := by
      simpa using hstale.symm.trans hserves.unused
    refine noUnicast_iff.mpr ⟨hnone, fun i hi => ?_⟩
    -- Only broadcasts were sent.
    rw [hnone, serve_fst hnone, List.nil_append, Option.toList_none, List.append_nil] at hsent
    cases hto : s.isUnicastTo x i with
    | false => rfl
    | true =>
        have hmem := hserves.sent.mem_iff.mpr (List.mem_filter.mpr ⟨hi, by simp [hto]⟩)
        rw [hsent] at hmem
        have hb := (List.mem_filter.mp hmem).2
        simp [isUnicastTo, hb] at hto
  · obtain ⟨hnone, hno⟩ := noUnicast_iff.mp hno
    rw [hnone] at hlpp hsent hremoved hstale
    have hfilter : s.queuedPacketsList.filter (s.isUnicastTo x) = [] :=
      List.filter_eq_nil_iff.mpr fun i hi => by simp [hno i hi]
    exact {
      sent := by
        rw [filter_of_noUnicast hno, hsent, serve_fst hnone]
        simp
      removed := by
        rw [hfilter, hremoved]
        exact .nil
      list := by
        rw [hlpp]
        exact (List.filter_eq_self.mpr fun i hi => by simp [hno i hi]).symm
      events := by
        rw [hlpp, List.countP_eq_length_filter, hfilter]
        simp [afterUnicast]
      unused := hstale }

/-- After a probe of `x` the loop ends, and it serves the probe exactly when no unicast is for
`x`, or for the sender in the header that has overwritten the one of the probe. -/
theorem servesProbe_iff (e : Surroundings) {s : Lpp} (hnodup : s.queuedPacketsList.Nodup)
    (x : RimeAddr) {fuel : Nat} (hfuel : s.queuedPacketsList.length ≤ fuel) :
    ∃ q, readPacketProbe e s x fuel = some q ∧
      (ServesProbe s x q ↔ NoUnicast s x x s.queuedPacketsList) := by
  obtain ⟨q, hq, hout⟩ := loop_eq e [] (p := ⟨s, x, [], [], []⟩) rfl hnodup hfuel
  exact ⟨q, hq, hout.serves_iff⟩

/-- A queue with two packets of node 1, to `first` and `second`. -/
def queueTo (first second : RimeAddr) : Lpp :=
  { boot with
    queuedPacketsMemb :=
      (boot.queuedPacketsMemb.write 0 ⟨⟨⟨⟨1, 0⟩, first⟩, []⟩, true, false⟩).write 1
        ⟨⟨⟨⟨1, 0⟩, second⟩, []⟩, true, false⟩
    queuedPacketsList := [0, 1] }

/-- Every unicast gets its DATA_ACK, and the layers above do nothing. -/
def answering : Surroundings := ⟨lppConf, fun _ => true, fun _ => ⟨[], []⟩⟩

/-- A broadcast and a unicast to node 3, and a probe of node 2. -/
theorem servesProbe_iff_other :
    ∃ q, readPacketProbe answering (queueTo rimeaddrNull ⟨3, 0⟩) ⟨2, 0⟩ 2 = some q ∧
      ServesProbe (queueTo rimeaddrNull ⟨3, 0⟩) ⟨2, 0⟩ q := by
  obtain ⟨q, hq, hiff⟩ := servesProbe_iff answering (s := queueTo rimeaddrNull ⟨3, 0⟩)
    (by decide) ⟨2, 0⟩ (Nat.le_refl 2)
  exact ⟨q, hq, hiff.mpr (by decide)⟩

/-- A broadcast and a unicast to node 2, and a probe of node 2: the unicast is not sent. -/
theorem not_forall_servesProbe :
    ¬ ∀ (e : Surroundings) (s : Lpp) (x : RimeAddr), s.queuedPacketsList.Nodup →
      ∃ fuel q, readPacketProbe e s x fuel = some q ∧ ServesProbe s x q := by
  intro hall
  obtain ⟨fuel, q, hq, hserves⟩ := hall answering (queueTo rimeaddrNull ⟨2, 0⟩) ⟨2, 0⟩ (by decide)
  match fuel with
  | 0 => cases hq
  | 1 =>
      have hnone : readPacketProbe answering (queueTo rimeaddrNull ⟨2, 0⟩) ⟨2, 0⟩ 1 = none := rfl
      exact absurd (hnone.symm.trans hq) nofun
  | fuel + 2 =>
      obtain ⟨q', hq', hout⟩ := loop_eq answering []
        (p := ⟨queueTo rimeaddrNull ⟨2, 0⟩, ⟨2, 0⟩, [], [], []⟩) rfl (by decide)
        (Nat.le_add_left 2 fuel)
      cases hq.symm.trans hq'
      exact absurd (hout.serves_iff.mp hserves) (by decide)

end PTunes.Mac.Lpp
