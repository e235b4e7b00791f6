import Mathlib.Tactic.SplitIfs
import PTunes.Lib.SerialNumber
import PTunes.Mac.Dissemination

/-!
# `PTunes.Proofs.Mac.Dissemination`: nodes adopt what was issued

Sequence numbers are compared modulo 256. The comparison is that of the numbers of the updates
while a message is at most 127 updates ahead of the node that hears it and at most 128 behind
(`seqnoLt_ofNat`). The nodes being close to each other gives the first bound, since no message is
ahead of the sink. It does not give the second one, because an old message can still be heard.

* `trickle_dissemination`: in every run in which the nodes stay close and the messages that are
  heard are not too old, each node is `InStep` and none goes back.
* `not_forall_trickle_dissemination`: the sink hears a message that is 129 updates old and goes
  back to it, and a sink that finds no room in the pool has nothing to send again.
-/

set_option autoImplicit false

namespace PTunes

/-! ### One connection -/

namespace Rime.TrickleConn

variable {α : Type} {c : TrickleConn α}

/-- The comparison of the source is that of serial numbers. -/
theorem seqnoLt_iff (a b : UInt8) :
    seqnoLt a b = true ↔ SerialNumber.Before a.toBitVec b.toBitVec := by
  rw [seqnoLt, decide_eq_true_eq, Int8.lt_iff_toInt_lt]
  rfl

/-- It compares the numbers that are meant, if they are close. -/
theorem seqnoLt_ofNat {m n : Nat} (hbehind : n ≤ m + 128) (hahead : m ≤ n + 127) :
    seqnoLt (UInt8.ofNat m) (UInt8.ofNat n) = true ↔ m < n :=
  (seqnoLt_iff _ _).trans (SerialNumber.serial_lt_iff (by decide) hbehind (by omega))

/-- Two updates with the same sequence number are the same, if they are close. -/
theorem seqno_ofNat_eq_iff {m n : Nat} (hbehind : n ≤ m + 128) (hahead : m ≤ n + 127) :
    UInt8.ofNat m = UInt8.ofNat n ↔ m = n :=
  UInt8.toBitVec_inj.symm.trans (SerialNumber.serial_eq_iff (by decide) hbehind (by omega))

/-- `run_trickle` keeps the message, and sends no other. -/
theorem runTrickle_frame (c : TrickleConn α) :
    c.runTrickle.1.q = c.q ∧ c.runTrickle.1.seqno = c.seqno ∧ ∀ p ∈ c.runTrickle.2, p ∈ c.q := by
  unfold runTrickle listen send
  split
  · exact ⟨rfl, rfl, fun _ hp => nomatch hp⟩
  · refine ⟨rfl, rfl, fun p hp => ?_⟩
    split at hp
    · exact hp
    · cases hp
  · split <;> exact ⟨rfl, rfl, fun _ hp => nomatch hp⟩

/-- So does the end of a timer. -/
theorem expire_frame (c : TrickleConn α) (timer : Timer) :
    (c.expire timer).1.q = c.q ∧ (c.expire timer).1.seqno = c.seqno ∧
      ∀ p ∈ (c.expire timer).2, p ∈ c.q := by
  cases timer with
  | listen => exact runTrickle_frame { c with t := false }
  | interval => exact runTrickle_frame { c with intervalTimer := false }
  | firstTransmission => exact ⟨rfl, rfl, fun _ hp => hp⟩

/-- With a timer set the node still has something to send again. -/
theorem owes_of_isSet {timer : Timer} (h : c.isSet timer = true) : c.owes = true := by
  cases timer <;> simp_all [isSet, owes]

end Rime.TrickleConn

namespace Mac.Dissemination

open PTunes.Glossy (Config)
open PTunes.Rime (TricklePacket TrickleConn)
open PTunes.Rime.TrickleConn (seqnoLt_ofNat seqno_ofNat_eq_iff expire_frame owes_of_isSet)

/-! ### The invariant -/

/-- A message carries the sequence number and the configuration of its update. -/
structure PacketInv (issued : List Config) (p : TricklePacket Update) : Prop where
  seqno : p.seqno = UInt8.ofNat p.data.number
  config : issued[p.data.number]? = some p.data.config

/-- What a node holds is of the update that it took last. -/
structure NodeInv (issued : List Config) (n : AdaptNode) : Prop where
  isIssued : n.number < issued.length
  seqno : n.trickle.seqno = UInt8.ofNat n.number
  packet : ∀ p ∈ n.trickle.q, PacketInv issued p ∧ p.data.number = n.number
  stored : 0 < n.number → n.trickle.q.isSome = n.stored
  owes : n.trickle.owes = true → 0 < n.number
  newCfg : 0 < n.number → issued[n.number]? = some n.newCfg
  /-- `adaptation_process` does not run before the first update. -/
  adapts : n.polled = true ∨ n.adaptation = .pause → 0 < n.number
  applied : ∀ e ∈ n.applied, issued[e.1]? = some e.2

/-- An update keeps its place when later ones are issued. -/
theorem getElem?_append_some {issued : List Config} {k : Nat} {c : Config}
    (h : issued[k]? = some c) (l : List Config) : (issued ++ l)[k]? = some c := by
  rw [List.getElem?_append_left (List.getElem?_eq_some_iff.mp h).1, h]

namespace PacketInv

variable {issued : List Config} {p : TricklePacket Update}

/-- The update of a message has been issued. -/
theorem number_lt (h : PacketInv issued p) : p.data.number < issued.length :=
  (List.getElem?_eq_some_iff.mp h.config).1

/-- More updates keep a message in order. -/
theorem append (h : PacketInv issued p) (l : List Config) : PacketInv (issued ++ l) p :=
  ⟨h.seqno, getElem?_append_some h.config l⟩

end PacketInv

namespace NodeInv

variable {issued : List Config} {n : AdaptNode}

/-- Every node starts with the configuration of the update 0, and with nothing to send. -/
theorem boot (cfg : Config) : NodeInv [cfg] (.boot cfg) where
  isIssued := Nat.one_pos
  seqno := rfl
  packet := nofun
  stored := nofun
  owes := nofun
  newCfg := nofun
  adapts := nofun
  applied := nofun

/-- More updates keep the node in order. -/
theorem append (h : NodeInv issued n) (l : List Config) : NodeInv (issued ++ l) n where
  isIssued := by
    rw [List.length_append]
    exact Nat.lt_add_right _ h.isIssued
  seqno := h.seqno
  packet p hp := ⟨(h.packet p hp).1.append l, (h.packet p hp).2⟩
  stored := h.stored
  owes := h.owes
  newCfg hpos := getElem?_append_some (h.newCfg hpos) l
  adapts := h.adapts
  applied e he := getElem?_append_some (h.applied e he) l

/-- The connection changes, but neither the message nor its sequence number. -/
theorem withTrickle (h : NodeInv issued n) {c : TrickleConn Update} (hq : c.q = n.trickle.q)
    (hseqno : c.seqno = n.trickle.seqno) (howes : c.owes = true → 0 < n.number) :
    NodeInv issued { n with trickle := c } where
  isIssued := h.isIssued
  seqno := hseqno.trans h.seqno
  packet p hp := h.packet p (hq ▸ hp)
  stored hpos := hq ▸ h.stored hpos
  owes := howes
  newCfg := h.newCfg
  adapts := h.adapts
  applied := h.applied

/-- The node takes an update: it keeps the message if there is room, and its new configuration is
that of the update. -/
theorem take {u : Update} {room : Bool} {c : TrickleConn Update} (h : NodeInv issued n)
    (hu : PacketInv issued ⟨UInt8.ofNat u.number, u⟩) (hpos : 0 < u.number)
    (hseqno : c.seqno = UInt8.ofNat u.number)
    (hq : c.q = if room then some ⟨UInt8.ofNat u.number, u⟩ else none) (polled : Bool) :
    NodeInv issued
      { n with
        trickle := c
        newCfg := u.config
        polled := polled
        number := u.number
        stored := room } where
  isIssued := hu.number_lt
  seqno := hseqno
  packet p hp := by
    cases room with
    | true =>
        cases hq.symm.trans hp
        exact ⟨hu, rfl⟩
    | false => cases hq.symm.trans hp
  stored _ := by
    rw [hq]
    cases room <;> rfl
  owes _ := hpos
  newCfg _ := hu.config
  adapts _ := hpos
  applied := h.applied

/-- `adaptation_process` gets an event, and the node keeps its update. -/
theorem adapt (h : NodeInv issued n) (hpos : 0 < n.number) :
    NodeInv issued n.adapt ∧ n.adapt.number = n.number := by
  unfold AdaptNode.adapt AdaptNode.apply
  split
  · exact ⟨{ h with adapts := fun _ => hpos }, rfl⟩
  · refine ⟨{ h with adapts := fun _ => hpos, applied := fun e he => ?_ }, rfl⟩
    rcases List.mem_append.mp he with he | he
    · exact h.applied e he
    · rw [List.mem_singleton.mp he]
      exact h.newCfg hpos

/-- What the node has to send again is its update. -/
theorem inStep (h : NodeInv issued n) : InStep issued n where
  isIssued := h.isIssued
  seqno := h.seqno
  applied := h.applied
  stores howes := by
    have hsome := h.stored (h.owes howes)
    unfold StoresUpdate
    split
    · rename_i hstored
      obtain ⟨p, hp⟩ := Option.isSome_iff_exists.mp (hsome.trans hstored)
      obtain ⟨hpacket, hnumber⟩ := h.packet p hp
      refine ⟨p, hp, ?_, ?_⟩
      · rw [hpacket.seqno, hnumber, h.seqno]
      · rw [← hnumber]
        exact hpacket.config
    · rename_i hstored
      rw [Bool.eq_false_iff.mpr hstored] at hsome
      exact Option.isSome_eq_false_iff.mp hsome |> Option.isNone_iff_eq_none.mp

/-- A node hears a message that is close to it. It stays where it is, or it takes the update of
the message, which is then a later one. What it sends is its own message. -/
theorem hear (h : NodeInv issued n) {p : TricklePacket Update} (hp : PacketInv issued p)
    (hbehind : n.number ≤ p.data.number + 128) (hahead : p.data.number ≤ n.number + 127)
    (room : Bool) :
    NodeInv issued (n.hear p room).1 ∧ n.number ≤ (n.hear p room).1.number ∧
      ∀ q ∈ (n.hear p room).2, q ∈ n.trickle.q := by
  have heq := seqno_ofNat_eq_iff hbehind hahead
  have hlt := seqnoLt_ofNat hbehind hahead
  rw [← hp.seqno, ← h.seqno] at heq hlt
  by_cases hsame : p.seqno = n.trickle.seqno
  · -- A duplicate is only counted.
    simp only [AdaptNode.hear, TrickleConn.recv, hsame, if_true]
    exact ⟨h.withTrickle rfl rfl h.owes, le_rfl, fun _ hq => nomatch hq⟩
  · by_cases hold : TrickleConn.seqnoLt p.seqno n.trickle.seqno = true
    · -- The sender is behind, so the node repeats its own message.
      simp only [AdaptNode.hear, TrickleConn.recv, hsame, hold, if_true, if_false]
      exact ⟨h.withTrickle rfl rfl h.owes, le_rfl, fun _ hq => hq⟩
    · have hnew : n.number < p.data.number := by
        have := mt heq.mpr hsame
        have := mt hlt.mpr hold
        omega
      simp only [AdaptNode.hear, TrickleConn.recv, hsame, hold, if_false]
      refine ⟨h.take (u := p.data) ?_ (Nat.zero_lt_of_lt hnew) hp.seqno ?_ true, hnew.le,
        fun _ hq => nomatch hq⟩
      · exact ⟨rfl, hp.config⟩
      · rw [← hp.seqno]
        rfl

end NodeInv

variable {ι : Type} {sink : ι} {cfg : Config} {s t : Dissemination ι}

/-- The nodes and the messages are in order. -/
structure Inv (s : Dissemination ι) : Prop where
  nodes : ∀ i, NodeInv s.issued (s.nodes i)
  air : ∀ p ∈ s.air, PacketInv s.issued p

/-- The sink is at the last update. -/
def AtLast (sink : ι) (s : Dissemination ι) : Prop := (s.nodes sink).number + 1 = s.issued.length

/-- More updates keep the nodes and the messages in order. -/
theorem Inv.append (h : Inv s) (l : List Config) : Inv { s with issued := s.issued ++ l } where
  nodes i := (h.nodes i).append l
  air p hp := (h.air p hp).append l

/-- No message is more than 127 updates ahead of a node, while the nodes are close. -/
theorem Inv.number_le (h : Inv s) (hsink : AtLast sink s) (hapart : s.Apart)
    {p : TricklePacket Update} (hp : p ∈ s.air) (i : ι) :
    p.data.number ≤ (s.nodes i).number + 127 := by
  have hlt := (h.air p hp).number_lt
  have hclose := hapart sink i
  rw [AtLast] at hsink
  omega

/-- The sink stays at the last update when none is added and it does not go back. -/
theorem AtLast.forward (hsink : AtLast sink s) (ht : Inv t) (hissued : t.issued = s.issued)
    (hforward : Forward s t) : AtLast sink t := by
  have hlt := (ht.nodes sink).isIssued
  have hle := hforward sink
  rw [AtLast] at hsink ⊢
  rw [hissued] at hlt ⊢
  omega

variable [DecidableEq ι]

/-- A node that has an event is in order, and what it sends. -/
theorem Inv.update (h : Inv s) {i : ι} {r : AdaptNode × Option (TricklePacket Update)}
    (hnode : NodeInv s.issued r.1) (hsent : ∀ p ∈ r.2, PacketInv s.issued p) :
    Inv (s.update i r) where
  nodes j := by
    by_cases hj : j = i
    · subst hj
      simp only [Dissemination.update, Function.update_self]
      exact hnode
    · simp only [Dissemination.update, Function.update_of_ne hj]
      exact h.nodes j
  air p hp := by
    rcases List.mem_append.mp hp with hp | hp
    · exact h.air p hp
    · exact hsent p (Option.mem_toList.mp hp)

/-- A node that does not go back. -/
theorem forward_update {i : ι} {r : AdaptNode × Option (TricklePacket Update)}
    (hle : (s.nodes i).number ≤ r.1.number) : Forward s (s.update i r) := by
  intro j
  by_cases hj : j = i
  · subst hj
    simp only [Dissemination.update, Function.update_self]
    exact hle
  · simp only [Dissemination.update, Function.update_of_ne hj]
    exact le_rfl

/-- The sink issues the next update. -/
theorem Inv.issue (h : Inv s) (hsink : AtLast sink s) (c : Config) (room : Bool)
    (hst : (machine sink cfg).step s (.issue c room) = some t) :
    Inv t ∧ AtLast sink t ∧ Forward s t := by
  cases hst
  -- The next sequence number is that of the next update.
  have hseqno : (s.nodes sink).trickle.seqno + 1 = UInt8.ofNat s.issued.length := by
    rw [(h.nodes sink).seqno, ← hsink, UInt8.ofNat_add]
    rfl
  have hu : PacketInv (s.issued ++ [c]) ⟨UInt8.ofNat s.issued.length, ⟨c, s.issued.length⟩⟩ :=
    ⟨rfl, List.getElem?_concat_length⟩
  have hq : ((s.nodes sink).trickle.trickleSend room ⟨c, s.issued.length⟩).1.q =
      if room then some ⟨UInt8.ofNat s.issued.length, ⟨c, s.issued.length⟩⟩ else none := by
    rw [← hseqno]
    rfl
  have hpos : 0 < s.issued.length := hsink ▸ Nat.succ_pos _
  have hnode := ((h.nodes sink).append [c]).take (u := ⟨c, s.issued.length⟩) hu hpos hseqno hq
    (s.nodes sink).polled
  refine ⟨(h.append [c]).update hnode fun p hp => (hnode.packet p hp).1, ?_, ?_⟩
  · simp only [AtLast, Dissemination.update, Function.update_self, List.length_append]
    rfl
  · have hle : (s.nodes sink).number ≤ s.issued.length := hsink ▸ Nat.le_succ _
    exact forward_update hle

/-- A step that adds no update: a node has an event, in which it does not go back. -/
theorem Inv.event (h : Inv s) (hsink : AtLast sink s) {i : ι}
    {r : AdaptNode × Option (TricklePacket Update)} (hnode : NodeInv s.issued r.1)
    (hle : (s.nodes i).number ≤ r.1.number) (hsent : ∀ p ∈ r.2, p ∈ (s.nodes i).trickle.q) :
    Inv (s.update i r) ∧ AtLast sink (s.update i r) ∧ Forward s (s.update i r) := by
  have hinv := h.update (i := i) hnode fun p hp => ((h.nodes i).packet p (hsent p hp)).1
  exact ⟨hinv, hsink.forward hinv rfl (forward_update hle), forward_update hle⟩

/-- The step lemma of the guarded runs. -/
theorem inv_step {a : DissAction ι} (h : Inv s) (hsink : AtLast sink s) (hapart : s.Apart)
    (hrecent : hearsRecent s a) (hst : (machine sink cfg).step s a = some t) :
    Inv t ∧ AtLast sink t ∧ Forward s t := by
  cases a with
  | issue c room => exact h.issue hsink c room hst
  | hear i k room =>
      simp only [machine] at hst
      split at hst
      · rename_i p hp
        cases hst
        have hmem := List.mem_of_getElem? hp
        -- A packet on the air is one that the sink has issued.
        have hahead := h.number_le hsink hapart hmem i
        obtain ⟨hnode, hle, hsent⟩ :=
          (h.nodes i).hear (h.air p hmem) (hrecent p hp) hahead room
        exact h.event hsink hnode hle hsent
      · cases hst
  | timer i timer =>
      simp only [machine] at hst
      split at hst
      · rename_i hset
        cases hst
        obtain ⟨hq, hseqno, hsent⟩ := expire_frame (s.nodes i).trickle timer
        have hpos := (h.nodes i).owes (owes_of_isSet hset)
        have hnode := (h.nodes i).withTrickle hq hseqno fun _ => hpos
        exact h.event hsink hnode le_rfl hsent
      · cases hst
  | adaptation i poll =>
      simp only [machine] at hst
      split at hst
      · rename_i hevent
        cases hst
        -- The poll of the node, or another event in its loop.
        cases poll with
        | true =>
            have hpos := (h.nodes i).adapts (.inl hevent)
            have hnode : NodeInv s.issued { s.nodes i with polled := false } :=
              { h.nodes i with adapts := fun _ => hpos }
            have hadapt := hnode.adapt hpos
            exact h.event hsink hadapt.1 hadapt.2.ge fun _ hp => nomatch hp
        | false =>
            have hpos := (h.nodes i).adapts (.inr (beq_iff_eq.mp hevent))
            have hadapt := (h.nodes i).adapt hpos
            exact h.event hsink hadapt.1 hadapt.2.ge fun _ hp => nomatch hp
      · cases hst

/-! ### The result -/

/-- The run lemma: the sink is at the last update, and the nodes are close. -/
theorem Inv.of_reachable (h : (machine sink cfg).ReachableIf (closeAndRecent sink cfg) s) :
    Inv s ∧ AtLast sink s ∧ s.Apart := by
  refine h.invariant (fun s => Inv s ∧ AtLast sink s ∧ s.Apart) ?_ ?_
  · exact ⟨⟨fun _ => .boot cfg, nofun⟩, rfl, fun _ _ => Nat.zero_le _⟩
  · rintro s a t ⟨hinv, hsink, hapart⟩ hok hst
    obtain ⟨hinv', hsink', _⟩ := inv_step hinv hsink hapart hok.2 hst
    exact ⟨hinv', hsink', hok.1 t hst⟩

/-- In every run in which the nodes stay close and no message that is heard is too old, every node
is in step with the updates, and no step takes a node back. -/
theorem trickle_dissemination (sink : ι) (cfg : Config) {s : Dissemination ι}
    (h : (machine sink cfg).ReachableIf (closeAndRecent sink cfg) s) :
    (∀ i, InStep s.issued (s.nodes i)) ∧
      ∀ a t, closeAndRecent sink cfg s a → (machine sink cfg).step s a = some t →
        Forward s t := by
  obtain ⟨hinv, hsink, hapart⟩ := Inv.of_reachable h
  refine ⟨fun i => (hinv.nodes i).inStep, fun a t hok hst => ?_⟩
  exact (inv_step hinv hsink hapart hok.2 hst).2.2

/-- A configuration. -/
def sampleConfig (n : UInt8) : Config := ⟨100, 2000, n⟩

/-- The sink issues an update, the other node hears of it and applies it three intervals later. -/
def sampleAdoption : List (DissAction (Fin 2)) :=
  [.issue (sampleConfig 3) true, .hear 1 0 true, .adaptation 1 true, .timer 1 .listen,
    .timer 1 .interval, .timer 1 .listen, .timer 1 .interval, .timer 1 .firstTransmission,
    .timer 1 .listen, .timer 1 .interval, .adaptation 1 false]

/-- The update is applied. -/
theorem trickle_dissemination_sample :
    ∃ s : Dissemination (Fin 2), (s.nodes 1).applied = [(1, sampleConfig 3)] ∧
      (∀ i, InStep s.issued (s.nodes i)) ∧
        ∀ a t, closeAndRecent 0 (sampleConfig 1) s a →
          (machine 0 (sampleConfig 1)).step s a = some t → Forward s t := by
  have hend : ((machine (0 : Fin 2) (sampleConfig 1)).runIf (closeAndRecent 0 (sampleConfig 1))
      (machine 0 (sampleConfig 1)).init sampleAdoption).map (fun s => (s.nodes 1).applied) =
        some [(1, sampleConfig 3)] := by decide +kernel
  obtain ⟨s, hs, happlied⟩ :=
    Machine.exists_reachableIf_of_runIf (M := machine 0 (sampleConfig 1)) hend
  exact ⟨s, happlied, trickle_dissemination 0 (sampleConfig 1) hs⟩

/-- Node 1 hears of the first update and sends it, and then hears of the third one. The sink goes
on to the update 130. -/
def sampleStale : List (DissAction (Fin 2)) :=
  [DissAction.issue (sampleConfig 3) true, .hear 1 0 true, .timer 1 .firstTransmission,
    .issue (sampleConfig 3) true, .issue (sampleConfig 3) true, .hear 1 3 true] ++
  List.replicate 127 (DissAction.issue (sampleConfig 3) true)

/-- What the nodes being close does not give. The sink at the update 130 hears the message that
node 1 has sent at the update 1, and goes back to it. A sink that finds no room in the pool owes
transmissions, but holds no packet. -/
theorem not_forall_trickle_dissemination :
    (¬ ∀ s a t, (machine (0 : Fin 2) (sampleConfig 1)).ReachableIf
        (keepsApart 0 (sampleConfig 1)) s → keepsApart 0 (sampleConfig 1) s a →
      (machine 0 (sampleConfig 1)).step s a = some t → Forward s t) ∧
    ¬ ∀ s, (machine (0 : Fin 2) (sampleConfig 1)).ReachableIf
        (keepsApart 0 (sampleConfig 1)) s →
      ∀ i, (s.nodes i).trickle.owes = true → ∃ p, (s.nodes i).trickle.q = some p := by
  constructor
  · intro hall
    -- The last step, and the sink before and after it.
    have hend : ((machine (0 : Fin 2) (sampleConfig 1)).runIf (keepsApart 0 (sampleConfig 1))
        (machine 0 (sampleConfig 1)).init sampleStale).map (fun s =>
          ((s.nodes 0).number, decide (keepsApart 0 (sampleConfig 1) s (.hear 0 1 true)),
            ((machine 0 (sampleConfig 1)).step s (.hear 0 1 true)).map
              fun t => (t.nodes 0).number)) =
          some (130, true, some 1) := by decide +kernel
    obtain ⟨s, hs, hsink⟩ :=
      Machine.exists_reachableIf_of_runIf (M := machine 0 (sampleConfig 1)) hend
    obtain ⟨hbefore, hrest⟩ := Prod.mk.inj hsink
    obtain ⟨hkeeps, hstep⟩ := Prod.mk.inj hrest
    obtain ⟨t, hstep, hafter⟩ := Option.map_eq_some_iff.mp hstep
    have hle := hall s (.hear 0 1 true) t hs (of_decide_eq_true hkeeps) hstep 0
    rw [hbefore, hafter] at hle
    omega
  · intro hall
    have hend : ((machine (0 : Fin 2) (sampleConfig 1)).runIf (keepsApart 0 (sampleConfig 1))
        (machine 0 (sampleConfig 1)).init [.issue (sampleConfig 3) false]).map (fun s =>
          ((s.nodes 0).trickle.owes, (s.nodes 0).trickle.q.isNone)) = some (true, true) := by
      decide +kernel
    obtain ⟨s, hs, hsink⟩ :=
      Machine.exists_reachableIf_of_runIf (M := machine 0 (sampleConfig 1)) hend
    obtain ⟨howes, hnone⟩ := Prod.mk.inj hsink
    obtain ⟨p, hp⟩ := hall s hs 0 howes
    rw [hp] at hnone
    cases hnone

end Mac.Dissemination

end PTunes
