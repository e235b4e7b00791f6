import PTunes.Glossy.Network

/-!
# `PTunes.Proofs.Glossy.Versioning`: what is adopted is what was parsed

`new_cfg` is the output of the parser and the target of the scheduler's adoption, and the
fields of `glossy_config_data` are written one after the other. So a round that ends while
`dissemination_process` is at work overwrites the tuple that it is about to publish, and a
flood that starts while it publishes carries a mixture. The new sequence number never
corrects either of them. `Undisturbed` excludes these steps.

In undisturbed runs the configurations on the air, at the nodes and in the records are
`Published`: each is the tuple with its own number, modulo 256 (`NodeInv`, `Inv`).
`DissInv` speaks about the memory that `dissemination_process` leaves when it is not
interrupted: from the line on, `glossy_config_data` will be the last tuple under the last
number. `versioned` adds the bound on the number of updates.
-/

set_option autoImplicit false

namespace PTunes.Glossy

open Straight
open PTunes.Rime (RimeAddr)

/-! ### Published tuples -/

/-- `c` is a tuple of `vs` whose position is `seqNo`, modulo 256. -/
def Published (vs : List Config) (seqNo : UInt8) (c : Config) : Prop :=
  ∃ k, UInt8.ofNat k = seqNo ∧ vs[k]? = some c

/-- More tuples keep the published ones. -/
theorem Published.append {vs : List Config} {seqNo : UInt8} {c : Config}
    (h : Published vs seqNo c) (ws : List Config) : Published (vs ++ ws) seqNo c := by
  obtain ⟨k, hk, hc⟩ := h
  have hlt : k < vs.length := (List.getElem?_eq_some_iff.mp hc).1
  exact ⟨k, hk, by rw [List.getElem?_append_left hlt, hc]⟩

/-- With at most 256 tuples the number is the position. -/
theorem Published.getElem? {vs : List Config} {seqNo : UInt8} {c : Config}
    (h : Published vs seqNo c) (hlen : vs.length ≤ 256) : vs[seqNo.toNat]? = some c := by
  obtain ⟨k, rfl, hc⟩ := h
  have hlt : k < vs.length := (List.getElem?_eq_some_iff.mp hc).1
  have hk : (UInt8.ofNat k).toNat = k := by
    rw [UInt8.toNat_ofNat']
    omega
  rw [hk, hc]

/-! ### One node -/

/-- `adaptation_process` has begun to copy `new_cfg`. -/
def Node.MidCopy (s : Node) : Prop := s.adapt.code ≠ [] ∧ s.adapt.code ≠ adaptation

instance (s : Node) : Decidable s.MidCopy := inferInstanceAs (Decidable (_ ∧ _))

/-- The next stretch of the scheduler adopts a configuration. -/
def Node.Adopts (nNodes : Nat) (bootstrapping : Bool) (s : Node) : Prop :=
  endsRound nNodes bootstrapping s.pc = true ∧ s.data.seqNo ≠ s.configSeqNo

instance (nNodes : Nat) (bootstrapping : Bool) (s : Node) :
    Decidable (s.Adopts nNodes bootstrapping) := inferInstanceAs (Decidable (_ ∧ _))

/-- What a node has adopted is published, and so is what it is about to apply. -/
structure NodeInv (vs : List Config) (s : Node) : Prop where
  polled : s.polled = true → Published vs s.configSeqNo s.newCfg
  adapting : s.adapt.code ≠ [] →
    Published vs s.configSeqNo (s.adapt.result adaptMemory s.adaptMem).currentCfg
  /-- `adaptation_process` does not write `new_cfg`. -/
  readsNewCfg : ∀ f, .store (.newCfg f) ∉ s.adapt.code
  adopted : ∀ e ∈ s.adopted, Published vs e.1 e.2
  applied : ∀ e ∈ s.applied, Published vs e.1 e.2

namespace NodeInv

variable {vs : List Config} {s t : Node}

/-- A node that has started has adopted nothing, and applies nothing. -/
theorem init (vs : List Config) (c : Config) : NodeInv vs (Node.init c) where
  polled h := nomatch h
  adapting h := absurd rfl h
  readsNewCfg _ h := nomatch h
  adopted _ h := nomatch h
  applied _ h := nomatch h

/-- A further version does not change what a node holds of the earlier ones. -/
theorem append (h : NodeInv vs s) (ws : List Config) : NodeInv (vs ++ ws) s where
  polled hp := (h.polled hp).append ws
  adapting ha := (h.adapting ha).append ws
  readsNewCfg := h.readsNewCfg
  adopted e he := (h.adopted e he).append ws
  applied e he := (h.applied e he).append ws

/-- The invariant does not read the scheduler's position, the radio or
`glossy_config_data`. -/
theorem congr (h : NodeInv vs s) (pc : SchedulerPc) (on : Bool) (d : GlossyConfig) :
    NodeInv vs { s with pc := pc, glossyOn := on, data := d } :=
  ⟨h.polled, h.adapting, h.readsNewCfg, h.adopted, h.applied⟩

/-- The adoption of a published configuration, unless the node is copying an earlier one. -/
theorem adopt (h : NodeInv vs s)
    (hd : s.data.seqNo ≠ s.configSeqNo →
      Published vs s.data.seqNo s.data.config ∧ ¬ s.MidCopy) :
    NodeInv vs s.adopt := by
  unfold Node.adopt
  split
  · rename_i hne
    obtain ⟨hpub, hcopy⟩ := hd hne
    constructor
    · intro _
      exact hpub
    · intro hcode
      -- The adaptation has not read anything yet, so it will copy the new `new_cfg`.
      have hfull : s.adapt.code = adaptation := by
        by_contra hn
        exact hcopy ⟨hcode, hn⟩
      show Published vs s.data.seqNo (exec adaptMemory s.adapt.code _).2.currentCfg
      rw [hfull, exec_adaptation]
      exact hpub
    · exact h.readsNewCfg
    · intro e he
      rcases List.mem_append.mp he with he | he
      · exact h.adopted e he
      · rw [List.mem_singleton.mp he]
        exact hpub
    · exact h.applied
  · exact h

/-- A stretch of the scheduler. -/
theorem glossyScheduler (h : NodeInv vs s) {nNodes : Nat} {bootstrapping : Bool}
    (hd : s.Adopts nNodes bootstrapping →
      Published vs s.data.seqNo s.data.config ∧ ¬ s.MidCopy) :
    NodeInv vs (s.glossyScheduler nNodes bootstrapping) := by
  obtain ⟨pc, on, heq⟩ := s.glossyScheduler_eq nNodes bootstrapping
  have hmoved : NodeInv vs { s with pc := pc, glossyOn := on } := h.congr pc on s.data
  rw [heq]
  split
  · rename_i hends
    exact hmoved.adopt fun hne => hd ⟨hends, hne⟩
  · exact hmoved

/-- The poll of `adaptation_process`. -/
theorem adaptStart (h : NodeInv vs s) (hp : s.polled = true) : NodeInv vs s.adaptStart where
  polled hf := nomatch hf
  adapting _ := by
    show Published vs s.configSeqNo (exec adaptMemory adaptation _).2.currentCfg
    rw [exec_adaptation]
    exact h.polled hp
  readsNewCfg f := by
    show _ ∉ adaptation
    cases f <;> decide
  adopted := h.adopted
  applied := h.applied

/-- An instruction of `adaptation_process` writes `current_cfg` only. -/
theorem adaptStep_frame (h : NodeInv vs s) (hst : s.adaptStep = some t) :
    t.newCfg = s.newCfg ∧ t.data = s.data ∧ t.polled = s.polled := by
  obtain ⟨⟨t', m'⟩, hstep, rfl⟩ := Option.map_eq_some_iff.mp hst
  refine ⟨?_, rfl, rfl⟩
  apply Thread.step_frame AdaptMem.newCfg hstep
  intro c hc m v
  cases c with
  | newCfg f => exact absurd (List.mem_of_mem_head? hc) (h.readsNewCfg f)
  | currentCfg f => rfl

/-- An instruction of `adaptation_process`. -/
theorem adaptStep (h : NodeInv vs s) (hst : s.adaptStep = some t) : NodeInv vs t := by
  have hframe := h.adaptStep_frame hst
  obtain ⟨⟨t', m'⟩, hstep, rfl⟩ := Option.map_eq_some_iff.mp hst
  obtain ⟨i, code, hcode, hcode', -⟩ := Thread.step_cases hstep
  have hne : s.adapt.code ≠ [] := by simp [hcode]
  have hres : t'.result adaptMemory m' = s.adapt.result adaptMemory s.adaptMem :=
    Thread.result_step hstep
  have hpub := h.adapting hne
  rw [← hres] at hpub
  constructor
  · intro hp
    show Published vs s.configSeqNo m'.newCfg
    rw [show m'.newCfg = s.newCfg from hframe.1]
    exact h.polled hp
  · intro _
    exact hpub
  · intro f hf
    refine h.readsNewCfg f ?_
    rw [hcode, ← hcode']
    exact List.mem_cons_of_mem i hf
  · exact h.adopted
  · intro e he
    dsimp only at he
    split at he
    · rename_i hdone
      rcases List.mem_append.mp he with he | he
      · exact h.applied e he
      · -- The process is done, so `current_cfg` is its result.
        rw [Thread.result_of_idle hdone] at hpub
        rw [List.mem_singleton.mp he]
        exact hpub
    · exact h.applied e he

end NodeInv

/-- A stretch of the scheduler leaves `glossy_config_data` and `adaptation_process`. -/
theorem Node.glossyScheduler_frame (nNodes : Nat) (bootstrapping : Bool) (s : Node) :
    (s.glossyScheduler nNodes bootstrapping).data = s.data ∧
    (s.glossyScheduler nNodes bootstrapping).adapt = s.adapt := by
  obtain ⟨pc, on, heq⟩ := s.glossyScheduler_eq nNodes bootstrapping
  rw [heq]
  unfold Node.adopt
  split <;> try split
  all_goals exact ⟨rfl, rfl⟩

/-- It leaves `new_cfg` as well when it does not adopt. -/
theorem Node.glossyScheduler_of_not_adopts {nNodes : Nat} {bootstrapping : Bool} {s : Node}
    (h : ¬ s.Adopts nNodes bootstrapping) :
    (s.glossyScheduler nNodes bootstrapping).newCfg = s.newCfg ∧
    (s.glossyScheduler nNodes bootstrapping).polled = s.polled := by
  obtain ⟨pc, on, heq⟩ := s.glossyScheduler_eq nNodes bootstrapping
  rw [heq]
  split
  · rename_i hends
    have hseq : s.data.seqNo = s.configSeqNo := by
      by_contra hne
      exact h ⟨hends, hne⟩
    simp [Node.adopt, hseq]
  · exact ⟨rfl, rfl⟩

/-! ### The dissemination -/

/-- `glossy_config_data` is written in part: the new sequence number without all of its
fields. -/
def Torn (diss : DissThread) : Prop := diss.code ≠ [] ∧ .store .seqNo ∉ diss.code

instance (diss : DissThread) : Decidable (Torn diss) := inferInstanceAs (Decidable (_ ∧ _))

/-- The sequence number is the first field of `glossy_config_data` to be stored, and it is
stored once. -/
def SeqFirst : DissCode → Prop
  | [] => True
  | i :: code =>
    (.store .seqNo ∈ code → i ≠ .store .seqNo ∧ ∀ f, i ≠ .store (.data f)) ∧ SeqFirst code

/-- `dissemination_process` stores the sequence number first. -/
theorem seqFirst_disseminate (l : Line) : SeqFirst (disseminate l) := by
  unfold disseminate parseLine publish
  split <;> split <;> simp [SeqFirst, increment, copy]

/-- Every pass of `dissemination_process` stores a sequence number. -/
theorem store_seqNo_mem_disseminate (l : Line) : .store .seqNo ∈ disseminate l := by
  simp [disseminate, publish, increment]

/-- The dissemination on the sink. -/
structure DissInv (C : GlossyConf) (parsed : List Config) (assigned : List UInt8)
    (diss : DissThread) (sink : Node) : Prop where
  /-- Uninterrupted, the process leaves the last tuple under the last number. -/
  config : (C.initial :: parsed)[parsed.length]? =
    some (diss.result dissMemory ⟨sink.newCfg, sink.data⟩).data.config
  seqNo : (diss.result dissMemory ⟨sink.newCfg, sink.data⟩).data.seqNo =
    UInt8.ofNat parsed.length
  seqFirst : SeqFirst diss.code
  data : ¬ Torn diss → Published (C.initial :: parsed) sink.data.seqNo sink.data.config
  /-- The last tuple has its number once `seq_no` is stored. -/
  length : assigned.length + (if .store .seqNo ∈ diss.code then 1 else 0) = parsed.length
  fresh : ∀ k v, assigned[k]? = some v → v = UInt8.ofNat (k + 1)
  /-- While the process is at work, no adaptation is. -/
  busy : diss.code ≠ [] → sink.polled = false ∧ sink.adapt.code = []

namespace DissInv

variable {C : GlossyConf} {parsed : List Config} {assigned : List UInt8}
  {diss diss' : DissThread} {sink sink' : Node} {m : DissMem}

/-- The process waits for a line, and nothing was parsed or assigned. -/
theorem init (C : GlossyConf) : DissInv C [] [] ⟨[], 0⟩ (Node.init C.initial) where
  config := rfl
  seqNo := rfl
  seqFirst := trivial
  data _ := ⟨0, rfl, rfl⟩
  length := rfl
  fresh _ _ h := nomatch h
  busy h := absurd rfl h

/-- What the process does not read may change, and between two lines `new_cfg` may change
as well. -/
theorem congr (h : DissInv C parsed assigned diss sink) (hdata : sink'.data = sink.data)
    (hbusy : diss.code ≠ [] → sink'.newCfg = sink.newCfg ∧ sink'.polled = sink.polled ∧
      sink'.adapt = sink.adapt) :
    DissInv C parsed assigned diss sink' := by
  have hres : (diss.result dissMemory ⟨sink'.newCfg, sink'.data⟩).data =
      (diss.result dissMemory ⟨sink.newCfg, sink.data⟩).data := by
    by_cases hcode : diss.code = []
    · rw [Thread.result_of_idle hcode, Thread.result_of_idle hcode]
      exact hdata
    · rw [hdata, (hbusy hcode).1]
  constructor
  · rw [hres]
    exact h.config
  · rw [hres]
    exact h.seqNo
  · exact h.seqFirst
  · rw [hdata]
    exact h.data
  · exact h.length
  · exact h.fresh
  · intro hcode
    obtain ⟨-, hp, ha⟩ := hbusy hcode
    rw [hp, ha]
    exact h.busy hcode

/-- A line is parsed while nothing else is going on. -/
theorem line (h : DissInv C parsed assigned diss sink) (l : Line) (hidle : diss.code = [])
    (hpolled : sink.polled = false) (hadapt : sink.adapt.code = []) :
    DissInv C (parsed ++ [l.config]) assigned ⟨disseminate l, diss.reg⟩ sink := by
  have hmem := store_seqNo_mem_disseminate l
  have hres : (Thread.result dissMemory ⟨disseminate l, diss.reg⟩ ⟨sink.newCfg, sink.data⟩) =
      ⟨l.config, ⟨l.config, sink.data.seqNo + 1⟩⟩ := exec_disseminate l _
  constructor
  · rw [hres]
    simp
  · -- Between two lines the last number is in `glossy_config_data`.
    have hseq := h.seqNo
    rw [Thread.result_of_idle hidle] at hseq
    rw [hres]
    show sink.data.seqNo + 1 = _
    rw [show sink.data.seqNo = _ from hseq]
    simp [UInt8.ofNat_add]
  · exact seqFirst_disseminate l
  · intro _
    have hnot : ¬ Torn diss := fun ht => ht.1 hidle
    exact (h.data hnot).append [l.config]
  · have hlen := h.length
    simp only [hidle, List.not_mem_nil, if_false] at hlen
    simp only [hmem, if_true, List.length_append, List.length_singleton]
    omega
  · exact h.fresh
  · intro _
    exact ⟨hpolled, hadapt⟩

/-- The sequence number is stored: what is stored is the last number. -/
theorem stored (h : DissInv C parsed assigned diss sink)
    (hst : diss.step dissMemory ⟨sink.newCfg, sink.data⟩ = some (diss', m))
    (hhead : diss.code.head? = some (.store .seqNo)) :
    .store .seqNo ∉ diss'.code ∧ m.data.seqNo = UInt8.ofNat parsed.length := by
  obtain ⟨i, code, hcode, hcode', -⟩ := Thread.step_cases hst
  have hi : i = .store .seqNo := by simpa [hcode] using hhead
  have hfirst := h.seqFirst
  rw [hcode] at hfirst
  have hnot : .store .seqNo ∉ diss'.code := by
    intro hmem
    rw [hcode'] at hmem
    exact (hfirst.1 hmem).1 hi
  refine ⟨hnot, ?_⟩
  rw [← h.seqNo, ← Thread.result_step hst]
  -- The rest of the code stores no sequence number.
  symm
  apply Thread.result_frame fun m : DissMem => m.data.seqNo
  intro c hc m v
  cases c with
  | newCfg f => rfl
  | data f => rfl
  | seqNo => exact absurd hc hnot

/-- As long as `seq_no` is not stored, `glossy_config_data` is as it was. -/
theorem data_of_store_mem (h : DissInv C parsed assigned diss sink)
    (hst : diss.step dissMemory ⟨sink.newCfg, sink.data⟩ = some (diss', m))
    (hmem : .store .seqNo ∈ diss'.code) : m.data = sink.data := by
  obtain ⟨i, code, hcode, hcode', -⟩ := Thread.step_cases hst
  have hfirst := h.seqFirst
  rw [hcode] at hfirst
  have hi := hfirst.1 (hcode' ▸ hmem)
  apply Thread.step_frame DissMem.data hst
  intro c hc m v
  have hic : i = .store c := by simpa [hcode] using hc
  cases c with
  | newCfg f => rfl
  | data f => exact absurd hic (hi.2 f)
  | seqNo => exact absurd hic hi.1

/-- An instruction of the process. -/
theorem step (h : DissInv C parsed assigned diss sink)
    (hst : diss.step dissMemory ⟨sink.newCfg, sink.data⟩ = some (diss', m)) :
    DissInv C parsed
      (if diss.code.head? = some (.store .seqNo) then assigned ++ [m.data.seqNo]
        else assigned)
      diss' { sink with newCfg := m.newCfg, data := m.data } := by
  obtain ⟨i, code, hcode, hcode', -⟩ := Thread.step_cases hst
  have hres : diss'.result dissMemory m =
      diss.result dissMemory ⟨sink.newCfg, sink.data⟩ := Thread.result_step hst
  have hlen := h.length
  constructor
  · rw [hres]
    exact h.config
  · rw [hres]
    exact h.seqNo
  · have hfirst := h.seqFirst
    rw [hcode] at hfirst
    rw [hcode']
    exact hfirst.2
  · intro hnot
    by_cases hmem : .store .seqNo ∈ diss'.code
    · -- Before the number is stored the packet is still the old one.
      have hdiss : ¬ Torn diss := by
        rintro ⟨-, hn⟩
        rw [hcode'] at hmem
        rw [hcode] at hn
        exact hn (List.mem_cons_of_mem i hmem)
      show Published _ m.data.seqNo m.data.config
      rw [h.data_of_store_mem hst hmem]
      exact h.data hdiss
    · -- All fields are stored, so the process has reached its result.
      have hdone : diss'.code = [] := by
        by_contra hn
        exact hnot ⟨hn, hmem⟩
      have hseq := h.seqNo
      have hconfig := h.config
      rw [← hres, Thread.result_of_idle hdone] at hseq hconfig
      exact ⟨parsed.length, hseq.symm, hconfig⟩
  · -- The step that stores the number is the one that is counted.
    by_cases hhead : diss.code.head? = some (.store .seqNo)
    · have hnot := (h.stored hst hhead).1
      have hmem : .store .seqNo ∈ diss.code := List.mem_of_mem_head? hhead
      simp only [hmem, if_true] at hlen
      simp only [hhead, hnot, if_true, if_false, List.length_append, List.length_singleton]
      omega
    · have hiff : .store .seqNo ∈ diss'.code ↔ .store .seqNo ∈ diss.code := by
        have hi : i ≠ .store .seqNo := by simpa [hcode] using hhead
        simp [hcode, hcode', hi.symm]
      simp only [hhead, if_false, hiff]
      exact hlen
  · intro k v hk
    split at hk
    · rename_i hhead
      obtain ⟨-, hseq⟩ := h.stored hst hhead
      have hmem : .store .seqNo ∈ diss.code := List.mem_of_mem_head? hhead
      simp only [hmem, if_true] at hlen
      -- An old number is as it was, the new one is the count of the lines.
      rcases Nat.lt_or_ge k assigned.length with hlt | hge
      · rw [List.getElem?_append_left hlt] at hk
        exact h.fresh k v hk
      · rw [List.getElem?_append_right hge] at hk
        have hk0 : k - assigned.length = 0 := by
          have := (List.getElem?_eq_some_iff.mp hk).1
          simpa using this
        have hv : v = m.data.seqNo := by
          rw [hk0] at hk
          simpa using hk.symm
        rw [hv, hseq, ← hlen, show k = assigned.length by omega]
    · exact h.fresh k v hk
  · intro _
    exact h.busy (by simp [hcode])

end DissInv

/-! ### The network -/

namespace Network

variable {C : GlossyConf} {s t : Network} {a : NetworkAction}

/-- The tuples in the order of their sequence numbers. Number 0 is the configuration before
the first line. -/
def versions (C : GlossyConf) (s : Network) : List Config := C.initial :: s.parsed

/-- No packet is made from a torn `glossy_config_data`. Nothing is adopted by a node that is
copying an earlier configuration, nor by the sink while it disseminates one. No line is
parsed while the sink has still to copy `new_cfg`. -/
def Undisturbed (C : GlossyConf) (s : Network) : NetworkAction → Prop
  | .scheduler node bootstrapping =>
    (node = C.sink → (s.nodes node).pc = .waiting → ¬ Torn s.diss) ∧
    ((s.nodes node).Adopts C.nNodes bootstrapping →
      ¬ (s.nodes node).MidCopy ∧ (node = C.sink → s.diss.code = []))
  | .initiatorTimeout => ¬ Torn s.diss
  | .line _ => (s.nodes C.sink).polled = false
  | .glossyOff _ | .receive _ _ | .dissStep | .adaptStart _ | .adaptStep _ => True

instance (C : GlossyConf) (s : Network) : ∀ a, Decidable (s.Undisturbed C a)
  | .scheduler _ _ => inferInstanceAs (Decidable (_ ∧ _))
  | .initiatorTimeout => inferInstanceAs (Decidable (¬ _))
  | .line _ => inferInstanceAs (Decidable (_ = _))
  | .glossyOff _ | .receive _ _ | .dissStep | .adaptStart _ | .adaptStep _ => .isTrue trivial

/-- The invariant of undisturbed runs. -/
structure Inv (C : GlossyConf) (s : Network) : Prop where
  nodes : ∀ node, NodeInv (s.versions C) (s.nodes node)
  received : ∀ node, node ≠ C.sink →
    Published (s.versions C) (s.nodes node).data.seqNo (s.nodes node).data.config
  air : ∀ packet ∈ s.air, Published (s.versions C) packet.seqNo packet.config
  diss : DissInv C s.parsed s.assigned s.diss (s.nodes C.sink)

/-- At the start no version exists, and all nodes hold the initial configuration. -/
theorem inv_init (C : GlossyConf) : Inv C (init C) where
  nodes _ := NodeInv.init _ _
  received _ _ := ⟨0, rfl, rfl⟩
  air _ h := nomatch h
  diss := DissInv.init C

namespace Inv

/-- One node changes, and the packets of the flood. -/
theorem setNode (h : Inv C s) (air : List GlossyConfig) {node : RimeAddr} {n : Node}
    (hn : NodeInv (s.versions C) n)
    (hd : node ≠ C.sink → Published (s.versions C) n.data.seqNo n.data.config)
    (hair : ∀ packet ∈ air, Published (s.versions C) packet.seqNo packet.config)
    (hdiss : node = C.sink → DissInv C s.parsed s.assigned s.diss n) :
    Inv C { s.setNode node n with air := air } where
  nodes := by
    refine (Function.forall_update_iff s.nodes
      (p := fun _ n => NodeInv (s.versions C) n)).mpr ?_
    exact ⟨hn, fun x _ => h.nodes x⟩
  received := by
    refine (Function.forall_update_iff s.nodes
      (p := fun x n => x ≠ C.sink →
        Published (s.versions C) n.data.seqNo n.data.config)).mpr ?_
    exact ⟨hd, fun x _ => h.received x⟩
  air := hair
  diss := by
    show DissInv C s.parsed s.assigned s.diss (Function.update s.nodes node n C.sink)
    by_cases hs : node = C.sink
    · rw [hs, Function.update_self]
      exact hdiss hs
    · rw [Function.update_of_ne (fun he => hs he.symm)]
      exact h.diss

/-- What a node has in `glossy_config_data` is published, unless it is torn on the sink. -/
theorem data (h : Inv C s) (node : RimeAddr) (hnot : node = C.sink → ¬ Torn s.diss) :
    Published (s.versions C) (s.nodes node).data.seqNo (s.nodes node).data.config := by
  by_cases hs : node = C.sink
  · rw [hs]
    exact h.diss.data (hnot hs)
  · exact h.received node hs

/-- The scheduler of a node reads the configuration, or begins a flood with it. At the sink the
condition says that `dissemination_process` is not in the middle of a pass then. -/
theorem scheduler (h : Inv C s) {node : RimeAddr} {bootstrapping : Bool}
    (hok : s.Undisturbed C (.scheduler node bootstrapping)) :
    Inv C { s.setNode node (Node.glossyScheduler C.nNodes bootstrapping (s.nodes node)) with
      air := s.floodStart C node } := by
  obtain ⟨hflood, hadopt⟩ := hok
  obtain ⟨hdata, hadapt⟩ := (s.nodes node).glossyScheduler_frame C.nNodes bootstrapping
  apply h.setNode (s.floodStart C node)
  · apply (h.nodes node).glossyScheduler
    intro ha
    -- At the sink the copy is read only when the process is idle.
    obtain ⟨hcopy, hidle⟩ := hadopt ha
    exact ⟨h.data node fun hs ht => ht.1 (hidle hs), hcopy⟩
  · intro hs
    rw [hdata]
    exact h.received node hs
  · intro packet hp
    unfold floodStart at hp
    split at hp
    · rename_i hstart
      rw [List.mem_singleton.mp hp]
      exact h.data node fun hs => hflood hs hstart.2
    · exact h.air packet hp
  · intro hs
    have hdiss := h.diss
    rw [← hs] at hdiss
    apply hdiss.congr hdata
    intro hcode
    have hnot : ¬ (s.nodes node).Adopts C.nNodes bootstrapping :=
      fun ha => hcode ((hadopt ha).2 hs)
    obtain ⟨hcfg, hpolled⟩ := Node.glossyScheduler_of_not_adopts hnot
    exact ⟨hcfg, hpolled, hadapt⟩

/-- A line comes while the process waits, and while no configuration waits for its adaptation at the
sink. -/
theorem line (h : Inv C s) {l : Line} (hidle : s.diss.code = [])
    (hpolled : (s.nodes C.sink).polled = false) (hadapt : (s.nodes C.sink).adapt.code = []) :
    Inv C { s with
      diss := ⟨disseminate l, s.diss.reg⟩
      parsed := s.parsed ++ [l.config] } where
  nodes node := (h.nodes node).append [l.config]
  received node hs := (h.received node hs).append [l.config]
  air packet hp := (h.air packet hp).append [l.config]
  diss := h.diss.line l hidle hpolled hadapt

/-- One instruction of `dissemination_process`. What its pass will leave is known from the start of
the pass (`Thread.result`), so the instruction does not have to be looked at. -/
theorem dissStep (h : Inv C s) (hst : s.dissStep C = some t) : Inv C t := by
  obtain ⟨⟨diss', m⟩, hstep, rfl⟩ := Option.map_eq_some_iff.mp hst
  have hne : s.diss.code ≠ [] := by
    obtain ⟨i, code, hcode, -⟩ := Thread.step_cases hstep
    simp [hcode]
  obtain ⟨hpolled, hadapt⟩ := h.diss.busy hne
  have hsink := h.nodes C.sink
  constructor
  · refine (Function.forall_update_iff s.nodes
      (p := fun _ n => NodeInv (s.versions C) n)).mpr ⟨?_, fun x _ => h.nodes x⟩
    -- The sink has nothing to adapt to while it disseminates.
    constructor
    · intro hp
      rw [show (s.nodes C.sink).polled = true from hp] at hpolled
      cases hpolled
    · intro ha
      exact absurd hadapt ha
    · exact hsink.readsNewCfg
    · exact hsink.adopted
    · exact hsink.applied
  · intro node hs
    show Published _ (Function.update s.nodes C.sink _ node).data.seqNo
      (Function.update s.nodes C.sink _ node).data.config
    rw [Function.update_of_ne hs]
    exact h.received node hs
  · exact h.air
  · show DissInv C s.parsed _ diss' (Function.update s.nodes C.sink _ C.sink)
    rw [Function.update_self]
    exact h.diss.step hstep

/-- `adaptation_process` takes a step at a node. -/
theorem adapt (h : Inv C s) {node : RimeAddr} {n : Node} (hn : NodeInv (s.versions C) n)
    (hdata : n.data = (s.nodes node).data) (hsink : node = C.sink → s.diss.code = []) :
    Inv C (s.setNode node n) := by
  refine h.setNode s.air hn ?_ h.air ?_
  · intro hs
    rw [hdata]
    exact h.received node hs
  · intro hs
    subst hs
    exact h.diss.congr hdata fun hcode => absurd (hsink rfl) hcode

/-- The initiator sends the configuration once more. -/
theorem initiatorTimeout (h : Inv C s) (hok : s.Undisturbed C .initiatorTimeout)
    (hst : (machine C).step s .initiatorTimeout = some t) : Inv C t := by
  simp only [machine] at hst
  split at hst
  · cases hst
    refine ⟨h.nodes, h.received, ?_, h.diss⟩
    intro packet hp
    rcases List.mem_append.mp hp with hp | hp
    · exact h.air packet hp
    · rw [List.mem_singleton.mp hp]
      exact h.diss.data hok
  · cases hst

/-- A node receives a packet of the flood, which every packet has from its initiator. -/
theorem receive {node : RimeAddr} {k : Nat} (h : Inv C s)
    (hst : (machine C).step s (.receive node k) = some t) : Inv C t := by
  simp only [machine] at hst
  split at hst
  · rename_i packet hk
    split at hst
    · rename_i hrecv
      cases hst
      refine h.setNode s.air ?_ ?_ h.air ?_
      · exact (h.nodes node).congr _ _ packet
      · intro _
        exact h.air packet (List.mem_of_getElem? hk)
      · intro hs
        exact absurd hs hrecv.1
    · cases hst
  · cases hst

/-- `adaptation_process` takes the configuration. The sink is not polled while it disseminates. -/
theorem adaptStart {node : RimeAddr} (h : Inv C s)
    (hst : (machine C).step s (.adaptStart node) = some t) : Inv C t := by
  simp only [machine] at hst
  split at hst
  · rename_i hstart
    obtain ⟨hpolled, -, -⟩ := hstart
    cases hst
    refine h.adapt ((h.nodes node).adaptStart hpolled) rfl ?_
    intro hs
    by_contra hcode
    have hnot := (h.diss.busy hcode).1
    rw [← hs, hpolled] at hnot
    cases hnot
  · cases hst

/-- One instruction of `adaptation_process`. The sink has none to take while it disseminates. -/
theorem adaptStep {node : RimeAddr} (h : Inv C s)
    (hst : (machine C).step s (.adaptStep node) = some t) : Inv C t := by
  obtain ⟨n, hstep, rfl⟩ := Option.map_eq_some_iff.mp hst
  obtain ⟨-, hdata, -⟩ := (h.nodes node).adaptStep_frame hstep
  refine h.adapt ((h.nodes node).adaptStep hstep) hdata ?_
  intro hs
  by_contra hcode
  have hnot := (h.diss.busy hcode).2
  obtain ⟨p, hp, -⟩ := Option.map_eq_some_iff.mp hstep
  obtain ⟨i, code, hi, -⟩ := Thread.step_cases hp
  rw [← hs, hi] at hnot
  cases hnot

end Inv

/-- An undisturbed step keeps the invariant. -/
theorem inv_step (h : Inv C s) (hok : s.Undisturbed C a) (hst : (machine C).step s a = some t) :
    Inv C t := by
  cases a with
  | scheduler node bootstrapping =>
      cases hst
      exact h.scheduler hok
  | initiatorTimeout => exact h.initiatorTimeout hok hst
  | glossyOff node =>
      cases hst
      refine h.setNode s.air ?_ (h.received node) h.air ?_
      · exact (h.nodes node).congr _ false _
      · intro hs
        subst hs
        exact h.diss.congr rfl fun _ => ⟨rfl, rfl, rfl⟩
  | receive node k => exact h.receive hst
  | line l =>
      simp only [machine] at hst
      split at hst
      · rename_i hidle
        cases hst
        exact h.line hidle.1 hok hidle.2
      · cases hst
  | dissStep =>
      simp only [machine] at hst
      split at hst
      · exact h.dissStep hst
      · cases hst
  | adaptStart node => exact h.adaptStart hst
  | adaptStep node => exact h.adaptStep hst

/-- What the sequence numbers are for: the tuples get the numbers 1, 2, 3 and so on, each
parsed tuple has its number when the process waits for the next line, and what a node has
adopted or applied under a number is the tuple with this number. -/
structure Versioned (C : GlossyConf) (s : Network) : Prop where
  fresh : ∀ k v, s.assigned[k]? = some v → v.toNat = k + 1
  all : s.diss.code = [] → s.assigned.length = s.parsed.length
  adopted : ∀ node, ∀ e ∈ (s.nodes node).adopted, (s.versions C)[e.1.toNat]? = some e.2
  applied : ∀ node, ∀ e ∈ (s.nodes node).applied, (s.versions C)[e.1.toNat]? = some e.2

/-- In undisturbed runs with fewer than 256 updates, every node adopts the tuples that were
parsed. -/
theorem versioned (h : (machine C).ReachableIf (fun s a => s.Undisturbed C a) s)
    (hlen : s.parsed.length < 256) : Versioned C s := by
  have hinv : Inv C s :=
    h.invariant (Inv C) (inv_init C) fun _ _ _ hi hok hst => inv_step hi hok hst
  have hversions : (s.versions C).length ≤ 256 := by
    simp only [versions, List.length_cons]
    omega
  have hassigned := hinv.diss.length
  constructor
  · intro k v hk
    have hlt : k < s.assigned.length := (List.getElem?_eq_some_iff.mp hk).1
    rw [hinv.diss.fresh k v hk, UInt8.toNat_ofNat']
    split at hassigned <;> omega
  · intro hidle
    simpa [hidle] using hassigned
  · intro node e he
    exact ((hinv.nodes node).adopted e he).getElem? hversions
  · intro node e he
    exact ((hinv.nodes node).applied e he).getElem? hversions

/-! ### Sample runs -/

/-- The sink has address 200, and there is one report in a round. -/
def sampleConf : GlossyConf := ⟨⟨200, 0⟩, 1, ⟨197, 3277, 3⟩⟩

/-- 10 ms, 200 ms, 2 retransmissions. -/
def sampleLine : Line := ⟨10, 200, 2⟩

/-- 6 ms, 100 ms, 5 retransmissions. -/
def sampleLine' : Line := ⟨6, 100, 5⟩

/-- A round in which the node 1 receives the flood, while the nodes are bootstrapping. -/
def sampleRound : List NetworkAction :=
  [.scheduler ⟨200, 0⟩ true, .scheduler ⟨1, 0⟩ true, .receive ⟨1, 0⟩ 0,
    .scheduler ⟨1, 0⟩ true, .scheduler ⟨200, 0⟩ true]

/-- A line is parsed, published, flooded and adopted. -/
def sampleServed : List NetworkAction :=
  [NetworkAction.line sampleLine] ++
    List.replicate (disseminate sampleLine).length NetworkAction.dissStep ++ sampleRound

/-- The node 1 adopts the tuple of the line under the number 1. -/
theorem versioned_sample :
    ∃ s, (machine sampleConf).ReachableIf (fun s a => s.Undisturbed sampleConf a) s ∧
      (s.nodes ⟨1, 0⟩).adopted = [(1, sampleLine.config)] ∧ Versioned sampleConf s := by
  have hend : ((machine sampleConf).runIf (fun s a => s.Undisturbed sampleConf a)
      (init sampleConf) sampleServed).map (fun s => ((s.nodes ⟨1, 0⟩).adopted, s.parsed)) =
        some ([(1, sampleLine.config)], [sampleLine.config]) := by decide
  obtain ⟨s, hrun, hs⟩ := Machine.exists_reachableIf_of_runIf hend
  simp only [Prod.mk.injEq] at hs
  exact ⟨s, hrun, hs.1, versioned hrun (by simp [hs.2])⟩

/-- The first line is published. The second one is parsed when a round starts, and its
process waits for Glossy. The end of the round adopts the first tuple, which overwrites
`new_cfg`. Then the process publishes. -/
def sampleOverwritten : List NetworkAction :=
  [NetworkAction.line sampleLine] ++
  List.replicate (disseminate sampleLine).length NetworkAction.dissStep ++
  [NetworkAction.line sampleLine'] ++
  List.replicate (parseLine sampleLine').length NetworkAction.dissStep ++
  [NetworkAction.scheduler ⟨200, 0⟩ true, NetworkAction.scheduler ⟨200, 0⟩ true] ++
  List.replicate (1 + publish.length) NetworkAction.dissStep ++ sampleRound

/-- The first tuple is flooded under the number of the second one, and the node 1 adopts
it. -/
theorem not_forall_versioned :
    ¬ ∀ s, (machine sampleConf).Reachable s → s.parsed.length < 256 →
      Versioned sampleConf s := by
  intro hall
  have hend : ((machine sampleConf).run sampleOverwritten).map
      (fun s => ((s.nodes ⟨1, 0⟩).adopted, s.parsed)) =
        some ([(2, sampleLine.config)], [sampleLine.config, sampleLine'.config]) := by decide
  obtain ⟨s, hreach, hs⟩ := Machine.exists_reachable_of_run hend
  simp only [Prod.mk.injEq] at hs
  obtain ⟨hadopted, hparsed⟩ := hs
  have hv := hall s hreach (by simp [hparsed])
  have hbad := hv.adopted ⟨1, 0⟩ (2, sampleLine.config) (by simp [hadopted])
  rw [versions, hparsed] at hbad
  revert hbad
  decide

end Network

end PTunes.Glossy
