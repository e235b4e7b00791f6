import PTunes.Controller.HistoryRun
import PTunes.Proofs.Controller.History
import PTunes.Proofs.Controller.Purge

/-!
# `PTunes.Proofs.Controller.HistoryRun`: the most recent topology and the last messages

`newest_reports`: in every run of the two threads in which the clock does not go back, the most
recent topology has the record of the sink, each of its other records has what the last message of
its node reports, and every node whose last message is younger than both periods has a record.

The invariant compares times. A record is at least as young as the message that it is from, and at
most as young as its topology. The topologies are in the order of their times, so when the most
recent one is old, then all of them are, and the history ends up empty (`purge_cases`).
-/

set_option autoImplicit false

namespace PTunes.Controller

variable {ρ : Type} {conf : PurgeConf} {now : Int} {t : Topology ρ} {older : List (Topology ρ)}

/-! ### One message -/

/-- With a message of its own id the first topology has the record of the sink only. -/
theorem Topology.getNodeInfo_ofSink_self {sink n : NodeTopologyInfo ρ} (h : n.nodeId = sink.nodeId)
    (now : Int) : (ofSink sink n now).getNodeInfo =
      Function.update (fun _ => none) sink.nodeId (some sink) := by
  have hempty : (KeyedSet.empty : NodeSet ρ).contains sink = false := rfl
  have hsink := KeyedSet.get?_add _ hempty
  have hhas : ((KeyedSet.empty : NodeSet ρ).add sink).contains n = true := by
    rw [KeyedSet.contains, hsink, h, Function.update_self]
    rfl
  show (((KeyedSet.empty : NodeSet ρ).add sink).add n).get? = _
  rw [KeyedSet.add, dif_pos hhas, hsink]
  rfl

/-- What a message does: the new most recent topology differs from the old one in the record of one
node. The record is from the message, unless the message has the id of the sink. -/
theorem updateTopologyHistory_cases {sink nodeInfo : NodeTopologyInfo ρ} {clock : Nat → Int}
    (history : List (Topology ρ)) (hcreated : nodeInfo.timestamp ≤ clock 0)
    (h01 : clock 0 ≤ clock 1) (h12 : clock 1 ≤ clock 2) :
    ∃ t older r, updateTopologyHistory sink clock nodeInfo history = t :: older ∧
      older.Sublist history ∧
      t.getNodeInfo = Function.update (mostRecent sink history) nodeInfo.nodeId (some r) ∧
      (clock 0 ≤ t.currentTimestamp ∧ t.currentTimestamp ≤ clock 2) ∧
      (nodeInfo.nodeId ≠ sink.nodeId →
        Records nodeInfo r.pktRate r ∧ nodeInfo.timestamp ≤ r.timestamp) := by
  have h02 : clock 0 ≤ clock 2 := Int.le_trans h01 h12
  cases history with
  | nil =>
    -- The first topology has the sink in it, whose record wins over a message with its id.
    by_cases hid : nodeInfo.nodeId = sink.nodeId
    · refine ⟨_, [], sink, rfl, List.Sublist.refl _, ?_, ⟨Int.le_refl _, h02⟩,
        fun hne => absurd hid hne⟩
      rw [Topology.getNodeInfo_ofSink_self hid, mostRecent, hid, Function.update_idem]
    · exact ⟨_, [], nodeInfo, rfl, List.Sublist.refl _, Topology.getNodeInfo_ofSink hid _,
        ⟨Int.le_refl _, h02⟩, fun _ => ⟨Records.self nodeInfo, Int.le_refl _⟩⟩
  | cons last older =>
    cases hk : last.getNodeInfo nodeInfo.nodeId with
    | none =>
      -- A node not heard of before begins another topology.
      refine ⟨last.withNode nodeInfo (clock 0), last :: older, nodeInfo, ?_, List.Sublist.refl _,
        last.getNodeInfo_withNode _ _, ⟨Int.le_refl _, h02⟩,
        fun _ => ⟨Records.self nodeInfo, Int.le_refl _⟩⟩
      simp only [updateTopologyHistory, hk]
    | some known =>
      by_cases hrecent : last.isRecent (clock 0) = true
      · -- A recent topology is changed in its place.
        refine ⟨last.updateNode nodeInfo (clock 1) (clock 2), older,
          known.updateFrom nodeInfo (clock 1), ?_, List.sublist_cons_self _ _,
          getNodeInfo_updateNode hk _ _, ⟨h02, Int.le_refl _⟩,
          fun _ => ⟨Records.updateFrom _ _ _, Int.le_trans hcreated h01⟩⟩
        simp only [updateTopologyHistory, hk, hrecent, if_true]
      · -- An old one stays, and the new one keeps the packet rate that was known.
        refine ⟨last.withNode { nodeInfo with pktRate := known.pktRate } (clock 1), last :: older,
          { nodeInfo with pktRate := known.pktRate }, ?_, List.Sublist.refl _,
          last.getNodeInfo_withNode { nodeInfo with pktRate := known.pktRate } (clock 1),
          ⟨h01, h12⟩, fun _ => ⟨Records.carriedOver _ _, Int.le_refl _⟩⟩
        simp only [updateTopologyHistory, hk, hrecent, if_false, Bool.false_eq_true]

/-! ### One step of the purging thread -/

/-- In a history that is in order, either all topologies are old, or the most recent one stays. -/
theorem purge_cases (conf : PurgeConf) (now : Int)
    (hsorted : (t :: older).Pairwise fun t u => u.currentTimestamp ≤ t.currentTimestamp) :
    (t.currentTimestamp < now - conf.topologyTimeWindow * 60 ∧
      purge conf now (t :: older) = none) ∨
    ∃ left, left.Sublist older ∧ purge conf now (t :: older) =
      some (if (t.silentNodes conf now).toList.isEmpty then t :: left
        else t.withoutNodes (t.silentNodes conf now) now :: t :: left) := by
  by_cases hold : t.isOld conf now = true
  · have htime : t.currentTimestamp < now - conf.topologyTimeWindow * 60 := by
      simpa [Topology.isOld] using hold
    refine .inl ⟨htime, ?_⟩
    have hnil : ((t :: older).filter fun u => !u.isOld conf now) = [] := by
      rw [List.filter_eq_nil_iff]
      intro u hu
      rcases List.mem_cons.mp hu with rfl | hu
      · rw [hold]
        decide
      · have hle := List.rel_of_pairwise_cons hsorted hu
        have hlt : u.currentTimestamp < now - conf.topologyTimeWindow * 60 :=
          Int.lt_of_le_of_lt hle htime
        have huold : u.isOld conf now = true := by simpa [Topology.isOld] using hlt
        rw [huold]
        decide
    rw [purge, if_neg (by simp), hnil]
  · have hkept : kept conf now (t :: older) = t :: kept conf now older := by
      rw [kept, List.filter_cons_of_pos (by simpa using hold)]
      rfl
    exact .inr ⟨kept conf now older, List.filter_sublist, purge_of_kept hkept⟩

/-- What the topology without the silent nodes knows. -/
theorem getNodeInfo_withoutNodes {k : Int} {r : NodeTopologyInfo ρ} :
    (t.withoutNodes (t.silentNodes conf now) now).getNodeInfo k = some r ↔
      t.getNodeInfo k = some r ∧ r.isSilent conf now = false := by
  rw [Topology.getNodeInfo_eq_some_iff, Topology.getNodeInfo_eq_some_iff,
    Topology.toList_withoutNodes, List.mem_filter]
  constructor
  · rintro ⟨⟨hmem, hsilent⟩, hid⟩
    exact ⟨⟨hmem, hid⟩, by simpa using hsilent⟩
  · rintro ⟨⟨hmem, hid⟩, hsilent⟩
    exact ⟨⟨hmem, by simpa using hsilent⟩, hid⟩

/-! ### The run -/

namespace HistoryRun

variable {s s' : HistoryRun ρ} {a : HistoryAction ρ}

/-- The most recent topology has a record of the node. -/
def Known (history : List (Topology ρ)) (k : Int) : Prop :=
  ∃ t ∈ history.head?, ∃ r, t.getNodeInfo k = some r

/-- The message is older than one of the two periods. -/
def Expired (conf : PurgeConf) (now : Int) (msg : NodeTopologyInfo ρ) : Prop :=
  msg.timestamp ≤ now - conf.maximumPeriodOfSilence * 60 ∨
    msg.timestamp < now - conf.topologyTimeWindow * 60

/-- The topology has the record of the sink, and its other records are from the last messages. -/
structure Reflects (conf : PurgeConf) (latest : Int → Option (NodeTopologyInfo ρ))
    (t : Topology ρ) : Prop where
  sink : (t.getNodeInfo conf.sinkId).isSome = true
  records : ∀ k r, k ≠ conf.sinkId → t.getNodeInfo k = some r →
    ∃ msg, latest k = some msg ∧ Records msg r.pktRate r ∧ msg.timestamp ≤ r.timestamp ∧
      msg.timestamp ≤ t.currentTimestamp

/-- What holds in every run. -/
structure Inv (conf : PurgeConf) (s : HistoryRun ρ) : Prop where
  sorted : s.topologyHistory.Pairwise fun t u => u.currentTimestamp ≤ t.currentTimestamp
  past : ∀ t ∈ s.topologyHistory, t.currentTimestamp ≤ s.now
  reflects : ∀ t ∈ s.topologyHistory.head?, Reflects conf s.latest t
  /-- A node is missing only when its last message is too old. -/
  complete : ∀ k msg, k ≠ conf.sinkId → s.latest k = some msg →
    Known s.topologyHistory k ∨ Expired conf s.now msg

/-- A message that is out of date stays so. -/
theorem Expired.mono {msg : NodeTopologyInfo ρ} {now' : Int} (h : Expired conf now msg)
    (hnow : now ≤ now') : Expired conf now' msg := by
  rcases h with h | h
  · exact .inl (by omega)
  · exact .inr (by omega)

/-- At the start the history is empty. -/
theorem inv_init : (init : HistoryRun ρ).Inv conf where
  sorted := .nil
  past := nofun
  reflects := nofun
  complete := nofun

/-- The records of a new topology, when one of them is from a new message. -/
theorem Reflects.message {latest : Int → Option (NodeTopologyInfo ρ)}
    {sink nodeInfo r : NodeTopologyInfo ρ} {history : List (Topology ρ)}
    (h : ∀ u ∈ history.head?, Reflects conf latest u)
    (hpast : ∀ u ∈ history, u.currentTimestamp ≤ t.currentTimestamp)
    (hsink : sink.nodeId = conf.sinkId)
    (hget : t.getNodeInfo = Function.update (mostRecent sink history) nodeInfo.nodeId (some r))
    (htime : nodeInfo.timestamp ≤ t.currentTimestamp)
    (hr : nodeInfo.nodeId ≠ sink.nodeId →
      Records nodeInfo r.pktRate r ∧ nodeInfo.timestamp ≤ r.timestamp) :
    Reflects conf (Function.update latest nodeInfo.nodeId (some nodeInfo)) t where
  sink := by
    rw [hget]
    by_cases hid : conf.sinkId = nodeInfo.nodeId
    · rw [hid, Function.update_self]
      rfl
    · rw [Function.update_of_ne hid]
      cases history with
      | nil =>
        rw [mostRecent, hsink, Function.update_self]
        rfl
      | cons u older => exact (h u rfl).sink
  records := by
    intro k r' hk hget'
    rw [hget] at hget'
    by_cases hid : k = nodeInfo.nodeId
    · subst hid
      rw [Function.update_self] at hget' ⊢
      cases hget'
      obtain ⟨hrec, hle⟩ := hr (by rw [hsink]; exact hk)
      exact ⟨nodeInfo, rfl, hrec, hle, htime⟩
    · rw [Function.update_of_ne hid] at hget' ⊢
      cases history with
      | nil =>
        -- The first topology knows no other node.
        rw [mostRecent, Function.update_of_ne (by rw [hsink]; exact hk)] at hget'
        cases hget'
      | cons u older =>
        obtain ⟨msg, hmsg, hrec, hle, hleu⟩ := (h u rfl).records k r' hk hget'
        exact ⟨msg, hmsg, hrec, hle, Int.le_trans hleu (hpast u List.mem_cons_self)⟩

/-- A message goes into the newest topology or begins another one. The clock does not go back while
it is read. -/
theorem Inv.message (h : s.Inv conf) {sink nodeInfo : NodeTopologyInfo ρ} {clock : Nat → Int}
    (hok : ClockAdvances conf s (.message sink nodeInfo clock)) :
    (s.message sink nodeInfo clock).Inv conf := by
  obtain ⟨hsink, hcreated, hnow, h01, h12⟩ := hok
  obtain ⟨t, older, r, hupdate, hsub, hget, ⟨hle, hle2⟩, hr⟩ :=
    updateTopologyHistory_cases s.topologyHistory hcreated h01 h12
  have hpast : ∀ u ∈ s.topologyHistory, u.currentTimestamp ≤ t.currentTimestamp := fun u hu =>
    Int.le_trans (h.past u hu) (Int.le_trans hnow hle)
  have hhistory : (s.message sink nodeInfo clock).topologyHistory = t :: older := hupdate
  exact {
    sorted := by
      rw [hhistory]
      exact List.pairwise_cons.mpr ⟨fun u hu => hpast u (hsub.subset hu), h.sorted.sublist hsub⟩
    past := by
      rw [hhistory]
      intro u hu
      rcases List.mem_cons.mp hu with rfl | hu
      · exact hle2
      · exact Int.le_trans (hpast u (hsub.subset hu)) hle2
    reflects := by
      rw [hhistory]
      rintro u ⟨⟩
      exact Reflects.message h.reflects hpast hsink hget (Int.le_trans hcreated hle) hr
    complete := by
      intro k msg hk hmsg
      rw [hhistory]
      have hmsg' : Function.update s.latest nodeInfo.nodeId (some nodeInfo) k = some msg := hmsg
      -- The sender has a record now; of every other node nothing changes but the time.
      by_cases hid : k = nodeInfo.nodeId
      · refine .inl ⟨t, rfl, r, ?_⟩
        rw [hget, hid, Function.update_self]
      · rw [Function.update_of_ne hid] at hmsg'
        rcases h.complete k msg hk hmsg' with ⟨u, hu, r', hr'⟩ | hexp
        · refine .inl ⟨t, rfl, r', ?_⟩
          rw [hget, Function.update_of_ne hid]
          cases hs : s.topologyHistory with
          | nil =>
            rw [hs] at hu
            cases hu
          | cons v vs =>
            rw [hs] at hu
            cases hu
            exact hr'
        · exact .inr (hexp.mono (Int.le_trans hnow (Int.le_trans h01 h12))) }

/-- Only records that are silent are taken away. -/
theorem Reflects.withoutNodes {latest : Int → Option (NodeTopologyInfo ρ)}
    (h : Reflects conf latest t) (hnow : t.currentTimestamp ≤ now) :
    Reflects conf latest (t.withoutNodes (t.silentNodes conf now) now) where
  sink := by
    obtain ⟨r, hr⟩ := Option.isSome_iff_exists.mp h.sink
    have hid := (Topology.getNodeInfo_eq_some_iff.mp hr).2
    have hloud : r.isSilent conf now = false := by simp [NodeTopologyInfo.isSilent, hid]
    rw [getNodeInfo_withoutNodes.mpr ⟨hr, hloud⟩]
    rfl
  records := by
    intro k r hk hget
    obtain ⟨msg, hmsg, hrec, hle, hlet⟩ := h.records k r hk (getNodeInfo_withoutNodes.mp hget).1
    exact ⟨msg, hmsg, hrec, hle, Int.le_trans hlet hnow⟩

/-- A node that is taken away was silent. -/
theorem Reflects.known_or_expired {latest : Int → Option (NodeTopologyInfo ρ)}
    (h : Reflects conf latest t) {k : Int} {msg r : NodeTopologyInfo ρ} (hk : k ≠ conf.sinkId)
    (hmsg : latest k = some msg) (hr : t.getNodeInfo k = some r) :
    (∃ r', (t.withoutNodes (t.silentNodes conf now) now).getNodeInfo k = some r') ∨
      Expired conf now msg := by
  cases hsilent : r.isSilent conf now with
  | false => exact .inl ⟨r, getNodeInfo_withoutNodes.mpr ⟨hr, hsilent⟩⟩
  | true =>
    obtain ⟨msg', hmsg', -, hle, -⟩ := h.records k r hk hr
    cases hmsg.symm.trans hmsg'
    have hold : r.timestamp ≤ now - conf.maximumPeriodOfSilence * 60 := by
      simpa using (of_decide_eq_true hsilent).2
    exact .inr (.inl (Int.le_trans hle hold))

/-- The step of the purging thread on a history that is not empty. -/
theorem purge_eq (conf : PurgeConf) (now : Int) (hs : s.topologyHistory = t :: older)
    (hsorted : (t :: older).Pairwise fun t u => u.currentTimestamp ≤ t.currentTimestamp) :
    (t.currentTimestamp < now - conf.topologyTimeWindow * 60 ∧
      s.purge conf now = { s with topologyHistory := [], purging := false, now := now }) ∨
    ∃ left, left.Sublist older ∧
      (s.purge conf now = { s with topologyHistory := t :: left, now := now } ∨
        s.purge conf now = { s with
          topologyHistory := t.withoutNodes (t.silentNodes conf now) now :: t :: left
          now := now }) := by
  rcases purge_cases conf now hsorted with ⟨hold, hpurge⟩ | ⟨left, hsub, hpurge⟩
  · exact .inl ⟨hold, by simp only [purge, hs, hpurge]⟩
  · refine .inr ⟨left, hsub, ?_⟩
    by_cases hnone : (t.silentNodes conf now).toList.isEmpty = true
    · rw [if_pos hnone] at hpurge
      exact .inl (by simp only [purge, hs, hpurge])
    · rw [if_neg hnone] at hpurge
      exact .inr (by simp only [purge, hs, hpurge])

/-- An empty history stays as it is. -/
theorem purge_nil (hs : s.topologyHistory = []) : s.purge conf now = { s with now := now } := by
  simp only [purge, hs, Controller.purge, List.isEmpty_nil, if_true]

/-- The purge takes topologies off the old end, and leaves the rest as it is. -/
theorem Inv.purge (h : s.Inv conf) (hnow : s.now ≤ now) : (s.purge conf now).Inv conf := by
  have hsorted := h.sorted
  have hpast : ∀ u ∈ s.topologyHistory, u.currentTimestamp ≤ now := fun u hu =>
    Int.le_trans (h.past u hu) hnow
  cases hs : s.topologyHistory with
  | nil =>
    rw [purge_nil hs]
    exact {
      sorted := hsorted
      past := hpast
      reflects := h.reflects
      complete := fun k msg hk hmsg => (h.complete k msg hk hmsg).imp_right (·.mono hnow) }
  | cons t older =>
    rw [hs] at hsorted hpast
    have hreflects : Reflects conf s.latest t := h.reflects t (by rw [hs]; rfl)
    have hknown : ∀ k msg, k ≠ conf.sinkId → s.latest k = some msg →
        (∃ r, t.getNodeInfo k = some r) ∨ Expired conf now msg := by
      intro k msg hk hmsg
      rcases h.complete k msg hk hmsg with ⟨u, hu, hr⟩ | hexp
      · rw [hs] at hu
        cases hu
        exact .inl hr
      · exact .inr (hexp.mono hnow)
    rcases purge_eq conf now hs hsorted with
      ⟨hold, heq⟩ | ⟨left, hsub, heq | heq⟩
    · -- Every topology is old, and so is every message that one of them has.
      rw [heq]
      exact {
        sorted := .nil
        past := nofun
        reflects := nofun
        complete := by
          intro k msg hk hmsg
          rcases hknown k msg hk hmsg with ⟨r, hr⟩ | hexp
          · obtain ⟨msg', hmsg', -, -, hle⟩ := hreflects.records k r hk hr
            cases hmsg.symm.trans hmsg'
            exact .inr (.inr (Int.lt_of_le_of_lt hle hold))
          · exact .inr hexp }
    · -- No node is silent.
      have hsubt : (t :: left).Sublist (t :: older) := hsub.cons_cons t
      rw [heq]
      exact {
        sorted := hsorted.sublist hsubt
        past := fun u hu => hpast u (hsubt.subset hu)
        reflects := by
          rintro u ⟨⟩
          exact hreflects
        complete := fun k msg hk hmsg =>
          (hknown k msg hk hmsg).imp_left fun ⟨r, hr⟩ => ⟨t, rfl, r, hr⟩ }
    · -- Some nodes are silent, and go into a topology without them.
      have hsubt : (t :: left).Sublist (t :: older) := hsub.cons_cons t
      rw [heq]
      exact {
        sorted := List.pairwise_cons.mpr
          ⟨fun u hu => hpast u (hsubt.subset hu), hsorted.sublist hsubt⟩
        past := by
          intro u hu
          rcases List.mem_cons.mp hu with rfl | hu
          · exact Int.le_refl _
          · exact hpast u (hsubt.subset hu)
        reflects := by
          rintro u ⟨⟩
          exact hreflects.withoutNodes (hpast t List.mem_cons_self)
        complete := by
          intro k msg hk hmsg
          rcases hknown k msg hk hmsg with ⟨r, hr⟩ | hexp
          · -- A node that is taken out has been silent for too long.
            exact (hreflects.known_or_expired hk hmsg hr).imp_left fun ⟨r', hr'⟩ =>
              ⟨_, rfl, r', hr'⟩
          · exact .inr hexp }

/-- A message or a turn of the purge keeps the invariant. -/
theorem Inv.step (h : s.Inv conf) (hok : ClockAdvances conf s a)
    (hst : s.step conf a = some s') : s'.Inv conf := by
  cases a with
  | message sink nodeInfo clock =>
    cases hst
    exact h.message hok
  | purge now =>
    obtain ⟨-, hst⟩ := Option.ite_none_right_eq_some.mp hst
    cases hst
    exact h.purge hok

/-- It holds in every run in which the clock does not go back. -/
theorem inv_of_reachableIf (h : (machine conf).ReachableIf (ClockAdvances conf) s) : s.Inv conf :=
  h.invariant (Inv conf) inv_init fun _ _ _ hs hok hst => hs.step hok hst

/-- The most recent topology has the record of the sink, its other records are from the last
messages of their nodes, and no node is missing whose last message is younger than both periods. -/
theorem newest_reports (h : (machine conf).ReachableIf (ClockAdvances conf) s) :
    (∀ t ∈ s.topologyHistory.head?, (t.getNodeInfo conf.sinkId).isSome = true ∧
      ∀ k r, k ≠ conf.sinkId → t.getNodeInfo k = some r →
        ∃ msg, s.latest k = some msg ∧ Records msg r.pktRate r) ∧
    ∀ k msg, k ≠ conf.sinkId → s.latest k = some msg →
      s.now - conf.maximumPeriodOfSilence * 60 < msg.timestamp →
      s.now - conf.topologyTimeWindow * 60 ≤ msg.timestamp →
      ∃ t ∈ s.topologyHistory.head?, ∃ r, t.getNodeInfo k = some r := by
  have hinv := inv_of_reachableIf h
  constructor
  · intro t ht
    refine ⟨(hinv.reflects t ht).sink, fun k r hk hr => ?_⟩
    obtain ⟨msg, hmsg, hrec, -, -⟩ := (hinv.reflects t ht).records k r hk hr
    exact ⟨msg, hmsg, hrec⟩
  · intro k msg hk hmsg hsilence hwindow
    rcases hinv.complete k msg hk hmsg with hknown | hexp | hexp
    · exact hknown
    · exact absurd hexp (Int.not_le.mpr hsilence)
    · exact absurd hexp (Int.not_lt.mpr hwindow)

/-- Two nodes report, one of them again after 200 seconds, and the other one is purged after 310
seconds. -/
def reportsAndPurge : List (HistoryAction Nat) :=
  [.message ⟨0, 1, 1, 1000, 0, ⟨0, 0, 0⟩⟩ ⟨0, 2, 1, 900, 6, ⟨16, 100, 3⟩⟩ fun _ => 0,
    .message ⟨0, 1, 1, 1000, 0, ⟨0, 0, 0⟩⟩ ⟨1, 3, 2, 800, 6, ⟨16, 100, 3⟩⟩ fun _ => 1,
    .message ⟨0, 1, 1, 1000, 0, ⟨0, 0, 0⟩⟩ ⟨200, 2, 1, 950, 6, ⟨16, 100, 3⟩⟩ fun _ => 200,
    .purge 310]

/-- With a window of an hour and silence of five minutes, node 2 is still there. -/
theorem newest_reports_purged : ∃ s : HistoryRun Nat, s.now = 310 ∧
    (s.topologyHistory.map fun t => t.nodes.toList.map (·.nodeId)) =
      [[1, 2], [1, 3, 2], [1, 2, 3], [1, 2]] ∧
    ∃ t ∈ s.topologyHistory.head?, ∃ r, t.getNodeInfo 2 = some r := by
  have hrun : ((machine ⟨1, 60, 5⟩).runIf (ClockAdvances ⟨1, 60, 5⟩) init reportsAndPurge).map
      (fun s => (s.now, s.topologyHistory.map fun t => t.nodes.toList.map (·.nodeId), s.latest 2)) =
    some (310, [[1, 2], [1, 3, 2], [1, 2, 3], [1, 2]],
      some ⟨200, 2, 1, 950, 6, ⟨16, 100, 3⟩⟩) := by decide
  obtain ⟨s, hs, hend⟩ := Machine.exists_reachableIf_of_runIf hrun
  have hnow : s.now = 310 := congrArg (fun x => x.1) hend
  have hlatest : s.latest 2 = some ⟨200, 2, 1, 950, 6, ⟨16, 100, 3⟩⟩ :=
    congrArg (fun x => x.2.2) hend
  refine ⟨s, hnow, congrArg (fun x => x.2.1) hend, ?_⟩
  exact (newest_reports hs).2 2 _ (by decide) hlatest (by rw [hnow]; decide) (by rw [hnow]; decide)

end HistoryRun

end PTunes.Controller
