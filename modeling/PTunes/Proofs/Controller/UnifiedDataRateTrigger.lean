import Mathlib.Data.List.Induction
import PTunes.Controller.UnifiedDataRateTrigger

/-!
# `PTunes.Proofs.Controller.UnifiedDataRateTrigger`: when the common rate counts as changed

What one call does is `requests_cons` and `dataRate_cons`: once `dataRate` is a rate, the call
requests an optimization exactly if no node reports `dataRate`, and then takes over the last rate
that it saw.

While `dataRate` is NaN, the loop stores the rate of the first node and leaves with
`allNodesSwitchedDataRate` still true. So the first collection with a topology requests an
optimization, whatever the nodes report, and replaces the stored rate by `0.0`. `lawful_iff` states
for which sequences of collections the law holds nevertheless.
-/

set_option autoImplicit false

namespace PTunes.Controller.UnifiedDataRateTrigger

variable {ρ : Type}

/-! ### The law -/

/-- The rates that nodes other than the sink have reported. -/
def reported (collections : List (List (Topology ρ))) : List ρ :=
  collections.flatMap fun history => history.head?.elim [] fun t => rates t.nodes.toList

/-- No node changes its rate. -/
def NoChange (collections : List (List (Topology ρ))) : Prop :=
  ∀ history ∈ collections, ∀ t ∈ history.head?, ∀ n ∈ t.nodes.toList,
    ∀ history' ∈ collections, ∀ t' ∈ history'.head?, ∀ n' ∈ t'.nodes.toList,
      n.nodeId = n'.nodeId → n.pktRate = n'.pktRate

variable [DecidableEq ρ] [PktRate ρ]

/-- The detection of a common rate over a sequence of collections. -/
structure Lawful (period : Int) (collections : List (List (Topology ρ))) : Prop where
  /-- An optimization is requested only where every node reports a rate other than the last
  common one. -/
  switched : ∀ before t history after, collections = before ++ (t :: history) :: after →
    (afterAll period before).requests (t :: history) = true →
    ∀ n ∈ t.nodes.toList, n.isSink = false → n.pktRate ≠ (afterAll period before).dataRate
  /-- If no node ever changes its rate, none is requested. -/
  quiet : NoChange collections → ∀ before history after, collections = before ++ history :: after →
    (afterAll period before).requests history = false
  /-- The recorded rate has been reported, or it is NaN before the first report. -/
  recorded : ∀ before after, collections = before ++ after →
    (reported before = [] ∧ (afterAll period before).dataRate = PktRate.nan) ∨
      (afterAll period before).dataRate ∈ reported before

/-- Every collection finds an empty history, or the following three: some node changes its rate, a
node reports `0.0` at the first collection with a topology, and no node reports NaN while the
recorded rate is NaN. -/
def HoldsWhen (period : Int) (collections : List (List (Topology ρ))) : Prop :=
  (∀ history ∈ collections, history = []) ∨
    (¬ NoChange collections ∧
      (∀ t ∈ (collections.filterMap List.head?).head?, PktRate.zero ∈ rates t.nodes.toList) ∧
      ∀ before t history after, collections = before ++ (t :: history) :: after →
        (afterAll period before).dataRate = PktRate.nan → PktRate.nan ∉ rates t.nodes.toList)

variable {period : Int} {collections before : List (List (Topology ρ))}
  {history : List (Topology ρ)} {t : Topology ρ} {nodes : List (NodeTopologyInfo ρ)}
  {n : NodeTopologyInfo ρ} {s : UnifiedDataRateTrigger ρ} {d new : ρ}

/-! ### One call -/

omit [DecidableEq ρ] [PktRate ρ] in
/-- The rate of the sink is not counted. -/
theorem rates_cons_of_sink (h : n.isSink = true) : rates (n :: nodes) = rates nodes := by
  simp [rates, h]

omit [DecidableEq ρ] [PktRate ρ] in
/-- The rate of any other node is. -/
theorem rates_cons_of_not_sink (h : n.isSink = false) :
    rates (n :: nodes) = n.pktRate :: rates nodes := by
  simp [rates, h]

omit [DecidableEq ρ] [PktRate ρ] in
/-- A rate is one of a node that is not the sink. -/
theorem mem_rates : d ∈ rates nodes ↔ ∃ n ∈ nodes, n.isSink = false ∧ n.pktRate = d := by
  simp [rates, and_assoc]

/-- While `dataRate` is NaN, the other two variables keep their values. -/
theorem scanNodes_nan (nodes : List (NodeTopologyInfo ρ)) :
    (scanNodes ⟨PktRate.nan, new, true⟩ nodes).newDataRate = new ∧
      (scanNodes ⟨PktRate.nan, new, true⟩ nodes).allNodesSwitchedDataRate = true := by
  induction nodes with
  | nil => exact ⟨rfl, rfl⟩
  | cons n nodes ih =>
      cases hsink : n.isSink with
      | true => simpa only [scanNodes, hsink, if_true] using ih
      | false => simp [scanNodes, hsink]

/-- A node at the old rate ends the loop. -/
theorem scanNodes_of_mem (hd : d ≠ PktRate.nan) (h : d ∈ rates nodes) :
    (scanNodes ⟨d, new, true⟩ nodes).dataRate = d ∧
      (scanNodes ⟨d, new, true⟩ nodes).allNodesSwitchedDataRate = false := by
  induction nodes generalizing new with
  | nil => cases h
  | cons n nodes ih =>
      cases hsink : n.isSink with
      | true =>
          rw [rates_cons_of_sink hsink] at h
          simpa only [scanNodes, hsink, if_true] using ih h
      | false =>
          rw [rates_cons_of_not_sink hsink] at h
          by_cases hrate : n.pktRate = d
          · -- The loop breaks at this node.
            simp [scanNodes, hsink, hd, hrate]
          · have hmem : d ∈ rates nodes := (List.mem_cons.mp h).resolve_left (Ne.symm hrate)
            simpa [scanNodes, hsink, hd, hrate] using ih hmem

/-- Without one the loop remembers the last rate. -/
theorem scanNodes_of_not_mem (hd : d ≠ PktRate.nan) (h : d ∉ rates nodes) :
    (scanNodes ⟨d, new, true⟩ nodes).newDataRate = (rates nodes).getLastD new ∧
      (scanNodes ⟨d, new, true⟩ nodes).allNodesSwitchedDataRate = true := by
  induction nodes generalizing new with
  | nil => exact ⟨rfl, rfl⟩
  | cons n nodes ih =>
      cases hsink : n.isSink with
      | true =>
          rw [rates_cons_of_sink hsink] at h ⊢
          simpa only [scanNodes, hsink, if_true] using ih h
      | false =>
          rw [rates_cons_of_not_sink hsink] at h ⊢
          have hrate : n.pktRate ≠ d := Ne.symm (List.ne_of_not_mem_cons h)
          rw [List.getLastD_cons]
          simpa [scanNodes, hsink, hd, hrate] using ih (List.not_mem_of_not_mem_cons h)

/-- When a call requests an optimization. -/
theorem requests_cons : s.requests (t :: history) = true ↔
    s.dataRate = PktRate.nan ∨ s.dataRate ∉ rates t.nodes.toList := by
  rw [requests, scanTopology]
  by_cases hnan : s.dataRate = PktRate.nan
  · simp [hnan, scanNodes_nan]
  · by_cases hmem : s.dataRate ∈ rates t.nodes.toList
    · simp [hnan, hmem, (scanNodes_of_mem hnan hmem).2]
    · simp [hmem, (scanNodes_of_not_mem hnan hmem).2]

/-- The rate that a call records. -/
theorem dataRate_cons : (s.collectionFinished (t :: history)).dataRate =
    if s.dataRate = PktRate.nan then PktRate.zero
    else if s.dataRate ∈ rates t.nodes.toList then s.dataRate
    else (rates t.nodes.toList).getLastD PktRate.zero := by
  rw [collectionFinished]
  by_cases hnan : s.dataRate = PktRate.nan
  · rw [if_pos hnan, if_pos (requests_cons.mpr (.inl hnan)), scanTopology, hnan]
    exact (scanNodes_nan _).1
  · by_cases hmem : s.dataRate ∈ rates t.nodes.toList
    · rw [if_neg hnan, if_pos hmem, if_neg fun h => (requests_cons.mp h).elim hnan (· hmem)]
      exact (scanNodes_of_mem hnan hmem).1
    · rw [if_neg hnan, if_neg hmem, if_pos (requests_cons.mpr (.inr hmem))]
      exact (scanNodes_of_not_mem hnan hmem).1

/-! ### Sequences of collections -/

/-- One collection more. -/
theorem afterAll_concat (collections : List (List (Topology ρ))) (history : List (Topology ρ)) :
    afterAll period (collections ++ [history]) =
      (afterAll period collections).collectionFinished history := by
  rw [afterAll, List.foldl_append, List.foldl_cons, List.foldl_nil, afterAll]

omit [DecidableEq ρ] [PktRate ρ] in
/-- The rates of the collection are those of its newest topology. A collection without one reports
none. -/
theorem reported_concat (collections : List (List (Topology ρ))) (history : List (Topology ρ)) :
    reported (collections ++ [history]) =
      reported collections ++ history.head?.elim [] fun t => rates t.nodes.toList := by
  rw [reported, List.flatMap_append, List.flatMap_singleton, reported]

omit [DecidableEq ρ] [PktRate ρ] in
/-- With empty histories nothing is reported. -/
theorem reported_of_empty (h : ∀ history ∈ before, history = []) : reported before = [] :=
  List.flatMap_eq_nil_iff.mpr fun history hmem => by rw [h history hmem]; rfl

/-- And nothing changes. -/
theorem afterAll_of_empty (h : ∀ history ∈ before, history = []) :
    afterAll period before = init period := by
  induction before using List.reverseRecOn with
  | nil => rfl
  | append_singleton before history ih =>
      rw [afterAll_concat, h history List.mem_concat_self, collectionFinished]
      exact ih fun history hmem => h history (List.mem_append_left _ hmem)

omit [DecidableEq ρ] [PktRate ρ] in
/-- The first collection with a topology. -/
theorem exists_first (h : ¬ ∀ history ∈ collections, history = []) :
    ∃ before t history after, collections = before ++ (t :: history) :: after ∧
      ∀ history ∈ before, history = [] := by
  induction collections with
  | nil => exact absurd (fun _ hmem => nomatch hmem) h
  | cons history collections ih =>
      cases history with
      | cons t history => exact ⟨[], t, history, collections, rfl, fun _ hmem => nomatch hmem⟩
      | nil =>
          obtain ⟨before, t, history, after, rfl, hbefore⟩ := ih fun hall =>
            h (List.forall_mem_cons.mpr ⟨rfl, hall⟩)
          exact ⟨[] :: before, t, history, after, rfl, List.forall_mem_cons.mpr ⟨rfl, hbefore⟩⟩

omit [DecidableEq ρ] [PktRate ρ] in
/-- The first topology of all is that of the first collection that has one. -/
theorem head?_filterMap (h : ∀ history ∈ before, history = [])
    (after : List (List (Topology ρ))) :
    ((before ++ (t :: history) :: after).filterMap List.head?).head? = some t := by
  have hnone : before.filterMap List.head? = [] :=
    List.filterMap_eq_nil_iff.mpr fun history hmem => by rw [h history hmem]; rfl
  rw [List.filterMap_append, hnone, List.nil_append, List.filterMap_cons_some List.head?_cons]
  rfl

/-- Where a node reports `0.0` first, each recorded rate has been reported. -/
theorem recorded_of_zero
    (hzero : ∀ t ∈ (collections.filterMap List.head?).head?, PktRate.zero ∈ rates t.nodes.toList) :
    ∀ before after, collections = before ++ after →
      (∀ history ∈ before, history = []) ∨
        (PktRate.zero ∈ reported before ∧ (afterAll period before).dataRate ∈ reported before) := by
  intro before
  -- By induction on the collections so far, of which the last one is read now.
  induction before using List.reverseRecOn with
  | nil => exact fun _ _ => .inl fun _ hmem => nomatch hmem
  | append_singleton before history ih =>
      intro after hsplit
      rw [List.append_assoc] at hsplit
      rw [afterAll_concat, reported_concat]
      have hprev := ih ([history] ++ after) hsplit
      cases history with
      | nil =>
          -- A collection without a topology changes nothing.
          refine hprev.imp (fun hempty => ?_) (fun hmem => ?_)
          · exact List.forall_mem_append.mpr ⟨hempty, fun _ hmem => List.mem_singleton.mp hmem⟩
          · simpa [collectionFinished] using hmem
      | cons t history =>
          refine .inr ?_
          simp only [List.head?_cons, Option.elim_some, List.mem_append]
          rw [dataRate_cons]
          rcases hprev with hempty | ⟨hzeroMem, hmem⟩
          · -- The first one: `0.0` is recorded, and a node reports it.
            have hfirst : PktRate.zero ∈ rates t.nodes.toList :=
              hzero t (hsplit ▸ head?_filterMap hempty after)
            rw [if_pos (by rw [afterAll_of_empty hempty]; rfl)]
            exact ⟨.inr hfirst, .inr hfirst⟩
          · refine ⟨.inl hzeroMem, ?_⟩
            split
            · exact .inl hzeroMem
            · split
              · exact .inl hmem
              · -- The last rate of the loop, or the `0.0` it starts with.
                rcases List.mem_cons.mp List.getLastD_mem_cons with heq | hlast
                · exact .inl (heq ▸ hzeroMem)
                · exact .inr hlast

/-- What the detection of a common rate forces, once a collection finds a topology. -/
theorem Lawful.holdsWhen (h : Lawful period collections) : HoldsWhen period collections := by
  refine or_iff_not_imp_left.mpr fun hne => ?_
  obtain ⟨before, t, history, after, rfl, hempty⟩ := exists_first hne
  have hinit : (afterAll period before).dataRate = PktRate.nan := by
    rw [afterAll_of_empty hempty]
    rfl
  refine ⟨fun hno => ?_, fun t' ht' => ?_, fun before t history after hsplit hnan hmem => ?_⟩
  · -- The first topology requests an optimization, whatever its nodes report.
    cases (h.quiet hno before _ after rfl).symm.trans (requests_cons.mpr (.inl hinit))
  · obtain rfl : t = t' := Option.some.inj ((head?_filterMap hempty after).symm.trans ht')
    -- And it records `0.0`, which only its own nodes can have reported.
    have hrecorded := h.recorded (before ++ [t :: history]) after (by simp)
    rw [afterAll_concat, dataRate_cons, if_pos hinit, reported_concat,
      reported_of_empty hempty, List.nil_append] at hrecorded
    exact hrecorded.resolve_left fun hnan => PktRate.zero_ne_nan hnan.2
  · obtain ⟨n, hn, hsink, hrate⟩ := mem_rates.mp hmem
    exact h.switched before t history after hsplit (requests_cons.mpr (.inl hnan)) n hn hsink
      (hrate.trans hnan.symm)

/-- With empty histories the trigger stays in its initial state. -/
theorem lawful_of_empty (hempty : ∀ history ∈ collections, history = []) :
    Lawful period collections where
  switched before t history after hsplit := by
    cases hempty (t :: history) (hsplit ▸ List.mem_append_cons_self)
  quiet _ before history after hsplit := by
    rw [hempty history (hsplit ▸ List.mem_append_cons_self)]
    rfl
  recorded before after hsplit := by
    have hbefore : ∀ history ∈ before, history = [] := by
      intro history hmem
      exact hempty history (hsplit ▸ List.mem_append_left _ hmem)
    refine .inl ⟨reported_of_empty hbefore, ?_⟩
    rw [afterAll_of_empty hbefore]
    rfl

/-- For every sequence of collections: the detection of a common rate is lawful exactly under
`HoldsWhen`. -/
theorem lawful_iff (period : Int) (collections : List (List (Topology ρ))) :
    Lawful period collections ↔ HoldsWhen period collections := by
  constructor
  · exact Lawful.holdsWhen
  · rintro (hempty | ⟨hchange, hzero, hnan⟩)
    · exact lawful_of_empty hempty
    · refine ⟨fun before t history after hsplit hreq n hn hsink heq => ?_,
        fun hno => absurd hno hchange, fun before after hsplit => ?_⟩
      · have hmem := mem_rates.mpr ⟨n, hn, hsink, heq⟩
        rcases requests_cons.mp hreq with hd | hnot
        · exact hnan before t history after hsplit hd (hd ▸ hmem)
        · exact hnot hmem
      · rcases recorded_of_zero hzero before after hsplit with hempty | hmem
        · refine .inl ⟨reported_of_empty hempty, ?_⟩
          rw [afterAll_of_empty hempty]
          rfl
        · exact .inr hmem.2

/-! ### The first collection -/

omit [DecidableEq ρ] [PktRate ρ] in
/-- In one collection no node has two rates. -/
theorem noChange_singleton (t : Topology ρ) : NoChange [[t]] := by
  simp only [NoChange, List.mem_singleton, forall_eq, List.head?_cons, Option.mem_some_iff,
    forall_eq']
  intro n hn n' hn' hid
  rw [List.inj_on_of_nodup_map t.nodes.nodup hn hn' hid]

/-- Rational rates. NaN is `none`. -/
instance : PktRate (Option Rat) where
  nan := none
  zero := some 0
  zero_ne_nan := nofun

/-- The sink 1 and a node 2 that reports half a packet per minute. -/
def oneNode : Topology (Option Rat) :=
  .ofSink ⟨0, 1, 1, 0, some 0, ⟨0, 0, 0⟩⟩ ⟨0, 2, 1, 100, some (1 / 2), ⟨16, 20, 10⟩⟩ 0

/-- The first collection requests an optimization, though no node has changed its rate. -/
theorem not_forall_lawful :
    ¬ ∀ (period : Int) (collections : List (List (Topology (Option Rat)))),
      Lawful period collections := by
  intro hall
  have hquiet := (hall 6 [[oneNode]]).quiet (noChange_singleton oneNode) [] [oneNode] [] rfl
  cases hquiet.symm.trans (requests_cons.mpr (.inl rfl))

end PTunes.Controller.UnifiedDataRateTrigger
