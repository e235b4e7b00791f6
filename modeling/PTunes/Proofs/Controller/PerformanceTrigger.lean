import PTunes.Controller.PerformanceTrigger

/-!
# `PTunes.Proofs.Controller.PerformanceTrigger`: no request is lost

The trigger thread sets the period of its next wait after every optimization, so it discards
each request that is made outside of a wait. `Timely` says that a request falls into one
stretch of the trigger thread from that `setPeriod` to the next start of an optimization.

In runs of timely requests the invariant `RequestInv` holds. While a request is half made,
the period is 1 and nothing has been signalled, so the trigger thread cannot pass `doWait`.
Once the request is complete, the thread is on its way to an optimization: it is past
`doWait`, or awake in it with enough notifications. So a complete request is served before
the thread sleeps for a full period (`request_served`), and two steps of the thread alone
start the optimization (`onTheWay_optimizes`).
-/

set_option autoImplicit false

namespace PTunes.Controller

namespace PerformanceTrigger

variable {C : TriggerConf} {s t : PerformanceTrigger}

/-- The trigger thread is between the `setPeriod` before its wait and the start of the
optimization after it. -/
def InWait (s : PerformanceTrigger) : Prop :=
  s.pc = .atWait ∨ s.pc = .blocked ∨ s.pc = .awake

instance : Decidable s.InWait := inferInstanceAs (Decidable (_ ∨ _))

/-- A request starts while the trigger thread is in its wait, and no optimization starts
while a request is half made. -/
def Timely (s : PerformanceTrigger) : TriggerAction → Prop
  | .requestPeriod => s.InWait
  | .optimizeBegin => s.collector.midRequest = false
  | _ => True

instance : ∀ a, Decidable (s.Timely a)
  | .requestPeriod => inferInstanceAs (Decidable s.InWait)
  | .optimizeBegin => inferInstanceAs (Decidable (_ = _))
  | .delayOver | .configureWait | .checkWait | .spuriousWakeUp | .optimizeEnd _
  | .resetPeriod | .collectionFinished _ | .performanceBegin | .performanceEnd _
  | .clearPurged | .doNotify | .nodesHaveBeenPurged => .isTrue trivial

/-- The next steps of the trigger thread start an optimization. -/
def OnTheWay (s : PerformanceTrigger) : Prop :=
  s.pc = .awake ∨ s.pc = .atWait ∧ s.waitNotify.period ≤ s.waitNotify.wasSignalled

/-- The invariant of the runs of timely requests. -/
structure RequestInv (s : PerformanceTrigger) : Prop where
  notDiscarded : s.discarded = false
  /-- Requests are only pending in a wait. -/
  window : s.requested = true ∨ s.collector.midRequest = true → s.InWait
  /-- Nothing is signalled between the two calls of a request. -/
  halfMade : s.collector.midRequest = true →
    s.waitNotify = ⟨0, 1⟩ ∧ s.fullPeriod = false
  onTheWay : s.requested = true → s.collector.midRequest = false → s.OnTheWay

/-- Before the first collection nothing is requested. -/
theorem requestInv_init (C : TriggerConf) : RequestInv (init C) where
  notDiscarded := rfl
  window h := by rcases h with h | h <;> cases h
  halfMade h := by cases h
  onTheWay h := by cases h

/-- Outside of a wait no request is pending. -/
theorem RequestInv.idle (h : RequestInv s) (hpc : ¬ s.InWait) :
    s.requested = false ∧ s.collector.midRequest = false := by
  constructor
  · cases hr : s.requested with
    | false => rfl
    | true => exact absurd (h.window (.inl hr)) hpc
  · cases hm : s.collector.midRequest with
    | false => rfl
    | true => exact absurd (h.window (.inr hm)) hpc

/-- A step of the trigger thread outside of a wait that leaves the requests alone. -/
theorem RequestInv.outside (h : RequestInv s) (hpc : ¬ s.InWait)
    (hd : t.discarded = (s.discarded || s.requested || s.collector.midRequest) ∨
      t.discarded = s.discarded)
    (hr : t.requested = s.requested) (hc : t.collector = s.collector) : RequestInv t := by
  obtain ⟨hreq, hmid⟩ := h.idle hpc
  have hreq' : t.requested = false := hr.trans hreq
  have hmid' : t.collector.midRequest = false := hc ▸ hmid
  refine ⟨?_, ?_, ?_, ?_⟩
  · rcases hd with hd | hd
    · rw [hd, h.notDiscarded, hreq, hmid]
      rfl
    · rw [hd, h.notDiscarded]
  · rintro (h' | h')
    · rw [hreq'] at h'
      cases h'
    · rw [hmid'] at h'
      cases h'
  · intro h'
    rw [hmid'] at h'
    cases h'
  · intro h'
    rw [hreq'] at h'
    cases h'

/-- A step of the collection thread that makes no request. -/
theorem RequestInv.collect (h : RequestInv s) {c : CollectorPc} (b : Bool)
    (hc : c.midRequest = s.collector.midRequest) :
    RequestInv { s with collector := c, nodesHaveBeenPurged := b } where
  notDiscarded := h.notDiscarded
  window h' := h.window (h'.imp_right fun hm => hc ▸ hm)
  halfMade h' := h.halfMade (hc ▸ h')
  onTheWay hr hm := h.onTheWay hr (hc ▸ hm)

/-- One turn in `doWait`. -/
theorem RequestInv.checkWait (h : RequestInv s) (hpc : s.pc = .atWait)
    (hst : step C s .checkWait = some t) : RequestInv t := by
  simp only [step, hpc, if_true] at hst
  by_cases hlt : s.waitNotify.wasSignalled < s.waitNotify.period
  · -- The thread goes to sleep: then a complete request waits for the rest of the next one.
    rw [WaitNotify.tryWait, if_pos hlt] at hst
    cases hst
    refine ⟨h.notDiscarded, fun _ => .inr (.inl rfl), h.halfMade, fun hr hm => ?_⟩
    rcases h.onTheWay hr hm with hw | ⟨_, hle⟩
    · rw [hpc] at hw
      cases hw
    · omega
  · -- The thread passes: no request is half made, since nothing is signalled during one.
    rw [WaitNotify.tryWait, if_neg hlt] at hst
    cases hst
    refine ⟨h.notDiscarded, fun _ => .inr (.inr rfl), fun hm => ?_, fun _ _ => .inl rfl⟩
    obtain ⟨hw, _⟩ := h.halfMade hm
    rw [hw] at hlt
    exact absurd (by decide) hlt

/-- The first call of a request. -/
theorem RequestInv.requestPeriod (h : RequestInv s) (hw : s.InWait)
    (hst : step C s .requestPeriod = some t) : RequestInv t := by
  simp only [step] at hst
  split at hst
  · rename_i purged hc
    cases hst
    have hmid : (if purged then CollectorPc.clearing else .notifying true).midRequest = true := by
      cases purged <;> rfl
    refine ⟨h.notDiscarded, fun _ => hw, fun _ => ⟨rfl, rfl⟩, fun _ hm => ?_⟩
    rw [hmid] at hm
    cases hm
  · cases hst

/-- The second call of a request, or a notification without one. -/
theorem RequestInv.doNotify (h : RequestInv s) (hst : step C s .doNotify = some t) :
    RequestInv t := by
  simp only [step] at hst
  split at hst
  · rename_i request hc
    cases hst
    have hmid : s.collector.midRequest = request := by rw [hc]; rfl
    -- A thread that slept is at its loop condition again.
    have hpc : ∀ pc, s.pc = pc → (s.notifyTrigger request).pc =
        if pc = .blocked then .atWait else pc := by
      rintro pc rfl
      rfl
    have hwin : s.requested = true ∨ request = true →
        (s.notifyTrigger request).pc = .atWait ∨ (s.notifyTrigger request).pc = .awake := by
      intro h'
      rcases h.window (h'.imp_right fun hr => hmid.trans hr) with hp | hp | hp <;>
        simp [hpc _ hp]
    have hreq : (s.notifyTrigger request).requested = true ↔
        s.requested = true ∨ request = true := Bool.or_eq_true_iff
    refine ⟨h.notDiscarded, fun h' => ?_, (nomatch ·), fun h' _ => ?_⟩
    · rcases h' with h' | h'
      · exact (hwin (hreq.mp h')).imp_right .inr
      · cases h'
    · have hpend := hreq.mp h'
      rcases hwin hpend with hp | hp
      · refine .inr ⟨hp, ?_⟩
        show s.waitNotify.period ≤ s.waitNotify.wasSignalled + 1
        cases hrq : request with
        | true =>
            -- `setPeriod` has set the period to one signal, and this is it.
            rw [(h.halfMade (hmid.trans hrq)).1]
            decide
        | false =>
            have hr : s.requested = true := by simpa [hrq] using hpend
            rcases h.onTheWay hr (hmid.trans hrq) with hw | ⟨_, hle⟩
            · rw [hpc _ hw] at hp
              cases hp
            · omega
      · exact .inl hp
  · cases hst

/-- A thread that wakes up by itself. A complete request has woken it up before, so none is pending
here. -/
theorem RequestInv.spuriousWakeUp (h : RequestInv s)
    (hst : step C s .spuriousWakeUp = some t) : RequestInv t := by
  obtain ⟨hpc, ⟨⟩⟩ := Option.ite_none_right_eq_some.mp hst
  refine ⟨h.notDiscarded, fun _ => .inl rfl, h.halfMade, fun hr hm => ?_⟩
  rcases h.onTheWay hr hm with hw | ⟨hw, _⟩
  · rw [hpc] at hw
    cases hw
  · rw [hpc] at hw
    cases hw

/-- The optimization serves the pending requests, and none is half made. -/
theorem RequestInv.optimizeBegin (h : RequestInv s) (hmid : s.collector.midRequest = false)
    (hst : step C s .optimizeBegin = some t) : RequestInv t := by
  obtain ⟨-, ⟨⟩⟩ := Option.ite_none_right_eq_some.mp hst
  refine ⟨h.notDiscarded, fun h' => ?_, fun h' => ?_, fun h' => by cases h'⟩
  · rcases h' with h' | h'
    · cases h'
    · exact absurd (hmid.symm.trans h') (by decide)
  · exact absurd (hmid.symm.trans h') (by decide)

/-- The optimization is over, and the thread is not in `doWait` yet. -/
theorem RequestInv.optimizeEnd {newConf : Option MacConfiguration} (h : RequestInv s)
    (hst : step C s (.optimizeEnd newConf) = some t) : RequestInv t := by
  obtain ⟨hpc, ⟨⟩⟩ := Option.ite_none_right_eq_some.mp hst
  cases newConf with
  | none => exact h.outside (by simp [InWait, hpc]) (.inr rfl) rfl rfl
  | some conf =>
      simp only [afterOptimize]
      split <;> exact h.outside (by simp [InWait, hpc]) (.inr rfl) rfl rfl

/-- A collection has ended: nothing is done, or the performance is asked for. -/
theorem RequestInv.collectionFinished {historyIsEmpty : Bool} (h : RequestInv s)
    (hst : step C s (.collectionFinished historyIsEmpty) = some t) : RequestInv t := by
  simp only [PerformanceTrigger.step] at hst
  split at hst
  · rename_i hc
    split at hst
    · cases hst
      exact h
    · split at hst <;> cases hst <;> exact h.collect _ (by rw [hc]; rfl)
  · cases hst

/-- What a timely step keeps. -/
theorem RequestInv.step (h : RequestInv s) {a : TriggerAction} (ha : s.Timely a)
    (hst : step C s a = some t) : RequestInv t := by
  cases a with
  | delayOver =>
      obtain ⟨hpc, ⟨⟩⟩ := Option.ite_none_right_eq_some.mp hst
      -- The trigger thread outside its wait touches no request.
      exact h.outside (by simp [InWait, hpc]) (.inr rfl) rfl rfl
  | configureWait =>
      obtain ⟨hpc, hst⟩ := Option.ite_none_right_eq_some.mp hst
      split at hst <;> cases hst <;> exact h.outside (by simp [InWait, hpc]) (.inl rfl) rfl rfl
  | checkWait =>
      have hpc : s.pc = .atWait := by
        by_contra hpc
        simp [PerformanceTrigger.step, hpc] at hst
      exact h.checkWait hpc hst
  | spuriousWakeUp => exact h.spuriousWakeUp hst
  | optimizeBegin => exact h.optimizeBegin ha hst
  | optimizeEnd newConf => exact h.optimizeEnd hst
  | resetPeriod =>
      obtain ⟨hpc, ⟨⟩⟩ := Option.ite_none_right_eq_some.mp hst
      exact h.outside (by simp [InWait, hpc]) (.inl rfl) rfl rfl
  | collectionFinished historyIsEmpty => exact h.collectionFinished hst
  | performanceBegin =>
      obtain ⟨hc, ⟨⟩⟩ := Option.ite_none_right_eq_some.mp hst
      -- The collection thread moves on, and neither asks nor signals.
      exact h.collect _ (by rw [hc.1]; rfl)
  | performanceEnd violated =>
      obtain ⟨hc, ⟨⟩⟩ := Option.ite_none_right_eq_some.mp hst
      exact h.collect _ (by rw [hc]; cases violated <;> rfl)
  | requestPeriod => exact h.requestPeriod ha hst
  | clearPurged =>
      obtain ⟨hc, ⟨⟩⟩ := Option.ite_none_right_eq_some.mp hst
      exact h.collect _ (by rw [hc]; rfl)
  | doNotify => exact h.doNotify hst
  | nodesHaveBeenPurged =>
      cases hst
      exact h.collect _ rfl

/-! ### Runs -/

/-- The invariant of the request holds in every timely run. -/
theorem requestInv_reachable (h : (machine C).ReachableIf Timely s) : RequestInv s :=
  h.invariant RequestInv (requestInv_init C) fun _ _ _ hs ha hst => hs.step ha hst

/-- The trigger thread alone can take steps that start an optimization. -/
def OptimizesNext (C : TriggerConf) (s : PerformanceTrigger) : Prop :=
  ∃ as t, (∀ a ∈ as, a = .checkWait ∨ a = .optimizeBegin) ∧
    (machine C).runIf (fun _ _ => True) s as = some t ∧ t.pc = .optimizing

/-- A trigger thread on its way starts an optimization by its own steps, unless the driver
is in use. -/
theorem OnTheWay.optimizesNext (h : s.OnTheWay) (hfree : s.collector ≠ .estimating) :
    OptimizesNext C s := by
  rcases h with hpc | ⟨hpc, hle⟩
  · refine ⟨[.optimizeBegin], { s with pc := .optimizing, requested := false }, by simp, ?_, rfl⟩
    simp [Machine.runIf, machine, PerformanceTrigger.step, hpc, hfree]
  · have hpass : s.waitNotify.tryWait = some { s.waitNotify with wasSignalled := 0 } :=
      if_neg (by omega)
    refine ⟨[.checkWait, .optimizeBegin],
      { s with
        pc := .optimizing
        waitNotify := { s.waitNotify with wasSignalled := 0 }
        requested := false }, by simp, ?_, rfl⟩
    simp [Machine.runIf, machine, PerformanceTrigger.step, hpc, hpass, hfree]

/-- In every run of timely requests: the trigger thread has discarded no request, it does
not sleep for a full period while a complete request is pending, and unless the next request
is already half made or the driver is in use, its next steps start an optimization. -/
theorem request_served (h : (machine C).ReachableIf Timely s) :
    s.discarded = false ∧
    (s.requested = true → ¬ (s.pc = .blocked ∧ s.fullPeriod = true)) ∧
    (s.requested = true → s.collector.midRequest = false → s.collector ≠ .estimating →
      OptimizesNext C s) := by
  have hinv := requestInv_reachable h
  refine ⟨hinv.notDiscarded, ?_, fun hr hm => (hinv.onTheWay hr hm).optimizesNext⟩
  rintro hr ⟨hpc, hfull⟩
  cases hm : s.collector.midRequest with
  | true =>
      -- The period that the thread sleeps for is the one of the next request.
      rw [(hinv.halfMade hm).2] at hfull
      cases hfull
  | false =>
      rcases hinv.onTheWay hr hm with hw | ⟨hw, _⟩ <;>
        · rw [hpc] at hw
          cases hw

/-! ### Sample runs -/

/-- A regular period of ten collections, and a retry after one. -/
def sampleConf : TriggerConf := ⟨10, 1⟩

/-- The initial delay ends, and the thread goes to sleep for ten collections. -/
def sampleStart : List TriggerAction := [.delayOver, .configureWait, .checkWait]

/-- Nodes are purged, and the next collection requests an optimization. -/
def sampleRequest : List TriggerAction :=
  [.nodesHaveBeenPurged, .collectionFinished false, .requestPeriod, .clearPurged, .doNotify]

/-- The state after a request that wakes the sleeping thread up. -/
def sampleServed : PerformanceTrigger where
  pc := .atWait
  collector := .idle
  waitNotify := ⟨1, 1⟩
  nodesHaveBeenPurged := false
  initialDelayFinished := true
  retries := 10
  requested := true
  discarded := false
  fullPeriod := false

/-- A request during the first sleep is served. -/
theorem request_served_sample :
    (machine sampleConf).ReachableIf Timely sampleServed ∧
    sampleServed.discarded = false ∧
    (sampleServed.requested = true →
      ¬ (sampleServed.pc = .blocked ∧ sampleServed.fullPeriod = true)) ∧
    (sampleServed.requested = true → sampleServed.collector.midRequest = false →
      sampleServed.collector ≠ .estimating → OptimizesNext sampleConf sampleServed) := by
  have hrun := Machine.reachableIf_of_runIf (M := machine sampleConf) (fun s a => s.Timely a)
    (sampleStart ++ sampleRequest) (t := sampleServed) (by decide)
  exact ⟨hrun, request_served hrun⟩

/-- The run to the first optimization, with a request during it. The answer satisfies the
constraints, so the thread sets the period twice and sleeps. -/
def sampleLost : List TriggerAction :=
  sampleStart ++ sampleRequest ++ [TriggerAction.checkWait, .optimizeBegin] ++ sampleRequest ++
    [TriggerAction.optimizeEnd (some ⟨10, 100, 3⟩), .resetPeriod, .configureWait, .checkWait]

/-- A request that comes during an optimization is discarded, and the thread sleeps for a
full period. -/
theorem not_forall_request_served :
    ¬ ∀ s, (machine sampleConf).Reachable s →
      s.discarded = false ∧
      (s.requested = true → ¬ (s.pc = .blocked ∧ s.fullPeriod = true)) := by
  intro hall
  obtain ⟨s, hs⟩ : ∃ s, (machine sampleConf).run sampleLost = some s := ⟨_, rfl⟩
  have hlost : ((machine sampleConf).run sampleLost).map
      (fun s => (s.requested, s.pc, s.fullPeriod)) = some (true, .blocked, true) := by decide
  rw [hs] at hlost
  simp only [Option.map_some, Option.some.injEq, Prod.mk.injEq] at hlost
  exact (hall s (Machine.reachable_of_run sampleLost hs)).2 hlost.1 hlost.2

end PerformanceTrigger

end PTunes.Controller
