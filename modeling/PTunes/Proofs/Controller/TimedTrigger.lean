import PTunes.Controller.TimedTrigger

/-!
# `PTunes.Proofs.Controller.TimedTrigger`: the schedule of the retries

In every run of the trigger, for every sequence of answers and every timing of the collections, the
wait before an optimization is the one that is due (`scheduled`), and `wasSignalled` is the number
of collections that were signalled since the wait was configured, so none is lost.

The loop decides by `retries`. The invariant `RetriesLeft` relates it to what happened: while the
thread waits and optimizes, it is the number of retries that may still follow.
-/

set_option autoImplicit false

namespace PTunes.Controller.TimedTrigger

variable {C : TriggerConf} {s t : TimedTrigger} {a : TimedAction} {log : List TimedEvent}
  {kind : WaitKind} {n : Nat}

/-- The wait that was due was configured, and `n` collections were signalled since then. -/
def WaitsFor (log : List TimedEvent) (kind : WaitKind) (n : Nat) : Prop :=
  ∃ before, log = before ++ .configured kind :: List.replicate n .signalled ∧ kind = dueWait before

/-- The schedule is kept. -/
structure Scheduled (C : TriggerConf) (s : TimedTrigger) : Prop where
  /-- Before each optimization the wait that was due was configured, and at least as many
  collections were signalled since then. -/
  optimize : ∀ before after, s.log = before ++ .optimize :: after →
    ∃ kind n, WaitsFor before kind n ∧ C.periodOf kind ≤ n
  /-- During a wait each signalled collection is counted, and its period is in force. -/
  waiting : s.pc = .atWait ∨ s.pc = .blocked →
    ∃ kind n, WaitsFor s.log kind n ∧ s.waitNotify = ⟨n, C.periodOf kind⟩
  /-- The thread does not sleep through the end of the wait. -/
  asleep : s.pc = .blocked → s.waitNotify.wasSignalled < s.waitNotify.period

/-! ### The log -/

/-- The end of the last optimization is still the last one. -/
@[simp] theorem lastFailed_configured :
    lastFailed (log ++ [.configured kind]) = lastFailed log := by
  simp [lastFailed, TimedEvent.success?]

/-- A signal does not change it. -/
@[simp] theorem lastFailed_signalled : lastFailed (log ++ [.signalled]) = lastFailed log := by
  simp [lastFailed, TimedEvent.success?]

/-- The optimization that has just ended is the last one. -/
@[simp] theorem lastFailed_ended (success : Bool) :
    lastFailed (log ++ [.ended success]) = !success := by
  cases success <;> simp [lastFailed, TimedEvent.success?]

/-- The retries are counted from the last regular wait on. -/
@[simp] theorem retriesMade_regular : retriesMade (log ++ [.configured .regular]) = 0 := by
  simp [retriesMade, TimedEvent.kind?]

/-- Another wait for a retry. -/
@[simp] theorem retriesMade_retry :
    retriesMade (log ++ [.configured .retry]) = retriesMade log + 1 := by
  simp [retriesMade, TimedEvent.kind?]

/-- Every event but the configuration of a wait. -/
theorem retriesMade_concat {e : TimedEvent} (h : e.kind? = none) :
    retriesMade (log ++ [e]) = retriesMade log := by
  rw [retriesMade, List.filterMap_append, List.filterMap_cons_none h, List.filterMap_nil,
    List.append_nil, retriesMade]

/-- A wait begins. -/
theorem waitsFor_configured (h : kind = dueWait log) :
    WaitsFor (log ++ [.configured kind]) kind 0 :=
  ⟨log, rfl, h⟩

/-- One more collection. -/
theorem WaitsFor.signalled (h : WaitsFor log kind n) :
    WaitsFor (log ++ [.signalled]) kind (n + 1) := by
  obtain ⟨before, rfl, hdue⟩ := h
  refine ⟨before, ?_, hdue⟩
  rw [List.append_assoc, List.cons_append, List.replicate_succ']

/-- An event at the end of the log is the optimization in question, or another one. -/
theorem concat_eq_append_optimize {e : TimedEvent} {before after : List TimedEvent}
    (h : log ++ [e] = before ++ .optimize :: after) :
    (e = .optimize ∧ log = before) ∨ ∃ after', log = before ++ .optimize :: after' := by
  rcases List.eq_nil_or_concat after with rfl | ⟨after', x, rfl⟩
  · obtain ⟨hlog, he⟩ := List.append_inj' h rfl
    exact .inl ⟨List.head_eq_of_cons_eq he, hlog⟩
  · refine .inr ⟨after', ?_⟩
    rw [List.concat_eq_append, ← List.cons_append, ← List.append_assoc] at h
    exact (List.append_inj' h rfl).1

/-! ### The invariant -/

/-- What the loop variable says. -/
def RetriesLeft (s : TimedTrigger) : Prop :=
  match s.pc with
  | .initialDelay | .loopTop =>
    s.retries = if lastFailed s.log then maxRetries - retriesMade s.log else 0
  | .atWait | .blocked | .awake | .optimizing => s.retries = maxRetries - retriesMade s.log
  | .resetting => lastFailed s.log = false

/-- What holds in every run. -/
structure Inv (C : TriggerConf) (s : TimedTrigger) : Prop extends Scheduled C s where
  awake : s.pc = .awake → ∃ kind n, WaitsFor s.log kind n ∧ C.periodOf kind ≤ n
  retriesLeft : s.RetriesLeft

/-- At the start the log is empty. -/
theorem inv_init : (init C).Inv C where
  optimize before after h := by simp [init] at h
  waiting := nofun
  asleep := nofun
  awake := nofun
  retriesLeft := rfl

/-- The loop goes to a retry when one is due. -/
theorem RetriesLeft.retry (h : s.RetriesLeft) (hpc : s.pc = .loopTop) (hpos : s.retries > 0) :
    dueWait s.log = .retry ∧ s.retries = maxRetries - retriesMade s.log := by
  rw [RetriesLeft, hpc] at h
  cases hfailed : lastFailed s.log with
  | true =>
      have heq : s.retries = maxRetries - retriesMade s.log := by
        simpa only [hfailed, if_true] using h
      exact ⟨if_pos ⟨hfailed, by omega⟩, heq⟩
  | false =>
      have heq : s.retries = 0 := by simpa only [hfailed, Bool.false_eq_true, if_false] using h
      omega

/-- And to a regular wait when none is. -/
theorem RetriesLeft.regular (h : s.RetriesLeft) (hpc : s.pc = .loopTop) (hpos : ¬ s.retries > 0) :
    dueWait s.log = .regular := by
  rw [RetriesLeft, hpc] at h
  refine if_neg fun ⟨hfailed, hlt⟩ => ?_
  -- A retry that is due would be left in the loop variable.
  have heq : s.retries = maxRetries - retriesMade s.log := by simpa only [hfailed, if_true] using h
  omega

/-- Every event but the call of the optimizer. -/
theorem Scheduled.optimize_concat (h : s.Scheduled C) {e : TimedEvent} (he : e ≠ .optimize) :
    ∀ before after, s.log ++ [e] = before ++ .optimize :: after →
      ∃ kind n, WaitsFor before kind n ∧ C.periodOf kind ≤ n := by
  intro before after hlog
  rcases concat_eq_append_optimize hlog with ⟨heq, -⟩ | ⟨after', hlog⟩
  · exact absurd heq he
  · exact h.optimize before after' hlog

/-- The wait that is due is configured. -/
theorem Inv.startWait (h : s.Inv C) {retries : Int} (hdue : kind = dueWait s.log)
    (hretries : retries = maxRetries - retriesMade (s.log ++ [.configured kind])) :
    (s.startWait C kind retries).Inv C where
  optimize := h.optimize_concat (e := .configured kind) nofun
  waiting _ := ⟨kind, 0, waitsFor_configured hdue, rfl⟩
  asleep := nofun
  awake := nofun
  retriesLeft := hretries

/-- `doWait` goes to sleep, or returns. -/
theorem Inv.checkWait (h : s.Inv C) (hst : s.step C .checkWait = some t) : t.Inv C := by
  obtain ⟨hpc, hst⟩ := Option.ite_none_right_eq_some.mp hst
  obtain ⟨kind, n, hwaits, hw⟩ := h.waiting (.inl hpc)
  have hretries := h.retriesLeft
  rw [RetriesLeft, hpc] at hretries
  rw [WaitNotify.tryWait, hw] at hst
  by_cases hlt : (n : Int) < C.periodOf kind
  · -- Fewer collections than the period were signalled, and the thread sleeps.
    simp only [hlt, if_true] at hst
    cases hst
    exact ⟨⟨h.optimize, fun _ => ⟨kind, n, hwaits, rfl⟩, fun _ => hlt⟩, nofun, hretries⟩
  · simp only [hlt, if_false] at hst
    cases hst
    exact ⟨⟨h.optimize, nofun, nofun⟩, fun _ => ⟨kind, n, hwaits, Int.not_lt.mp hlt⟩, hretries⟩

/-- A collection is signalled. -/
theorem Inv.signalled (h : s.Inv C) :
    ({ s with
       pc := if s.pc = .blocked then .atWait else s.pc
       waitNotify := s.waitNotify.doNotify
       log := s.log ++ [.signalled] } : TimedTrigger).Inv C where
  optimize := h.optimize_concat (e := .signalled) nofun
  waiting hpc := by
    have hwas : s.pc = .atWait ∨ s.pc = .blocked := by
      by_cases hb : s.pc = .blocked
      · exact .inr hb
      · simpa only [hb, if_false, or_false] using hpc
    obtain ⟨kind, n, hwaits, hw⟩ := h.waiting hwas
    exact ⟨kind, n + 1, hwaits.signalled, by rw [hw, WaitNotify.doNotify]; rfl⟩
  asleep hpc := by
    -- A sleeping thread is woken up, and looks at the count again.
    by_cases hb : s.pc = .blocked <;> simp [hb] at hpc
  awake hpc := by
    have hwas : s.pc = .awake := by
      by_cases hb : s.pc = .blocked
      · simp [hb] at hpc
      · simpa only [hb, if_false] using hpc
    obtain ⟨kind, n, hwaits, hle⟩ := h.awake hwas
    exact ⟨kind, n + 1, hwaits.signalled, by omega⟩
  retriesLeft := by
    have hretries := h.retriesLeft
    have hmade : retriesMade (s.log ++ [.signalled]) = retriesMade s.log := retriesMade_concat rfl
    cases hpc : s.pc <;> simpa [RetriesLeft, hpc, hmade] using hretries

/-- Every step keeps what the variables say of the log. -/
theorem Inv.step (h : s.Inv C) (hst : s.step C a = some t) : t.Inv C := by
  have hretries := h.retriesLeft
  cases a with
  | delayOver =>
      obtain ⟨hpc, ⟨⟩⟩ := Option.ite_none_right_eq_some.mp hst
      rw [RetriesLeft, hpc] at hretries
      exact ⟨⟨h.optimize, nofun, nofun⟩, nofun, hretries⟩
  | configureWait =>
      obtain ⟨hpc, hst⟩ := Option.ite_none_right_eq_some.mp hst
      split at hst
      · next hpos =>
        cases hst
        -- One of the retries is used up.
        obtain ⟨hdue, heq⟩ := hretries.retry hpc hpos
        refine h.startWait hdue.symm ?_
        rw [retriesMade_retry]
        omega
      · next hpos =>
        -- A regular wait makes all retries available again.
        cases hst
        exact h.startWait (hretries.regular hpc hpos).symm (by simp)
  | checkWait => exact h.checkWait hst
  | spuriousWakeUp =>
      obtain ⟨hpc, ⟨⟩⟩ := Option.ite_none_right_eq_some.mp hst
      rw [RetriesLeft, hpc] at hretries
      exact ⟨⟨h.optimize, fun _ => h.waiting (.inr hpc), nofun⟩, nofun, hretries⟩
  | optimizeBegin =>
      obtain ⟨hpc, ⟨⟩⟩ := Option.ite_none_right_eq_some.mp hst
      rw [RetriesLeft, hpc, ← retriesMade_concat (e := .optimize) rfl] at hretries
      refine ⟨⟨fun before after hlog => ?_, nofun, nofun⟩, nofun, hretries⟩
      rcases concat_eq_append_optimize hlog with ⟨-, rfl⟩ | ⟨after', hlog⟩
      · exact h.awake hpc
      · exact h.optimize before after' hlog
  | optimizeEnd newConf =>
      obtain ⟨hpc, ⟨⟩⟩ := Option.ite_none_right_eq_some.mp hst
      rw [RetriesLeft, hpc, ← retriesMade_concat (e := .ended newConf.isSome) rfl] at hretries
      have hoptimize := h.optimize_concat (e := .ended newConf.isSome) nofun
      cases newConf with
      | none => exact ⟨⟨hoptimize, nofun, nofun⟩, nofun, by simpa [RetriesLeft] using hretries⟩
      | some newConf => exact ⟨⟨hoptimize, nofun, nofun⟩, nofun, by simp [RetriesLeft]⟩
  | resetPeriod =>
      obtain ⟨hpc, ⟨⟩⟩ := Option.ite_none_right_eq_some.mp hst
      rw [RetriesLeft, hpc] at hretries
      exact ⟨⟨h.optimize, nofun, nofun⟩, nofun, by simp [RetriesLeft, hretries]⟩
  | collectionFinished historyIsEmpty =>
      cases historyIsEmpty with
      | true =>
          cases hst
          exact h
      | false =>
          cases hst
          exact h.signalled

/-- It holds in every run. -/
theorem inv_of_reachable (h : (machine C).Reachable s) : s.Inv C :=
  h.invariant (Inv C) inv_init fun _ _ _ hs hst => hs.step hst

/-- For every sequence of answers and every timing of the collections, the schedule is kept. -/
theorem scheduled (h : (machine C).Reachable s) : s.Scheduled C :=
  (inv_of_reachable h).toScheduled

/-- A failed optimization and its retry, with a collection before the retry is configured. -/
theorem scheduled_retry : ∃ s : TimedTrigger, s.Scheduled ⟨2, 1⟩ ∧ s.pc = .optimizing ∧
    s.log = [.configured .regular, .signalled, .signalled, .optimize, .signalled, .ended false,
      .configured .retry, .signalled, .optimize] := by
  have hrun : ((machine ⟨2, 1⟩).run [.delayOver, .configureWait, .collectionFinished false,
      .checkWait, .collectionFinished true, .collectionFinished false, .checkWait, .optimizeBegin,
      .collectionFinished false, .optimizeEnd none, .configureWait, .collectionFinished false,
      .checkWait, .optimizeBegin]).map (fun s => (s.pc, s.log)) =
    some (.optimizing, [.configured .regular, .signalled, .signalled, .optimize, .signalled,
      .ended false, .configured .retry, .signalled, .optimize]) := rfl
  obtain ⟨s, hs, hpc⟩ := Machine.exists_reachable_of_run hrun
  exact ⟨s, scheduled hs, congrArg Prod.fst hpc, congrArg Prod.snd hpc⟩

end PTunes.Controller.TimedTrigger
