import PTunes.Controller.AdaptiveTimedTrigger

/-!
# `PTunes.Proofs.Controller.AdaptiveTimedTrigger`: optimizing when a peak begins or ends

* `wakes_up`: in every run, when as many collections have been signalled as a request asks for,
  the trigger thread does not sleep, and its next check leaves `doWait`.
* `schedule_kept`: in the runs in which changes are found only while the trigger thread is in
  `doWait`, no request is undone. While the thread sleeps, its wait is the one that was asked for,
  and without a request it is the one of the retries or of the present traffic.
* `discarded_reachable`: without the condition, the trigger thread undoes a request that is made
  while it optimizes.

A request is in force until the wait ends (`Inv.request`). The condition keeps the collection thread
from writing `period` when the trigger thread has just read it: between `setPeriod` and the
assignment nothing is signalled, so the trigger thread stays in `doWait` (`Kept.assigning`).
-/

set_option autoImplicit false

namespace PTunes.Controller.AdaptiveTimedTrigger

variable {ρ : Type} {C : AdaptiveConf ρ} {s t : AdaptiveTimedTrigger} {a : AdaptiveAction ρ}
  {change : TrafficChange} {n : Nat}

/-- The trigger thread is in `doWait`. -/
def Waits (s : AdaptiveTimedTrigger) : Prop := s.pc = .atWait ∨ s.pc = .blocked

/-- A change waits for at least one collection, so `setPeriod` stores a positive period for it. -/
theorem delay_pos (change : TrafficChange) : 0 < change.delay := by
  cases change <;> decide

/-! ### The steps -/

/-- `doWait` goes to sleep, or returns. -/
theorem checkWait_cases (h : s.step C .checkWait = some t) :
    s.pc = .atWait ∧
      ((s.waitNotify.wasSignalled < s.waitNotify.period ∧ t = { s with pc := .blocked }) ∨
        (s.waitNotify.period ≤ s.waitNotify.wasSignalled ∧
          t = { s with pc := .awake, waitNotify := { s.waitNotify with wasSignalled := 0 } })) := by
  obtain ⟨hpc, h⟩ := Option.ite_none_right_eq_some.mp h
  refine ⟨hpc, ?_⟩
  rw [WaitNotify.tryWait] at h
  by_cases hlt : s.waitNotify.wasSignalled < s.waitNotify.period
  · simp only [hlt, if_true] at h
    exact .inl ⟨hlt, by cases h; rfl⟩
  · simp only [hlt, if_false] at h
    exact .inr ⟨Int.not_lt.mp hlt, by cases h; rfl⟩

/-- The trigger thread sets the period before a wait or after an optimization. -/
theorem setPeriod_cases (h : s.step C .setPeriod = some t) :
    ∃ p, (s.pc = .configuring p ∧ t = { s.setOwnPeriod p with pc := .atWait }) ∨
      (s.pc = .resetting p ∧ t = { s.setOwnPeriod p with pc := .loopTop, retries := 0 }) := by
  simp only [step] at h
  split at h
  next p hpc => exact ⟨p, .inl ⟨hpc, by cases h; rfl⟩⟩
  next p hpc => exact ⟨p, .inr ⟨hpc, by cases h; rfl⟩⟩
  next => cases h

/-- The trigger thread chooses the period of a retry or of a regular wait. -/
theorem choosePeriod_cases (h : s.step C .choosePeriod = some t) :
    s.pc = .loopTop ∧
      ((0 < s.retries ∧
          t = { s with pc := .configuring C.retryPeriod, retries := s.retries - 1 }) ∨
        t = { s with pc := .configuring s.period, retries := maxRetries }) := by
  obtain ⟨hpc, h⟩ := Option.ite_none_right_eq_some.mp h
  refine ⟨hpc, ?_⟩
  split at h
  next hpos => exact .inl ⟨hpos, by cases h; rfl⟩
  next => exact .inr (by cases h; rfl)

/-- The collection thread calls `setPeriod` for the change that it has found. -/
theorem requestPeriod_cases (h : s.step C .requestPeriod = some t) :
    ∃ change, s.collector = .requesting change ∧ t = s.requestPeriod change := by
  simp only [step, collectorStep] at h
  split at h
  next change hcol => exact ⟨change, hcol, by cases h; rfl⟩
  next => cases h

/-- It has called `setPeriod`, and now it writes `period`. -/
theorem assignPeriod_cases (h : s.step C .assignPeriod = some t) :
    ∃ change, s.collector = .assigning change ∧
      t = { s with collector := .notifying, period := periodAfter change } := by
  simp only [step, collectorStep] at h
  split at h
  next change hcol => exact ⟨change, hcol, by cases h; rfl⟩
  next => cases h

/-- The collection thread signals the collection. -/
theorem doNotify_cases (h : s.step C .doNotify = some t) :
    s.collector = .notifying ∧ t = s.notifyTrigger := by
  obtain ⟨hcol, h⟩ := Option.ite_none_right_eq_some.mp h
  exact ⟨hcol, by cases h; rfl⟩

/-- A call of `collectionFinished` leaves the trigger thread and `period` alone. -/
theorem collectionFinished_cases {topologyHistory : List (Topology ρ)}
    (h : s.step C (.collectionFinished topologyHistory) = some t) :
    s.collector = .idle ∧ (t = s ∨ ∃ high,
      t = { s with collector := decideChange s.period high, peak := high }) := by
  obtain ⟨hcol, h⟩ := Option.ite_none_right_eq_some.mp h
  refine ⟨hcol, ?_⟩
  cases topologyHistory with
  | nil => exact .inl (by cases h; rfl)
  | cons topology _ =>
    exact .inr ⟨containsNodeWithHighDataRate C topology, by cases h; rfl⟩

/-- A decision leads to a call of `setPeriod` or to none. `period` is written only after a call. -/
theorem decideChange_ne_assigning (period : Int) (high : Bool) :
    decideChange period high ≠ .assigning change := by
  rw [decideChange]
  split
  · nofun
  · split <;> nofun

/-- After a signal the trigger thread is not blocked in `wait` any more. -/
theorem notifyTrigger_pc_ne : s.notifyTrigger.pc ≠ .blocked := by
  show (if s.pc = .blocked then AdaptivePc.atWait else s.pc) ≠ .blocked
  split
  · nofun
  · assumption

/-- A notification takes the trigger thread from its sleep to the next check. -/
theorem notifyTrigger_pc_cases :
    (s.pc = .blocked ∧ s.notifyTrigger.pc = .atWait) ∨ s.notifyTrigger.pc = s.pc := by
  by_cases hb : s.pc = .blocked
  · exact .inl ⟨hb, if_pos hb⟩
  · exact .inr (if_neg hb)

/-- A signal counts one more collection since the request. -/
theorem request_notifyTrigger {r : TrafficChange × Nat}
    (h : s.notifyTrigger.request = some r) :
    ∃ n, s.request = some (r.1, n) ∧ r.2 = n + 1 := by
  obtain ⟨⟨c, n⟩, hr, hmap⟩ := Option.map_eq_some_iff.mp h
  cases hmap
  exact ⟨n, hr, rfl⟩

/-! ### Requests are served in time -/

/-- What holds in every run. -/
structure Inv (s : AdaptiveTimedTrigger) : Prop where
  /-- Until the wait ends, a request is in force and its collections are counted. -/
  request : ∀ change n, s.request = some (change, n) →
    s.waitNotify = ⟨n, change.delay⟩ ∨ s.pc = .awake
  /-- The thread does not sleep through the end of its wait. -/
  asleep : s.pc = .blocked → s.waitNotify.wasSignalled < s.waitNotify.period

/-- At the start nothing is requested. -/
theorem inv_init : (init).Inv where
  request := nofun
  asleep := nofun

/-- Only the end of a wait sets a request apart from the counter. -/
theorem Inv.inForce (h : s.Inv) (hpc : s.pc ≠ .awake) (hr : s.request = some (change, n)) :
    s.waitNotify = ⟨n, change.delay⟩ :=
  (h.request change n hr).resolve_right hpc

/-- Every step of either thread keeps the invariant. -/
theorem Inv.step (h : s.Inv) (hst : s.step C a = some t) : t.Inv := by
  cases a with
  | delayOver =>
    obtain ⟨hpc, ⟨⟩⟩ := Option.ite_none_right_eq_some.mp hst
    exact ⟨fun _ _ hr => .inl (h.inForce (by rw [hpc]; nofun) hr), nofun⟩
  | choosePeriod =>
    obtain ⟨hpc, ⟨-, rfl⟩ | rfl⟩ := choosePeriod_cases hst <;>
    exact ⟨fun _ _ hr => .inl (h.inForce (by rw [hpc]; nofun) hr), nofun⟩
  | setPeriod =>
    obtain ⟨p, ⟨-, rfl⟩ | ⟨-, rfl⟩⟩ := setPeriod_cases hst <;> exact ⟨nofun, nofun⟩
  | checkWait =>
    -- The thread goes to sleep only with a wait that is not over; otherwise it is awake.
    obtain ⟨hpc, ⟨hlt, rfl⟩ | ⟨-, rfl⟩⟩ := checkWait_cases hst
    · exact ⟨fun _ _ hr => .inl (h.inForce (by rw [hpc]; nofun) hr),
        fun _ => hlt⟩
    · exact ⟨fun _ _ _ => .inr rfl, nofun⟩
  | spuriousWakeUp =>
    obtain ⟨hpc, ⟨⟩⟩ := Option.ite_none_right_eq_some.mp hst
    exact ⟨fun _ _ hr => .inl (h.inForce (by rw [hpc]; nofun) hr), nofun⟩
  | optimizeBegin =>
    obtain ⟨-, ⟨⟩⟩ := Option.ite_none_right_eq_some.mp hst
    exact ⟨nofun, nofun⟩
  | optimizeEnd newConf =>
    obtain ⟨hpc, ⟨⟩⟩ := Option.ite_none_right_eq_some.mp hst
    refine ⟨fun _ _ hr => .inl (h.inForce (by rw [hpc]; nofun) hr), ?_⟩
    cases newConf <;> nofun
  | readPeriod =>
    obtain ⟨hpc, ⟨⟩⟩ := Option.ite_none_right_eq_some.mp hst
    exact ⟨fun _ _ hr => .inl (h.inForce (by rw [hpc]; nofun) hr), nofun⟩
  | collectionFinished topologyHistory =>
    obtain ⟨-, rfl | ⟨high, rfl⟩⟩ := collectionFinished_cases hst
    · exact h
    · exact ⟨h.request, h.asleep⟩
  | requestPeriod =>
    -- A new request is in the wait at once, and its delay is positive.
    obtain ⟨change, -, rfl⟩ := requestPeriod_cases hst
    refine ⟨fun c n hr => ?_, fun _ => Int.natCast_pos.mpr (delay_pos change)⟩
    cases hr
    exact .inl rfl
  | assignPeriod =>
    obtain ⟨change, -, rfl⟩ := assignPeriod_cases hst
    exact ⟨h.request, h.asleep⟩
  | doNotify =>
    obtain ⟨-, rfl⟩ := doNotify_cases hst
    refine ⟨fun c m hr => ?_, fun hpc => absurd hpc notifyTrigger_pc_ne⟩
    obtain ⟨n, hr, rfl⟩ := request_notifyTrigger hr
    -- The signal takes one from the count of the wait and from that of the request.
    rcases h.request c n hr with hw | hpc
    · refine .inl ?_
      show s.waitNotify.doNotify = _
      rw [hw]
      rfl
    · refine .inr ?_
      show (if s.pc = .blocked then AdaptivePc.atWait else s.pc) = .awake
      rw [hpc]
      rfl

/-- It holds in every run, whatever the condition on its steps. -/
theorem inv_of_reachableIf {ok : AdaptiveTimedTrigger → AdaptiveAction ρ → Prop}
    (h : (machine C).ReachableIf ok s) : s.Inv :=
  h.invariant Inv inv_init fun _ _ _ hs _ hst => hs.step hst

/-- When the collections have been signalled that a request asks for, the trigger thread does not
sleep, and its next check leaves `doWait`. -/
theorem wakes_up (h : (machine C).Reachable s) (hr : s.request = some (change, n))
    (hn : change.delay ≤ n) :
    s.pc ≠ .blocked ∧ (s.pc = .atWait → s.waitNotify.tryWait.isSome = true) := by
  have hinv := inv_of_reachableIf h
  rcases hinv.request change n hr with hw | hpc
  · have hle : (change.delay : Int) ≤ n := Int.ofNat_le.mpr hn
    constructor
    · intro hpc
      have hlt := hinv.asleep hpc
      rw [hw] at hlt
      exact absurd hlt (Int.not_lt.mpr hle)
    · intro _
      rw [hw, WaitNotify.tryWait, if_neg (Int.not_lt.mpr hle)]
      rfl
  · rw [hpc]
    exact ⟨nofun, nofun⟩

/-- The sink and one node. -/
def oneNode (rate : Nat) : Topology Nat :=
  .ofSink ⟨0, 1, 1, 0, 0, ⟨0, 0, 0⟩⟩ ⟨0, 2, 1, 100, rate, ⟨16, 20, 10⟩⟩ 0

/-- Retries after one collection, and a threshold of 1/20. -/
def sampleConf : AdaptiveConf Nat := ⟨1, fun rate => decide (1 < 20 * rate)⟩

/-- The node starts to send while the trigger thread sleeps. -/
def peakBegins : List (AdaptiveAction Nat) :=
  [.delayOver, .choosePeriod, .setPeriod, .checkWait, .collectionFinished [oneNode 1],
    .requestPeriod, .assignPeriod, .doNotify, .checkWait]

/-- After the collection that follows, the thread leaves `doWait`. -/
theorem wakes_up_peak : ∃ s : AdaptiveTimedTrigger, s.request = some (.peakStart, 2) ∧
    s.pc = .atWait ∧ s.waitNotify.tryWait.isSome = true := by
  have hrun : ((machine sampleConf).run (peakBegins ++
      [.collectionFinished [oneNode 1], .doNotify])).map (fun s => (s.request, s.pc)) =
    some (some (.peakStart, 2), .atWait) := rfl
  obtain ⟨s, hs, hend⟩ := Machine.exists_reachable_of_run hrun
  have hr : s.request = some (.peakStart, 2) := congrArg Prod.fst hend
  have hpc : s.pc = .atWait := congrArg Prod.snd hend
  exact ⟨s, hr, hpc, (wakes_up hs hr (by decide)).2 hpc⟩

/-! ### The schedule -/

/-- The period of the traffic that the last collection found. -/
def periodOf (peak : Bool) : Int := if peak then shortPeriod else longPeriod

/-- The period that a wait is configured with: only a retry leaves `retries` below its maximum. -/
def duePeriod (C : AdaptiveConf ρ) (s : AdaptiveTimedTrigger) : Int :=
  if s.retries = maxRetries then s.period else C.retryPeriod

/-- The collection thread asks for an optimization. -/
def isRequest : AdaptiveAction ρ → Bool
  | .requestPeriod => true
  | _ => false

/-- It does so while the trigger thread is in `doWait`. -/
def detectsWaiting (s : AdaptiveTimedTrigger) (a : AdaptiveAction ρ) : Prop :=
  isRequest a = true → s.pc = .atWait ∨ s.pc = .blocked

instance (s : AdaptiveTimedTrigger) (a : AdaptiveAction ρ) : Decidable (detectsWaiting s a) :=
  inferInstanceAs (Decidable (isRequest a = true → s.pc = .atWait ∨ s.pc = .blocked))

/-- `period` while a collection is processed. A change is one from the period that is in force. -/
def TracksTraffic (s : AdaptiveTimedTrigger) : Prop :=
  match s.collector with
  | .idle | .notifying => s.period = periodOf s.peak
  | .requesting change | .assigning change => periodAfter change = periodOf s.peak

/-- What holds in the runs of `detectsWaiting`. -/
structure Kept (C : AdaptiveConf ρ) (s : AdaptiveTimedTrigger) : Prop extends Inv s where
  discarded : s.discarded = false
  requested : s.request ≠ none → s.Waits ∨ s.pc = .awake
  /-- Between `setPeriod` and the assignment the trigger thread stays in `doWait`. -/
  assigning : ∀ change, s.collector = .assigning change →
    s.Waits ∧ s.request = some (change, 0)
  retries_le : s.retries ≤ maxRetries
  configuring : ∀ p, s.pc = .configuring p → p = s.duePeriod C
  waiting : s.Waits → s.request = none → s.waitNotify.period = s.duePeriod C
  tracks : s.TracksTraffic

/-- Before the first request there is none to keep. -/
theorem kept_init : (init).Kept C where
  toInv := inv_init
  discarded := rfl
  requested h := absurd rfl h
  assigning := nofun
  retries_le := by decide
  configuring := nofun
  waiting h := by rcases h with h | h <;> cases h
  tracks := rfl

namespace Kept

/-- There is no request before a wait and after an optimization. -/
theorem request_eq_none (h : s.Kept C) (hw : ¬ s.Waits) (hpc : s.pc ≠ .awake) :
    s.request = none := by
  by_contra hr
  exact (h.requested hr).elim hw hpc

/-- The collection thread does not write `period` outside a wait. -/
theorem ne_assigning (h : s.Kept C) (hw : ¬ s.Waits) : s.collector ≠ .assigning change :=
  fun hcol => hw (h.assigning change hcol).1

/-- A step of the trigger thread outside `doWait`. -/
theorem move (h : s.Kept C) {pc' : AdaptivePc} {retries' : Int} (hw : ¬ s.Waits)
    (hpc : s.pc ≠ .awake) (hw' : ¬ Waits { s with pc := pc' }) (hretries : retries' ≤ maxRetries)
    (hconf : ∀ p, pc' = .configuring p → p = duePeriod C { s with retries := retries' })
    (hinv : Inv { s with pc := pc', retries := retries' }) :
    Kept C { s with pc := pc', retries := retries' } where
  toInv := hinv
  discarded := h.discarded
  requested hr := absurd (h.request_eq_none hw hpc) hr
  assigning _ hcol := absurd hcol (h.ne_assigning hw)
  retries_le := hretries
  configuring := hconf
  waiting hw'' := absurd hw'' hw'
  tracks := h.tracks

/-- The trigger thread calls `setPeriod`. There is no request that it could undo. -/
theorem setOwnPeriod (h : s.Kept C) {p retries' : Int} {pc' : AdaptivePc} (hw : ¬ s.Waits)
    (hpc : s.pc ≠ .awake) (hretries : retries' ≤ maxRetries)
    (hdue : Waits { s with pc := pc' } → p = duePeriod C { s with retries := retries' })
    (hconf : ∀ q, pc' ≠ .configuring q)
    (hinv : Inv { s.setOwnPeriod p with pc := pc', retries := retries' }) :
    Kept C { s.setOwnPeriod p with pc := pc', retries := retries' } where
  toInv := hinv
  discarded := by
    show (s.discarded || s.request.isSome) = false
    rw [h.discarded, h.request_eq_none hw hpc]
    rfl
  requested hr := absurd rfl hr
  assigning _ hcol := absurd hcol (h.ne_assigning hw)
  retries_le := hretries
  configuring q hq := absurd hq (hconf q)
  waiting hw' _ := hdue hw'
  tracks := h.tracks

end Kept

/-- At any other place the trigger thread does not wait, so nothing is said of a request there. -/
theorem not_waits {pc : AdaptivePc} (hpc : s.pc = pc) (hat : pc ≠ .atWait) (hbl : pc ≠ .blocked) :
    ¬ s.Waits := by
  rintro (h | h)
  · exact hat (hpc.symm.trans h)
  · exact hbl (hpc.symm.trans h)

/-- The decision of a collection leaves `period` behind the traffic at most by the change that it
asks for. -/
theorem tracksTraffic_decideChange (h : s.period = periodOf s.peak) (high : Bool) :
    TracksTraffic { s with collector := decideChange s.period high, peak := high } := by
  have hrange : s.period = shortPeriod ∨ s.period = longPeriod := by
    rw [h, periodOf]
    split
    · exact .inl rfl
    · exact .inr rfl
  have hne : shortPeriod ≠ longPeriod := by decide
  rw [TracksTraffic, decideChange]
  rcases hrange with hp | hp <;> cases high <;> simp [hp, hne, hne.symm, periodOf, periodAfter]

/-- `doWait` goes to sleep, or returns. -/
theorem Kept.checkWait (h : s.Kept C) (hst : s.step C .checkWait = some t) : t.Kept C := by
  have hinv := h.toInv.step hst
  obtain ⟨hpc, ⟨-, rfl⟩ | ⟨hle, rfl⟩⟩ := checkWait_cases hst
  · exact {
      toInv := hinv
      discarded := h.discarded
      requested := fun _ => .inl (.inr rfl)
      assigning := fun c hcol => ⟨.inr rfl, (h.assigning c hcol).2⟩
      retries_le := h.retries_le
      configuring := nofun
      waiting := fun _ hr => h.waiting (.inl hpc) hr
      tracks := h.tracks }
  · exact {
      toInv := hinv
      discarded := h.discarded
      requested := fun _ => .inr rfl
      assigning := by
        -- The wait that was just asked for is not over.
        intro c hcol
        have hw := h.inForce (by rw [hpc]; nofun) (h.assigning c hcol).2
        rw [hw] at hle
        exact absurd hle (Int.not_le.mpr (Int.natCast_pos.mpr (delay_pos c)))
      retries_le := h.retries_le
      configuring := nofun
      waiting := fun hw => by rcases hw with hw | hw <;> cases hw
      tracks := h.tracks }

/-- A collection is signalled. -/
theorem Kept.doNotify (h : s.Kept C) (hst : s.step C .doNotify = some t) : t.Kept C := by
  have hinv := h.toInv.step hst
  obtain ⟨hcol, rfl⟩ := doNotify_cases hst
  have htracks := h.tracks
  rw [TracksTraffic, hcol] at htracks
  -- A thread that waits after the signal has waited before it.
  have hwaits : s.notifyTrigger.Waits → s.Waits := by
    rcases notifyTrigger_pc_cases (s := s) with ⟨hpc, -⟩ | hpc
    · exact fun _ => .inr hpc
    · rintro (hw | hw)
      · exact .inl (hpc.symm.trans hw)
      · exact .inr (hpc.symm.trans hw)
  exact {
    toInv := hinv
    discarded := h.discarded
    requested := by
      intro hr
      obtain ⟨r, hr⟩ := Option.ne_none_iff_exists'.mp hr
      obtain ⟨n, hr, -⟩ := request_notifyTrigger hr
      have hwas := h.requested (by rw [hr]; nofun)
      -- The signal wakes the thread, or leaves it where it is.
      rcases notifyTrigger_pc_cases (s := s) with ⟨-, hpc⟩ | hpc
      · exact .inl (.inl hpc)
      · rcases hwas with (hw | hw) | hw
        · exact .inl (.inl (hpc.trans hw))
        · exact .inl (.inr (hpc.trans hw))
        · exact .inr (hpc.trans hw)
    assigning := nofun
    retries_le := h.retries_le
    configuring := by
      intro p hp
      rcases notifyTrigger_pc_cases (s := s) with ⟨-, hpc⟩ | hpc
      · rw [hpc] at hp
        cases hp
      · exact h.configuring p (hpc.symm.trans hp)
    waiting := fun hw hr => h.waiting (hwaits hw) (Option.map_eq_none_iff.mp hr)
    tracks := htracks }

/-- The period of the next wait is `period`, or that of a retry. -/
theorem Kept.choosePeriod (h : s.Kept C) (hst : s.step C .choosePeriod = some t) : t.Kept C := by
  have hinv := h.toInv.step hst
  obtain ⟨hpc, ⟨hpos, rfl⟩ | rfl⟩ := choosePeriod_cases hst
  · have hlt : s.retries - 1 < maxRetries := by
      have := h.retries_le
      omega
    refine h.move (not_waits hpc nofun nofun) (by rw [hpc]; nofun) (not_waits rfl nofun nofun)
      (Int.le_of_lt hlt) ?_ hinv
    rintro p ⟨⟩
    exact (if_neg (Int.ne_of_lt hlt)).symm
  · refine h.move (not_waits hpc nofun nofun) (by rw [hpc]; nofun) (not_waits rfl nofun nofun)
      (Int.le_refl _) ?_ hinv
    rintro p ⟨⟩
    exact (if_pos rfl).symm

/-- The thread sets the period itself, before a wait or after an optimization. -/
theorem Kept.setPeriod (h : s.Kept C) (hst : s.step C .setPeriod = some t) : t.Kept C := by
  have hinv := h.toInv.step hst
  obtain ⟨p, ⟨hpc, rfl⟩ | ⟨hpc, rfl⟩⟩ := setPeriod_cases hst
  · exact h.setOwnPeriod (not_waits hpc nofun nofun) (by rw [hpc]; nofun) h.retries_le
      (fun _ => h.configuring p hpc) nofun hinv
  · exact h.setOwnPeriod (not_waits hpc nofun nofun) (by rw [hpc]; nofun) (by decide)
      (fun hw => absurd hw (not_waits rfl nofun nofun)) nofun hinv

/-- A thread that wakes up by itself is still in `doWait`. -/
theorem Kept.spuriousWakeUp (h : s.Kept C) (hst : s.step C .spuriousWakeUp = some t) :
    t.Kept C := by
  have hinv := h.toInv.step hst
  obtain ⟨hpc, ⟨⟩⟩ := Option.ite_none_right_eq_some.mp hst
  exact {
    toInv := hinv
    discarded := h.discarded
    requested := fun _ => .inl (.inl rfl)
    assigning := fun c hcol => ⟨.inl rfl, (h.assigning c hcol).2⟩
    retries_le := h.retries_le
    configuring := nofun
    waiting := fun _ hr => h.waiting (.inr hpc) hr
    tracks := h.tracks }

/-- An optimization begins, and it serves the request. -/
theorem Kept.optimizeBegin (h : s.Kept C) (hst : s.step C .optimizeBegin = some t) :
    t.Kept C := by
  have hinv := h.toInv.step hst
  obtain ⟨hpc, ⟨⟩⟩ := Option.ite_none_right_eq_some.mp hst
  exact {
    toInv := hinv
    discarded := h.discarded
    requested := fun hr => absurd rfl hr
    assigning := fun _ hcol => absurd hcol (h.ne_assigning (not_waits hpc nofun nofun))
    retries_le := h.retries_le
    configuring := nofun
    waiting := fun hw => absurd hw (not_waits rfl nofun nofun)
    tracks := h.tracks }

/-- A collection has ended, and its traffic is compared with `period`. -/
theorem Kept.collectionFinished {topologyHistory : List (Topology ρ)} (h : s.Kept C)
    (hst : s.step C (.collectionFinished topologyHistory) = some t) : t.Kept C := by
  have hinv := h.toInv.step hst
  obtain ⟨hcol, rfl | ⟨high, rfl⟩⟩ := collectionFinished_cases hst
  · exact h
  · have htracks := h.tracks
    rw [TracksTraffic, hcol] at htracks
    exact {
      toInv := hinv
      discarded := h.discarded
      requested := h.requested
      assigning := fun _ hcol' => absurd hcol' (decideChange_ne_assigning _ _)
      retries_le := h.retries_le
      configuring := h.configuring
      waiting := h.waiting
      tracks := tracksTraffic_decideChange htracks high }

/-- The collection thread calls `setPeriod` while the trigger thread waits. -/
theorem Kept.requestPeriod (h : s.Kept C) (hwaits : s.Waits)
    (hst : s.step C .requestPeriod = some t) : t.Kept C := by
  have hinv := h.toInv.step hst
  obtain ⟨change, hcol, rfl⟩ := requestPeriod_cases hst
  have htracks := h.tracks
  rw [TracksTraffic, hcol] at htracks
  exact {
    toInv := hinv
    discarded := h.discarded
    requested := fun _ => .inl hwaits
    assigning := fun c hcol' => by
      cases hcol'
      exact ⟨hwaits, rfl⟩
    retries_le := h.retries_le
    configuring := h.configuring
    waiting := fun _ => nofun
    tracks := htracks }

/-- It assigns `period`. The trigger thread has not passed the wait in between, since no collection
has been signalled. -/
theorem Kept.assignPeriod (h : s.Kept C) (hst : s.step C .assignPeriod = some t) : t.Kept C := by
  have hinv := h.toInv.step hst
  obtain ⟨change, hcol, rfl⟩ := assignPeriod_cases hst
  obtain ⟨hwaits, hr⟩ := h.assigning change hcol
  have htracks := h.tracks
  rw [TracksTraffic, hcol] at htracks
  exact {
    toInv := hinv
    discarded := h.discarded
    requested := h.requested
    assigning := nofun
    retries_le := h.retries_le
    configuring := fun p hpc => absurd hwaits (not_waits hpc nofun nofun)
    waiting := fun _ hr' => absurd (hr.symm.trans hr') nofun
    tracks := htracks }

/-- A request that the thread waits for stays until it is served. The condition says when the
collection thread may set the period, which is the only other way to lose it. -/
theorem Kept.step (h : s.Kept C) (hok : detectsWaiting s a) (hst : s.step C a = some t) :
    t.Kept C := by
  have hinv := h.toInv.step hst
  cases a with
  | delayOver =>
    obtain ⟨hpc, ⟨⟩⟩ := Option.ite_none_right_eq_some.mp hst
    exact h.move (not_waits hpc nofun nofun) (by rw [hpc]; nofun) (not_waits rfl nofun nofun)
      h.retries_le nofun hinv
  | choosePeriod => exact h.choosePeriod hst
  | setPeriod => exact h.setPeriod hst
  | checkWait => exact h.checkWait hst
  | spuriousWakeUp => exact h.spuriousWakeUp hst
  | optimizeBegin => exact h.optimizeBegin hst
  | optimizeEnd newConf =>
    obtain ⟨hpc, ⟨⟩⟩ := Option.ite_none_right_eq_some.mp hst
    refine h.move (not_waits hpc nofun nofun) (by rw [hpc]; nofun) ?_ h.retries_le ?_ hinv
    · cases newConf <;> exact not_waits rfl nofun nofun
    · cases newConf <;> nofun
  | readPeriod =>
    obtain ⟨hpc, ⟨⟩⟩ := Option.ite_none_right_eq_some.mp hst
    exact h.move (not_waits hpc nofun nofun) (by rw [hpc]; nofun) (not_waits rfl nofun nofun)
      h.retries_le nofun hinv
  | collectionFinished topologyHistory => exact h.collectionFinished hst
  | requestPeriod => exact h.requestPeriod (hok rfl) hst
  | assignPeriod => exact h.assignPeriod hst
  | doNotify => exact h.doNotify hst

/-- The request is kept in every such run. -/
theorem kept_of_reachableIf (h : (machine C).ReachableIf detectsWaiting s) : s.Kept C :=
  h.invariant (Kept C) kept_init fun _ _ _ hs hok hst => hs.step hok hst

/-- The schedule, in every run in which changes are found only while the trigger thread is in
`doWait`. -/
theorem schedule_kept (h : (machine C).ReachableIf detectsWaiting s) :
    s.discarded = false ∧
    (s.pc = .blocked → match s.request with
      | some (change, n) => n < change.delay
      | none => s.waitNotify.period = if s.retries = maxRetries then s.period else C.retryPeriod) ∧
    (s.collector = .idle → s.period = if s.peak then shortPeriod else longPeriod) := by
  have hk := kept_of_reachableIf h
  refine ⟨hk.discarded, fun hpc => ?_, fun hcol => ?_⟩
  · cases hr : s.request with
    | none => exact hk.waiting (.inr hpc) hr
    | some r =>
      by_contra hle
      have hlt := hk.asleep hpc
      rw [hk.inForce (by rw [hpc]; nofun) hr] at hlt
      exact hle (Int.ofNat_lt.mp hlt)
  · have htracks := hk.tracks
    rw [TracksTraffic, hcol] at htracks
    exact htracks

/-- The peak that begins, with the trigger thread asleep again after its first collection. -/
theorem schedule_kept_peak : ∃ s : AdaptiveTimedTrigger, s.pc = .blocked ∧ s.peak = true ∧
    s.discarded = false ∧ s.period = shortPeriod := by
  have hrun : ((machine sampleConf).runIf detectsWaiting init peakBegins).map
      (fun s => (s.pc, s.collector, s.peak)) = some (.blocked, .idle, true) := rfl
  obtain ⟨s, hs, hend⟩ := Machine.exists_reachableIf_of_runIf hrun
  have hpc : s.pc = .blocked := congrArg Prod.fst hend
  have hcol : s.collector = .idle := congrArg (fun x => x.2.1) hend
  have hpeak : s.peak = true := congrArg (fun x => x.2.2) hend
  obtain ⟨hdis, -, hperiod⟩ := schedule_kept hs
  exact ⟨s, hpc, hpeak, hdis, (hperiod hcol).trans (if_pos hpeak)⟩

/-- The peak ends while the trigger thread optimizes. The optimization fails, and `setPeriod` before
the retry undoes the request. -/
theorem discarded_reachable :
    ∃ s, (machine sampleConf).Reachable s ∧ s.discarded = true := by
  have hrun : ((machine sampleConf).run (peakBegins ++
      [.collectionFinished [oneNode 1], .doNotify, .checkWait, .optimizeBegin,
        .collectionFinished [oneNode 0], .requestPeriod, .assignPeriod, .doNotify,
        .optimizeEnd none, .choosePeriod, .setPeriod])).map discarded = some true := rfl
  exact Machine.exists_reachable_of_run hrun

end PTunes.Controller.AdaptiveTimedTrigger
