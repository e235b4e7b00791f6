import PTunes.Proofs.Core.Rtimer

/-!
# `PTunes.Proofs.Core.LongTimer`: when a long rtimer is exact

A long rtimer is exact when the match of the counter and the register that calls its callback
is the one at the target, and when `rtimer_time_to_expire` gives the time to the target
whenever no interrupt is pending.

* `exists_expiring`: the callback is called. The induction is on the rounds that are left, and
  each round is an induction on the ticks to the next match (`exists_match`).
* `counting_rtimerSetLong_round`: when the target is a whole number of rounds away, the timer
  counts to a time that is one round later. `rtimer_set_long` counts the rounds from the time
  of the call, and the register that has the value of the counter is matched a round later.
* `exact_rtimerSetLong_iff`: the timer is exact when the target is less than a round away. From
  one round on, `rtimer_time_to_expire` is a round short in the tick of a match whose interrupt
  was served. Apart from these ticks, the timer is exact unless the target is a whole number
  of rounds away.
-/

set_option autoImplicit false

namespace PTunes.TimerA

/-- The interrupt that is pending calls the callback. -/
def Expiring (s : TimerA) : Prop := s.pending = true ∧ s.rtimer.overflowsToGo = 0

/-- An interrupt is served in the tick in which it is raised. -/
def Prompt (s : TimerA) : WaitEvent → Prop
  | .tick => s.pending = false
  | .timera0 => True

/-- The callback of the timer `s` is called at `target`. With interrupts that are late, the match
is at `target` and the callback is later. -/
structure CallbackAt (target : Nat) (s : TimerA) : Prop where
  called : ∃ t, (waiting s).ReachableIf Prompt t ∧ t.Expiring
  prompt : ∀ t, (waiting s).ReachableIf Prompt t → t.Expiring → t.now = target
  late : ∀ t, (waiting s).Reachable t → t.Expiring → target ≤ t.now ∧ t.now < target + 65536

/-- `rtimer_time_to_expire` gives the time to `target` in the states that `select` picks out. -/
def Reports (target : Nat) (select : TimerA → Prop) (s : TimerA) : Prop :=
  ∀ t, (waiting s).Reachable t → t.pending = false → t.now < target → select t →
    t.rtimerTimeToExpire.toNat = target - t.now

/-- The timer is exact. -/
structure Exact (target : Nat) (s : TimerA) : Prop where
  callback : CallbackAt target s
  reports : Reports target (fun _ => True) s

/-- The timer is exact, apart from the ticks in which the counter has the value of the
register. -/
structure ExactBetween (target : Nat) (s : TimerA) : Prop where
  callback : CallbackAt target s
  reports : Reports target (fun t => t.tar ≠ t.taccr0) s

/-! ### The callback is called -/

/-- Whether a match is pending after a tick. -/
theorem Counting.pending_tick {since target : Nat} {s : TimerA} (h : Counting since target s)
    (hpending : s.pending = false) :
    s.tick.pending = true ↔ (s.now + 1) % 65536 = target % 65536 := by
  rw [TimerA.tick, hpending, Bool.false_or, beq_iff_eq, h.taccr0, ofNat_eq_ofNat_iff]

/-- The counter reaches the register: the next match comes, with the rounds still to go. -/
theorem exists_match {since target : Nat} {s₀ s : TimerA}
    (h₀ : (waiting s₀).ReachableIf Prompt s) (h : Counting since target s)
    (hpending : s.pending = false) :
    ∃ t, (waiting s₀).ReachableIf Prompt t ∧ Counting since target t ∧ t.pending = true ∧
      t.rtimer.overflowsToGo = s.rtimer.overflowsToGo ∧
      t.now + 65536 * t.rtimer.overflowsToGo.toNat = target := by
  -- By induction on the ticks to the match.
  obtain ⟨d, hd⟩ : ∃ d, s.now + 65536 * s.rtimer.overflowsToGo.toNat + d = target :=
    ⟨_, Nat.add_sub_cancel' (Nat.le_of_lt (h.early hpending).1)⟩
  induction d generalizing s with
  | zero =>
      have := h.early hpending
      omega
  | succ d ih =>
      have hearly := h.early hpending
      have hgate : ¬ (s.pending = true ∧ UInt16.ofNat (s.now + 1) = s.taccr0) := by
        simp [hpending]
      have hst : s.wait .tick = some s.tick := by rw [wait, if_neg hgate]
      have htick := h.tick hgate
      have hreach : (waiting s₀).ReachableIf Prompt s.tick :=
        .step (a := .tick) h₀ hpending hst
      -- This tick is the match, or the counter goes on to it.
      by_cases hm : (s.now + 1) % 65536 = target % 65536
      · refine ⟨s.tick, hreach, htick, (h.pending_tick hpending).mpr hm, rfl, ?_⟩
        show s.now + 1 + 65536 * s.rtimer.overflowsToGo.toNat = target
        omega
      · have hnone : s.tick.pending = false := by
          simpa using mt (h.pending_tick hpending).mp hm
        refine ih (s := s.tick) hreach htick hnone ?_
        show s.now + 1 + 65536 * s.rtimer.overflowsToGo.toNat + d = target
        omega

/-- The timer after the interrupt of a match that is not the last one. -/
def served (s : TimerA) : TimerA :=
  { s with
    rtimer.overflowsToGo := s.rtimer.overflowsToGo - 1
    taccr0 := s.rtimer.time
    pending := false }

/-- The interrupt of a match that is not the last one is served. -/
theorem wait_timera0 {s : TimerA} (harmed : s.armed = true) (hpending : s.pending = true)
    (hover : s.rtimer.overflowsToGo ≠ 0) : s.wait .timera0 = some s.served := by
  rw [wait, if_pos ⟨hpending, hover⟩]
  simp only [rtimerRunNext, harmed, if_true, hover, if_false, schedule, served]

/-- One round less is to go. -/
theorem toNat_overflowsToGo_served {s : TimerA} (hover : s.rtimer.overflowsToGo ≠ 0) :
    s.served.rtimer.overflowsToGo.toNat + 1 = s.rtimer.overflowsToGo.toNat := by
  have hpos : s.rtimer.overflowsToGo.toNat ≠ 0 := fun h0 => hover (UInt16.toNat_inj.mp h0)
  have := s.rtimer.overflowsToGo.toNat_lt
  show (s.rtimer.overflowsToGo - 1).toNat + 1 = _
  rw [UInt16.toNat_sub, show (1 : UInt16).toNat = 1 from rfl]
  omega

/-- When an interrupt takes one of the whole rounds to the target, `rtimer_time_to_expire` is a
round short after it. -/
theorem toNat_rtimerTimeToExpire_served {s : TimerA} {target : Nat}
    (htime : s.rtimer.time = UInt16.ofNat target) (hle : s.now ≤ target)
    (hrounds : s.rtimer.overflowsToGo.toNat = (target - s.now) / 65536)
    (hover : s.rtimer.overflowsToGo ≠ 0) :
    s.served.rtimerTimeToExpire.toNat + 65536 = target - s.now := by
  have hdec := toNat_overflowsToGo_served hover
  have hlt := s.rtimer.overflowsToGo.toNat_lt
  rw [rtimerTimeToExpire, UInt32.toNat_add, UInt16.toNat_toUInt32,
    show s.served.taccr0 = _ from htime, tar, toNat_ofNat_sub, UInt32.toNat_shiftLeft,
    UInt16.toNat_toUInt32, show (16 : UInt32).toNat % 32 = 16 from rfl, Nat.shiftLeft_eq,
    show s.served.now = s.now from rfl]
  omega

/-- The callback is called at the target. -/
theorem exists_expiring {since target : Nat} {s₀ s : TimerA}
    (h₀ : (waiting s₀).ReachableIf Prompt s) (h : Counting since target s)
    (hpending : s.pending = false) :
    ∃ t, (waiting s₀).ReachableIf Prompt t ∧ t.Expiring ∧ t.now = target := by
  -- By induction on the rounds to go.
  induction hk : s.rtimer.overflowsToGo.toNat generalizing s with
  | zero =>
      obtain ⟨t, hreach, ht, hp, hover, hnow⟩ := exists_match h₀ h hpending
      have hzero : t.rtimer.overflowsToGo = 0 := by
        rw [hover]
        exact UInt16.toNat_inj.mp hk
      refine ⟨t, hreach, ⟨hp, hzero⟩, ?_⟩
      rw [hzero] at hnow
      simpa using hnow
  | succ k ih =>
      obtain ⟨t, hreach, ht, hp, hover, hnow⟩ := exists_match h₀ h hpending
      have hne : t.rtimer.overflowsToGo ≠ 0 := by
        intro hzero
        rw [← hover, hzero] at hk
        simp at hk
      have hst := wait_timera0 ht.armed hp hne
      have hserved : Counting since target t.served := by
        have := ht.timera0 hp hne
        rwa [Option.some_inj.mp ((if_pos (And.intro hp hne)).symm.trans hst)] at this
      refine ih (.step (a := .timera0) hreach trivial hst) hserved rfl ?_
      have := toNat_overflowsToGo_served hne
      rw [hover, hk] at this
      exact Nat.succ.inj this

/-- In a prompt run a pending match is the one of this tick. -/
theorem now_of_prompt {since target : Nat} {s₀ s : TimerA} (h₀ : Counting since target s₀)
    (hpending₀ : s₀.pending = false) (h : (waiting s₀).ReachableIf Prompt s)
    (hpending : s.pending = true) :
    s.now + 65536 * s.rtimer.overflowsToGo.toNat = target := by
  have hinv : Counting since target s ∧
      (s.pending = true → s.now + 65536 * s.rtimer.overflowsToGo.toNat = target) := by
    refine h.invariant
      (fun s => Counting since target s ∧
        (s.pending = true → s.now + 65536 * s.rtimer.overflowsToGo.toNat = target))
      ⟨h₀, fun hp => absurd (hpending₀.symm.trans hp) Bool.false_ne_true⟩ ?_
    intro s e t ⟨hs, _⟩ hok hst
    cases e with
    | tick =>
        obtain ⟨hgate, ⟨⟩⟩ := Option.ite_none_left_eq_some.mp hst
        refine ⟨hs.tick hgate, fun hp => ?_⟩
        have hearly := hs.early hok
        have hm := (hs.pending_tick hok).mp hp
        show s.now + 1 + 65536 * s.rtimer.overflowsToGo.toNat = target
        omega
    | timera0 =>
        obtain ⟨⟨hp, hover⟩, ⟨⟩⟩ := Option.ite_none_right_eq_some.mp hst
        refine ⟨hs.timera0 hp hover, fun hp' => ?_⟩
        simp [rtimerRunNext, hs.armed, hover, schedule] at hp'
  exact hinv.2 hpending

/-- A timer that counts to `target` calls its callback there. -/
theorem Counting.callbackAt {since target : Nat} {s : TimerA} (h : Counting since target s)
    (hpending : s.pending = false) : CallbackAt target s where
  called := by
    obtain ⟨t, hreach, hexp, _⟩ := exists_expiring .init h hpending
    exact ⟨t, hreach, hexp⟩
  prompt := fun t hreach hexp => by
    have := now_of_prompt h hpending hreach hexp.1
    simpa [hexp.2] using this
  late := fun t hreach hexp => by
    have := (counting_of_reachable h hreach).late hexp.1
    simpa [hexp.2] using this

/-- A timer calls its callback at one time only. -/
theorem CallbackAt.unique {target target' : Nat} {s : TimerA} (h : CallbackAt target s)
    (h' : CallbackAt target' s) : target = target' := by
  obtain ⟨t, hreach, hexp⟩ := h.called
  exact (h.prompt t hreach hexp).symm.trans (h'.prompt t hreach hexp)

/-! ### `rtimer_set_long` -/

section
variable {s : TimerA} {ref : Nat} {offset : UInt32}

/-- Setting the timer leaves a pending interrupt pending. -/
theorem pending_rtimerSetLong (harmed : s.armed = false) (hlo : ref ≤ s.now)
    (hhi : s.now < ref + 65536) (hnow : s.now < ref + offset.toNat) :
    (s.rtimerSetLong (UInt16.ofNat ref) offset).pending = s.pending := by
  obtain ⟨_, _, heq⟩ := rtimerSetLong_eq harmed hlo hhi hnow
  rw [heq]

/-- A target that is a whole number of rounds away is matched a round later. -/
theorem counting_rtimerSetLong_round (harmed : s.armed = false) (hpending : s.pending = false)
    (hlo : ref ≤ s.now) (hhi : s.now < ref + 65536) (hnow : s.now < ref + offset.toNat)
    (hround : (ref + offset.toNat) % 65536 = s.now % 65536) :
    Counting s.now (ref + offset.toNat + 65536)
      (s.rtimerSetLong (UInt16.ofNat ref) offset) := by
  obtain ⟨rounds, hrounds, heq⟩ := rtimerSetLong_eq harmed hlo hhi hnow
  have hreg : UInt16.ofNat (ref + offset.toNat) = UInt16.ofNat (ref + offset.toNat + 65536) := by
    rw [ofNat_eq_ofNat_iff]
    omega
  rw [heq]
  exact {
    armed := rfl
    time := hreg
    taccr0 := hreg
    since_le := Nat.le_refl _
    since_lt := by
      show s.now + 65536 * rounds.toNat < _
      omega
    late := fun h => absurd h (by simp [hpending])
    early := fun _ => by
      show s.now + 65536 * rounds.toNat < _ ∧ _
      dsimp only
      omega }

/-- A long rtimer whose target is a whole number of rounds away calls its callback a round
late. -/
theorem not_callbackAt_of_round (harmed : s.armed = false) (hpending : s.pending = false)
    (hlo : ref ≤ s.now) (hhi : s.now < ref + 65536) (hnow : s.now < ref + offset.toNat)
    (hround : (ref + offset.toNat) % 65536 = s.now % 65536) :
    ¬ CallbackAt (ref + offset.toNat) (s.rtimerSetLong (UInt16.ofNat ref) offset) := by
  intro h
  have hcount := counting_rtimerSetLong_round harmed hpending hlo hhi hnow hround
  have hnone := (pending_rtimerSetLong harmed hlo hhi hnow).trans hpending
  have := h.unique (hcount.callbackAt hnone)
  omega

/-- While no interrupt is pending, `rtimer_time_to_expire` is right in every tick but that of a
match. -/
theorem Counting.reports_between {since target : Nat} {s : TimerA}
    (h : Counting since target s) : Reports target (fun t => t.tar ≠ t.taccr0) s := by
  intro t hreach hpending hlt hne
  have heq := rtimerTimeToExpire_eq (counting_of_reachable h hreach)
  rw [slip, if_neg hne, hpending] at heq
  simp at heq
  omega

/-- With less than a round to go there is no match before the target. -/
theorem Counting.reports {since target : Nat} {s : TimerA} (h : Counting since target s)
    (hround : target < since + 65536) :
    Reports target (fun _ => True) s := by
  intro t hreach hpending hlt _
  have ht := counting_of_reachable h hreach
  -- The counter has the value of the register at the target first.
  refine h.reports_between t hreach hpending hlt fun heq => ?_
  rw [ht.taccr0, tar, ofNat_eq_ofNat_iff] at heq
  have := ht.since_le
  omega

/-- With a round or more to go, `rtimer_time_to_expire` is a round short in the tick of the first
match, after its interrupt. -/
theorem Counting.not_reports {since target : Nat} {s : TimerA} (h : Counting since target s)
    (hpending : s.pending = false) (hrounds : s.rtimer.overflowsToGo ≠ 0) :
    ¬ Reports target (fun _ => True) s := by
  intro hrep
  obtain ⟨t, hreach, ht, hp, hover, hnow⟩ := exists_match .init h hpending
  have hne : t.rtimer.overflowsToGo ≠ 0 := hover ▸ hrounds
  have hpos : t.rtimer.overflowsToGo.toNat ≠ 0 := fun h0 => hne (UInt16.toNat_inj.mp h0)
  have hlt : t.now < target := by omega
  have hserved : (waiting s).Reachable t.served :=
    .step (a := .timera0) (hreach.mono fun _ _ _ => trivial) trivial
      (wait_timera0 ht.armed hp hne)
  have hreport : t.served.rtimerTimeToExpire.toNat = target - t.now :=
    hrep _ hserved rfl hlt trivial
  have hshort := toNat_rtimerTimeToExpire_served ht.time (Nat.le_of_lt hlt) (by omega) hne
  omega

/-- An interrupt that is pending when the timer is set takes one of its rounds. -/
theorem not_exact_of_pending (harmed : s.armed = false) (hpending : s.pending = true)
    (hlo : ref ≤ s.now) (hhi : s.now < ref + 65536) (hnow : s.now < ref + offset.toNat) :
    ¬ Exact (ref + offset.toNat) (s.rtimerSetLong (UInt16.ofNat ref) offset) := by
  intro h
  obtain ⟨rounds, hrounds, heq⟩ := rtimerSetLong_eq harmed hlo hhi hnow
  generalize hset : s.rtimerSetLong (UInt16.ofNat ref) offset = t at h heq
  have htnow : t.now = s.now := by rw [heq]
  have htarmed : t.armed = true := by rw [heq]
  have htpending : t.pending = true := by rw [heq]; exact hpending
  have htime : t.rtimer.time = UInt16.ofNat (ref + offset.toNat) := by rw [heq]
  have hover : t.rtimer.overflowsToGo = rounds := by rw [heq]
  by_cases hzero : rounds = 0
  · -- The callback is called at once.
    have hearly : t.now = _ := h.callback.prompt t .init ⟨htpending, hover.trans hzero⟩
    omega
  · -- The report after the interrupt is a round short.
    have hne : t.rtimer.overflowsToGo ≠ 0 := hover ▸ hzero
    have hserved : (waiting t).Reachable t.served :=
      .step (a := .timera0) .init trivial (wait_timera0 htarmed htpending hne)
    have hlt : t.now < ref + offset.toNat := htnow ▸ hnow
    have hreport : t.served.rtimerTimeToExpire.toNat = ref + offset.toNat - t.now :=
      h.reports _ hserved rfl hlt trivial
    have hshort := toNat_rtimerTimeToExpire_served htime (Nat.le_of_lt hlt)
      (by rw [hover, hrounds, htnow]) hne
    omega

/-- A long rtimer is exact when no interrupt is pending and the target is less than a round away.
Apart from the ticks of matches it is exact when the target is not a whole number of rounds
away. -/
theorem exact_rtimerSetLong_iff (harmed : s.armed = false) (hlo : ref ≤ s.now)
    (hhi : s.now < ref + 65536) (hnow : s.now < ref + offset.toNat) :
    (Exact (ref + offset.toNat) (s.rtimerSetLong (UInt16.ofNat ref) offset) ↔
      s.pending = false ∧ ref + offset.toNat < s.now + 65536) ∧
    (s.pending = false →
      (ExactBetween (ref + offset.toNat) (s.rtimerSetLong (UInt16.ofNat ref) offset) ↔
        (ref + offset.toNat) % 65536 ≠ s.now % 65536)) := by
  obtain ⟨rounds, hrounds, heq⟩ := rtimerSetLong_eq harmed hlo hhi hnow
  have hkept := pending_rtimerSetLong harmed hlo hhi hnow
  have hover : (s.rtimerSetLong (UInt16.ofNat ref) offset).rtimer.overflowsToGo = rounds := by
    rw [heq]
  refine ⟨⟨fun h => ?_, fun ⟨hpending, hlt⟩ => ?_⟩, fun hpending => ⟨fun h hround => ?_,
    fun hround => ?_⟩⟩
  · cases hpending : s.pending with
    -- A pending interrupt is taken for a match at once.
    | true => exact absurd h (not_exact_of_pending harmed hpending hlo hhi hnow)
    | false =>
        refine ⟨rfl, Nat.lt_of_not_le fun hle => ?_⟩
        by_cases hround : (ref + offset.toNat) % 65536 = s.now % 65536
        · -- A target a whole number of rounds away is a match too early.
          exact not_callbackAt_of_round harmed hpending hlo hhi hnow hround h.callback
        · have hcount := counting_rtimerSetLong harmed hpending hlo hhi hnow hround
          refine hcount.not_reports (hkept.trans hpending) ?_ h.reports
          rw [hover]
          rintro rfl
          simp only [UInt16.toNat_zero] at hrounds
          omega
  · -- Less than a round away there is no match in between.
    have hcount := counting_rtimerSetLong harmed hpending hlo hhi hnow (by omega)
    exact ⟨hcount.callbackAt (hkept.trans hpending), hcount.reports hlt⟩
  · exact not_callbackAt_of_round harmed hpending hlo hhi hnow hround h.callback
  · have hcount := counting_rtimerSetLong harmed hpending hlo hhi hnow hround
    exact ⟨hcount.callbackAt (hkept.trans hpending), hcount.reports_between⟩

end

/-- Timer A at the start of the node. -/
def start : TimerA := ⟨0, 0, ⟨0, 0⟩, false, false⟩

/-- A timer of 100 ticks is exact. -/
theorem exact_rtimerSetLong_iff_hundred :
    Exact (0 + (100 : UInt32).toNat) (start.rtimerSetLong (UInt16.ofNat 0) 100) :=
  (exact_rtimerSetLong_iff (s := start) rfl (Nat.zero_le _) (show 0 < 0 + 65536 by decide)
    (show 0 < 0 + (100 : UInt32).toNat by decide)).1.mpr ⟨rfl, by decide⟩

/-- A timer of one round is not exact. -/
theorem not_forall_exact_rtimerSetLong :
    ¬ ∀ (s : TimerA) (ref : Nat) (offset : UInt32), s.armed = false → ref ≤ s.now →
      s.now < ref + 65536 → s.now < ref + offset.toNat →
      Exact (ref + offset.toNat) (s.rtimerSetLong (UInt16.ofNat ref) offset) := fun h =>
  not_callbackAt_of_round (s := start) rfl rfl (by decide)
    (by decide) (by decide) (by decide)
    (h start 0 65536 rfl (by decide) (by decide) (by decide)).callback

end PTunes.TimerA
