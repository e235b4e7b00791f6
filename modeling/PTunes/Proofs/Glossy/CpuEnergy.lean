import PTunes.Glossy.CpuEnergy

/-!
# `PTunes.Proofs.Glossy.CpuEnergy`: the time of the CPU is counted once

The CPU, LPM and Glossy accounts should never add up to more than the time that has elapsed,
and no interval should be counted twice.

This depends on where a phase of Glossy starts and ends. When the main loop is asleep,
`stop_mac_energest` closes the LPM account and Glossy opens its own. The main loop does not
know about it. When it wakes up, it closes the LPM account again, which counts the sleep twice
and the phase of Glossy as sleep.

* `Inv.step`: a step apart from the phases keeps the invariant.
* `accounted_of_reachableIf`: in every run of such steps each tick is counted at most once.
* `not_accounted`: a phase of Glossy while the main loop is asleep.
-/

set_option autoImplicit false

namespace PTunes.CpuEnergy

/-- The ticks of the three accounts, the open intervals included. -/
def ticks (s : CpuEnergy) : Nat :=
  4 * (s.cpu.total.toNat + s.lpm.total.toNat + s.glossyCpu.total.toNat) +
    (s.cpu.openTime s.now + s.lpm.openTime s.now + s.glossyCpu.openTime s.now)

/-- An interval ends before the other begins. -/
def Before (i j : Nat × Nat) : Prop := i.2 ≤ j.1

/-- The open intervals of the accounts. -/
def opened (s : CpuEnergy) : List (Nat × Nat) :=
  [s.cpu, s.lpm, s.glossyCpu].filterMap fun a => if a.mode then some (a.since, s.now) else none

/-- The accounts do not exceed the time since `energest_init`, and the intervals that are
counted or open do not overlap. -/
structure Accounted (s : CpuEnergy) : Prop where
  ticks_le : s.ticks ≤ s.now - s.start
  disjoint : (s.opened ++ s.counted).Pairwise fun i j => Before j i

/-! ### The condition -/

/-- A step apart from the phases of Glossy: a phase starts only while the main loop is awake,
and while it lasts the main loop does not go to sleep and the accounts are not reset. -/
def Apart (s : CpuEnergy) : Action → Prop
  | .activate => s.loop = .awake
  | .goToSleep => s.glossyActive = false
  | .reset => s.glossyActive = false
  | _ => True

instance (s : CpuEnergy) : (a : Action) → Decidable (s.Apart a)
  | .activate => inferInstanceAs (Decidable (_ = _))
  | .goToSleep => inferInstanceAs (Decidable (_ = _))
  | .reset => inferInstanceAs (Decidable (_ = _))
  | .tick | .lpmOff | .cpuOn | .complete | .flush | .cpuTime | .lpmTime | .glossyCpuTime =>
    inferInstanceAs (Decidable True)

/-! ### The invariant -/

/-- The counted intervals do not overlap and end before `t`. -/
structure Past (counted : List (Nat × Nat)) (t : Nat) : Prop where
  pairwise : counted.Pairwise fun i j => Before j i
  le : ∀ i ∈ counted, i.2 ≤ t

/-- An open account was opened after the counted intervals. -/
def OpenPast (a : Account) (counted : List (Nat × Nat)) : Prop :=
  a.mode = true → Past counted a.since

/-- The invariant. The modes say which account is open, so at most one is. -/
structure Inv (s : CpuEnergy) : Prop where
  start_le : s.start ≤ s.now
  cpuOk : s.cpu.Ok s.now
  lpmOk : s.lpm.Ok s.now
  glossyOk : s.glossyCpu.Ok s.now
  cpuMode : s.cpu.mode = (decide (s.loop = .awake) && !s.glossyActive)
  lpmMode : s.lpm.mode = decide (s.loop = .asleep)
  glossyMode : s.glossyCpu.mode = s.glossyActive
  awake : s.glossyActive = true → s.loop = .awake
  spent_le :
    s.cpu.spent s.now + s.lpm.spent s.now + s.glossyCpu.spent s.now + s.start ≤ s.now
  past : Past s.counted s.now
  cpuPast : OpenPast s.cpu s.counted
  lpmPast : OpenPast s.lpm s.counted
  glossyPast : OpenPast s.glossyCpu s.counted

variable {s : CpuEnergy}

/-- An interval is counted that began after the others. -/
theorem Past.cons {counted : List (Nat × Nat)} {since now : Nat} (h : Past counted since)
    (hle : since ≤ now) : Past ((since, now) :: counted) now where
  pairwise := List.pairwise_cons.mpr ⟨fun i hi => h.le i hi, h.pairwise⟩
  le := by
    intro i hi
    cases hi with
    | head => exact Nat.le_refl now
    | tail _ hi => exact Nat.le_trans (h.le i hi) hle

/-- What lies in the past does so later. -/
theorem Past.mono {counted : List (Nat × Nat)} {t t' : Nat} (h : Past counted t)
    (hle : t ≤ t') : Past counted t' :=
  ⟨h.pairwise, fun i hi => Nat.le_trans (h.le i hi) hle⟩

/-- A closed account counts nothing, so it cannot count anything again. -/
theorem openPast_of_closed {a : Account} {counted : List (Nat × Nat)} (h : a.mode = false) :
    OpenPast a counted := by
  intro hm
  rw [h] at hm
  exact nomatch hm

/-- `energest_init`. -/
theorem inv_init (now : Nat) : (init now).Inv where
  start_le := Nat.le_refl now
  cpuOk := Account.ok_init.on
  lpmOk := Account.ok_init
  glossyOk := Account.ok_init
  cpuMode := rfl
  lpmMode := rfl
  glossyMode := rfl
  awake := fun h => nomatch h
  spent_le := by
    show (Account.init.on now).spent now + 0 + 0 + now ≤ now
    have := Account.spent_on_le Account.init now
    rw [Account.spent_init] at this
    omega
  past := ⟨.nil, fun _ hi => nomatch hi⟩
  cpuPast := fun _ => ⟨.nil, fun _ hi => nomatch hi⟩
  lpmPast := fun h => nomatch h
  glossyPast := fun h => nomatch h

/-- A tick: the open account grows by one, and there is at most one. -/
theorem Inv.tick (h : s.Inv) : Inv { s with now := s.now + 1 } where
  start_le := Nat.le_succ_of_le h.start_le
  cpuOk := h.cpuOk.tick
  lpmOk := h.lpmOk.tick
  glossyOk := h.glossyOk.tick
  cpuMode := h.cpuMode
  lpmMode := h.lpmMode
  glossyMode := h.glossyMode
  awake := h.awake
  spent_le := by
    have hle := h.spent_le
    show s.cpu.spent (s.now + 1) + s.lpm.spent (s.now + 1) + s.glossyCpu.spent (s.now + 1) +
      s.start ≤ s.now + 1
    rw [Account.spent_tick h.cpuOk, Account.spent_tick h.lpmOk, Account.spent_tick h.glossyOk,
      h.cpuMode, h.lpmMode, h.glossyMode]
    -- The modes as numbers: a case for each open account.
    cases hg : s.glossyActive with
    | true =>
        have hawake := h.awake hg
        simp [hawake]
        omega
    | false =>
        cases s.loop with
        | awake | asleep | waking =>
            simp
            omega
  past := h.past.mono (Nat.le_succ _)
  cpuPast := h.cpuPast
  lpmPast := h.lpmPast
  glossyPast := h.glossyPast

/-- The CPU account is closed while it is open. -/
theorem Inv.spent_cpuOff_le (h : s.Inv) (hmode : s.cpu.mode = true) :
    (s.cpu.off s.now).spent s.now + s.lpm.spent s.now + s.glossyCpu.spent s.now + s.start ≤
      s.now := by
  have hle := h.spent_le
  have hoff := Account.spent_off_le h.cpuOk hmode
  omega

/-- Outside the phases of Glossy, the main loop goes to sleep. -/
theorem Inv.goToSleep (h : s.Inv) (hawake : s.loop = .awake) (hg : s.glossyActive = false) :
    s.goToSleep.Inv := by
  have hcpu : s.cpu.mode = true := by rw [h.cpuMode, hawake, hg]; rfl
  have hpast := (h.cpuPast hcpu).cons h.cpuOk.since_le
  exact {
    start_le := h.start_le
    cpuOk := h.cpuOk.off
    lpmOk := h.lpmOk.on
    glossyOk := h.glossyOk
    cpuMode := rfl
    lpmMode := rfl
    glossyMode := h.glossyMode
    awake := fun hg' => absurd (hg.symm.trans hg') Bool.false_ne_true
    spent_le := by
      have hle := h.spent_cpuOff_le hcpu
      have hon := Account.spent_on_le s.lpm s.now
      show (s.cpu.off s.now).spent s.now + (s.lpm.on s.now).spent s.now +
        s.glossyCpu.spent s.now + s.start ≤ s.now
      omega
    past := hpast
    cpuPast := openPast_of_closed rfl
    lpmPast := fun _ => hpast
    glossyPast := openPast_of_closed (h.glossyMode.trans hg) }

/-- The main loop has been woken up. -/
theorem Inv.lpmOff (h : s.Inv) (hasleep : s.loop = .asleep) :
    Inv { s.lpmOff with loop := .waking } := by
  -- No phase of Glossy runs while the main loop is asleep.
  have hg : s.glossyActive = false := by
    cases hg : s.glossyActive with
    | false => rfl
    | true => exact absurd (hasleep.symm.trans (h.awake hg)) (by decide)
  have hlpm : s.lpm.mode = true := by rw [h.lpmMode, hasleep]; rfl
  have hcpu : s.cpu.mode = false := by rw [h.cpuMode, hasleep]; rfl
  exact {
    start_le := h.start_le
    cpuOk := h.cpuOk
    lpmOk := h.lpmOk.off
    glossyOk := h.glossyOk
    cpuMode := hcpu
    lpmMode := rfl
    glossyMode := h.glossyMode
    awake := fun hg' => absurd (hg.symm.trans hg') Bool.false_ne_true
    spent_le := by
      have hle := h.spent_le
      have hoff := Account.spent_off_le h.lpmOk hlpm
      show s.cpu.spent s.now + (s.lpm.off s.now).spent s.now + s.glossyCpu.spent s.now +
        s.start ≤ s.now
      omega
    past := (h.lpmPast hlpm).cons h.lpmOk.since_le
    cpuPast := openPast_of_closed hcpu
    lpmPast := openPast_of_closed rfl
    glossyPast := openPast_of_closed (h.glossyMode.trans hg) }

/-- The main loop opens the CPU account again. -/
theorem Inv.cpuOn (h : s.Inv) (hwaking : s.loop = .waking) :
    Inv { s with cpu := s.cpu.on s.now, loop := .awake } := by
  have hg : s.glossyActive = false := by
    cases hg : s.glossyActive with
    | false => rfl
    | true => exact absurd (hwaking.symm.trans (h.awake hg)) (by decide)
  have hlpm : s.lpm.mode = false := by rw [h.lpmMode, hwaking]; rfl
  exact {
    start_le := h.start_le
    cpuOk := h.cpuOk.on
    lpmOk := h.lpmOk
    glossyOk := h.glossyOk
    cpuMode := by
      show true = (decide (MainLoop.awake = .awake) && !s.glossyActive)
      rw [hg]
      rfl
    lpmMode := hlpm
    glossyMode := h.glossyMode
    awake := fun _ => rfl
    spent_le := by
      have hle := h.spent_le
      have hon := Account.spent_on_le s.cpu s.now
      show (s.cpu.on s.now).spent s.now + s.lpm.spent s.now + s.glossyCpu.spent s.now +
        s.start ≤ s.now
      omega
    past := h.past
    cpuPast := fun _ => h.past
    lpmPast := openPast_of_closed hlpm
    glossyPast := openPast_of_closed (h.glossyMode.trans hg) }

/-- `stop_mac_energest` while the main loop is awake: the CPU account is closed and the account
of Glossy is opened. -/
theorem Inv.activate (h : s.Inv) (hawake : s.loop = .awake) (hg : s.glossyActive = false) :
    Inv { s.stopMacEnergest with glossyActive := true } := by
  have hcpu : s.cpu.mode = true := by rw [h.cpuMode, hawake, hg]; rfl
  have hlpm : s.lpm.mode = false := by rw [h.lpmMode, hawake]; rfl
  have hpast := (h.cpuPast hcpu).cons h.cpuOk.since_le
  have hstop : s.stopMacEnergest = { s.cpuOff with glossyCpu := s.glossyCpu.on s.now } := by
    have hlpm' : s.cpuOff.lpm.mode = false := hlpm
    simp only [stopMacEnergest, hcpu, if_true, hlpm', Bool.false_eq_true, if_false]
    rfl
  rw [hstop]
  exact {
    start_le := h.start_le
    cpuOk := h.cpuOk.off
    lpmOk := h.lpmOk
    glossyOk := h.glossyOk.on
    cpuMode := (Bool.and_false _).symm
    lpmMode := h.lpmMode
    glossyMode := rfl
    awake := fun _ => hawake
    spent_le := by
      have hle := h.spent_cpuOff_le hcpu
      have hon := Account.spent_on_le s.glossyCpu s.now
      show (s.cpu.off s.now).spent s.now + s.lpm.spent s.now +
        (s.glossyCpu.on s.now).spent s.now + s.start ≤ s.now
      omega
    past := hpast
    cpuPast := openPast_of_closed rfl
    lpmPast := openPast_of_closed hlpm
    glossyPast := fun _ => hpast }

/-- `start_mac_energest`: the account of Glossy is closed and the CPU account is opened. -/
theorem Inv.complete (h : s.Inv) (hg : s.glossyActive = true) :
    Inv { s.startMacEnergest with glossyActive := false } := by
  have hawake := h.awake hg
  have hglossy : s.glossyCpu.mode = true := h.glossyMode.trans hg
  have hlpm : s.lpm.mode = false := by rw [h.lpmMode, hawake]; rfl
  have hpast := (h.glossyPast hglossy).cons h.glossyOk.since_le
  exact {
    start_le := h.start_le
    cpuOk := h.cpuOk.on
    lpmOk := h.lpmOk
    glossyOk := h.glossyOk.off
    cpuMode := by
      show true = (decide (s.loop = .awake) && !false)
      rw [hawake]
      rfl
    lpmMode := h.lpmMode
    glossyMode := rfl
    awake := fun h => nomatch h
    spent_le := by
      have hle := h.spent_le
      have hoff := Account.spent_off_le h.glossyOk hglossy
      have hon := Account.spent_on_le s.cpu s.now
      show (s.cpu.on s.now).spent s.now + s.lpm.spent s.now +
        (s.glossyCpu.off s.now).spent s.now + s.start ≤ s.now
      omega
    past := hpast
    cpuPast := fun _ => hpast
    lpmPast := openPast_of_closed hlpm
    glossyPast := openPast_of_closed rfl }

/-! ### Reading the accounts -/

/-- An account is brought up to date: it is still the open one, and its interval is counted up
to now. -/
theorem openPast_sample {a : Account} {counted : List (Nat × Nat)} {now : Nat}
    (hpast : Past counted now) (hok : a.Ok now) (h : OpenPast a counted) :
    let counted' := if a.mode then (a.since, now) :: counted else counted
    Past counted' now ∧ OpenPast (a.sample now) counted' := by
  intro counted'
  cases hm : a.mode with
  | true =>
      have hcons := (h hm).cons hok.since_le
      have hcounted : counted' = (a.since, now) :: counted := if_pos hm
      rw [hcounted, Account.sample, if_pos hm]
      exact ⟨hcons, fun _ => hcons⟩
  | false =>
      have hcounted : counted' = counted := by simp [counted', hm]
      have hsample : a.sample now = a := by simp [Account.sample, hm]
      rw [hcounted, hsample]
      exact ⟨hpast, h⟩

/-- Of an account that is closed, no interval is counted. -/
theorem openPast_of_other {a b : Account} {counted : List (Nat × Nat)} {now : Nat}
    (h : OpenPast b counted) (hother : a.mode = true → b.mode = false) :
    OpenPast b (if a.mode then (a.since, now) :: counted else counted) := by
  cases hm : a.mode with
  | true => exact openPast_of_closed (hother hm)
  | false => exact h

/-- Reading the time of the processor brings its account up to date. -/
theorem Inv.cpuTime (h : s.Inv) : s.cpuTime.Inv := by
  have hsample := openPast_sample h.past h.cpuOk h.cpuPast
  -- At most one account is open.
  have hlpm : s.cpu.mode = true → s.lpm.mode = false := by
    rw [h.cpuMode, h.lpmMode]
    cases s.loop <;> simp
  have hglossy : s.cpu.mode = true → s.glossyCpu.mode = false := by
    rw [h.cpuMode, h.glossyMode]
    cases s.glossyActive <;> simp
  exact {
    start_le := h.start_le
    cpuOk := h.cpuOk.sample
    lpmOk := h.lpmOk
    glossyOk := h.glossyOk
    cpuMode := (Account.mode_sample _ _).trans h.cpuMode
    lpmMode := h.lpmMode
    glossyMode := h.glossyMode
    awake := h.awake
    spent_le := by
      have hle := h.spent_le
      have := Account.spent_sample_le h.cpuOk
      show (s.cpu.sample s.now).spent s.now + s.lpm.spent s.now + s.glossyCpu.spent s.now +
        s.start ≤ s.now
      omega
    past := hsample.1
    cpuPast := hsample.2
    lpmPast := openPast_of_other h.lpmPast hlpm
    glossyPast := openPast_of_other h.glossyPast hglossy }

/-- Reading the time of the low-power mode does the same with the other account. -/
theorem Inv.lpmTime (h : s.Inv) : s.lpmTime.Inv := by
  have hsample := openPast_sample h.past h.lpmOk h.lpmPast
  -- At most one of the three accounts is open, so the others have no open interval to close.
  have hcpu : s.lpm.mode = true → s.cpu.mode = false := by
    rw [h.cpuMode, h.lpmMode]
    cases s.loop <;> simp
  have hglossy : s.lpm.mode = true → s.glossyCpu.mode = false := by
    have hawake := h.awake
    rw [h.lpmMode, h.glossyMode]
    cases hg : s.glossyActive with
    | true => simp [hawake hg]
    | false => simp
  exact {
    start_le := h.start_le
    cpuOk := h.cpuOk
    lpmOk := h.lpmOk.sample
    glossyOk := h.glossyOk
    cpuMode := h.cpuMode
    lpmMode := (Account.mode_sample _ _).trans h.lpmMode
    glossyMode := h.glossyMode
    awake := h.awake
    spent_le := by
      have hle := h.spent_le
      have := Account.spent_sample_le h.lpmOk
      show s.cpu.spent s.now + (s.lpm.sample s.now).spent s.now + s.glossyCpu.spent s.now +
        s.start ≤ s.now
      omega
    past := hsample.1
    cpuPast := openPast_of_other h.cpuPast hcpu
    lpmPast := hsample.2
    glossyPast := openPast_of_other h.glossyPast hglossy }

/-- Reading the time of the processor in Glossy does the same with the third account. -/
theorem Inv.glossyCpuTime (h : s.Inv) : s.glossyCpuTime.Inv := by
  have hsample := openPast_sample h.past h.glossyOk h.glossyPast
  have hcpu : s.glossyCpu.mode = true → s.cpu.mode = false := by
    rw [h.cpuMode, h.glossyMode]
    cases s.glossyActive <;> simp
  have hlpm : s.glossyCpu.mode = true → s.lpm.mode = false := by
    intro hm
    rw [h.lpmMode, h.awake (h.glossyMode.symm.trans hm)]
    rfl
  exact {
    start_le := h.start_le
    cpuOk := h.cpuOk
    lpmOk := h.lpmOk
    glossyOk := h.glossyOk.sample
    cpuMode := h.cpuMode
    lpmMode := h.lpmMode
    glossyMode := (Account.mode_sample _ _).trans h.glossyMode
    awake := h.awake
    spent_le := by
      have hle := h.spent_le
      have := Account.spent_sample_le h.glossyOk
      show s.cpu.spent s.now + s.lpm.spent s.now + (s.glossyCpu.sample s.now).spent s.now +
        s.start ≤ s.now
      omega
    past := hsample.1
    cpuPast := openPast_of_other h.cpuPast hcpu
    lpmPast := openPast_of_other h.lpmPast hlpm
    glossyPast := hsample.2 }

/-! ### Steps and runs -/

/-- A step apart from the phases of Glossy keeps the invariant. -/
theorem Inv.step {t : CpuEnergy} {a : Action} (h : s.Inv) (hok : s.Apart a)
    (hst : s.step a = some t) : t.Inv := by
  cases a with
  | tick =>
      cases hst
      exact h.tick
  | goToSleep =>
      obtain ⟨hawake, ⟨⟩⟩ := Option.ite_none_right_eq_some.mp hst
      exact h.goToSleep hawake hok
  | lpmOff =>
      obtain ⟨hasleep, ⟨⟩⟩ := Option.ite_none_right_eq_some.mp hst
      exact h.lpmOff hasleep
  | cpuOn =>
      obtain ⟨hwaking, ⟨⟩⟩ := Option.ite_none_right_eq_some.mp hst
      exact h.cpuOn hwaking
  | activate =>
      obtain ⟨hg, ⟨⟩⟩ := Option.ite_none_left_eq_some.mp hst
      exact h.activate hok (Bool.not_eq_true _ ▸ hg)
  | complete =>
      obtain ⟨hg, ⟨⟩⟩ := Option.ite_none_right_eq_some.mp hst
      exact h.complete hg
  | flush =>
      cases hst
      exact h.cpuTime.lpmTime
  | cpuTime =>
      obtain ⟨_, ⟨⟩⟩ := Option.ite_none_right_eq_some.mp hst
      exact h.cpuTime
  | lpmTime =>
      obtain ⟨_, ⟨⟩⟩ := Option.ite_none_right_eq_some.mp hst
      exact h.lpmTime
  | glossyCpuTime =>
      obtain ⟨_, ⟨⟩⟩ := Option.ite_none_right_eq_some.mp hst
      exact h.glossyCpuTime
  | reset =>
      obtain ⟨_, ⟨⟩⟩ := Option.ite_none_right_eq_some.mp hst
      -- The reset is not within a phase, so it begins the accounts anew.
      have hg : s.glossyActive = false := hok
      rw [hg]
      exact inv_init s.now

/-- The totals of the accounts do not exceed what they stand for. -/
theorem Inv.ticks_le (h : s.Inv) : s.ticks ≤ s.now - s.start := by
  have hle := h.spent_le
  have hcpu := Account.total_le h.cpuOk
  have hlpm := Account.total_le h.lpmOk
  have hglossy := Account.total_le h.glossyOk
  rw [Account.spent, Account.spent, Account.spent] at hle
  rw [ticks]
  omega

/-- At most one account is open, and it was opened after the counted intervals. -/
theorem Inv.disjoint (h : s.Inv) :
    (s.opened ++ s.counted).Pairwise fun i j => Before j i := by
  have hcpu := h.cpuPast
  have hlpm := h.lpmPast
  have hglossy := h.glossyPast
  have hpast := h.past.pairwise
  -- An open account and the counted intervals.
  have hcons : ∀ since, Past s.counted since →
      ((since, s.now) :: s.counted).Pairwise fun i j => Before j i :=
    fun since hp => List.pairwise_cons.mpr ⟨fun i hi => hp.le i hi, hp.pairwise⟩
  have hcpuMode := h.cpuMode
  have hlpmMode := h.lpmMode
  have hglossyMode := h.glossyMode
  cases hg : s.glossyActive with
  | true =>
      rw [hg] at hcpuMode hglossyMode
      rw [h.awake hg] at hlpmMode
      simpa [opened, hcpuMode, hlpmMode, hglossyMode] using hcons _ (hglossy hglossyMode)
  | false =>
      rw [hg] at hcpuMode hglossyMode
      cases hl : s.loop with
      | awake =>
          rw [hl] at hcpuMode hlpmMode
          simpa [opened, hcpuMode, hlpmMode, hglossyMode] using hcons _ (hcpu hcpuMode)
      | asleep =>
          rw [hl] at hcpuMode hlpmMode
          simpa [opened, hcpuMode, hlpmMode, hglossyMode] using hcons _ (hlpm hlpmMode)
      | waking =>
          rw [hl] at hcpuMode hlpmMode
          simpa [opened, hcpuMode, hlpmMode, hglossyMode] using hpast

/-- In every run in which the phases of Glossy come while the main loop is awake and stays
awake, every tick is counted at most once. -/
theorem accounted_of_reachableIf (now : Nat) (s : CpuEnergy)
    (h : (cpuEnergy now).ReachableIf Apart s) : s.Accounted := by
  have hinv : s.Inv :=
    h.invariant Inv (inv_init now) fun _ _ _ hs hok hst => hs.step hok hst
  exact ⟨hinv.ticks_le, hinv.disjoint⟩

/-- A phase of Glossy while the main loop is awake, and a sleep. -/
theorem accounted_of_reachableIf_phase :
    ∃ s, (cpuEnergy 0).runIf Apart (.init 0)
      [.tick, .activate, .tick, .complete, .goToSleep, .tick, .lpmOff, .cpuOn] = some s ∧
        s.Accounted := by
  obtain ⟨s, hs⟩ : ∃ s, (cpuEnergy 0).runIf Apart (.init 0)
      [.tick, .activate, .tick, .complete, .goToSleep, .tick, .lpmOff, .cpuOn] = some s :=
    Option.isSome_iff_exists.mp (by decide +kernel)
  exact ⟨s, hs, accounted_of_reachableIf 0 s (Machine.reachableIf_of_runIf Apart _ hs)⟩

/-- A phase of Glossy of 8 ticks, 8 ticks after the main loop went to sleep. At the wake-up, 16
ticks of sleep are added to the 8 that were counted at the start of the phase. -/
theorem not_accounted :
    ¬ ∀ (now : Nat) (s : CpuEnergy), (cpuEnergy now).Reachable s → s.Accounted := by
  intro h
  let run := Action.goToSleep :: List.replicate 8 .tick ++ .activate ::
    List.replicate 8 .tick ++ [.complete, .lpmOff]
  have hend : ((cpuEnergy 0).run run).map (fun s => (s.ticks, s.now, s.start)) =
      some (32, 16, 0) := by
    decide +kernel
  obtain ⟨s, hreach, hs⟩ := Machine.exists_reachable_of_run hend
  simp only [Prod.mk.injEq] at hs
  obtain ⟨hticks, hnow, hstart⟩ := hs
  have hle := (h 0 s hreach).ticks_le
  omega

end PTunes.CpuEnergy
