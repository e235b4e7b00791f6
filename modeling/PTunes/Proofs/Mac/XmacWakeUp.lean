import PTunes.Mac.XmacTimers
import PTunes.Glossy.Config
import PTunes.Optimizer.Xmac
import Mathlib.Tactic.NormNum

/-!
# `PTunes.Proofs.Mac.XmacWakeUp`: X-MAC wakes up again

While X-MAC is on, one of its two compare registers should raise an interrupt within a cycle.
`timeout` sets the next wake-up to the end of the cycle that `last_on` began. When
`read_packet` handles a strobe late in this cycle, or `last_on` is from an earlier one, the
wake-up is in the past and takes a round of the counter.

* `Inv.step`: a punctual step keeps the invariant.
* `wakes_of_reachableIf`: in every run of punctual steps a wake-up is set within a cycle.
* `not_wakes`: a strobe that is handled at the end of the off phase.
-/

set_option autoImplicit false

namespace PTunes.Mac

open Controller (MacConfiguration)

namespace XmacTimers

/-- The longest time to the next wake-up: the timeout or a whole cycle. -/
def cycle (s : XmacTimers) : Nat :=
  max timeoutTime.toNat (s.config.onTime.toNat + s.config.offTime.toNat)

/-- While X-MAC is on, an enabled interrupt comes within a cycle. -/
def Wakes (s : XmacTimers) : Prop :=
  s.xmacIsOn = true →
    (s.timeout.ccie = true ∧ s.timeout.ticksToMatch s.tbr ≤ s.cycle) ∨
      (s.dutyCycle.ccie = true ∧ s.dutyCycle.ticksToMatch s.tbr ≤ s.cycle)

/-! ### The condition -/

/-- The random part of `turn_on` is not zero. -/
def RandOk (s : XmacTimers) (rand : UInt16) : Prop :=
  s.inOnPhase = true → rand % s.config.offTime ≠ 0

/-- A step that keeps the wake-up. An interrupt is served in the tick of its match. A strobe is
handled more than `TIMEOUT_TIME` before the end of the cycle that `last_on` began. A new
configuration comes when the timeout will still be inside the cycle, and no Glossy phase comes
while it is being set. -/
def Punctual (s : XmacTimers) : Action → Prop
  | .tick => s.timeout.requested = false ∧ s.dutyCycle.requested = false
  | .timerb1 _ => True
  | .sending _ => True
  | .strobe =>
    s.wasTimeout = false → s.glossy = false →
      (s.tbr - s.lastOn).toNat + 197 < s.config.onTime.toNat + s.config.offTime.toNat
  | .setConfig config =>
    s.glossy = false ∧
      (s.timeout.ccie = true →
        (s.timeout.ccr - s.lastOn).toNat < config.onTime.toNat + config.offTime.toNat)
  | .turnOn rand => s.RandOk rand
  | .glossyStart => s.configuring = false
  | .glossyEnd _ rand => s.RandOk rand

instance (s : XmacTimers) (rand : UInt16) : Decidable (s.RandOk rand) :=
  inferInstanceAs (Decidable (_ → _))

instance (s : XmacTimers) : (a : Action) → Decidable (s.Punctual a)
  | .tick => inferInstanceAs (Decidable (_ ∧ _))
  | .timerb1 _ => inferInstanceAs (Decidable True)
  | .sending _ => inferInstanceAs (Decidable True)
  | .strobe => inferInstanceAs (Decidable (_ → _ → _))
  | .setConfig _ => inferInstanceAs (Decidable (_ ∧ (_ → _)))
  | .turnOn rand => inferInstanceAs (Decidable (s.RandOk rand))
  | .glossyStart => inferInstanceAs (Decidable (_ = _))
  | .glossyEnd _ rand => inferInstanceAs (Decidable (s.RandOk rand))

/-! ### The invariant -/

/-- The value of the register is at most `n` ticks ahead, or it is matched right now. -/
structure Ahead (c : Compare) (tbr : UInt16) (n : Nat) : Prop where
  flag : c.ccifg = true → c.ccr = tbr
  noFlag : c.ccifg = false → 0 < (c.ccr - tbr).toNat ∧ (c.ccr - tbr).toNat ≤ n

/-- What holds outside the Glossy phases. -/
structure Live (s : XmacTimers) : Prop where
  timeout : s.timeout.ccie = true →
    Ahead s.timeout s.tbr 197 ∧
      (s.timeout.ccr - s.lastOn).toNat < s.config.onTime.toNat + s.config.offTime.toNat
  matched : s.dutyCycle.ccie = true → s.dutyCycle.ccifg = true → s.dutyCycle.ccr = s.tbr
  dutyCycle : s.xmacIsOn = true → s.dutyCycle.ccie = true →
    Ahead s.dutyCycle s.tbr (s.config.onTime.toNat + s.config.offTime.toNat)
  enabled : s.xmacIsOn = true → s.timeout.ccie = true ∨ s.dutyCycle.ccie = true

/-- The invariant. -/
structure Inv (s : XmacTimers) : Prop where
  valid : s.config.Valid
  off : s.glossy = true → s.xmacIsOn = false ∧ s.configuring = false
  live : s.glossy = false → s.Live

variable {s : XmacTimers}

/-- A register that is ahead, or that is matched right now, interrupts within `n` ticks. -/
theorem Ahead.ticksToMatch_le {c : Compare} {tbr : UInt16} {n : Nat} (h : Ahead c tbr n) :
    c.ticksToMatch tbr ≤ n := by
  rw [Compare.ticksToMatch]
  cases hf : c.ccifg with
  | true => simp
  | false =>
      have := h.noFlag hf
      rw [UInt16.toNat_sub] at this ⊢
      rw [UInt16.toNat_sub, show (1 : UInt16).toNat = 1 from rfl]
      simp only [Bool.false_eq_true, if_false]
      omega

/-- What is at most `m` ticks ahead is at most `n` ticks ahead. -/
theorem Ahead.mono {c : Compare} {tbr : UInt16} {m n : Nat} (h : Ahead c tbr m) (hle : m ≤ n) :
    Ahead c tbr n where
  flag := h.flag
  noFlag := fun hf => ⟨(h.noFlag hf).1, (h.noFlag hf).2.trans hle⟩

/-- A tick, when the interrupt is not requested. -/
theorem Ahead.count {c : Compare} {tbr : UInt16} {n : Nat} (h : Ahead c tbr n)
    (hccie : c.ccie = true) (hreq : c.requested = false) :
    Ahead (c.count (tbr + 1)) (tbr + 1) n := by
  have hf : c.ccifg = false := by simpa [Compare.requested, hccie] using hreq
  have hpos := h.noFlag hf
  have hcount : (c.count (tbr + 1)).ccifg = (c.ccr == tbr + 1) := by simp [Compare.count, hf]
  exact {
    flag := fun hflag => by
      rw [hcount] at hflag
      exact eq_of_beq hflag
    noFlag := fun hflag => by
      rw [hcount, beq_eq_false_iff_ne, ne_eq, ← UInt16.toNat_inj] at hflag
      show 0 < (c.ccr - (tbr + 1)).toNat ∧ (c.ccr - (tbr + 1)).toNat ≤ n
      have hc := c.ccr.toNat_lt
      have ht := tbr.toNat_lt
      rw [UInt16.toNat_sub] at hpos ⊢
      rw [UInt16.toNat_add, show (1 : UInt16).toNat = 1 from rfl] at hflag ⊢
      omega }

/-- A register whose flag is clear and whose value is ahead. -/
theorem ahead_add {c : Compare} {tbr x : UInt16} {n : Nat} (hflag : c.ccifg = false)
    (hccr : c.ccr = tbr + x) (hpos : 0 < x.toNat) (hle : x.toNat ≤ n) : Ahead c tbr n where
  flag := fun h => by
    rw [hflag] at h
    exact nomatch h
  noFlag := fun _ => by
    rw [hccr, UInt16.add_comm, UInt16.add_sub_cancel]
    exact ⟨hpos, hle⟩

/-! ### The steps -/

/-- What `powercycle` finds: the duty cycle's match is right now, and no timeout is
requested. -/
structure AtMatch (s : XmacTimers) : Prop where
  timeout : s.timeout.ccie = true →
    Ahead s.timeout s.tbr 197 ∧
      (s.timeout.ccr - s.lastOn).toNat < s.config.onTime.toNat + s.config.offTime.toNat
  notRequested : s.timeout.requested = false
  ccr : s.dutyCycle.ccr = s.tbr
  ccie : s.dutyCycle.ccie = true
  ccifg : s.dutyCycle.ccifg = false

/-- The match has been taken. -/
theorem AtMatch.not_ccifg (h : s.AtMatch) : ¬ s.dutyCycle.ccifg = true := by
  rw [h.ccifg]
  exact Bool.false_ne_true

/-- The next match is `x` ticks after this one. -/
theorem AtMatch.ahead (h : s.AtMatch) (hon : s.xmacIsOn = true) {x : UInt16} {bound : Nat}
    (hpos : 0 < x.toNat) (hle : x.toNat ≤ bound) :
    Ahead { s.dutyCycle with
      ccr := if s.xmacIsOn then s.dutyCycle.ccr + x else s.dutyCycle.ccr } s.tbr bound := by
  refine ahead_add (x := x) h.ccifg ?_ hpos hle
  show (if s.xmacIsOn then s.dutyCycle.ccr + x else s.dutyCycle.ccr) = s.tbr + x
  rw [if_pos hon, h.ccr]

/-- The off phase begins. -/
theorem AtMatch.startOffPhase (h : s.AtMatch) (hvalid : s.config.Valid) :
    s.startOffPhase.Live where
  timeout := h.timeout
  matched := fun _ hf => absurd hf h.not_ccifg
  dutyCycle := fun hon _ => by
    obtain ⟨_, _, hoff, _⟩ := hvalid
    exact h.ahead hon (x := s.config.offTime) (by omega) (Nat.le_add_left _ _)
  enabled := fun _ => .inr h.ccie

/-- The on phase begins, and `last_on` is the time of its match. -/
theorem AtMatch.startOnPhase (h : s.AtMatch) (hvalid : s.config.Valid) :
    s.startOnPhase.Live where
  timeout := fun hccie => by
    obtain ⟨hahead, _⟩ := h.timeout hccie
    have hflag : s.timeout.ccifg = false := by
      have hreq := h.notRequested
      rw [Compare.requested, show s.timeout.ccie = true from hccie] at hreq
      exact hreq
    have hle := (hahead.noFlag hflag).2
    refine ⟨hahead, ?_⟩
    show (s.timeout.ccr - s.dutyCycle.ccr).toNat < _ + s.config.offTime.toNat
    rw [h.ccr]
    obtain ⟨_, _, hoff, _⟩ := hvalid
    omega
  matched := fun _ hf => absurd hf h.not_ccifg
  dutyCycle := fun hon _ => by
    obtain ⟨hpos, _, _, _⟩ := hvalid
    exact h.ahead hon (x := s.config.onTime) hpos (Nat.le_add_right _ _)
  enabled := fun _ => .inr h.ccie

/-- `powercycle`. -/
theorem AtMatch.powercycle (h : s.AtMatch) (hvalid : s.config.Valid) : s.powercycle.Live := by
  rw [XmacTimers.powercycle]
  split
  · exact h.startOnPhase hvalid
  · split
    · exact h.startOffPhase hvalid
    · exact h.startOnPhase hvalid
  · split
    · exact h.startOffPhase hvalid
    · exact h.startOnPhase hvalid

/-- `timeout`: the end of the cycle that `last_on` began is ahead. -/
theorem live_timeoutExpired (hvalid : s.config.Valid) (hccie : s.timeout.ccie = false)
    (hlast : (s.tbr - s.lastOn).toNat < s.config.onTime.toNat + s.config.offTime.toNat) :
    s.timeoutExpired.Live where
  timeout := fun h => by
    have h' : s.timeout.ccie = true := h
    rw [hccie] at h'
    exact nomatch h'
  matched := fun _ hf => nomatch hf
  dutyCycle := fun _ _ => by
    obtain ⟨hpos, hon, hoff, hoff'⟩ := hvalid
    have hnat : (s.lastOn + s.config.onTime + s.config.offTime - s.tbr).toNat =
        s.config.onTime.toNat + s.config.offTime.toNat - (s.tbr - s.lastOn).toNat := by
      have ht := s.tbr.toNat_lt
      have hl := s.lastOn.toNat_lt
      rw [UInt16.toNat_sub] at hlast ⊢
      rw [UInt16.toNat_add, UInt16.toNat_add, UInt16.toNat_sub]
      omega
    exact {
      flag := fun hf => nomatch hf
      noFlag := fun _ => by
        show 0 < (s.lastOn + s.config.onTime + s.config.offTime - s.tbr).toNat ∧
          (s.lastOn + s.config.onTime + s.config.offTime - s.tbr).toNat ≤ _
        rw [hnat]
        show _ ∧ _ ≤ s.config.onTime.toNat + s.config.offTime.toNat
        omega }
  enabled := fun _ => .inr rfl

/-- `turn_on`. -/
theorem live_turnOn {rand : UInt16} (hvalid : s.config.Valid) (hrand : s.RandOk rand)
    (htimeout : s.timeout.ccie = true →
      Ahead s.timeout s.tbr 197 ∧
        (s.timeout.ccr - s.lastOn).toNat < s.config.onTime.toNat + s.config.offTime.toNat) :
    (s.turnOn rand).Live where
  timeout := htimeout
  matched := fun _ hf => nomatch hf
  dutyCycle := fun _ _ => by
    obtain ⟨hpos, _, hoff, _⟩ := hvalid
    cases hphase : s.inOnPhase with
    | true =>
        have hne := hrand hphase
        have hmod : (rand % s.config.offTime).toNat = rand.toNat % s.config.offTime.toNat :=
          UInt16.toNat_mod _ _
        have hlt : rand.toNat % s.config.offTime.toNat < s.config.offTime.toNat :=
          Nat.mod_lt _ (by omega)
        have hne' : (rand % s.config.offTime).toNat ≠ 0 :=
          fun h0 => hne (UInt16.toNat_inj.mp h0)
        refine ahead_add (x := rand % s.config.offTime) rfl ?_ (by omega)
          (by show _ ≤ s.config.onTime.toNat + s.config.offTime.toNat; omega)
        simp only [turnOn, Compare.enable, hphase, if_true]
    | false =>
        refine ahead_add (x := s.config.onTime) rfl ?_ hpos (Nat.le_add_right _ _)
        simp only [turnOn, Compare.enable, hphase, Bool.false_eq_true, if_false]
  enabled := fun _ => .inr rfl

/-- While X-MAC is on, one of its two registers is enabled and ahead. -/
theorem Inv.wakes (h : s.Inv) : s.Wakes := by
  intro hon
  have hg : s.glossy = false := by
    cases hg : s.glossy with
    | false => rfl
    | true =>
        have := (h.off hg).1
        rw [hon] at this
        exact nomatch this
  have hlive := h.live hg
  have h197 : timeoutTime.toNat = 197 := rfl
  by_cases hduty : s.dutyCycle.ccie = true
  · have hle := (hlive.dutyCycle hon hduty).ticksToMatch_le
    exact .inr ⟨hduty, by rw [cycle]; omega⟩
  · have htimeout : s.timeout.ccie = true := (hlive.enabled hon).resolve_right hduty
    have hle := (hlive.timeout htimeout).1.ticksToMatch_le
    exact .inl ⟨htimeout, by rw [cycle]; omega⟩

/-- A tick. -/
theorem Live.tick (h : s.Live) (htimeout : s.timeout.requested = false)
    (hduty : s.dutyCycle.requested = false) : s.tick.Live where
  timeout := fun hccie =>
    ⟨(h.timeout hccie).1.count hccie htimeout, (h.timeout hccie).2⟩
  matched := fun hccie hf => by
    have hflag : s.dutyCycle.ccifg = false := by
      rw [Compare.requested, show s.dutyCycle.ccie = true from hccie] at hduty
      exact hduty
    have hf' : (s.dutyCycle.ccifg || s.dutyCycle.ccr == s.tbr + 1) = true := hf
    rw [hflag, Bool.false_or] at hf'
    exact eq_of_beq hf'
  dutyCycle := fun hon hccie => (h.dutyCycle hon hccie).count hccie hduty
  enabled := h.enabled

/-- The interrupt, outside the floods. -/
theorem Live.timerb1 (h : s.Live) (hvalid : s.config.Valid)
    (hreq : s.timeout.requested = true ∨ s.dutyCycle.requested = true) :
    (s.timerb1Interrupt false).Live := by
  cases htimeout : s.timeout.requested with
  | true =>
      have hboth : s.timeout.ccie = true ∧ s.timeout.ccifg = true := by
        simpa [Compare.requested] using htimeout
      obtain ⟨hahead, hlast⟩ := h.timeout hboth.1
      rw [hahead.flag hboth.2] at hlast
      simp only [timerb1Interrupt, htimeout, if_true, Bool.false_eq_true, if_false]
      exact live_timeoutExpired (s := { s with timeout := s.timeout.disable }) hvalid rfl hlast
  | false =>
      have hduty : s.dutyCycle.requested = true := by simpa [htimeout] using hreq
      have hboth : s.dutyCycle.ccie = true ∧ s.dutyCycle.ccifg = true := by
        simpa [Compare.requested] using hduty
      have hmatch : AtMatch { s with dutyCycle.ccifg := false } := {
        timeout := h.timeout
        notRequested := htimeout
        ccr := h.matched hboth.1 hboth.2
        ccie := hboth.1
        ccifg := rfl }
      simp only [timerb1Interrupt, htimeout, Bool.false_eq_true, if_false]
      exact hmatch.powercycle hvalid

/-- A strobe. -/
theorem Live.readStrobe (h : s.Live)
    (hlast : s.wasTimeout = false →
      (s.tbr - s.lastOn).toNat + 197 < s.config.onTime.toNat + s.config.offTime.toNat) :
    s.readStrobe.Live := by
  cases hw : s.wasTimeout with
  | true =>
      simp only [XmacTimers.readStrobe, hw, if_true]
      exact h
  | false =>
      have hlt := hlast hw
      have hnat : (s.tbr + timeoutTime - s.lastOn).toNat ≤ (s.tbr - s.lastOn).toNat + 197 := by
        rw [UInt16.toNat_sub, UInt16.toNat_sub, UInt16.toNat_add,
          show timeoutTime.toNat = 197 from rfl]
        have := s.tbr.toNat_lt
        have := s.lastOn.toNat_lt
        omega
      simp only [XmacTimers.readStrobe, hw, Bool.false_eq_true, if_false]
      exact {
        timeout := fun _ =>
          ⟨ahead_add (x := timeoutTime) rfl rfl (by decide) (by decide), by
            show (s.tbr + timeoutTime - s.lastOn).toNat < _
            exact Nat.lt_of_le_of_lt hnat hlt⟩
        matched := fun hccie => nomatch hccie
        dutyCycle := fun _ hccie => nomatch hccie
        enabled := fun _ => .inl rfl }

/-- A step keeps the configuration valid. -/
theorem config_timerb1 (flood : Bool) : (s.timerb1Interrupt flood).config = s.config ∧
    (s.timerb1Interrupt flood).glossy = s.glossy ∧
    (s.timerb1Interrupt flood).xmacIsOn = s.xmacIsOn ∧
    (s.timerb1Interrupt flood).configuring = s.configuring := by
  have hpower (s : XmacTimers) : s.powercycle.config = s.config ∧
      s.powercycle.glossy = s.glossy ∧ s.powercycle.xmacIsOn = s.xmacIsOn ∧
      s.powercycle.configuring = s.configuring := by
    rw [XmacTimers.powercycle]
    split
    · exact ⟨rfl, rfl, rfl, rfl⟩
    · split <;> exact ⟨rfl, rfl, rfl, rfl⟩
    · split <;> exact ⟨rfl, rfl, rfl, rfl⟩
  rw [timerb1Interrupt]
  split
  · split <;> exact ⟨rfl, rfl, rfl, rfl⟩
  · cases flood with
    | true => exact ⟨rfl, rfl, rfl, rfl⟩
    | false => exact hpower { s with dutyCycle.ccifg := false }

/-- The interrupt. Outside of the Glossy phases it is not taken for a flood. -/
theorem Inv.timerb1Interrupt {flood : Bool} (h : s.Inv)
    (hreq : s.timeout.requested = true ∨ s.dutyCycle.requested = true)
    (hflood : flood = true → s.glossy = true) : (s.timerb1Interrupt flood).Inv := by
  obtain ⟨hconfig, hglossy, hon, hconfiguring⟩ := config_timerb1 (s := s) flood
  refine ⟨by rw [hconfig]; exact h.valid, fun hg => ?_, fun hg => ?_⟩
  · rw [hon, hconfiguring]
    exact h.off (hglossy ▸ hg)
  · rw [hglossy] at hg
    have hno : flood = false := by
      cases flood with
      | false => rfl
      | true =>
          have := hflood rfl
          rw [hg] at this
          exact nomatch this
    rw [hno]
    exact (h.live hg).timerb1 h.valid hreq

/-- `read_packet` handles a strobe, which may set the timeout. -/
theorem Inv.readStrobe (h : s.Inv) (hok : s.Punctual .strobe) : s.readStrobe.Inv := by
  have hframe : s.readStrobe.config = s.config ∧ s.readStrobe.glossy = s.glossy ∧
      s.readStrobe.xmacIsOn = s.xmacIsOn ∧ s.readStrobe.configuring = s.configuring := by
    rw [XmacTimers.readStrobe]
    split <;> exact ⟨rfl, rfl, rfl, rfl⟩
  obtain ⟨hconfig, hglossy, hon, hconfiguring⟩ := hframe
  refine ⟨by rw [hconfig]; exact h.valid, fun hg => ?_, fun hg => ?_⟩
  · rw [hon, hconfiguring]
    exact h.off (hglossy ▸ hg)
  · rw [hglossy] at hg
    exact (h.live hg).readStrobe (fun hw => hok hw hg)

/-- `set_xmac_config` turns X-MAC off first, so no wake-up is owed before `turn_on`. -/
theorem Inv.setConfig {config : DutyCycle} (h : s.Inv) (hvalid : config.Valid)
    (hok : s.Punctual (.setConfig config)) : (s.setConfig config).Inv := by
  obtain ⟨hg, htimeout⟩ := hok
  refine ⟨hvalid, fun hg' => ?_, fun _ => ?_⟩
  · have hg'' : s.glossy = true := hg'
    rw [hg] at hg''
    exact nomatch hg''
  · have hlive := h.live hg
    exact ⟨fun hccie => ⟨(hlive.timeout hccie).1, htimeout hccie⟩, hlive.matched,
      fun hon => (nomatch hon), fun hon => (nomatch hon)⟩

/-- `turn_on` at the end of `set_xmac_config` sets the next wake-up. -/
theorem Inv.turnOn {rand : UInt16} (h : s.Inv) (hok : s.RandOk rand)
    (hconfiguring : s.configuring = true) :
    Inv { s.turnOn rand with configuring := false } := by
  have hg : s.glossy = false := by
    cases hg : s.glossy with
    | false => rfl
    | true =>
        have := (h.off hg).2
        rw [hconfiguring] at this
        exact nomatch this
  refine ⟨h.valid, fun hg' => ?_, fun _ => ?_⟩
  · have hg'' : s.glossy = true := hg'
    rw [hg] at hg''
    exact nomatch hg''
  · have hlive : (s.turnOn rand).Live := live_turnOn h.valid hok (h.live hg).timeout
    exact ⟨hlive.timeout, hlive.matched, hlive.dutyCycle, hlive.enabled⟩

/-- A punctual step keeps the invariant. -/
theorem Inv.step {a : Action} {t : XmacTimers} (h : s.Inv) (hok : s.Punctual a)
    (hst : s.step a = some t) : t.Inv := by
  cases a with
  | tick =>
      obtain ⟨⟩ := hst
      exact ⟨h.valid, h.off, fun hg => (h.live hg).tick hok.1 hok.2⟩
  | timerb1 flood =>
      obtain ⟨⟨hreq, hflood⟩, ⟨⟩⟩ := Option.ite_none_right_eq_some.mp hst
      exact h.timerb1Interrupt hreq hflood
  | sending b =>
      obtain ⟨_, ⟨⟩⟩ := Option.ite_none_left_eq_some.mp hst
      refine ⟨h.valid, h.off, fun hg => ?_⟩
      have hlive := h.live hg
      exact ⟨hlive.timeout, hlive.matched, hlive.dutyCycle, hlive.enabled⟩
  | strobe =>
      obtain ⟨_, ⟨⟩⟩ := Option.ite_none_left_eq_some.mp hst
      exact h.readStrobe hok
  | setConfig config =>
      obtain ⟨hno, ⟨⟩⟩ := Option.ite_none_left_eq_some.mp hst
      -- The machine takes only a valid configuration.
      have hvalid : config.Valid := by
        by_contra hnot
        exact hno (.inr (.inr hnot))
      exact h.setConfig hvalid hok
  | turnOn rand =>
      obtain ⟨hconfiguring, ⟨⟩⟩ := Option.ite_none_right_eq_some.mp hst
      exact h.turnOn hok hconfiguring
  | glossyStart =>
      obtain ⟨_, ⟨⟩⟩ := Option.ite_none_left_eq_some.mp hst
      exact ⟨h.valid, fun _ => ⟨rfl, hok⟩, fun hg => (nomatch hg)⟩
  | glossyEnd tbr rand =>
      obtain ⟨_, ⟨⟩⟩ := Option.ite_none_right_eq_some.mp hst
      exact ⟨h.valid, fun hg => (nomatch hg), fun _ =>
        live_turnOn (s := { s.disableInterrupts with tbr := tbr, glossy := false }) h.valid hok
          (fun hccie => (nomatch hccie))⟩

/-- `xmac_init`. -/
theorem inv_init {tbr : UInt16} {config : DutyCycle} (hvalid : config.Valid) :
    (init tbr config).Inv where
  valid := hvalid
  off := fun hg => nomatch hg
  live := fun _ => {
    timeout := fun hccie => nomatch hccie
    matched := fun _ hf => nomatch hf
    dutyCycle := fun _ _ => by
      obtain ⟨_, _, hoff, _⟩ := hvalid
      exact ahead_add (x := config.offTime) rfl rfl (by omega) (Nat.le_add_left _ _)
    enabled := fun _ => .inr rfl }

end XmacTimers

/-! ### Runs -/

/-- In every run of punctual steps, from every valid configuration, an enabled interrupt comes
within a cycle while X-MAC is on. -/
theorem wakes_of_reachableIf (tbr : UInt16) (config : DutyCycle) (s : XmacTimers)
    (hvalid : config.Valid)
    (h : (xmacTimers tbr config).ReachableIf XmacTimers.Punctual s) : s.Wakes := by
  have hinv : s.Inv :=
    h.invariant XmacTimers.Inv (XmacTimers.inv_init hvalid)
      (fun _ _ _ hs hok hst => hs.step hok hst)
  exact hinv.wakes

/-- The duty cycle for a configuration of the optimizer, in the ticks that the nodes parse. -/
def dutyCycleOf (v : MacConfiguration) : DutyCycle where
  onTime := Glossy.roundTicks (Glossy.tenTicks (Int16.ofInt v.tl))
  offTime := Glossy.roundTicks (Glossy.tenTicks (Int16.ofInt v.ts))

/-- The domain of the optimizer, in milliseconds. -/
theorem times_of_createVariables {v : MacConfiguration}
    (h : Optimizer.Xmac.createVariables v = true) :
    20 ≤ v.ts ∧ v.ts ≤ 500 ∧ 6 ≤ v.tl ∧ v.tl ≤ 16 := by
  have hlbTs : Optimizer.Xmac.lbTs = 20 := by decide +kernel
  have hubTs : Optimizer.Xmac.ubTs = 500 := by decide +kernel
  have hlbTl : Optimizer.Xmac.lbTl = 6 := by decide +kernel
  have hubTl : Optimizer.Xmac.ubTl = 16 := by decide +kernel
  simp only [Optimizer.Xmac.createVariables, hlbTs, hubTs, hlbTl, hubTl, Bool.and_eq_true,
    decide_eq_true_eq] at h
  omega

/-- Every configuration in the domain of the optimizer is valid. -/
theorem valid_of_createVariables {v : MacConfiguration}
    (h : Optimizer.Xmac.createVariables v = true) : (dutyCycleOf v).Valid := by
  obtain ⟨hlbTs, hubTs, hlbTl, hubTl⟩ := times_of_createVariables h
  have hon : ∀ k < 17, 6 ≤ k →
      0 < (Glossy.roundTicks (Glossy.tenTicks (Int16.ofInt (k : Nat)))).toNat ∧
        (Glossy.roundTicks (Glossy.tenTicks (Int16.ofInt (k : Nat)))).toNat ≤ 524 := by
    decide +kernel
  have hoff : ∀ k < 501, 20 ≤ k →
      655 ≤ (Glossy.roundTicks (Glossy.tenTicks (Int16.ofInt (k : Nat)))).toNat ∧
        (Glossy.roundTicks (Glossy.tenTicks (Int16.ofInt (k : Nat)))).toNat ≤ 16384 := by
    decide +kernel
  obtain ⟨tl, htl⟩ : ∃ k : Nat, v.tl = k := ⟨v.tl.toNat, by omega⟩
  obtain ⟨ts, hts⟩ : ∃ k : Nat, v.ts = k := ⟨v.ts.toNat, by omega⟩
  obtain ⟨hon₁, hon₂⟩ := hon tl (by omega) (by omega)
  obtain ⟨hoff₁, hoff₂⟩ := hoff ts (by omega) (by omega)
  rw [← htl] at hon₁ hon₂
  rw [← hts] at hoff₁ hoff₂
  exact ⟨hon₁, hon₂, hoff₁, hoff₂⟩

/-- `n` ticks, and the interrupt. -/
def ticksThenInterrupt (n : Nat) : List XmacTimers.Action :=
  List.replicate n .tick ++ [.timerb1 false]

/-- The shortest cycle of the optimizer: 197 ticks on and 655 ticks off. After two times the
off time X-MAC turns the radio on at 1310. -/
def firstCycle : List XmacTimers.Action :=
  ticksThenInterrupt 655 ++ ticksThenInterrupt 655 ++ ticksThenInterrupt 197

/-- A strobe that is handled at once, and its timeout. -/
theorem wakes_of_reachableIf_strobe :
    ∃ s, (xmacTimers 0 ⟨197, 655⟩).runIf XmacTimers.Punctual (.init 0 ⟨197, 655⟩)
      (firstCycle ++ .strobe :: ticksThenInterrupt 197) = some s ∧ s.Wakes := by
  obtain ⟨s, hs⟩ : ∃ s,
      (xmacTimers 0 ⟨197, 655⟩).runIf XmacTimers.Punctual (.init 0 ⟨197, 655⟩)
        (firstCycle ++ .strobe :: ticksThenInterrupt 197) = some s :=
    Option.isSome_iff_exists.mp (by decide +kernel)
  exact ⟨s, hs, wakes_of_reachableIf 0 ⟨197, 655⟩ s (by decide)
    (Machine.reachableIf_of_runIf XmacTimers.Punctual _ hs)⟩

/-- A strobe that is handled 459 ticks after the end of the on phase. Its timeout comes one tick
after the end of the cycle, so `timeout` sets a wake-up that is one tick in the past. -/
theorem not_wakes :
    ¬ ∀ (v : MacConfiguration) (tbr : UInt16) (s : XmacTimers),
      Optimizer.Xmac.createVariables v = true →
        (xmacTimers tbr (dutyCycleOf v)).Reachable s → s.Wakes := by
  intro h
  let run := firstCycle ++ List.replicate 459 .tick ++ .strobe :: ticksThenInterrupt 197
  have hend : ((xmacTimers 0 (dutyCycleOf ⟨6, 20, 3⟩)).run run).map
      (fun s => (s.xmacIsOn, s.timeout.ccie, s.dutyCycle.ticksToMatch s.tbr, s.cycle)) =
        some (true, false, 65535, 852) := by
    decide +kernel
  obtain ⟨s, hreach, hs⟩ := Machine.exists_reachable_of_run hend
  simp only [Prod.mk.injEq] at hs
  obtain ⟨hon, htimeout, hticks, hcycle⟩ := hs
  have hwakes := h ⟨6, 20, 3⟩ 0 s (by decide +kernel) hreach hon
  rcases hwakes with ⟨hccie, _⟩ | ⟨_, hle⟩
  · rw [htimeout] at hccie
    exact nomatch hccie
  · omega

end PTunes.Mac
