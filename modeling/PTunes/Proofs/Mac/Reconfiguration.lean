import PTunes.Lib.Word16
import PTunes.Mac.Adaptation
import PTunes.Optimizer.Lpp
import PTunes.Proofs.Mac.XmacWakeUp

/-!
# `PTunes.Proofs.Mac.Reconfiguration`: the configurations of the optimizer on the nodes

A configuration of the optimizer is converted to ticks by `dissemination_process` and becomes the
configuration of the MAC in `adaptation_process`. `MacConfig.uses` lists what the code computes
from it later, as expressions over 16-bit values: the restart of the duty cycle, its phases, the
timeouts of a transmission, and the back-off of relunicast. Some of the values are how far ahead
a deadline is set.

All of this is safe in the domain of X-MAC. The domain of LPP_NEW has Ts = 0, where `mac_on` of
LPP_NEW takes the remainder of a random number by an off time of 0. That is the only unsafe
configuration (`safe_reconfiguration_iff`).
-/

set_option autoImplicit false

namespace PTunes.Mac

open PTunes.Controller
open Word16

/-! ### What is computed from a configuration -/

/-- A value that the code computes. It may be how far ahead a deadline is set. -/
structure Use where
  value : Word16
  deadline : Bool

/-- No overflow, no division by zero, and no deadline half a round of the counter ahead, where
`RTIMER_CLOCK_LT` would take it for one in the past. -/
def Use.Safe (u : Use) : Prop :=
  u.value.Defined ∧ (u.deadline = true → u.value.exact < 32768)

/-- `T_DUTY`. -/
def tDutyWord (offTime onTime : UInt16) : Word16 :=
  div (add (lit offTime) (lit onTime)) (div (lit 32768) (lit 128))

/-- `relunicast.c`: `T_DUTY`, `RANDOM_DELAY` and `REXMIT_TIME`. -/
def backOffUses (offTime onTime rand : UInt16) : List Use :=
  [⟨tDutyWord offTime onTime, false⟩,
    ⟨mod (lit rand) (tDutyWord offTime onTime), true⟩,
    ⟨add (tDutyWord offTime onTime) (mod (lit rand) (tDutyWord offTime onTime)), true⟩]

/-- `xmac.c` and `SLACK_BEFORE_GLOSSY`. The deadline of `timeout` is counted from `last_on`. -/
def XmacConfig.uses (c : XmacConfig) (rand : UInt16) : List Use :=
  [⟨mod (lit rand) (lit c.offTime), true⟩, ⟨lit c.onTime, true⟩,  -- turn_on
    ⟨lit c.offTime, true⟩, ⟨lit c.onTime, true⟩,  -- powercycle
    ⟨add (lit c.onTime) (lit c.offTime), true⟩,  -- timeout
    ⟨lit c.strobeTime, true⟩,  -- send_packet
    ⟨add (div (add (lit c.offTime) (mul (lit 2) (lit c.onTime)))
      (div (lit 32768) (lit 128))) (lit 2), false⟩] ++
  backOffUses c.offTime c.onTime rand

/-- `random_off_time` in `dutycycle`. -/
def randomOffTime (rand : UInt16) : Word16 :=
  mod (lit rand) (add (lit LppNew.maxRandomOffTime) (lit 1))

/-- The time in which every neighbor sends a probe. -/
def probePeriodWord (c : LppNew.Config) : Word16 :=
  add (add (mul (lit 2) (lit c.onTime)) (lit c.offTime)) (lit LppNew.maxRandomOffTime)

/-- `lpp_new.c` and `SLACK_BEFORE_GLOSSY`. -/
def lppNewUses (c : LppNew.Config) (rand : UInt16) : List Use :=
  [⟨mod (lit rand) (lit c.offTime), true⟩,  -- mac_on
    ⟨lit c.onTime, true⟩, ⟨add (lit c.offTime) (randomOffTime rand), true⟩,  -- dutycycle
    ⟨add (add (mul (lit 2) (lit c.offTime)) (randomOffTime rand)) (lit c.onTime), false⟩,
    ⟨lit c.txTimeout, true⟩, ⟨probePeriodWord c, true⟩,  -- send_packet, send_data_packet
    ⟨add (div (lit c.txTimeout) (div (lit 32768) (lit 128))) (lit 2), false⟩] ++
  backOffUses c.offTime c.onTime rand

namespace MacConfig

/-- What is computed from the configuration, with one random number. -/
def uses (c : MacConfig) (rand : UInt16) : List Use :=
  match c with
  | .xmac c => c.uses rand
  | .lppNew c => lppNewUses c rand

/-- What `adaptation_process` computes: `strobe_time`. -/
def adaptationUses (new : Glossy.Config) : MacConfig → List Use
  | .xmac _ => [⟨add (mul (lit 2) (lit new.tL)) (lit new.tS), false⟩]
  | .lppNew _ => []

/-- A configuration of the build. The on time of LPP_NEW is `LPP_NEW_DEFAULT_ON_TIME`. -/
def Initial : MacConfig → Prop
  | .xmac _ => True
  | .lppNew c => c.onTime = 256

/-- The domain of the optimizer for the MAC. -/
def domain : MacConfig → MacConfiguration → Bool
  | .xmac _ => Optimizer.Xmac.createVariables
  | .lppNew _ => Optimizer.Lpp.createVariables

/-- The MAC is LPP_NEW. -/
def isLppNew : MacConfig → Bool
  | .xmac _ => false
  | .lppNew _ => true

/-- The configuration after `adaptation_process` has adapted to one after the other. -/
def adaptAll (c : MacConfig) (news : List Glossy.Config) : MacConfig :=
  news.foldl (fun c new => adapt new c) c

end MacConfig

/-! ### The expressions are those of the code -/

/-- The length of a cycle of LPP_NEW. -/
theorem eval_tDuty (c : LppNew.Config) :
    (tDutyWord c.offTime c.onTime).eval = (MacConfig.lppNew c).tDuty := rfl

/-- The length of a cycle of X-MAC. -/
theorem eval_tDuty_xmac (c : XmacConfig) :
    (tDutyWord c.offTime c.onTime).eval = (MacConfig.xmac c).tDuty := rfl

/-- The time between two probes. -/
theorem eval_probePeriodWord (c : LppNew.Config) :
    (probePeriodWord c).eval = LppNew.probePeriod c := rfl

/-- `turn_on` sets the first or the second deadline of the list, with no cycle to wait for. -/
theorem turnOn_ccr (s : XmacTimers) (c : XmacConfig) (rand : UInt16)
    (hc : s.config = ⟨c.onTime, c.offTime⟩) :
    (s.turnOn rand).dutyCycle.ccr =
      s.tbr + if s.inOnPhase then (mod (lit rand) (lit c.offTime)).eval
        else (lit c.onTime).eval := by
  simp only [XmacTimers.turnOn, Compare.enable, hc, eval]

/-! ### The conversion -/

/-- The tuple that the nodes parse for a configuration of the optimizer. -/
def configOf (v : MacConfiguration) : Glossy.Config :=
  Glossy.Line.config ⟨Int16.ofInt v.tl, Int16.ofInt v.ts, Int16.ofInt v.n⟩

/-- Ten times the number of ticks in `ms` milliseconds, without a bound. -/
def exactTenTicks (ms : Nat) : Nat := 327680 * ms / 1000

/-- The time is converted without an overflow. -/
def ConvertsExactly (ms : Int) : Prop :=
  (Glossy.tenTicks (Int16.ofInt ms)).toNat = exactTenTicks ms.toNat ∧
  (Glossy.roundTicks (Glossy.tenTicks (Int16.ofInt ms))).toNat =
    exactTenTicks ms.toNat / 10 + if exactTenTicks ms.toNat % 10 > 4 then 1 else 0

/-- Applying a configuration of the optimizer is safe: its conversion, `adaptation_process`, and
everything that is computed later. -/
structure SafeReconfiguration (c : MacConfig) (v : MacConfiguration) : Prop where
  tl : ConvertsExactly v.tl
  ts : ConvertsExactly v.ts
  adaptation : ∀ u ∈ c.adaptationUses (configOf v), u.Safe
  uses : ∀ rand, ∀ u ∈ (adapt (configOf v) c).uses rand, u.Safe

/-- All times up to 516 ms are converted without an overflow. -/
theorem convertsExactly {ms : Int} (hlo : 0 ≤ ms) (hhi : ms ≤ 516) : ConvertsExactly ms := by
  have h : ∀ k < 517, ConvertsExactly ((k : Nat) : Int) := by
    unfold ConvertsExactly
    decide +kernel
  obtain ⟨k, rfl⟩ := Int.eq_ofNat_of_zero_le hlo
  exact h k (by omega)

/-! ### Safe values -/

/-- The back-off is safe when a cycle is at least one tick of the clock and less than half a
round of the counter. -/
theorem safe_backOff {offTime onTime : UInt16} (hlo : 256 ≤ offTime.toNat + onTime.toNat)
    (hhi : offTime.toNat + onTime.toNat < 32768) (rand : UInt16) :
    ∀ u ∈ backOffUses offTime onTime rand, u.Safe := by
  have hduty : (tDutyWord offTime onTime).Defined := by
    simp [tDutyWord]
    omega
  have hexact : (tDutyWord offTime onTime).exact = (offTime.toNat + onTime.toNat) / 256 := rfl
  have hmod : (mod (lit rand) (tDutyWord offTime onTime)).Defined :=
    ⟨trivial, hduty, by rw [hexact]; omega⟩
  have hlt := hmod.exact_mod_lt
  simp only [backOffUses, List.mem_cons, List.not_mem_nil, or_false, forall_eq_or_imp, forall_eq]
  refine ⟨⟨hduty, fun h => nomatch h⟩, ⟨hmod, fun _ => hlt.trans (by omega)⟩,
    ⟨hduty, hmod, by omega⟩, fun _ => ?_⟩
  show (tDutyWord offTime onTime).exact + (mod (lit rand) (tDutyWord offTime onTime)).exact < _
  omega

/-- A constant is a safe time when it is below half of the clock. -/
theorem safe_lit {x : UInt16} (h : x.toNat < 32768) (deadline : Bool) :
    (Use.mk (lit x) deadline).Safe :=
  ⟨trivial, fun _ => h⟩

/-- A random part of a time is safe exactly when the time is not 0. -/
theorem safe_random_iff {rand x : UInt16} (h : x.toNat < 32768) :
    (Use.mk (mod (lit rand) (lit x)) true).Safe ↔ x.toNat ≠ 0 := by
  constructor
  · intro hs
    exact hs.1.2.2
  · intro hne
    have hdef : (mod (lit rand) (lit x)).Defined := ⟨trivial, trivial, hne⟩
    exact ⟨hdef, fun _ => hdef.exact_mod_lt.trans h⟩

/-- The uses of a configuration of X-MAC are safe. -/
theorem safe_xmac {c : XmacConfig} (hvalid : (DutyCycle.mk c.onTime c.offTime).Valid)
    (hstrobe : c.strobeTime.toNat < 32768) (rand : UInt16) : ∀ u ∈ c.uses rand, u.Safe := by
  obtain ⟨hon, hon', hoff, hoff'⟩ := hvalid
  simp only at hon hon' hoff hoff'
  refine List.forall_mem_append.mpr ⟨?_, safe_backOff (by omega) (by omega) rand⟩
  · simp only [List.mem_cons, List.not_mem_nil, or_false, forall_eq_or_imp, forall_eq]
    refine ⟨(safe_random_iff (by omega)).mpr (by omega), safe_lit (by omega) _,
      safe_lit (by omega) _, safe_lit (by omega) _, ⟨⟨trivial, trivial, ?_⟩, fun _ => ?_⟩,
      safe_lit hstrobe _, ?_, fun h => nomatch h⟩
    · show c.onTime.toNat + c.offTime.toNat < 65536
      omega
    · show c.onTime.toNat + c.offTime.toNat < 32768
      omega
    · simp
      omega

/-- The uses of a configuration of LPP_NEW with the default on time are safe exactly when its
off time is not 0. -/
theorem safe_lppNew_iff {c : LppNew.Config} (hon : c.onTime = 256)
    (hoff : c.offTime.toNat ≤ 16384) (htx : c.txTimeout.toNat < 32768) :
    (∀ rand, ∀ u ∈ lppNewUses c rand, u.Safe) ↔ c.offTime.toNat ≠ 0 := by
  have hon' : c.onTime.toNat = 256 := by
    rw [hon]
    rfl
  constructor
  · intro h
    have hmac := h 0 ⟨mod (lit 0) (lit c.offTime), true⟩ (List.mem_append_left _ List.mem_cons_self)
    exact (safe_random_iff (by omega)).mp hmac
  · intro hne rand
    have hrand : (randomOffTime rand).Defined ∧ (randomOffTime rand).exact < 513 := by
      have hdef : (randomOffTime rand).Defined := by
        simp [randomOffTime, LppNew.maxRandomOffTime]
      exact ⟨hdef, hdef.exact_mod_lt⟩
    refine List.forall_mem_append.mpr ⟨?_, safe_backOff (by omega) (by omega) rand⟩
    · simp only [List.mem_cons, List.not_mem_nil, or_false, forall_eq_or_imp, forall_eq]
      refine ⟨(safe_random_iff (by omega)).mpr hne, safe_lit (by omega) _,
        ⟨⟨trivial, hrand.1, ?_⟩, fun _ => ?_⟩, ⟨?_, fun h => nomatch h⟩, safe_lit htx _,
        ⟨?_, fun _ => ?_⟩, ?_, fun h => nomatch h⟩
      · show c.offTime.toNat + (randomOffTime rand).exact < 65536
        omega
      · show c.offTime.toNat + (randomOffTime rand).exact < 32768
        omega
      · simp [hrand.1]
        omega
      · simp [probePeriodWord, LppNew.maxRandomOffTime]
        omega
      · show 2 * c.onTime.toNat + c.offTime.toNat + 512 < 32768
        omega
      · simp
        omega

/-! ### The domains -/

/-- The times of the domain of LPP_NEW, in ticks. -/
theorem lppNew_bounds {v : MacConfiguration} (h : Optimizer.Lpp.createVariables v = true) :
    (0 ≤ v.ts ∧ v.ts ≤ 500 ∧ v.tl = 16 + v.ts) ∧ (configOf v).tS.toNat ≤ 16384 ∧
    (configOf v).tL.toNat < 32768 ∧ ((configOf v).tS.toNat ≠ 0 ↔ v.ts ≠ 0) := by
  have hubTs : Optimizer.Lpp.ubTs = 500 := by decide +kernel
  have hfixed : Optimizer.Lpp.fixed = 16 := by decide +kernel
  simp only [Optimizer.Lpp.createVariables, hubTs, hfixed, Bool.and_eq_true, decide_eq_true_eq,
    beq_iff_eq] at h
  have hticks : ∀ k < 517, (Glossy.roundTicks (Glossy.tenTicks (Int16.ofInt (k : Nat)))).toNat
      < 32768 ∧ (k ≤ 500 → (Glossy.roundTicks (Glossy.tenTicks (Int16.ofInt (k : Nat)))).toNat
      ≤ 16384) ∧ ((Glossy.roundTicks (Glossy.tenTicks (Int16.ofInt (k : Nat)))).toNat ≠ 0
      ↔ k ≠ 0) := by
    decide +kernel
  obtain ⟨ts, hts⟩ : ∃ k : Nat, v.ts = k := ⟨v.ts.toNat, by omega⟩
  obtain ⟨tl, htl⟩ : ∃ k : Nat, v.tl = k := ⟨v.tl.toNat, by omega⟩
  obtain ⟨_, hle, hzero⟩ := hticks ts (by omega)
  obtain ⟨hlt, _, _⟩ := hticks tl (by omega)
  rw [← hts] at hle hzero
  rw [← htl] at hlt
  refine ⟨by omega, hle (by omega), hlt, hzero.trans ?_⟩
  omega

/-- `adaptation_process` keeps the on time of LPP_NEW. -/
theorem MacConfig.Initial.adaptAll {c : MacConfig} (h : c.Initial) (news : List Glossy.Config) :
    (c.adaptAll news).Initial ∧ (c.adaptAll news).isLppNew = c.isLppNew ∧
    (c.adaptAll news).domain = c.domain := by
  induction news generalizing c with
  | nil => exact ⟨h, rfl, rfl⟩
  | cons new news ih =>
      cases c with
      | xmac c => exact ih (c := .xmac _) trivial
      | lppNew c => exact ih (c := .lppNew _) h

/-- After any earlier configurations, a configuration of the domain of X-MAC is applied
safely. -/
theorem safe_of_xmac (c : XmacConfig) {v : MacConfiguration}
    (hv : Optimizer.Xmac.createVariables v = true) : SafeReconfiguration (.xmac c) v := by
  have hvalid : (DutyCycle.mk (configOf v).tL (configOf v).tS).Valid := valid_of_createVariables hv
  obtain ⟨hlbTs, hubTs, hlbTl, hubTl⟩ := times_of_createVariables hv
  have hstrobe : (add (mul (lit 2) (lit (configOf v).tL)) (lit (configOf v).tS)).Defined := by
    obtain ⟨_, hon, _, hoff⟩ := hvalid
    simp only at hon hoff
    simp
    omega
  refine ⟨convertsExactly (by omega) (by omega), convertsExactly (by omega) (by omega), ?_, ?_⟩
  · simp only [MacConfig.adaptationUses, List.mem_singleton, forall_eq]
    exact ⟨hstrobe, fun h => nomatch h⟩
  · refine safe_xmac hvalid ?_
    have hexact := hstrobe.toNat_eval
    obtain ⟨_, hon, _, hoff⟩ := hvalid
    simp only at hon hoff
    show (2 * (configOf v).tL + (configOf v).tS).toNat < 32768
    simp only [eval, exact] at hexact
    rw [hexact]
    show 2 * (configOf v).tL.toNat + (configOf v).tS.toNat < 32768
    omega

/-- A configuration of the domain of LPP_NEW is applied safely exactly when Ts is not 0. -/
theorem safe_lppNew_of_domain {c : LppNew.Config} (hon : c.onTime = 256) {v : MacConfiguration}
    (hv : Optimizer.Lpp.createVariables v = true) :
    SafeReconfiguration (.lppNew c) v ↔ v.ts ≠ 0 := by
  obtain ⟨hdomain, hoff, htx, hzero⟩ := lppNew_bounds hv
  have huses := safe_lppNew_iff
    (c := { txTimeout := (configOf v).tL, offTime := (configOf v).tS, onTime := c.onTime })
    hon hoff htx
  rw [← hzero]
  constructor
  · intro h
    exact huses.mp h.uses
  · intro hne
    exact ⟨convertsExactly (by omega) (by omega), convertsExactly (by omega) (by omega),
      fun u hu => (nomatch hu), huses.mpr hne⟩

/-- For every configuration in the domain of the optimizer, after any earlier ones: applying it
is safe exactly when it is not the one of LPP_NEW with Ts = 0. -/
theorem safe_reconfiguration_iff (c : MacConfig) (earlier : List Glossy.Config)
    (v : MacConfiguration) (hc : c.Initial) (hv : c.domain v = true) :
    SafeReconfiguration (c.adaptAll earlier) v ↔ (c.isLppNew = true → v.ts ≠ 0) := by
  obtain ⟨hinit, hmac, hdomain⟩ := hc.adaptAll earlier
  rw [← hdomain] at hv
  rw [← hmac]
  cases hall : c.adaptAll earlier with
  | xmac c' =>
      rw [hall] at hv
      exact iff_of_true (safe_of_xmac c' hv) fun h => nomatch h
  | lppNew c' =>
      rw [hall] at hv hinit
      rw [safe_lppNew_of_domain hinit hv]
      exact ⟨fun h _ => h, fun h => h rfl⟩

/-- The default configuration of LPP_NEW, and a sleep time of 100 ms. -/
theorem safe_reconfiguration_iff_sample :
    SafeReconfiguration (.lppNew ⟨256, 3277, 3801⟩) ⟨116, 100, 3⟩ :=
  (safe_reconfiguration_iff (.lppNew ⟨256, 3277, 3801⟩) [] ⟨116, 100, 3⟩ rfl
    (by decide +kernel)).mpr fun _ => by decide

/-- With Ts = 0, `mac_on` takes a remainder by 0. -/
theorem not_forall_safeReconfiguration :
    ¬ ∀ (c : MacConfig) (v : MacConfiguration), c.Initial → c.domain v = true →
      SafeReconfiguration c v := by
  intro h
  have hsafe := h (.lppNew ⟨256, 3277, 3801⟩) ⟨16, 0, 3⟩ rfl (by decide +kernel)
  have hne := (safe_lppNew_of_domain rfl (by decide +kernel)).mp hsafe
  exact hne rfl

end PTunes.Mac
