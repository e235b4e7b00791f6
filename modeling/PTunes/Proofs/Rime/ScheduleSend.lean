import PTunes.Proofs.Glossy.ReceiverTiming
import PTunes.Rime.ScheduleSend

/-!
# `PTunes.Proofs.Rime.ScheduleSend`: a send that would meet Glossy still meets it

`schedule_send` compares the requested time with the Glossy phase in 16-bit `int`s. A difference
can leave the range of `int`. For all but the last requests below 65536 it wraps back to the right
branch, so the result is the one of exact arithmetic (`scheduleSendTime_toNat`): the requested
time, or 2 ticks of the clock after the start of the phase. `requested_lt` bounds what relunicast
requests by 510 ticks.

The phase lasts much longer than 2 ticks. `glossy_duration` is `GLOSSY_DURATION`, the length of a
single flood, and its 218 ticks of the real-time timer are 0 ticks of the clock. The scheduler
needs a flood for the configuration and one for each report, and turns the MAC on after the last
of them, at `phaseEnd`. So a send is never moved out of the phase
(`scheduleSendTime_avoids_iff`).
-/

set_option autoImplicit false

namespace PTunes.Rime

open PTunes.Mac
open PTunes.Glossy

/-- The longest time to a Glossy phase: the period and the largest skew. -/
def maxTimeToGlossy : Nat := 1966080 + 32767

/-- The end of a Glossy phase with the reference time `ref`: the scheduler has stopped the flood
of the last of `n` reports, and turns the MAC on `late` ticks later. -/
def phaseEnd (ref n late : Nat) : Nat :=
  ref + n * (glossyDuration.toNat + glossyGap.toNat) + glossyDuration.toNat + late

/-- A timer that is set to `delay` ticks of the clock expires at least `SLACK_BEFORE_GLOSSY`
before the phase starts or at least `SLACK_AFTER_GLOSSY` after it ends. The times of the phase
are ticks of the real-time timer from now on. -/
def AvoidsGlossy (c : MacConfig) (phaseStart phaseEnd : Nat) (delay : UInt16) : Prop :=
  (clockTick.toNat : Int) * (delay.toNat + c.slackBeforeGlossy.toInt) ≤ phaseStart ∨
    phaseEnd + clockTick.toNat * slackAfterGlossy.toInt ≤ clockTick.toNat * delay.toNat

/-! ### The times that are possible -/

/-- The offset for which `glossy_scheduler` sets its next wake-up, on every node. -/
theorem wakeUpAfter_le (sink : Bool) (periodSkew : Int16) (syncMissed : UInt8) :
    (wakeUpAfter sink periodSkew syncMissed).toNat ≤ maxTimeToGlossy := by
  have hk := toNat_toULong periodSkew
  have hlo := periodSkew.le_toInt
  have hhi := periodSkew.toInt_lt
  have hn := syncMissed.toNat_lt
  cases sink with
  | true =>
      show glossyPeriod.toNat ≤ 1998847
      decide
  | false =>
      -- The sum with the skew does not wrap, and the guard time is smaller than the period.
      have hsum : ((glossyPeriod + toULong periodSkew).toNat : Int) =
          1966080 + periodSkew.toInt := by
        rw [UInt32.toNat_add, glossyPeriod_toNat]
        omega
      have hle : (guardTime syncMissed).toUInt32 ≤ glossyPeriod + toULong periodSkew := by
        rw [UInt32.le_iff_toNat_le, UInt16.toNat_toUInt32, toNat_guardTime]
        omega
      rw [wakeUpAfter, if_neg Bool.false_ne_true, wakeUpOffset, UInt32.toNat_sub_of_le _ _ hle,
        maxTimeToGlossy]
      omega

/-- What relunicast requests, `RANDOM_DELAY` and `REXMIT_TIME`, is less than 510 ticks. -/
theorem requested_lt (c : MacConfig) (rand : UInt16) (h : c.tDuty ≠ 0) :
    (c.randomDelay rand).toNat < 510 ∧ (c.rexmitTime rand).toNat < 510 := by
  have hdiv : ∀ x : UInt16, (x / clockTick).toNat ≤ 255 := by
    intro x
    have hx := x.toNat_lt
    rw [UInt16.toNat_div, show clockTick.toNat = 256 by decide]
    omega
  have hduty : c.tDuty.toNat ≤ 255 := by
    cases c with
    | xmac c => exact hdiv _
    | lppNew c => exact hdiv _
  have hpos : 0 < c.tDuty.toNat := by
    have hne : c.tDuty.toNat ≠ 0 := fun h0 => h (UInt16.toNat_inj.mp h0)
    omega
  have hrand : (c.randomDelay rand).toNat < c.tDuty.toNat := by
    rw [MacConfig.randomDelay, UInt16.toNat_mod]
    exact Nat.mod_lt _ hpos
  refine ⟨by omega, ?_⟩
  rw [MacConfig.rexmitTime, UInt16.toNat_add]
  omega

/-- The last target of the rtimer in a phase: the flood of the last report is stopped there. -/
theorem slotTime_add_glossyDuration {s : Receiver} {ref : Nat}
    (href : s.tRefL = UInt16.ofNat ref) (reportIdx : Nat) :
    s.slotTime reportIdx + glossyDuration = UInt16.ofNat (phaseEnd ref (reportIdx + 1) 0) := by
  have hflood : glossyDuration.toNat = 218 := by decide
  have hgap : glossyGap.toNat = 163 := by decide
  rw [Receiver.slotTime, href, slot_eq, ← UInt16.toNat_inj, UInt16.toNat_add,
    UInt16.toNat_ofNat', UInt16.toNat_ofNat', phaseEnd, hflood, hgap]
  omega

/-! ### The arithmetic of `schedule_send` -/

/-- The slack before a phase is 2 to 257 ticks, for every configuration. -/
theorem slackBeforeGlossy_bounds (c : MacConfig) :
    2 ≤ c.slackBeforeGlossy.toInt ∧ c.slackBeforeGlossy.toInt ≤ 257 := by
  have hdiv : ∀ x : UInt16, 2 ≤ (x / clockTick + 2).toInt16.toInt ∧
      (x / clockTick + 2).toInt16.toInt ≤ 257 := by
    intro x
    have hx := x.toNat_lt
    have hnat : (x / clockTick + 2).toNat = x.toNat / 256 + 2 := by
      rw [UInt16.toNat_add, UInt16.toNat_div, show clockTick.toNat = 256 by decide,
        show (2 : UInt16).toNat = 2 by decide]
      omega
    rw [toInt_toInt16, hnat, Int.bmod_def]
    omega
  cases c with
  | xmac c => exact hdiv _
  | lppNew c => exact hdiv _

/-- The time to the phase, in whole ticks of the clock. -/
theorem timeToGlossyTicks_eq {timeToGlossy : UInt32} (h : timeToGlossy.toNat ≤ maxTimeToGlossy) :
    (timeToGlossyTicks timeToGlossy).toUInt16.toNat = timeToGlossy.toNat / 256 ∧
    (timeToGlossyTicks timeToGlossy).toInt = timeToGlossy.toNat / 256 ∧
    timeToGlossy.toNat / 256 ≤ 7807 := by
  rw [maxTimeToGlossy] at h
  have hnat : (timeToGlossy / clockTick.toUInt32).toUInt16.toNat = timeToGlossy.toNat / 256 := by
    rw [UInt32.toNat_toUInt16, UInt32.toNat_div, show clockTick.toUInt32.toNat = 256 by decide]
    omega
  refine ⟨hnat, ?_, by omega⟩
  rw [timeToGlossyTicks, toInt_toInt16, hnat, Int.bmod_def]
  omega

/-- When a number that is less than three half rounds off is not negative as an `int`. -/
theorem bmod_nonneg_iff {x : Int} (hlo : -98304 ≤ x) (hhi : x < 98304) :
    0 ≤ x.bmod (2 ^ 16) ↔
      0 ≤ x ∧ x < 32768 ∨ 65536 ≤ x ∨ -65536 ≤ x ∧ x < -32768 := by
  rw [Int.bmod_def]
  split <;> omega

/-- `send_buffer`, which wraps at 16 bits. -/
theorem sendBuffer_toInt (c : MacConfig) (timeToGlossy : UInt32) (scheduledTime : UInt16) :
    (sendBuffer c timeToGlossy scheduledTime).toInt =
      ((timeToGlossyTicks timeToGlossy).toInt - scheduledTime.toNat -
        c.slackBeforeGlossy.toInt).bmod (2 ^ 16) := by
  rw [sendBuffer, UInt16.toInt16_sub, UInt16.toInt16_sub, Int16.toInt_sub, Int16.toInt_sub,
    toInt_toInt16 scheduledTime]
  simp

/-- `time_after_glossy`, which wraps at 16 bits. -/
theorem timeAfterGlossy_toInt (timeToGlossy : UInt32) (scheduledTime : UInt16) :
    (timeAfterGlossy timeToGlossy scheduledTime).toInt =
      (scheduledTime.toNat - (timeToGlossyTicks timeToGlossy).toInt - 2).bmod (2 ^ 16) := by
  rw [timeAfterGlossy, Int16.toInt_sub, Int16.toInt_sub, Int16.toInt_sub, toInt_toInt16,
    show glossyDurationTicks.toInt = 0 by decide, show slackAfterGlossy.toInt = 2 by decide]
  simp

/-- `schedule_send` keeps a request before or after the phase, and takes the time 2 ticks after
the start of the phase for the others. The last requests below 65536 are among the others,
because they wrap. -/
theorem scheduleSendTime_toNat (c : MacConfig) {timeToGlossy : UInt32}
    (h : timeToGlossy.toNat ≤ maxTimeToGlossy) (scheduledTime : UInt16) :
    ((scheduleSendTime c timeToGlossy scheduledTime).toNat : Int) =
      if scheduledTime.toNat + c.slackBeforeGlossy.toInt ≤ timeToGlossy.toNat / 256 ∨
          timeToGlossy.toNat / 256 + 2 ≤ scheduledTime.toNat ∧
          scheduledTime.toNat + c.slackBeforeGlossy.toInt ≤ timeToGlossy.toNat / 256 + 65536
        then (scheduledTime.toNat : Int)
      else timeToGlossy.toNat / 256 + 2 := by
  have hs := scheduledTime.toNat_lt
  have hslack := slackBeforeGlossy_bounds c
  obtain ⟨hticks, hticksInt, hle⟩ := timeToGlossyTicks_eq h
  -- Both tests of the source are on differences of 16 bits.
  have hbuffer : sendBuffer c timeToGlossy scheduledTime ≥ 0 ↔
      0 ≤ ((timeToGlossy.toNat : Int) / 256 - scheduledTime.toNat
        - c.slackBeforeGlossy.toInt).bmod (2 ^ 16) := by
    rw [ge_iff_le, Int16.le_iff_toInt_le, sendBuffer_toInt, hticksInt,
      show (0 : Int16).toInt = 0 by decide]
  have hafter : timeAfterGlossy timeToGlossy scheduledTime ≥ 0 ↔
      0 ≤ ((scheduledTime.toNat : Int) - timeToGlossy.toNat / 256 - 2).bmod (2 ^ 16) := by
    rw [ge_iff_le, Int16.le_iff_toInt_le, timeAfterGlossy_toInt, hticksInt,
      show (0 : Int16).toInt = 0 by decide]
  rw [bmod_nonneg_iff (by omega) (by omega)] at hbuffer hafter
  -- The time that the others get.
  have hmoved : (timeToGlossyTicks timeToGlossy + glossyDurationTicks +
      slackAfterGlossy).toUInt16.toNat = timeToGlossy.toNat / 256 + 2 := by
    rw [Int16.toUInt16_add, Int16.toUInt16_add, UInt16.toNat_add, UInt16.toNat_add, hticks,
      show glossyDurationTicks.toUInt16.toNat = 0 by decide,
      show slackAfterGlossy.toUInt16.toNat = 2 by decide]
    omega
  rw [scheduleSendTime]
  by_cases hkeep : sendBuffer c timeToGlossy scheduledTime ≥ 0
  · rw [if_pos hkeep, if_pos]
    rw [hbuffer] at hkeep
    omega
  · rw [if_neg hkeep]
    rw [hbuffer] at hkeep
    by_cases hlate : timeAfterGlossy timeToGlossy scheduledTime ≥ 0
    · rw [if_pos hlate, if_pos]
      rw [hafter] at hlate
      omega
    · rw [if_neg hlate, if_neg, hmoved, Int.natCast_add, Int.natCast_ediv]
      · rfl
      · rw [hafter] at hlate
        omega

/-! ### The phase -/

/-- For every time to the next phase, every configuration and every request: the send avoids the
phase and is not earlier than requested exactly when the requested time avoids the phase and
does not wrap. `ref` is the reference time of the phase and `n` the number of reports. -/
theorem scheduleSendTime_avoids_iff (c : MacConfig) (timeToGlossy : UInt32)
    (scheduledTime : UInt16) (ref n late : Nat) (h : timeToGlossy.toNat ≤ maxTimeToGlossy)
    (href : timeToGlossy.toNat ≤ ref) :
    (AvoidsGlossy c timeToGlossy.toNat (phaseEnd ref n late)
        (scheduleSendTime c timeToGlossy scheduledTime) ∧
      scheduledTime.toNat ≤ (scheduleSendTime c timeToGlossy scheduledTime).toNat) ↔
    (AvoidsGlossy c timeToGlossy.toNat (phaseEnd ref n late) scheduledTime ∧
      scheduledTime.toNat + c.slackBeforeGlossy.toInt ≤ timeToGlossy.toNat / 256 + 65536) := by
  have hslack := slackBeforeGlossy_bounds c
  have hresult := scheduleSendTime_toNat c h scheduledTime
  have hend : timeToGlossy.toNat + 218 ≤ phaseEnd ref n late := by
    have hflood : glossyDuration.toNat = 218 := by decide
    rw [phaseEnd]
    omega
  have hafter : slackAfterGlossy.toInt = 2 := by decide
  have htick : clockTick.toNat = 256 := by decide
  simp only [AvoidsGlossy, hafter, htick]
  generalize phaseEnd ref n late = phaseEnd at hend ⊢
  generalize (scheduleSendTime c timeToGlossy scheduledTime).toNat = result at hresult ⊢
  split at hresult <;> omega

/-- A request far before the phase is kept. -/
theorem scheduleSendTime_avoids_iff_sample :
    AvoidsGlossy (.xmac ⟨197, 3277, 3671, 0⟩) 1000000 (phaseEnd 1000017 43 0)
      (scheduleSendTime (.xmac ⟨197, 3277, 3671, 0⟩) 1000000 20) :=
  ((scheduleSendTime_avoids_iff (.xmac ⟨197, 3277, 3671, 0⟩) 1000000 20 1000017 43 0
    (by decide) (by decide)).mpr ⟨by unfold AvoidsGlossy; decide, by decide⟩).1

/-- A request for the start of the phase, a second away, is moved by 2 ticks. The phase lasts
for 65 ticks. -/
theorem not_forall_avoidsGlossy :
    ¬ ∀ (c : MacConfig) (timeToGlossy : UInt32) (scheduledTime : UInt16) (ref n late : Nat),
      timeToGlossy.toNat ≤ maxTimeToGlossy → timeToGlossy.toNat ≤ ref →
      AvoidsGlossy c timeToGlossy.toNat (phaseEnd ref n late)
        (scheduleSendTime c timeToGlossy scheduledTime) := by
  intro h
  have hout := h (.xmac ⟨197, 3277, 3671, 0⟩) 32768 128 32785 43 0 (by decide) (by decide)
  revert hout
  unfold AvoidsGlossy
  decide

end PTunes.Rime
