import PTunes.Glossy.Timing
import PTunes.Proofs.Core.Rtimer

/-!
# `PTunes.Proofs.Glossy.TimeStamps`: what `TIME_FROM_GLOSSY` measures

With a `period_skew` of zero, `TIME_FROM_GLOSSY` should be the time since the reference time.
The macro adds the distance of `TACCR0` to the predicted reference time, which it has to
subtract. So a time stamp is too late by twice this distance, which is the guard time on a
node that is not the sink. In the tick of a match it can be off by a round of the timer.

* `stamp_eq`: the time stamp is the elapsed time and the error `stampError`.
* `stampError_ne_zero`: it is never right on a node that is not the sink.
* `stamp_iff_and_latency_iff`: the exact conditions under which a time stamp and the latency of
  a packet are right.
-/

set_option autoImplicit false

namespace PTunes.Glossy

open TimerA

namespace Interval

/-- The distance from `TACCR0` to the predicted reference time. -/
def lead (I : Interval) : Nat :=
  if I.sink then I.ref - I.tStart else (guardTime I.syncMissed).toNat

/-- The error of a time stamp. -/
def stampError (I : Interval) (s : TimerA) : Int := 2 * I.lead - s.slip

/-- The next wake-up. -/
def wakeUp (I : Interval) : Nat :=
  wakeUpBase I.sink I.tStart I.ref + (wakeUpAfter I.sink I.periodSkew I.syncMissed).toNat

end Interval

/-- `GLOSSY_PERIOD` is 60 s, in ticks of 1/32768 s. -/
theorem glossyPeriod_toNat : glossyPeriod.toNat = 1966080 := rfl

/-- The guard time is that of one flood, once more for each missed one. With 8 bits of misses it
does not wrap. -/
theorem toNat_guardTime (syncMissed : UInt8) :
    (guardTime syncMissed).toNat = 17 * (1 + syncMissed.toNat) := by
  have := syncMissed.toNat_lt
  rw [guardTime, UInt16.toNat_mul, UInt16.toNat_add, UInt8.toNat_toUInt16,
    show glossyGuardTime.toNat = 17 from rfl, show (1 : UInt16).toNat = 1 from rfl]
  omega

/-- Without skew the wake-up comes a guard time before the end of the period. -/
theorem toNat_wakeUpOffset_zero (syncMissed : UInt8) :
    (wakeUpOffset 0 syncMissed).toNat = 1966080 - 17 * (1 + syncMissed.toNat) := by
  have := syncMissed.toNat_lt
  rw [wakeUpOffset, show glossyPeriod + toULong 0 = 1966080 from rfl, UInt32.toNat_sub,
    UInt16.toNat_toUInt32, toNat_guardTime, show (1966080 : UInt32).toNat = 1966080 from rfl]
  omega

/-- The wake-up precedes the predicted reference time by `lead`. -/
theorem wakeUp_add_lead {I : Interval} (hskew : I.periodSkew = 0) :
    I.wakeUp + I.lead = I.ref + 1966080 := by
  have hk := I.syncMissed.toNat_lt
  have hle := I.tStart_le
  cases hs : I.sink with
  | true =>
      simp only [Interval.wakeUp, Interval.lead, wakeUpBase, wakeUpAfter, hs, if_true,
        glossyPeriod_toNat]
      omega
  | false =>
      simp only [Interval.wakeUp, Interval.lead, wakeUpBase, wakeUpAfter, hs, hskew,
        Bool.false_eq_true, if_false, toNat_wakeUpOffset_zero, toNat_guardTime]
      omega

/-- The timer counts down to the wake-up at every instant of the interval. -/
theorem counting_of_at {I : Interval} {s : TimerA} (hskew : I.periodSkew = 0) (h : I.At s) :
    Counting I.timer.now I.wakeUp s := by
  have hk := I.syncMissed.toNat_lt
  have hbase := I.base_lt
  have hnow := I.now_lt
  have hoff : (wakeUpAfter I.sink I.periodSkew I.syncMissed).toNat =
      1966080 - wakeUpGuard I.sink I.syncMissed := by
    rw [wakeUpAfter, wakeUpGuard, hskew]
    cases I.sink with
    | true => rfl
    | false => simp only [Bool.false_eq_true, if_false, toNat_wakeUpOffset_zero, toNat_guardTime]
  have hguard : wakeUpGuard I.sink I.syncMissed < 65536 := by omega
  refine counting_of_reachable (counting_rtimerSetLong I.armed_timer I.pending_timer ?_ ?_ ?_ ?_) h
  · omega
  · omega
  · omega
  · omega

/-- The register value that `TIME_FROM_GLOSSY` adds. -/
theorem toNat_sub_taccr0 {I : Interval} {s : TimerA} (hskew : I.periodSkew = 0)
    (h : Counting I.timer.now I.wakeUp s) :
    (nextReference (UInt16.ofNat I.ref) I.periodSkew - s.taccr0).toNat = I.lead := by
  have hlead := wakeUp_add_lead hskew
  have hlt : I.lead < 65536 := by
    have hk := I.syncMissed.toNat_lt
    have href := I.ref_lt
    rw [Interval.lead, toNat_guardTime]
    split <;> omega
  rw [nextReference, h.taccr0, hskew, UInt16.toNat_sub, UInt32.toNat_toUInt16, UInt32.toNat_add,
    UInt32.toNat_add, UInt16.toNat_toUInt32, UInt16.toNat_ofNat', UInt16.toNat_ofNat',
    glossyPeriod_toNat, show (toULong 0).toNat = 0 from rfl]
  omega

/-- A time stamp is the elapsed time and the error. -/
theorem stamp_eq {I : Interval} {s : TimerA} (hskew : I.periodSkew = 0) (h : I.At s) :
    ((I.stamp s).toNat : Int) = (s.now - I.ref : Nat) + I.stampError s := by
  have hcount := counting_of_at hskew h
  have htte := rtimerTimeToExpire_eq hcount
  have hreg := toNat_sub_taccr0 hskew hcount
  have hlead := wakeUp_add_lead hskew
  have hsince := hcount.since_le
  have hover := hcount.since_lt
  have href := I.ref_le
  have hbase := I.base_lt
  have hslip : s.slip = 65536 → I.ref + 65536 ≤ s.now + I.lead := by
    -- The counter has passed a match, so it has made a round since the timer was set.
    intro hs
    have hp : s.pending = true := by
      cases hp : s.pending with
      | true => rfl
      | false =>
          rw [slip, hp] at hs
          split at hs <;> simp at hs
    have := hcount.late hp
    rw [Interval.wakeUp] at hlead hover this
    omega
  rw [Interval.stamp, timeFromGlossy, UInt32.toNat_add, UInt16.toNat_toUInt32, hreg,
    Interval.stampError]
  rw [hskew, UInt32.toNat_sub, show (glossyPeriod + toULong 0).toNat = 1966080 from rfl]
  rcases s.slip_cases with h0 | h1 | h2
  · omega
  · have := hslip h1
    omega
  · omega

/-- The error is at most a round of the timer and twice the distance of `TACCR0`. -/
theorem stampError_bounds (I : Interval) (s : TimerA) :
    -65536 ≤ I.stampError s ∧ I.stampError s ≤ 196608 := by
  have hk := I.syncMissed.toNat_lt
  have href := I.ref_lt
  have hlead : I.lead < 65536 := by
    rw [Interval.lead, toNat_guardTime]
    split <;> omega
  have hcases := s.slip_cases
  rw [Interval.stampError]
  omega

/-- On a node that is not the sink no time stamp is right. -/
theorem stampError_ne_zero {I : Interval} {s : TimerA} (hsink : I.sink = false) :
    I.stampError s ≠ 0 := by
  have hk := I.syncMissed.toNat_lt
  have hcases := s.slip_cases
  simp only [Interval.stampError, Interval.lead, hsink, Bool.false_eq_true, if_false,
    toNat_guardTime]
  omega

/-- The error vanishes on the sink only. -/
theorem stampError_eq_zero_iff {I : Interval} {s : TimerA} :
    I.stampError s = 0 ↔ I.sink = true ∧ 2 * ((I.ref - I.tStart : Nat) : Int) = s.slip := by
  cases hs : I.sink with
  | false => simp [stampError_ne_zero hs]
  | true =>
      simp only [Interval.stampError, Interval.lead, hs, if_true, true_and]
      omega

/-! ### The latency -/

/-- The two halves of a time stamp make the time stamp. -/
theorem halves_eq (time : UInt32) :
    (timeHigh time).toUInt32 <<< 16 ||| (timeLow time).toUInt32 = time := by
  have hlt := time.toNat_lt
  have hhigh : (timeHigh time).toNat = time.toNat / 65536 := by
    rw [timeHigh, UInt32.toNat_toUInt16, UInt32.toNat_shiftRight,
      show (16 : UInt32).toNat % 32 = 16 from rfl, Nat.shiftRight_eq_div_pow]
    omega
  have hlow : (timeLow time).toNat = time.toNat % 65536 := by
    rw [timeLow, UInt32.toNat_toUInt16, UInt32.toNat_and,
      show (0xffff : UInt32).toNat = 2 ^ 16 - 1 from rfl, Nat.and_two_pow_sub_one_eq_mod]
    omega
  have hshift : time.toNat / 65536 * 65536 % 4294967296 = (time.toNat / 65536) <<< 16 := by
    rw [Nat.shiftLeft_eq]
    omega
  rw [← UInt32.toNat_inj, UInt32.toNat_or, UInt32.toNat_shiftLeft, UInt16.toNat_toUInt32,
    UInt16.toNat_toUInt32, hhigh, hlow, show (16 : UInt32).toNat % 32 = 16 from rfl,
    Nat.shiftLeft_eq, hshift, ← Nat.shiftLeft_add_eq_or_of_lt (by omega), Nat.shiftLeft_eq]
  omega

/-- The arrival time, a period later when a Glossy phase seems to lie in between. -/
theorem latency_eq (a b : UInt32) :
    latency a b = ((if b < a then b + glossyPeriod else b) - a) * 1000 / rtimerSecond := by
  simp only [latency, recvRelcollect, halves_eq]

/-- A difference of time stamps that is not negative is turned into milliseconds. -/
theorem toNat_millis {a b : UInt32} (hle : a.toNat ≤ b.toNat)
    (hlt : b.toNat < a.toNat + 4294967) :
    ((b - a) * 1000 / rtimerSecond).toNat = (b.toNat - a.toNat) * 1000 / 32768 := by
  have hsub : (b - a).toNat = b.toNat - a.toNat := UInt32.toNat_sub_of_le _ _ hle
  rw [UInt32.toNat_div, UInt32.toNat_mul, hsub, show (1000 : UInt32).toNat = 1000 from rfl,
    show rtimerSecond.toNat = 32768 from rfl]
  omega

/-- A negative one becomes more than a period. -/
theorem lt_toNat_millis {a b : UInt32} (hlt : b.toNat < a.toNat)
    (hle : a.toNat ≤ b.toNat + 1966080) :
    60000 < ((b - a) * 1000 / rtimerSecond).toNat := by
  have ha := a.toNat_lt
  have hsub : (b - a).toNat = 4294967296 - (a.toNat - b.toNat) := by
    rw [UInt32.toNat_sub]
    omega
  rw [UInt32.toNat_div, UInt32.toNat_mul, hsub, show (1000 : UInt32).toNat = 1000 from rfl,
    show rtimerSecond.toNat = 32768 from rfl]
  -- The product wraps around 999 times.
  have hprod : (4294967296 - (a.toNat - b.toNat)) * 1000 =
      999 * 2 ^ 32 + (4294967296 - 1000 * (a.toNat - b.toNat)) := by
    omega
  rw [hprod, Nat.mul_add_mod_self_right, Nat.mod_eq_of_lt (by omega)]
  omega

/-- With these errors of the two time stamps, a packet of this delay gets the latency of the
delay: the difference of the errors stays within the millisecond. -/
def SameMillisecond (delay : Nat) (originError arrivalError : Int) : Prop :=
  0 ≤ delay + arrivalError - originError ∧
    (delay + arrivalError - originError).toNat * 1000 / 32768 = delay * 1000 / 32768

instance (delay : Nat) (originError arrivalError : Int) :
    Decidable (SameMillisecond delay originError arrivalError) :=
  inferInstanceAs (Decidable (_ ∧ _))

/-- The latency from two time stamps with errors. `phases` counts the Glossy phases between
them. -/
theorem latency_iff {a b : UInt32} {x y delay : Nat} (phases : Nat) {ea eb : Int}
    (ha : (a.toNat : Int) = x + ea) (hb : (b.toNat : Int) = y + eb)
    (hdelay : x + delay = y + 1966080 * phases) (hphases : phases ≤ 1)
    (hlt : delay < 1966080) (hea : -65536 ≤ ea ∧ ea ≤ 196608)
    (heb : -65536 ≤ eb ∧ eb ≤ 196608) (hx : x < 2031616) :
    (latency a b).toNat = delay * 1000 / 32768 ↔ SameMillisecond delay ea eb := by
  have hdiff : (b.toNat : Int) - a.toNat = delay + eb - ea - 1966080 * phases := by omega
  have hmillis : delay * 1000 / 32768 < 60000 := by omega
  have hphases' : phases = 0 ∨ phases = 1 := by omega
  rw [latency_eq, SameMillisecond]
  by_cases hba : b < a
  · have hlt : b.toNat < a.toNat := UInt32.lt_iff_toNat_lt.mp hba
    have hadd : (b + glossyPeriod).toNat = b.toNat + 1966080 := by
      rw [UInt32.toNat_add, glossyPeriod_toNat]
      omega
    rw [if_pos hba]
    by_cases hle : a.toNat ≤ b.toNat + 1966080
    · rw [toNat_millis (by omega) (by omega), hadd]
      rcases hphases' with rfl | rfl
      · -- No phase in between, so the latency is a period too long.
        omega
      · have hnat : b.toNat + 1966080 - a.toNat = (delay + eb - ea).toNat := by omega
        rw [hnat]
        exact ⟨fun h => ⟨by omega, h⟩, And.right⟩
    · -- The originator's error is larger than the delay.
      have hlong : 60000 < ((b + glossyPeriod - a) * 1000 / rtimerSecond).toNat :=
        lt_toNat_millis (by omega) (by omega)
      omega
  · have hle : ¬ b.toNat < a.toNat := fun hlt => hba (UInt32.lt_iff_toNat_lt.mpr hlt)
    rw [if_neg hba, toNat_millis (by omega) (by omega)]
    rcases hphases' with rfl | rfl
    · have hnat : b.toNat - a.toNat = (delay + eb - ea).toNat := by omega
      rw [hnat]
      exact ⟨fun h => ⟨by omega, h⟩, And.right⟩
    · -- The phase in between is not seen, so the latency is a period too short.
      omega

/-- With equal reference times and a `period_skew` of zero: at every instant between two
Glossy phases the time stamp is the elapsed time exactly on the sink, when its reference time is
the start of its phase and the timer does not slip (or one makes up for the other). For a packet
that is stamped at `s` at its originator and at `t` at its receiver, with at most one Glossy
phase in between, the latency is right exactly when the difference of the two errors does not
take the delay to another millisecond. -/
theorem stamp_iff_and_latency_iff (I : Interval) (s : TimerA) (hI : I.periodSkew = 0)
    (hs : I.At s) :
    ((I.stamp s).toNat = s.now - I.ref ↔
      I.sink = true ∧ 2 * ((I.ref - I.tStart : Nat) : Int) = s.slip) ∧
    ∀ (J : Interval) (t : TimerA), J.periodSkew = 0 → J.At t →
      (J.ref = I.ref ∨ J.ref = I.ref + glossyPeriod.toNat) → s.now ≤ t.now →
      t.now - s.now < glossyPeriod.toNat →
      ((latency (I.stamp s) (J.stamp t)).toNat = (t.now - s.now) * 1000 / rtimerSecond.toNat ↔
        SameMillisecond (t.now - s.now) (I.stampError s) (J.stampError t)) := by
  constructor
  · have heq := stamp_eq hI hs
    rw [← stampError_eq_zero_iff]
    omega
  · intro J t hJ ht href hst hdelay
    rw [glossyPeriod_toNat] at href hdelay
    have hlead := wakeUp_add_lead hI
    have hcount := counting_of_at hI hs
    have hsinceI := hcount.since_le
    have hsinceJ := (counting_of_at hJ ht).since_le
    have hrefI := I.ref_le
    have hrefJ := J.ref_le
    have hx : s.now - I.ref < 2031616 := by
      cases hp : s.pending with
      | true =>
          have := (hcount.late hp).2
          omega
      | false =>
          have := (hcount.early hp).1
          omega
    -- The stamps are of one interval, or of two with a phase in between.
    rcases href with href | href
    · exact latency_iff 0 (stamp_eq hI hs) (stamp_eq hJ ht) (by omega) (by omega) hdelay
        (stampError_bounds I s) (stampError_bounds J t) hx
    · exact latency_iff 1 (stamp_eq hI hs) (stamp_eq hJ ht) (by omega) (by omega) hdelay
        (stampError_bounds I s) (stampError_bounds J t) hx

/-- Two intervals with the reference time 1000, of the sink and of another node. -/
def equalReference (sink : Bool) : Interval where
  sink := sink
  tStart := 1000
  ref := 1000
  syncMissed := 0
  periodSkew := 0
  timer := ⟨20000, 0, ⟨0, 0⟩, false, false⟩
  armed_timer := rfl
  pending_timer := rfl
  tStart_le := Nat.le_refl _
  ref_lt := by decide
  ref_le := by decide
  base_lt := by cases sink <;> decide
  now_lt := by cases sink <;> decide

/-- The next interval of the sink. Its reference time is 17 ticks behind the start of the phase, so
that its time stamps have the same error as those of the other node. -/
def nextInterval : Interval where
  sink := true
  tStart := 1967063
  ref := 1967080
  syncMissed := 0
  periodSkew := 0
  timer := ⟨1984580, 0, ⟨0, 0⟩, false, false⟩
  armed_timer := rfl
  pending_timer := rfl
  tStart_le := by decide
  ref_lt := by decide
  ref_le := by decide
  base_lt := by decide
  now_lt := by decide

/-- `stamp_iff_and_latency_iff` with the time stamp of the sink at the end of the phase, and with a
packet of the other node that the sink receives 59954 ms later, after the next phase. -/
theorem stamp_iff_and_latency_iff_phase :
    ((equalReference true).stamp (equalReference true).start).toNat = 19000 ∧
      (nextInterval.stamp nextInterval.start).toNat <
        ((equalReference false).stamp (equalReference false).start).toNat ∧
      (latency ((equalReference false).stamp (equalReference false).start)
        (nextInterval.stamp nextInterval.start)).toNat = 59954 :=
  ⟨(stamp_iff_and_latency_iff (equalReference true) (equalReference true).start rfl .init).1.mpr
      (by decide),
    by decide,
    ((stamp_iff_and_latency_iff (equalReference false) (equalReference false).start rfl .init).2
      nextInterval nextInterval.start rfl .init (.inr rfl) (by decide) (by decide)).mpr
      (by decide)⟩

/-- A node that is not the sink reads 34 ticks too many, without a missed flood. A packet that
it sends and the sink receives in the same tick gets a latency of 59998 ms. -/
theorem stamp_and_latency_wrong :
    (¬ ∀ (I : Interval) (s : TimerA), I.periodSkew = 0 → I.At s →
      (I.stamp s).toNat = s.now - I.ref) ∧
    ¬ ∀ (I J : Interval) (s t : TimerA), I.periodSkew = 0 → J.periodSkew = 0 → I.At s →
      J.At t → (J.ref = I.ref ∨ J.ref = I.ref + glossyPeriod.toNat) → s.now ≤ t.now →
      t.now - s.now < glossyPeriod.toNat →
      (latency (I.stamp s) (J.stamp t)).toNat =
        (t.now - s.now) * 1000 / rtimerSecond.toNat := by
  constructor
  · intro h
    have := h (equalReference false) (equalReference false).start rfl .init
    revert this
    decide
  · intro h
    have := h (equalReference false) (equalReference true) (equalReference false).start
      (equalReference true).start rfl rfl .init .init (.inl rfl) (Nat.le_refl _) (by decide)
    revert this
    decide

end PTunes.Glossy
