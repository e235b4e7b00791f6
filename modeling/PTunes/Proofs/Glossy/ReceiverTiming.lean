import Mathlib.Algebra.Order.Ring.Nat
import PTunes.Glossy.Receiver
import PTunes.Proofs.Glossy.TimeStamps

/-!
# `PTunes.Proofs.Glossy.ReceiverTiming`: the targets of `glossy_scheduler`

A flood that comes early in the guard window takes the report slots with it. The guard time
grows with the missed floods, so after nine of them the first slot can start before the flood
of the configuration ends, and its target is in the past. `sync_missed` has 8 bits, so the 256th
miss in a row takes the guard time back. In all other runs the schedule is kept.

* `Receiver.Inv.step`: a call that is punctual keeps the invariant.
* `onSchedule_of_reachableIf`: in every run whose calls are punctual, no target of `rtimer_set`
  is in the past, the reference time moves by one period and skew for each miss, and the
  wake-up precedes the predicted reference time by the guard time.
* `not_onSchedule`: a run with nine misses.
-/

set_option autoImplicit false

namespace PTunes.Glossy

open TimerA

/-! ### The arithmetic of the reference times -/

/-- An `int` as an `unsigned long`. -/
theorem toNat_toULong (x : Int16) : ((toULong x).toNat : Int) = x.toInt % 4294967296 := by
  have h : x.toInt32.toInt = x.toInt := Int16.toInt_toInt32 x
  have hb : x.toInt32.toInt = ((toULong x).toNat : Int).bmod (2 ^ 32) :=
    BitVec.toInt_eq_toNat_bmod _
  have hlt := (toULong x).toNat_lt
  rw [Int.bmod_def] at hb
  rw [← h, hb]
  split <;> omega

/-- An `unsigned int` as an `int`. -/
theorem toInt_toInt16 (x : UInt16) : x.toInt16.toInt = (x.toNat : Int).bmod (2 ^ 16) :=
  BitVec.toInt_eq_toNat_bmod _

/-- The offset of the next wake-up. -/
theorem toNat_wakeUpOffset {k : Int16} (n : UInt8) (hlo : -16384 < k.toInt)
    (hhi : k.toInt < 16384) :
    ((wakeUpOffset k n).toNat : Int) = 1966080 + k.toInt - 17 * (1 + n.toNat) := by
  have hk := toNat_toULong k
  have hn := n.toNat_lt
  rw [wakeUpOffset, UInt32.toNat_sub, UInt32.toNat_add, UInt16.toNat_toUInt32, toNat_guardTime,
    glossyPeriod_toNat]
  omega

/-- The reference time moves by the period and the skew. -/
theorem nextReference_eq (t : UInt16) (k : Int16) :
    nextReference t k = t + (glossyPeriod + toULong k).toUInt16 := by
  simp only [nextReference, UInt32.toUInt16_add, UInt16.toUInt16_toUInt32, UInt16.add_assoc]

/-- The same, for the times that the register values stand for. -/
theorem nextReference_ofNat {r p : Nat} {k : Int16} (h : (p : Int) = r + 1966080 + k.toInt) :
    nextReference (UInt16.ofNat r) k = UInt16.ofNat p := by
  have hk := toNat_toULong k
  rw [nextReference, ← UInt16.toNat_inj, UInt32.toNat_toUInt16, UInt32.toNat_add, UInt32.toNat_add,
    UInt16.toNat_toUInt32, UInt16.toNat_ofNat', UInt16.toNat_ofNat', glossyPeriod_toNat]
  omega

/-- The skew is the part of the distance of two reference times beyond the period. -/
theorem newSkew_eq {s : Receiver} {r r₀ : Nat} {x : Int} (hr : s.tRefL = UInt16.ofNat r)
    (hr₀ : s.tRefLOld = UInt16.ofNat r₀) (hx : (r : Int) = r₀ + 1966080 + x)
    (hlo : -32768 ≤ x) (hhi : x < 32768) : s.newSkew.toInt = x := by
  rw [Receiver.newSkew, toInt_toInt16, hr, hr₀, Int.bmod_def, UInt16.toNat_sub,
    UInt16.toNat_add, UInt16.toNat_ofNat', UInt16.toNat_ofNat',
    show glossyPeriod.toUInt16.toNat = 0 from rfl]
  split <;> omega


/-- A slot of the report phase is 381 ticks long, the duration of a flood and the gap behind it. -/
theorem slot_eq (r i : Nat) :
    UInt16.ofNat r + UInt16.ofNat (i + 1) * (glossyDuration + glossyGap) =
      UInt16.ofNat (r + 381 * (i + 1)) := by
  rw [← UInt16.toNat_inj, UInt16.toNat_add, UInt16.toNat_mul, UInt16.toNat_ofNat',
    UInt16.toNat_ofNat', UInt16.toNat_ofNat',
    show (glossyDuration + glossyGap).toNat = 381 from rfl]
  omega

namespace Receiver

/-! ### The condition -/

/-- The outcome of the flood comes in time for the first report slot. A received one comes
before it by more than the lateness, and it does not take the skew to a quarter of a round. A
missed one is not the 256th in a row. -/
def FloodPunctual (s : Receiver) (late : Nat) : Option Nat → Prop
  | some r =>
    s.predicted + late < r + 163 ∧ s.predicted < r + 16384 + s.periodSkew.toInt ∧
      r + s.periodSkew.toInt < s.predicted + 16384
  | none => late < 163 ∧ s.syncMissed ≠ 255

instance (s : Receiver) (late : Nat) : (received : Option Nat) →
    Decidable (s.FloodPunctual late received)
  | some _ => inferInstanceAs (Decidable (_ ∧ _ ∧ _))
  | none => inferInstanceAs (Decidable (_ ∧ _))

/-- The interrupt is served before the time that the call is to set as the next target. -/
def Punctual (s : Receiver) (c : Call) : Prop :=
  match s.pc with
  | .waiting => c.late < (guardTime s.syncMissed).toNat + 218
  | .configFlood => s.FloodPunctual c.late c.received
  | .reportGap _ => c.late < 218
  | .reportFlood i => c.late < if i + 1 < nNodes then 163 else 16384

instance (s : Receiver) (c : Call) : Decidable (s.Punctual c) :=
  match h : s.pc with
  | .waiting => decidable_of_iff (c.late < (guardTime s.syncMissed).toNat + 218)
      (by simp only [Punctual, h])
  | .configFlood => decidable_of_iff (s.FloodPunctual c.late c.received)
      (by simp only [Punctual, h])
  | .reportGap _ => decidable_of_iff (c.late < 218) (by simp only [Punctual, h])
  | .reportFlood i => decidable_of_iff (c.late < if i + 1 < nNodes then 163 else 16384)
      (by simp only [Punctual, h])

/-! ### The invariant -/

/-- The timer waits for the time `target`. -/
def Waits (target : Nat) (t : TimerA) : Prop :=
  t.pending = false ∧ ∃ since, Counting since target t

/-- No target of `rtimer_set` was in the past. -/
def TargetsAhead (s : Receiver) : Prop :=
  ∀ p ∈ s.targets, 0 < (p.2 - p.1).toNat ∧ (p.2 - p.1).toNat < 32768

/-- What holds in every phase. -/
structure Base (s : Receiver) : Prop where
  stands : s.tRefL = UInt16.ofNat s.ref
  missed : s.syncMissed.toNat = s.misses
  history : s.tRefL =
    s.t0 + UInt16.ofNat s.misses * (glossyPeriod + toULong s.skew0).toUInt16
  targets : s.TargetsAhead

/-- Before the outcome of the flood: the skew is the one of the last reference times. -/
structure Between (s : Receiver) : Prop where
  old : s.tRefLOld = s.tRefL
  skew : s.periodSkew = s.skew0
  lt_skew : -16384 < s.periodSkew.toInt
  skew_lt : s.periodSkew.toInt < 16384

/-- After it: the skew that the end of the phase will estimate. -/
structure Reporting (s : Receiver) : Prop where
  updated : s.tRefLUpdated = true
  skew : s.misses ≠ 0 → s.newSkew = s.skew0
  lt_skew : -16384 < s.newSkew.toInt
  skew_lt : s.newSkew.toInt < 16384

/-- What holds at each yield: the target of the timer. -/
def AtYield (s : Receiver) : Prop :=
  match s.pc with
  | .waiting =>
    s.Between ∧ ∃ w, Waits w s.timer ∧ w + (guardTime s.syncMissed).toNat = s.predicted
  | .configFlood => s.Between ∧ Waits (s.predicted + 218) s.timer
  | .reportGap i => i < nNodes ∧ s.Reporting ∧ Waits (s.ref + 381 * (i + 1)) s.timer
  | .reportFlood i => i < nNodes ∧ s.Reporting ∧ Waits (s.ref + 381 * (i + 1) + 218) s.timer

/-- The invariant. -/
structure Inv (s : Receiver) : Prop where
  base : s.Base
  atYield : s.AtYield

/-- The timer in the callback. -/
structure Idle (now : Nat) (t : TimerA) : Prop where
  armed : t.armed = false
  pending : t.pending = false
  now_eq : t.now = now

variable {s : Receiver}

/-- A target ahead is recorded as such, and the timer waits for it. -/
theorem rtimerSet_spec {now target : Nat} (ht : Idle now s.timer) (hs : s.TargetsAhead)
    (hlt : now < target) (hle : target < now + 32768) :
    (s.rtimerSet (UInt16.ofNat target)).TargetsAhead ∧
      Waits target (s.rtimerSet (UInt16.ofNat target)).timer := by
  have hnow := ht.now_eq
  constructor
  · intro p hp
    rcases List.mem_cons.mp hp with rfl | hp
    · show 0 < (UInt16.ofNat target - UInt16.ofNat s.timer.now).toNat ∧
        (UInt16.ofNat target - UInt16.ofNat s.timer.now).toNat < 32768
      rw [toNat_ofNat_sub]
      omega
    · exact hs p hp
  · refine ⟨?_, _, counting_rtimerSet ht.armed ht.pending (by omega) (by omega)⟩
    simp [rtimerSet, TimerA.rtimerSet, schedule, ht.armed, ht.pending]

/-- The outcome of a flood does not touch the timer. It is set at the end of the phase. -/
theorem floodOutcome_timer (received : Option Nat) :
    (s.floodOutcome received).timer = s.timer := by
  cases received with
  | some r => rw [floodOutcome, syncReceived]
  | none => rw [floodOutcome, syncSkipped]

/-- The callback sets the timer, and `rtimer_run_next` has nothing to add. -/
theorem taccr0_glossyScheduler (received : Option Nat) (h : s.timer.armed = false) :
    (glossyScheduler received s).timer.taccr0 =
      (glossyScheduler received s).timer.rtimer.time := by
  have hset (s' : Receiver) (v : UInt16) (h' : s'.timer.armed = false) :
      (s'.rtimerSet v).timer.taccr0 = (s'.rtimerSet v).timer.rtimer.time := by
    simp [rtimerSet, TimerA.rtimerSet, schedule, h']
  have hnext (s' : Receiver) (i : Nat) (h' : s'.timer.armed = false) :
      (s'.nextReport i).timer.taccr0 = (s'.nextReport i).timer.rtimer.time := by
    rw [nextReport]
    split
    · exact hset _ _ h'
    · have hest : s'.estimatePeriodSkew.timer.armed = false := by
        rw [estimatePeriodSkew]
        split <;> exact h'
      simp only [endPhase, TimerA.rtimerSetLong, hest, schedule, Bool.false_eq_true, if_false]
  cases hpc : s.pc with
  | waiting =>
      simp only [glossyScheduler, hpc]
      exact hset _ _ h
  | configFlood =>
      simp only [glossyScheduler, hpc]
      exact hnext (s.floodOutcome received) 0 (by rw [floodOutcome_timer, h])
  | reportGap i =>
      simp only [glossyScheduler, hpc]
      exact hset _ _ h
  | reportFlood i =>
      simp only [glossyScheduler, hpc]
      exact hnext s (i + 1) h

/-- The timer in the callback, after `late` ticks. -/
def inCallback (s : Receiver) (late : Nat) : TimerA :=
  { s.timer.expire late with armed := false }

/-- The interrupt is the callback with an idle timer. -/
theorem timera0_eq (c : Call) (h : s.timer.armed = true) :
    s.timera0 c = s.callback c.received (s.inCallback c.late) := by
  have hrun : (s.timer.expire c.late).rtimerRunNext
      (fun t => (s.callback c.received t).timer) =
        (s.callback c.received (s.inCallback c.late)).timer :=
    rtimerRunNext_eq h rfl (taccr0_glossyScheduler c.received rfl)
  simp only [timera0, hrun]
  rfl

/-! ### The steps -/

/-- What holds in every phase does not depend on the timer, the position of the scheduler and
the flag of the flood. -/
theorem Base.frame (h : s.Base) (timer : TimerA) (pc : SchedulerPc) (tRefLUpdated : Bool) :
    Base { s with timer := timer, pc := pc, tRefLUpdated := tRefLUpdated } :=
  ⟨h.stands, h.missed, h.history, h.targets⟩

/-- The timer, the place in the scheduler and the flag of the reference time do not matter before
the outcome of the flood. -/
theorem Between.frame (h : s.Between) (timer : TimerA) (pc : SchedulerPc)
    (tRefLUpdated : Bool) (targets : List (UInt16 × UInt16)) :
    Between { s with
      timer := timer, pc := pc, tRefLUpdated := tRefLUpdated, targets := targets } :=
  ⟨h.old, h.skew, h.lt_skew, h.skew_lt⟩

/-- The timer and the place in the scheduler do not matter in the report phase either. -/
theorem Reporting.frame (h : s.Reporting) (timer : TimerA) (pc : SchedulerPc)
    (targets : List (UInt16 × UInt16)) :
    Reporting { s with timer := timer, pc := pc, targets := targets } :=
  ⟨h.updated, h.skew, h.lt_skew, h.skew_lt⟩

/-- A step that sets the timer to a target ahead keeps what holds in every phase. -/
theorem Base.rtimerSet {now target : Nat} (h : s.Base) (ht : Idle now s.timer)
    (hlt : now < target) (hle : target < now + 32768) :
    (s.rtimerSet (UInt16.ofNat target)).Base ∧
      Waits target (s.rtimerSet (UInt16.ofNat target)).timer := by
  obtain ⟨htargets, hwaits⟩ := rtimerSet_spec ht h.targets hlt hle
  exact ⟨⟨h.stands, h.missed, h.history, htargets⟩, hwaits⟩

/-- The start of a phase. -/
theorem inv_waiting {t : TimerA} {target late : Nat} (hpc : s.pc = .waiting) (hbase : s.Base)
    (hbetween : s.Between) (htime : t.rtimer.time = UInt16.ofNat target)
    (hw : target + (guardTime s.syncMissed).toNat = s.predicted) (ht : Idle (target + late) t)
    (hlate : late < (guardTime s.syncMissed).toNat + 218) (received : Option Nat) :
    (s.callback received t).Inv := by
  have hk := s.syncMissed.toNat_lt
  have hguard := toNat_guardTime s.syncMissed
  let s₁ : Receiver := { s with timer := t, pc := .configFlood, tRefLUpdated := false }
  have hreg : t.rtimer.time + guardTime s.syncMissed + glossyDuration =
      UInt16.ofNat (s.predicted + 218) := by
    rw [htime, ← UInt16.toNat_inj, UInt16.toNat_add, UInt16.toNat_add, UInt16.toNat_ofNat',
      UInt16.toNat_ofNat', show glossyDuration.toNat = 218 from rfl]
    omega
  have heq : s.callback received t = s₁.rtimerSet (UInt16.ofNat (s.predicted + 218)) := by
    simp only [callback, glossyScheduler, hpc, hreg, s₁]
  have hbase₁ : s₁.Base := hbase.frame _ _ _
  have hset := hbase₁.rtimerSet ht (by omega : target + late < s.predicted + 218) (by omega)
  rw [heq]
  exact {
    base := hset.1
    atYield := ⟨hbetween.frame _ _ _ _, hset.2⟩ }

/-- The next report slot. -/
theorem inv_slot (now : Nat) {i : Nat} (hbase : s.Base) (hreporting : s.Reporting) (hi : i < nNodes)
    (ht : Idle now s.timer) (hlt : now < s.ref + 381 * (i + 1))
    (hle : s.ref + 381 * (i + 1) < now + 32768) : (s.nextReport i).Inv := by
  let s₁ : Receiver := { s with pc := .reportGap i }
  have heq : s.nextReport i = s₁.rtimerSet (UInt16.ofNat (s.ref + 381 * (i + 1))) := by
    have hreg : s.slotTime i = UInt16.ofNat (s.ref + 381 * (i + 1)) := by
      rw [slotTime, hbase.stands, slot_eq]
    rw [nextReport, if_pos hi, hreg]
  have hbase₁ : s₁.Base := hbase.frame _ _ _
  have hset := hbase₁.rtimerSet ht hlt hle
  rw [heq]
  exact {
    base := hset.1
    atYield := ⟨hi, hreporting.frame _ _ _, hset.2⟩ }

/-- The flood of a report. -/
theorem inv_reportGap {t : TimerA} {i late : Nat} (hpc : s.pc = .reportGap i) (hbase : s.Base)
    (hreporting : s.Reporting) (hi : i < nNodes) (ht : Idle (s.ref + 381 * (i + 1) + late) t)
    (hlate : late < 218) (received : Option Nat) : (s.callback received t).Inv := by
  let s₁ : Receiver := { s with timer := t, pc := .reportFlood i }
  have hreg : s.tRefL + UInt16.ofNat (i + 1) * (glossyDuration + glossyGap) + glossyDuration =
      UInt16.ofNat (s.ref + 381 * (i + 1) + 218) := by
    rw [hbase.stands, slot_eq, ← show UInt16.ofNat 218 = glossyDuration from rfl,
      ← UInt16.ofNat_add]
  have heq : s.callback received t =
      s₁.rtimerSet (UInt16.ofNat (s.ref + 381 * (i + 1) + 218)) := by
    simp only [callback, glossyScheduler, hpc, slotTime, hreg, s₁]
  have hbase₁ : s₁.Base := hbase.frame _ _ _
  have hset := hbase₁.rtimerSet ht
    (by omega : s.ref + 381 * (i + 1) + late < s.ref + 381 * (i + 1) + 218) (by omega)
  rw [heq]
  exact {
    base := hset.1
    atYield := ⟨hi, hreporting.frame _ _ _, hset.2⟩ }

/-- The predicted reference time. -/
theorem predicted_eq (h : -16384 < s.periodSkew.toInt) :
    (s.predicted : Int) = s.ref + 1966080 + s.periodSkew.toInt := by
  rw [predicted, glossyPeriod_toNat]
  omega

/-- A received flood. Its reference time is the first one of a new history. -/
theorem base_syncReceived (r : Nat) (h : s.Base) : (s.syncReceived r).Base where
  stands := rfl
  missed := rfl
  history := by
    show UInt16.ofNat r = UInt16.ofNat r + 0 * (glossyPeriod + toULong s.skew0).toUInt16
    rw [UInt16.zero_mul, UInt16.add_zero]
  targets := h.targets

/-- The skew that a received flood leads to. -/
theorem reporting_syncReceived {r : Nat} (hbase : s.Base) (h : s.Between)
    (hlo : s.predicted < r + 16384 + s.periodSkew.toInt)
    (hhi : r + s.periodSkew.toInt < s.predicted + 16384) : (s.syncReceived r).Reporting := by
  have hpred := predicted_eq h.lt_skew
  have hskew : (s.syncReceived r).newSkew.toInt = s.periodSkew.toInt + (r - s.predicted) :=
    newSkew_eq rfl (h.old.trans hbase.stands) (by omega) (by omega)
      (by omega)
  exact {
    updated := rfl
    skew := fun h0 => absurd rfl h0
    lt_skew := by omega
    skew_lt := by omega }

/-- A missed flood. The reference time moves by the period and the skew. -/
theorem base_syncSkipped {next : UInt16} (hnext : next = nextReference s.tRefL s.periodSkew)
    (h : s.Base) (hbetween : s.Between) (hk : s.syncMissed ≠ 255) :
    (s.syncSkipped next).Base where
  stands := by
    show next = UInt16.ofNat s.predicted
    rw [hnext, h.stands]
    exact nextReference_ofNat (predicted_eq hbetween.lt_skew)
  missed := by
    show (s.syncMissed + 1).toNat = s.misses + 1
    have hlt := s.syncMissed.toNat_lt
    have hne : s.syncMissed.toNat ≠ 255 := fun h255 => hk (UInt8.toNat_inj.mp h255)
    rw [← h.missed, UInt8.toNat_add, show (1 : UInt8).toNat = 1 from rfl]
    omega
  history := by
    show next = s.t0 + UInt16.ofNat (s.misses + 1) * (glossyPeriod + toULong s.skew0).toUInt16
    rw [hnext, nextReference_eq, h.history, hbetween.skew, UInt16.ofNat_add, UInt16.add_mul,
      show UInt16.ofNat 1 = 1 from rfl, UInt16.one_mul, UInt16.add_assoc]
  targets := h.targets

/-- The skew after a missed flood is the one before. -/
theorem reporting_syncSkipped {next : UInt16} (hnext : next = nextReference s.tRefL s.periodSkew)
    (hbase : s.Base) (h : s.Between) : (s.syncSkipped next).Reporting := by
  have hpred := predicted_eq h.lt_skew
  have hlo := h.lt_skew
  have hhi := h.skew_lt
  have hreg : next = UInt16.ofNat s.predicted := by
    rw [hnext, hbase.stands]
    exact nextReference_ofNat hpred
  have hskew : (s.syncSkipped next).newSkew.toInt = s.periodSkew.toInt :=
    newSkew_eq hreg (h.old.trans hbase.stands) hpred (by omega) (by omega)
  exact {
    updated := rfl
    skew := fun _ => (Int16.toInt_inj.mp hskew).trans h.skew
    lt_skew := by omega
    skew_lt := by omega }

/-- The outcome of the flood, and the first report slot. -/
theorem inv_configFlood {t : TimerA} {late : Nat} (hpc : s.pc = .configFlood) (hbase : s.Base)
    (hbetween : s.Between) (ht : Idle (s.predicted + 218 + late) t) :
    (received : Option Nat) → s.Receivable (s.predicted + 218 + late) received →
      s.FloodPunctual late received → (s.callback received t).Inv
  | some r, hreceivable, hpunctual => by
    let s₁ : Receiver := { s with timer := t }
    have hbase₁ : s₁.Base := hbase.frame _ _ _
    have hbetween₁ : s₁.Between := hbetween.frame _ _ _ _
    have hguard := toNat_guardTime s.syncMissed
    have hk := s.syncMissed.toNat_lt
    obtain ⟨_, hearly, hwindow⟩ := hreceivable
    obtain ⟨hlate, hlo, hhi⟩ := hpunctual
    have heq : s.callback (some r) t = (s₁.syncReceived r).nextReport 0 := by
      simp only [callback, glossyScheduler, hpc, floodOutcome, s₁]
    rw [heq]
    exact inv_slot (s.predicted + 218 + late) (base_syncReceived r hbase₁)
      (reporting_syncReceived hbase₁ hbetween₁ hlo hhi) (by decide) ht
      (by show _ < r + 381 * (0 + 1); omega) (by show r + 381 * (0 + 1) < _; omega)
  | none, _, hpunctual => by
    let s₁ : Receiver := { s with timer := t }
    have hbase₁ : s₁.Base := hbase.frame _ _ _
    have hbetween₁ : s₁.Between := hbetween.frame _ _ _ _
    obtain ⟨hlate, hk⟩ := hpunctual
    have hnext : ∃ next, next = nextReference s.tRefL s.periodSkew ∧
        s.callback none t = (s₁.syncSkipped next).nextReport 0 :=
      ⟨_, rfl, by simp only [callback, glossyScheduler, hpc, floodOutcome, s₁]⟩
    obtain ⟨next, hnext, heq⟩ := hnext
    rw [heq]
    exact inv_slot (s.predicted + 218 + late)
      (base_syncSkipped hnext hbase₁ hbetween₁ hk)
      (reporting_syncSkipped hnext hbase₁ hbetween₁) (by decide) ht
      (by show _ < s.predicted + 381 * (0 + 1); omega)
      (by show s.predicted + 381 * (0 + 1) < _; omega)

/-- A long timer waits for the wake-up. -/
theorem waits_rtimerSetLong {t : TimerA} {now ref target : Nat} {offset : UInt32}
    (ht : Idle now t) (hoffset : ref + offset.toNat = target) (hlo : ref ≤ now)
    (hhi : now < ref + 65536) (hnow : now < target) (hround : target % 65536 ≠ now % 65536) :
    Waits target (t.rtimerSetLong (UInt16.ofNat ref) offset) := by
  have heq := ht.now_eq
  have hcount : Counting t.now (ref + offset.toNat)
      (t.rtimerSetLong (UInt16.ofNat ref) offset) :=
    counting_rtimerSetLong ht.armed ht.pending (by omega) (by omega) (by omega) (by omega)
  rw [hoffset] at hcount
  refine ⟨?_, _, hcount⟩
  simp only [TimerA.rtimerSetLong, ht.armed, schedule, Bool.false_eq_true, if_false, ht.pending]

/-- The end of a phase. -/
theorem inv_endPhase {late : Nat} (hbase : s.Base) (hreporting : s.Reporting)
    (ht : Idle (s.ref + 16601 + late) s.timer) (hlate : late < 16384) : s.endPhase.Inv := by
  have hk := s.syncMissed.toNat_lt
  have hlo := hreporting.lt_skew
  have hhi := hreporting.skew_lt
  have hoffset := toNat_wakeUpOffset s.syncMissed hlo hhi
  have hguard := toNat_guardTime s.syncMissed
  have heq : s.endPhase = { s with
      pc := .waiting
      periodSkew := s.newSkew
      tRefLOld := s.tRefL
      skew0 := if s.misses = 0 then s.newSkew else s.skew0
      timer := s.timer.rtimerSetLong s.tRefL (wakeUpOffset s.newSkew s.syncMissed) } := by
    simp only [endPhase, estimatePeriodSkew, hreporting.updated, if_true]
  generalize hw : wakeUpOffset s.newSkew s.syncMissed = offset at heq hoffset
  generalize hn : s.newSkew = skew at heq hoffset hlo hhi
  have hskew : skew = if s.misses = 0 then skew else s.skew0 := by
    by_cases h0 : s.misses = 0
    · rw [if_pos h0]
    · rw [if_neg h0, ← hn, hreporting.skew h0]
  -- The targets since the last flood heard are multiples of one period.
  have hhistory : s.tRefL = s.t0 + UInt16.ofNat s.misses *
      (glossyPeriod + toULong (if s.misses = 0 then skew else s.skew0)).toUInt16 := by
    by_cases h0 : s.misses = 0
    · have h := hbase.history
      rw [h0, show UInt16.ofNat 0 = 0 from rfl, UInt16.zero_mul] at h ⊢
      exact h
    · rw [if_neg h0]
      exact hbase.history
  rw [heq]
  let s₁ : Receiver := { s with
    pc := .waiting
    periodSkew := skew
    tRefLOld := s.tRefL
    skew0 := if s.misses = 0 then skew else s.skew0
    timer := s.timer.rtimerSetLong s.tRefL offset }
  have hpred : (s₁.predicted : Int) = s.ref + 1966080 + skew.toInt := predicted_eq hlo
  have hwaits : Waits (s.ref + offset.toNat) s₁.timer := by
    show Waits _ (s.timer.rtimerSetLong s.tRefL offset)
    rw [hbase.stands]
    -- The wake-up is 29 rounds of the timer and a rest away.
    have hround : ∃ r, s.ref + offset.toNat = s.ref + 16601 + late + 29 * 65536 + r ∧
        0 < r ∧ r < 65536 :=
      ⟨offset.toNat - 16601 - late - 29 * 65536, by omega⟩
    obtain ⟨r, hr, hpos, hlt⟩ := hround
    exact waits_rtimerSetLong ht rfl (by omega) (by omega) (by omega) (by omega)
  exact {
    base := ⟨hbase.stands, hbase.missed, hhistory, hbase.targets⟩
    atYield := ⟨⟨rfl, hskew, hlo, hhi⟩, _, hwaits, by
      show _ + (guardTime s.syncMissed).toNat = s₁.predicted
      omega⟩ }

/-- A flood of a report, and then the next report slot or the end of the phase. -/
theorem inv_reportFlood {t : TimerA} {i late : Nat} (hpc : s.pc = .reportFlood i)
    (hbase : s.Base) (hreporting : s.Reporting) (hi : i < nNodes)
    (ht : Idle (s.ref + 381 * (i + 1) + 218 + late) t)
    (hlate : late < if i + 1 < nNodes then 163 else 16384) (received : Option Nat) :
    (s.callback received t).Inv := by
  let s₁ : Receiver := { s with timer := t }
  have hbase₁ : s₁.Base := hbase.frame _ _ _
  have hreporting₁ : s₁.Reporting := hreporting.frame _ _ _
  have heq : s.callback received t = s₁.nextReport (i + 1) := by
    simp only [callback, glossyScheduler, hpc, s₁]
  rw [heq]
  by_cases hnext : i + 1 < nNodes
  · rw [if_pos hnext] at hlate
    exact inv_slot (s.ref + 381 * (i + 1) + 218 + late) hbase₁ hreporting₁ hnext ht
      (by show _ < s.ref + 381 * (i + 1 + 1); omega)
      (by show s.ref + 381 * (i + 1 + 1) < _; omega)
  · rw [if_neg hnext] at hlate
    have hlast : i = 42 := by
      have h43 : nNodes = 43 := rfl
      omega
    rw [hlast] at ht
    have hend : s₁.nextReport (i + 1) = s₁.endPhase := by
      rw [nextReport, if_neg hnext]
    rw [hend]
    exact inv_endPhase hbase₁ hreporting₁ ht hlate

/-- The timer in the callback, when it was set to `target`. -/
theorem idle_inCallback {target late : Nat} (h : Waits target s.timer) :
    Idle (target + late) (s.inCallback late) ∧
      (s.inCallback late).rtimer.time = UInt16.ofNat target := by
  obtain ⟨hpending, since, hcount⟩ := h
  have hnow : s.timer.nextExpiry = target := hcount.nextExpiry_eq hpending
  exact ⟨⟨rfl, rfl, by rw [inCallback, expire, hnow]⟩, hcount.time⟩

/-- The timer is set at every yield. -/
theorem Inv.armed (h : s.Inv) : s.timer.armed = true := by
  have hwaits : ∃ target, Waits target s.timer := by
    have hy := h.atYield
    rw [AtYield] at hy
    split at hy
    · exact ⟨_, hy.2.choose_spec.1⟩
    · exact ⟨_, hy.2⟩
    · exact ⟨_, hy.2.2⟩
    · exact ⟨_, hy.2.2⟩
  obtain ⟨_, _, _, hcount⟩ := hwaits
  exact hcount.armed

/-- A punctual call keeps the invariant. -/
theorem Inv.step {c : Call} {t : Receiver} (h : s.Inv) (hok : s.Punctual c)
    (hst : s.step c = some t) : t.Inv := by
  obtain ⟨⟨_, hreceivable⟩, ⟨⟩⟩ := Option.ite_none_right_eq_some.mp hst
  rw [timera0_eq c h.armed]
  have hbase := h.base
  have hy := h.atYield
  cases hpc : s.pc with
  | waiting =>
      simp only [AtYield, hpc] at hy
      simp only [Punctual, hpc] at hok
      obtain ⟨hbetween, w, hwaits, hw⟩ := hy
      obtain ⟨hidle, htime⟩ := idle_inCallback hwaits
      exact inv_waiting hpc hbase hbetween htime hw hidle hok c.received
  | configFlood =>
      simp only [AtYield, hpc] at hy
      simp only [Punctual, hpc] at hok
      obtain ⟨hbetween, hwaits⟩ := hy
      have hidle := (@idle_inCallback s _ c.late hwaits).1
      obtain ⟨hpending, _, hcount⟩ := hwaits
      have hrec := hreceivable hpc
      rw [hcount.nextExpiry_eq hpending] at hrec
      exact inv_configFlood hpc hbase hbetween hidle c.received hrec hok
  | reportGap i =>
      simp only [AtYield, hpc] at hy
      simp only [Punctual, hpc] at hok
      obtain ⟨hi, hreporting, hwaits⟩ := hy
      exact inv_reportGap hpc hbase hreporting hi (idle_inCallback hwaits).1 hok c.received
  | reportFlood i =>
      simp only [AtYield, hpc] at hy
      simp only [Punctual, hpc] at hok
      obtain ⟨hi, hreporting, hwaits⟩ := hy
      exact inv_reportFlood hpc hbase hreporting hi (idle_inCallback hwaits).1 hok c.received

/-- The first wake-up after bootstrapping. -/
theorem inv_receiver (B : Bootstrapped) : B.receiver.Inv := by
  have hlo := B.lt_skew
  have hhi := B.skew_lt
  have hoffset := toNat_wakeUpOffset 0 hlo hhi
  have hguard := toNat_guardTime 0
  have hzero : (0 : UInt8).toNat = 0 := rfl
  have hpred : (B.receiver.predicted : Int) = B.ref + 1966080 + B.periodSkew.toInt :=
    predicted_eq hlo
  have href := B.ref_le
  have hnow := B.now_lt
  have hwaits : Waits (B.ref + (wakeUpOffset B.periodSkew 0).toNat) B.receiver.timer :=
    waits_rtimerSetLong ⟨B.armed_timer, B.pending_timer, rfl⟩ rfl href (by omega) (by omega)
      B.round
  exact {
    base := {
      stands := rfl
      missed := rfl
      history := by
        show UInt16.ofNat B.ref =
          UInt16.ofNat B.ref + 0 * (glossyPeriod + toULong B.periodSkew).toUInt16
        rw [UInt16.zero_mul, UInt16.add_zero]
      targets := fun p hp => nomatch hp }
    atYield := ⟨⟨rfl, rfl, hlo, hhi⟩, _, hwaits, by
      show _ + (guardTime 0).toNat = B.receiver.predicted
      omega⟩ }

/-- The schedule is kept: every target of `rtimer_set` was ahead by less than half a round of
the timer, the reference time is the one of the last received flood moved by one period and
skew for each miss, and the timer will wake the node up before the predicted reference time
by the guard time, one more for each miss. -/
structure OnSchedule (s : Receiver) : Prop where
  targets : s.TargetsAhead
  stands : s.tRefL = UInt16.ofNat s.ref
  reference : s.tRefL =
    s.t0 + UInt16.ofNat s.misses * (glossyPeriod + toULong s.skew0).toUInt16
  skew : s.pc = .waiting → s.periodSkew = s.skew0
  wakeUp : s.pc = .waiting →
    s.timer.nextExpiry + glossyGuardTime.toNat * (1 + s.misses) = s.predicted

/-- What the invariant is for: at the place where the node sleeps, the timer will wake it up ahead
of the predicted reference time. -/
theorem Inv.onSchedule (h : s.Inv) : s.OnSchedule where
  targets := h.base.targets
  stands := h.base.stands
  reference := h.base.history
  skew := fun hpc => by
    have hy := h.atYield
    simp only [AtYield, hpc] at hy
    exact hy.1.skew
  wakeUp := fun hpc => by
    have hy := h.atYield
    simp only [AtYield, hpc] at hy
    obtain ⟨_, w, ⟨hpending, _, hcount⟩, hw⟩ := hy
    rw [hcount.nextExpiry_eq hpending, ← h.base.missed, ← hw, toNat_guardTime]
    rfl

end Receiver

/-! ### Runs -/

/-- In every run whose calls are punctual the schedule is kept. -/
theorem onSchedule_of_reachableIf (B : Bootstrapped) (s : Receiver)
    (h : (receiver B).ReachableIf Receiver.Punctual s) : s.OnSchedule := by
  have hinv : s.Inv :=
    h.invariant Receiver.Inv (Receiver.inv_receiver B) (fun _ _ _ hs hok hst => hs.step hok hst)
  exact hinv.onSchedule

/-- A node whose last reference time is 1000 when bootstrapping ends, without skew. -/
def bootstrapped : Bootstrapped where
  timer := ⟨1300, 0, ⟨0, 0⟩, false, false⟩
  ref := 1000
  periodSkew := 0
  armed_timer := rfl
  pending_timer := rfl
  ref_le := by decide
  now_lt := by decide
  lt_skew := by decide
  skew_lt := by decide
  round := by decide

/-- The calls of `n` Glossy phases whose floods are missed. -/
def missedPhases (n : Nat) : List Call := List.replicate (88 * n) ⟨0, none⟩

/-- The schedule after two missed floods, and a flood 40 ticks before its predicted time. -/
theorem onSchedule_of_reachableIf_missed :
    ∃ s, (receiver bootstrapped).runIf Receiver.Punctual bootstrapped.receiver
      (missedPhases 2 ++ [⟨3, none⟩, ⟨5, some 5899200⟩]) = some s ∧ s.OnSchedule := by
  obtain ⟨s, hs⟩ : ∃ s, (receiver bootstrapped).runIf Receiver.Punctual bootstrapped.receiver
      (missedPhases 2 ++ [⟨3, none⟩, ⟨5, some 5899200⟩]) = some s :=
    Option.isSome_iff_exists.mp (by decide +kernel)
  exact ⟨s, hs, onSchedule_of_reachableIf bootstrapped s
    (Machine.reachableIf_of_runIf Receiver.Punctual _ hs)⟩

/-- After nine missed floods the next one is received at the start of the guard window, 170
ticks before its predicted time. The target for the first report slot is 7 ticks in the past. -/
theorem not_onSchedule :
    ¬ ∀ (B : Bootstrapped) (s : Receiver), (receiver B).Reachable s → s.OnSchedule := by
  intro h
  have hend : ((receiver bootstrapped).run
      (missedPhases 9 ++ [⟨0, none⟩, ⟨0, some 19661630⟩])).map
        (fun s => s.targets.head?.map fun p => (p.2 - p.1).toNat) = some (some 65529) := by
    decide +kernel
  obtain ⟨s, hreach, hs⟩ := Machine.exists_reachable_of_run hend
  obtain ⟨p, hp, hdist⟩ := Option.map_eq_some_iff.mp hs
  have hahead := (h bootstrapped s hreach).targets p
    (List.mem_of_mem_head? hp)
  omega

end PTunes.Glossy
