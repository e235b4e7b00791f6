import PTunes.Glossy.Scheduler
import PTunes.Glossy.Timing

/-!
# `PTunes.Glossy.Receiver`: the timing of `glossy_scheduler` on a node that is not the sink

`glossy_interface.h`, after bootstrapping. Every call of `glossy_scheduler` comes from the
expiry of the rtimer that the call before has set, so a run is a list of calls (`Call`): how
late the interrupt is served and, at the end of the flood of the configuration, the reference
time if the node has received the flood. `expire` skips the time in between, and
`expire_of_reachable` in `Proofs.Core.Rtimer` relates it to the ticks of the timer.

The last fields of `Receiver` are records. `ref` is the time that `t_ref_l` stands for, `t0`
the reference time of the last flood that was received, `misses` counts the floods that were
missed since, `skew0` is the `period_skew` estimated after the last reception, and `targets`
lists the calls of `rtimer_set` with the time of the call and the target.
-/

set_option autoImplicit false

namespace PTunes.Glossy

/-- `GLOSSY_DURATION`. -/
def glossyDuration : UInt16 := 32768 / 150

/-- `GLOSSY_GAP`. -/
def glossyGap : UInt16 := 32768 / 200

/-- `N_NODES`. -/
abbrev nNodes : Nat := 43

/-- A call of `glossy_scheduler` by the timer interrupt. -/
structure Call where
  late : Nat
  received : Option Nat
deriving DecidableEq, Repr

/-- The timer and the variables of `glossy_scheduler`. -/
structure Receiver where
  timer : TimerA
  pc : SchedulerPc
  tRefL : UInt16
  tRefLUpdated : Bool
  tRefLOld : UInt16
  periodSkew : Int16
  syncMissed : UInt8
  ref : Nat
  t0 : UInt16
  misses : Nat
  skew0 : Int16
  targets : List (UInt16 × UInt16)
deriving DecidableEq, Repr

namespace Receiver

/-- `rtimer_set`. -/
def rtimerSet (s : Receiver) (time : UInt16) : Receiver :=
  { s with
    timer := s.timer.rtimerSet time
    targets := (s.timer.tar, time) :: s.targets }

/-- The skew from the last two reference times. -/
def newSkew (s : Receiver) : Int16 :=
  (s.tRefL - (s.tRefLOld + glossyPeriod.toUInt16)).toInt16

/-- `estimate_period_skew`. -/
def estimatePeriodSkew (s : Receiver) : Receiver :=
  if s.tRefLUpdated then
    { s with
      periodSkew := s.newSkew
      tRefLOld := s.tRefL
      skew0 := if s.misses = 0 then s.newSkew else s.skew0 }
  else s

/-- The end of a Glossy phase: the skew is estimated and the next wake-up is set. -/
def endPhase (s : Receiver) : Receiver :=
  let s := s.estimatePeriodSkew
  { s with
    pc := .waiting
    timer := s.timer.rtimerSetLong s.tRefL (wakeUpOffset s.periodSkew s.syncMissed) }

/-- The time of a report slot. -/
def slotTime (s : Receiver) (reportIdx : Nat) : UInt16 :=
  s.tRefL + UInt16.ofNat (reportIdx + 1) * (glossyDuration + glossyGap)

/-- The head of the loop over the reports: the next one, or the end of the phase. -/
def nextReport (s : Receiver) (reportIdx : Nat) : Receiver :=
  if reportIdx < nNodes then
    { s with pc := .reportGap reportIdx }.rtimerSet (s.slotTime reportIdx)
  else s.endPhase

/-- The time for which the node predicts the next reference time. -/
def predicted (s : Receiver) : Nat := (s.ref + glossyPeriod.toNat + s.periodSkew.toInt).toNat

/-- The flood was received: `glossy.c` has written the reference time. -/
def syncReceived (s : Receiver) (r : Nat) : Receiver :=
  { s with
    tRefL := UInt16.ofNat r
    tRefLUpdated := true
    syncMissed := 0
    ref := r
    t0 := UInt16.ofNat r
    misses := 0 }

/-- The flood was missed: the scheduler writes the reference time. -/
def syncSkipped (s : Receiver) (next : UInt16) : Receiver :=
  { s with
    tRefL := next
    tRefLUpdated := true
    syncMissed := s.syncMissed + 1
    ref := s.predicted
    misses := s.misses + 1 }

/-- The outcome of the flood of the configuration. After a missed one the reference time is the
predicted one. -/
def floodOutcome (s : Receiver) : Option Nat → Receiver
  | some r => s.syncReceived r
  | none => s.syncSkipped (nextReference s.tRefL s.periodSkew)

/-- `glossy_scheduler`, from one yield to the next. -/
def glossyScheduler (received : Option Nat) (s : Receiver) : Receiver :=
  match s.pc with
  | .waiting =>
    { s with pc := .configFlood, tRefLUpdated := false }.rtimerSet
      (s.timer.rtimer.time + guardTime s.syncMissed + glossyDuration)
  | .configFlood => (s.floodOutcome received).nextReport 0
  | .reportGap reportIdx =>
    { s with pc := .reportFlood reportIdx }.rtimerSet (s.slotTime reportIdx + glossyDuration)
  | .reportFlood reportIdx => s.nextReport (reportIdx + 1)

/-- A flood is received inside the guard window, before the node reads the reference time. -/
def Receivable (s : Receiver) (now : Nat) : Option Nat → Prop
  | some r =>
    r ≤ now ∧ s.predicted ≤ r + (guardTime s.syncMissed).toNat ∧
      r ≤ s.predicted + (guardTime s.syncMissed).toNat
  | none => True

instance (s : Receiver) (now : Nat) : (received : Option Nat) →
    Decidable (s.Receivable now received)
  | some _ => inferInstanceAs (Decidable (_ ∧ _))
  | none => inferInstanceAs (Decidable True)

/-- The callback of the rtimer, with the timer as `rtimer_run_next` passes it on. -/
def callback (s : Receiver) (received : Option Nat) (t : TimerA) : Receiver :=
  glossyScheduler received { s with timer := t }

/-- The timer interrupt that calls `glossy_scheduler`. -/
def timera0 (s : Receiver) (c : Call) : Receiver :=
  let t := s.timer.expire c.late
  { s.callback c.received { t with armed := false } with
    timer := t.rtimerRunNext fun t => (s.callback c.received t).timer }

/-- One call. A match that is a whole round late would be lost. -/
def step (s : Receiver) (c : Call) : Option Receiver :=
  if c.late < 65536 ∧
      (s.pc = .configFlood → s.Receivable (s.timer.nextExpiry + c.late) c.received) then
    some (s.timera0 c)
  else none

end Receiver

/-- A node at the end of the Glossy phase in which bootstrapping ends, before it sets its first
wake-up. The wake-up is not a whole number of rounds of the timer away. -/
structure Bootstrapped where
  timer : TimerA
  ref : Nat
  periodSkew : Int16
  armed_timer : timer.armed = false
  pending_timer : timer.pending = false
  ref_le : ref ≤ timer.now
  now_lt : timer.now < ref + 32768
  lt_skew : -16384 < periodSkew.toInt
  skew_lt : periodSkew.toInt < 16384
  round : (ref + (wakeUpOffset periodSkew 0).toNat) % 65536 ≠ timer.now % 65536

/-- The node when it has set its first wake-up. -/
def Bootstrapped.receiver (B : Bootstrapped) : Receiver where
  timer := B.timer.rtimerSetLong (UInt16.ofNat B.ref) (wakeUpOffset B.periodSkew 0)
  pc := .waiting
  tRefL := UInt16.ofNat B.ref
  tRefLUpdated := true
  tRefLOld := UInt16.ofNat B.ref
  periodSkew := B.periodSkew
  syncMissed := 0
  ref := B.ref
  t0 := UInt16.ofNat B.ref
  misses := 0
  skew0 := B.periodSkew
  targets := []

/-- The Glossy phases of a node after bootstrapping. -/
def receiver (B : Bootstrapped) : Machine Receiver Call where
  init := B.receiver
  step := Receiver.step

end PTunes.Glossy
