import PTunes.Core.Rtimer
import PTunes.Glossy.Config
import PTunes.Rime.Relunicast

/-!
# `PTunes.Glossy.Timing`: time stamps relative to the Glossy phase

`contiki-conf.h` (not `COOJA`), the wake-up that `glossy_scheduler` sets at the end of a Glossy
phase, and the latency that `recv_relcollect` (`adaptive-mac.c`) computes. A time stamp is
`TIME_FROM_GLOSSY`: the originator reads it when it sends a packet for the first time, and the
radio interrupt of the receiver reads it into `glossy_arrival_time`.

An `Interval` is the time of one node between two Glossy phases. Its times are ticks of a
clock that all nodes share. The bounds on them are the assumption of `rtimer_set_long` that
the timer is set within two seconds after the reference time.
-/

set_option autoImplicit false

namespace PTunes.Glossy

open PTunes.Rime

/-- `GLOSSY_PERIOD`. -/
def glossyPeriod : UInt32 := rtimerSecond * 60

/-- `GLOSSY_GUARD_TIME`. -/
def glossyGuardTime : UInt16 := 32768 / 1900

/-- An `int` in an expression with an `unsigned long`. -/
def toULong (x : Int16) : UInt32 := x.toInt32.toUInt32

/-- `GLOSSY_GUARD_TIME * (1 + sync_missed)`. -/
def guardTime (syncMissed : UInt8) : UInt16 := glossyGuardTime * (1 + syncMissed.toUInt16)

/-- The offset from the reference time to the next wake-up, on a node that is not the sink. -/
def wakeUpOffset (periodSkew : Int16) (syncMissed : UInt8) : UInt32 :=
  glossyPeriod + toULong periodSkew - (guardTime syncMissed).toUInt32

/-- `(rtimer_clock_t) (GLOSSY_REFERENCE_TIME + GLOSSY_PERIOD + period_skew)`. -/
def nextReference (referenceTime : UInt16) (periodSkew : Int16) : UInt16 :=
  (referenceTime.toUInt32 + glossyPeriod + toULong periodSkew).toUInt16

/-- `TIME_FROM_GLOSSY`. The difference to `TACCR0` is one of 16-bit values. -/
def timeFromGlossy (referenceTime : UInt16) (periodSkew : Int16) (s : TimerA) : UInt32 :=
  glossyPeriod + toULong periodSkew - s.rtimerTimeToExpire +
    (nextReference referenceTime periodSkew - s.taccr0).toUInt32

/-- `time_high` of a time stamp. -/
def timeHigh (time : UInt32) : UInt16 := (time >>> 16).toUInt16

/-- `time_low` of a time stamp. -/
def timeLow (time : UInt32) : UInt16 := (time &&& 0xffff).toUInt16

/-- The originator of a packet stores its time stamp in two halves. -/
theorem setTime_of_originator {C : NodeConf} {env : Env} {c : RelunicastConn}
    (h : rimeaddrCmp c.esender C.addr = true) :
    setTime C env c =
      { c with timeHigh := timeHigh env.glossyTime, timeLow := timeLow env.glossyTime } :=
  if_pos h

/-- The time stamps in `recv_relcollect`: `glossy_arrival_time` as it leaves it, and the
latency in milliseconds. -/
def recvRelcollect (glossyArrivalTime : UInt32) (timeHigh timeLow : UInt16) :
    UInt32 × UInt32 :=
  let time := (timeHigh.toUInt32 <<< 16) ||| timeLow.toUInt32
  let glossyArrivalTime :=
    -- There was a Glossy phase between the first transmission and the reception.
    if glossyArrivalTime < time then glossyArrivalTime + glossyPeriod else glossyArrivalTime
  (glossyArrivalTime, (glossyArrivalTime - time) * 1000 / rtimerSecond)

/-- The time from which a node counts the offset of its wake-up: the start of its phase on the
sink, the reference time on the others. -/
def wakeUpBase (sink : Bool) (tStart ref : Nat) : Nat := if sink then tStart else ref

/-- The offset of the wake-up. -/
def wakeUpAfter (sink : Bool) (periodSkew : Int16) (syncMissed : UInt8) : UInt32 :=
  if sink then glossyPeriod else wakeUpOffset periodSkew syncMissed

/-- How far before the predicted reference time a node wakes up, from its base. -/
def wakeUpGuard (sink : Bool) (syncMissed : UInt8) : Nat :=
  if sink then 0 else (guardTime syncMissed).toNat

/-- One node between two Glossy phases. `timer` is the timer when `glossy_scheduler`, which the
expiry of the last target has called, is about to set it. -/
structure Interval where
  sink : Bool
  tStart : Nat
  ref : Nat
  syncMissed : UInt8
  periodSkew : Int16
  timer : TimerA
  armed_timer : timer.armed = false
  pending_timer : timer.pending = false
  tStart_le : tStart ≤ ref
  ref_lt : ref < tStart + 65536
  ref_le : ref ≤ timer.now
  base_lt : wakeUpBase sink tStart ref < timer.now
  now_lt : timer.now + wakeUpGuard sink syncMissed < wakeUpBase sink tStart ref + 65536

namespace Interval

/-- The end of the Glossy phase: `glossy_scheduler` sets the timer to the next wake-up. -/
def start (I : Interval) : TimerA :=
  I.timer.rtimerSetLong (UInt16.ofNat (wakeUpBase I.sink I.tStart I.ref))
    (wakeUpAfter I.sink I.periodSkew I.syncMissed)

/-- An instant of the interval, as the state of the timer. -/
def At (I : Interval) (s : TimerA) : Prop := (waiting I.start).Reachable s

/-- `TIME_FROM_GLOSSY`. -/
def stamp (I : Interval) (s : TimerA) : UInt32 :=
  timeFromGlossy (UInt16.ofNat I.ref) I.periodSkew s

end Interval

/-- The latency that the receiver computes from the two time stamps. -/
def latency (originStamp arrivalStamp : UInt32) : UInt32 :=
  (recvRelcollect arrivalStamp (timeHigh originStamp) (timeLow originStamp)).2

end PTunes.Glossy
