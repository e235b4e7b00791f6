import PTunes.Lib.Machine

/-!
# `PTunes.Core.Rtimer`: the real-time timer (`core/sys/rtimer.c`)

Timer A counts in 16 bits, and its compare register `TACCR0` raises the interrupt that runs
`rtimer_run_next`. `rtimer_set` sets a target within one round of the counter.
`rtimer_set_long` takes a 32-bit offset and counts the rounds in `overflows_to_go`.

`now` is the number of ticks since the start of the node. The code reads its low 16 bits, in
the register `TAR`. All calls are about one rtimer, the one of `glossy_scheduler`, so `armed`
says whether `next_rtimer` points to it.

`waiting` is the time between a call that sets the timer and the expiry. A match of the
counter and `TACCR0` is `pending` until the interrupt is served, which can take any time
below a round of the counter: at a second match the first one would be lost.
-/

set_option autoImplicit false

namespace PTunes

/-- `struct rtimer`, without the callback. -/
structure Rtimer where
  time : UInt16
  overflowsToGo : UInt16
deriving DecidableEq, Repr

/-- Timer A and the rtimer. -/
structure TimerA where
  now : Nat
  taccr0 : UInt16
  rtimer : Rtimer
  armed : Bool
  pending : Bool
deriving DecidableEq, Repr

namespace TimerA

/-- `RTIMER_NOW()`, the register `TAR`. -/
def tar (s : TimerA) : UInt16 := UInt16.ofNat s.now

/-- `rtimer_arch_schedule`. -/
def schedule (s : TimerA) (t : UInt16) : TimerA := { s with taccr0 := t }

/-- `rtimer_set`. The register is written when no rtimer was set. -/
def rtimerSet (s : TimerA) (time : UInt16) : TimerA :=
  let t := { s with rtimer := ⟨time, 0⟩, armed := true }
  if s.armed then t else t.schedule time

/-- `rtimer_set_long`. It does nothing when an rtimer is set. -/
def rtimerSetLong (s : TimerA) (refTime : UInt16) (offset : UInt32) : TimerA :=
  if s.armed then s
  else
    let t := { s with
      rtimer.time := refTime + offset.toUInt16
      rtimer.overflowsToGo := ((offset - (s.tar - refTime).toUInt32) >>> 16).toUInt16
      armed := true }
    t.schedule (refTime + offset.toUInt16)

/-- `rtimer_run_next`, with the callback of the rtimer. -/
def rtimerRunNext (func : TimerA → TimerA) (s : TimerA) : TimerA :=
  if s.armed then
    let t := { s with armed := false }
    let t :=
      if t.rtimer.overflowsToGo = 0 then func t
      else { t with rtimer.overflowsToGo := t.rtimer.overflowsToGo - 1, armed := true }
    if t.armed then t.schedule t.rtimer.time else t
  else s

/-- `rtimer_time_to_expire`. -/
def rtimerTimeToExpire (s : TimerA) : UInt32 :=
  (s.taccr0 - s.tar).toUInt32 + s.rtimer.overflowsToGo.toUInt32 <<< 16

/-- What happens while the timer waits: the counter counts, or the interrupt is served. -/
inductive WaitEvent
  | tick
  | timera0
deriving DecidableEq, Repr

/-- The counter counts. -/
def tick (s : TimerA) : TimerA :=
  { s with
    now := s.now + 1
    pending := s.pending || UInt16.ofNat (s.now + 1) == s.taccr0 }

/-- One event, up to the interrupt that finds no round left and calls the callback. -/
def wait (s : TimerA) : WaitEvent → Option TimerA
  | .tick => if s.pending ∧ UInt16.ofNat (s.now + 1) = s.taccr0 then none else some s.tick
  | .timera0 =>
    if s.pending ∧ s.rtimer.overflowsToGo ≠ 0 then
      some (rtimerRunNext id { s with pending := false })
    else none

/-- When the interrupt calls the callback, if it is never late: at the first match after the
last round. A target that is not ahead of the counter is matched a round later. -/
def nextExpiry (s : TimerA) : Nat :=
  s.now + (s.taccr0 - s.tar - 1).toNat + 1 + 65536 * s.rtimer.overflowsToGo.toNat

/-- The timer when the interrupt is served that calls the callback. -/
def expire (s : TimerA) (late : Nat) : TimerA :=
  { s with
    now := s.nextExpiry + late
    rtimer.overflowsToGo := 0
    pending := false }

end TimerA

/-- The timer from the moment it is set to its expiry. -/
def waiting (s : TimerA) : Machine TimerA TimerA.WaitEvent where
  init := s
  step := TimerA.wait

end PTunes
