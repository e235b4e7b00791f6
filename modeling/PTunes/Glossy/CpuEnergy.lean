import PTunes.Core.Energest
import PTunes.Lib.Machine

/-!
# `PTunes.Glossy.CpuEnergy`: the energy accounts of the CPU

Three accounts share the time of the CPU. The main loop (`contiki-sky-main.c`) closes the CPU
account and opens the LPM account before it goes to sleep. When it wakes up, it closes LPM and
opens CPU again. The scheduler of Glossy (`glossy_interface.h`) runs in an interrupt: it closes
what is open at the start of a phase (`stop_mac_energest`), and opens the CPU account at its
end (`start_mac_energest`).

An `Action` is a tick of the clock or what one piece of code does between two points at which
an interrupt can come. The accounts of the radio, which `stop_mac_energest` closes too, are left
out. `counted` is a record: the intervals that went into the accounts, the newest first.
-/

set_option autoImplicit false

namespace PTunes

/-- Where the main loop is: running processes, between `ENERGEST_ON(ENERGEST_TYPE_LPM)` and
`ENERGEST_OFF(ENERGEST_TYPE_LPM)`, or between this and `ENERGEST_ON(ENERGEST_TYPE_CPU)`. -/
inductive MainLoop where
  | awake
  | asleep
  | waking
deriving DecidableEq, Repr

/-- The clock, the main loop and the accounts. `start` is the time of the last
`energest_init`. -/
structure CpuEnergy where
  now : Nat
  start : Nat
  loop : MainLoop
  glossyActive : Bool
  cpu : Account
  lpm : Account
  glossyCpu : Account
  counted : List (Nat × Nat)
deriving DecidableEq, Repr

namespace CpuEnergy

/-- `energest_init` and `ENERGEST_ON(ENERGEST_TYPE_CPU)`. -/
def init (now : Nat) : CpuEnergy where
  now := now
  start := now
  loop := .awake
  glossyActive := false
  cpu := Account.init.on now
  lpm := .init
  glossyCpu := .init
  counted := []

/-- `ENERGEST_OFF(ENERGEST_TYPE_CPU)`. -/
def cpuOff (s : CpuEnergy) : CpuEnergy :=
  { s with cpu := s.cpu.off s.now, counted := (s.cpu.since, s.now) :: s.counted }

/-- `ENERGEST_OFF(ENERGEST_TYPE_LPM)`. -/
def lpmOff (s : CpuEnergy) : CpuEnergy :=
  { s with lpm := s.lpm.off s.now, counted := (s.lpm.since, s.now) :: s.counted }

/-- `ENERGEST_GLOSSY_OFF(ENERGEST_TYPE_CPU)`. -/
def glossyCpuOff (s : CpuEnergy) : CpuEnergy :=
  { s with
    glossyCpu := s.glossyCpu.off s.now
    counted := (s.glossyCpu.since, s.now) :: s.counted }

/-- The main loop goes to sleep. -/
def goToSleep (s : CpuEnergy) : CpuEnergy :=
  { s.cpuOff with lpm := s.lpm.on s.now, loop := .asleep }

/-- `stop_mac_energest`. -/
def stopMacEnergest (s : CpuEnergy) : CpuEnergy :=
  let s := if s.cpu.mode then s.cpuOff else s
  let s := if s.lpm.mode then s.lpmOff else s
  { s with glossyCpu := s.glossyCpu.on s.now }

/-- `start_mac_energest`. -/
def startMacEnergest (s : CpuEnergy) : CpuEnergy :=
  { s.glossyCpuOff with cpu := s.cpu.on s.now }

/-- `energest_type_time(ENERGEST_TYPE_CPU)`, and the CPU account in `energest_flush`. -/
def cpuTime (s : CpuEnergy) : CpuEnergy :=
  { s with
    cpu := s.cpu.sample s.now
    counted := if s.cpu.mode then (s.cpu.since, s.now) :: s.counted else s.counted }

/-- `energest_type_time(ENERGEST_TYPE_LPM)`, and the LPM account in `energest_flush`. -/
def lpmTime (s : CpuEnergy) : CpuEnergy :=
  { s with
    lpm := s.lpm.sample s.now
    counted := if s.lpm.mode then (s.lpm.since, s.now) :: s.counted else s.counted }

/-- `energest_glossy_type_time(ENERGEST_TYPE_CPU)`. -/
def glossyCpuTime (s : CpuEnergy) : CpuEnergy :=
  { s with
    glossyCpu := s.glossyCpu.sample s.now
    counted :=
      if s.glossyCpu.mode then (s.glossyCpu.since, s.now) :: s.counted else s.counted }

/-- What happens. -/
inductive Action where
  | tick
  | goToSleep
  | lpmOff
  | cpuOn
  | activate
  | complete
  | flush
  | cpuTime
  | lpmTime
  | glossyCpuTime
  | reset
deriving DecidableEq, Repr

/-- One step. A process reads or resets the accounts while the main loop is awake. A phase of
Glossy starts and ends anywhere. -/
def step (s : CpuEnergy) : Action → Option CpuEnergy
  | .tick => some { s with now := s.now + 1 }
  | .goToSleep => if s.loop = .awake then some s.goToSleep else none
  | .lpmOff => if s.loop = .asleep then some { s.lpmOff with loop := .waking } else none
  | .cpuOn =>
    if s.loop = .waking then some { s with cpu := s.cpu.on s.now, loop := .awake } else none
  | .activate =>
    if s.glossyActive then none else some { s.stopMacEnergest with glossyActive := true }
  | .complete =>
    if s.glossyActive then some { s.startMacEnergest with glossyActive := false } else none
  | .flush => some s.cpuTime.lpmTime
  | .cpuTime => if s.loop = .awake then some s.cpuTime else none
  | .lpmTime => if s.loop = .awake then some s.lpmTime else none
  | .glossyCpuTime => if s.loop = .awake then some s.glossyCpuTime else none
  -- `app_process` starts to count anew, and opens the CPU account again.
  | .reset =>
    if s.loop = .awake then some { init s.now with glossyActive := s.glossyActive } else none

end CpuEnergy

/-- The accounts of the CPU from `energest_init` at the time `now` on. -/
def cpuEnergy (now : Nat) : Machine CpuEnergy CpuEnergy.Action where
  init := .init now
  step := CpuEnergy.step

end PTunes
