import PTunes.Lib.Machine

/-!
# `PTunes.Mac.XmacTimers`: the timers of X-MAC (`core/net/mac/xmac.c`, with `GLOSSY`)

X-MAC uses two compare registers of Timer B: `TBCCR2` for the receive timeout and `TBCCR3` for
the duty cycle. `timerb1_interrupt` (`glossy.c`) calls `timeout` and `powercycle` for them.
`read_packet` starts the timeout when it handles a strobe, and `powercycle` stops until
`timeout` has set its next wake-up. The start and the end of a Glossy phase disable both
registers, and the end turns X-MAC on again.

An `Action` is a tick of the counter, an interrupt or a step of a process. Writing a register
`TBCCTLx` clears its flag. `set_xmac_config` is two steps, so that interrupts can come while
X-MAC is off. The switches of the radio are left out.
-/

set_option autoImplicit false

namespace PTunes.Mac

/-- `TIMEOUT_TIME`. -/
def timeoutTime : UInt16 := 32768 / 166

/-- The fields of `struct xmac_config` that set the duty cycle. -/
structure DutyCycle where
  onTime : UInt16
  offTime : UInt16
deriving DecidableEq, Repr

/-- The configurations of X-MAC: the ones of the optimizer, and the one of `xmac.c`. -/
def DutyCycle.Valid (c : DutyCycle) : Prop :=
  0 < c.onTime.toNat ∧ c.onTime.toNat ≤ 524 ∧ 655 ≤ c.offTime.toNat ∧ c.offTime.toNat ≤ 16384

instance (c : DutyCycle) : Decidable c.Valid := inferInstanceAs (Decidable (_ ∧ _ ∧ _ ∧ _))

/-- One compare register of Timer B: the value, `CCIE` and `CCIFG`. -/
structure Compare where
  ccr : UInt16
  ccie : Bool
  ccifg : Bool
deriving DecidableEq, Repr

namespace Compare

/-- `TBCCTLx = 0`. -/
def disable (c : Compare) : Compare := { c with ccie := false, ccifg := false }

/-- `TBCCTLx = CCIE`. -/
def enable (c : Compare) : Compare := { c with ccie := true, ccifg := false }

/-- The counter has counted to `tbr`. -/
def count (c : Compare) (tbr : UInt16) : Compare :=
  { c with ccifg := c.ccifg || c.ccr == tbr }

/-- The interrupt of the register is requested. -/
def requested (c : Compare) : Bool := c.ccie && c.ccifg

/-- The number of ticks to the next match. -/
def ticksToMatch (c : Compare) (tbr : UInt16) : Nat :=
  if c.ccifg then 0 else (c.ccr - tbr - 1).toNat + 1

end Compare

/-- The yields of `powercycle`: before its first call, in the off phase, and in the on phase. -/
inductive PowercyclePc where
  | start
  | offPhase
  | onPhase
deriving DecidableEq, Repr

/-- Timer B and the variables of `xmac.c` that the timers use. `configuring` says that
`set_xmac_config` has turned X-MAC off and not yet on, and `glossy` that a Glossy phase runs. -/
structure XmacTimers where
  tbr : UInt16
  timeout : Compare
  dutyCycle : Compare
  config : DutyCycle
  xmacIsOn : Bool
  weAreSending : Bool
  wasTimeout : Bool
  inOnPhase : Bool
  lastOn : UInt16
  pc : PowercyclePc
  configuring : Bool
  glossy : Bool
deriving DecidableEq, Repr

namespace XmacTimers

/-- `xmac_init`. -/
def init (tbr : UInt16) (config : DutyCycle) : XmacTimers where
  tbr := tbr
  timeout := ⟨0, false, false⟩
  dutyCycle := ⟨tbr + config.offTime, true, false⟩
  config := config
  xmacIsOn := true
  weAreSending := false
  wasTimeout := false
  inOnPhase := false
  lastOn := 0
  pc := .start
  configuring := false
  glossy := false

/-- The start of the off phase in `powercycle`. -/
def startOffPhase (s : XmacTimers) : XmacTimers :=
  { s with
    inOnPhase := if s.weAreSending then s.inOnPhase else true
    dutyCycle.ccr :=
      if s.xmacIsOn then s.dutyCycle.ccr + s.config.offTime else s.dutyCycle.ccr
    pc := .offPhase }

/-- The start of the on phase in `powercycle`. -/
def startOnPhase (s : XmacTimers) : XmacTimers :=
  { s with
    lastOn := s.dutyCycle.ccr
    wasTimeout := false
    inOnPhase := if s.weAreSending ∧ ¬ s.xmacIsOn then s.inOnPhase else false
    dutyCycle.ccr :=
      if s.xmacIsOn then s.dutyCycle.ccr + s.config.onTime else s.dutyCycle.ccr
    pc := .onPhase }

/-- `powercycle`, from one yield to the next. -/
def powercycle (s : XmacTimers) : XmacTimers :=
  match s.pc with
  | .offPhase => s.startOnPhase
  | .start | .onPhase =>
    if s.config.offTime > 0 ∧ ¬ s.wasTimeout then s.startOffPhase else s.startOnPhase

/-- `timeout`. -/
def timeoutExpired (s : XmacTimers) : XmacTimers :=
  let ccr := s.lastOn + s.config.onTime + s.config.offTime
  { s with dutyCycle := { s.dutyCycle with ccr := ccr }.enable }

/-- `timerb1_interrupt`, for the requested interrupt of the highest priority. While a flood
runs (`flood`), the flag is cleared and nothing is called. -/
def timerb1Interrupt (s : XmacTimers) (flood : Bool) : XmacTimers :=
  if s.timeout.requested then
    if flood then { s with timeout.ccifg := false }
    else timeoutExpired { s with timeout := s.timeout.disable }
  else
    let s := { s with dutyCycle.ccifg := false }
    if flood then s else s.powercycle

/-- The strobe branch of `read_packet`, for a strobe to this node from another one. -/
def readStrobe (s : XmacTimers) : XmacTimers :=
  if s.wasTimeout then s
  else
    { s with
      dutyCycle := s.dutyCycle.disable
      timeout := { s.timeout with ccr := s.tbr + timeoutTime }.enable
      wasTimeout := true }

/-- `turn_on`, with the result of `random_rand`. -/
def turnOn (s : XmacTimers) (rand : UInt16) : XmacTimers :=
  let ccr := s.tbr + if s.inOnPhase then rand % s.config.offTime else s.config.onTime
  { s with
    xmacIsOn := true
    dutyCycle := { s.dutyCycle with ccr := ccr }.enable }

/-- `turn_off`. -/
def turnOff (s : XmacTimers) : XmacTimers := { s with xmacIsOn := false }

/-- `set_xmac_config`, before `turn_on`. -/
def setConfig (s : XmacTimers) (config : DutyCycle) : XmacTimers :=
  { s.turnOff with config := config, configuring := true }

/-- `glossy_disable_other_interrupts` and `glossy_enable_other_interrupts`, for the two
registers. -/
def disableInterrupts (s : XmacTimers) : XmacTimers :=
  { s with timeout := s.timeout.disable, dutyCycle := s.dutyCycle.disable }

/-- The start of a Glossy phase. -/
def glossyStart (s : XmacTimers) : XmacTimers :=
  { s.turnOff.disableInterrupts with glossy := true }

/-- The end of a Glossy phase: the counter goes on from some value `tbr`. -/
def glossyEnd (s : XmacTimers) (tbr rand : UInt16) : XmacTimers :=
  { s.disableInterrupts with tbr := tbr, glossy := false }.turnOn rand

/-- The counter counts. -/
def tick (s : XmacTimers) : XmacTimers :=
  { s with
    tbr := s.tbr + 1
    timeout := s.timeout.count (s.tbr + 1)
    dutyCycle := s.dutyCycle.count (s.tbr + 1) }

/-- What happens. -/
inductive Action where
  | tick
  | timerb1 (flood : Bool)
  | sending (b : Bool)
  | strobe
  | setConfig (config : DutyCycle)
  | turnOn (rand : UInt16)
  | glossyStart
  | glossyEnd (tbr rand : UInt16)
deriving DecidableEq, Repr

/-- One step. The processes take turns: nothing else runs while `send_packet` or
`set_xmac_config` is at work, except for the interrupts. -/
def step (s : XmacTimers) : Action → Option XmacTimers
  | .tick => some s.tick
  | .timerb1 flood =>
    if (s.timeout.requested ∨ s.dutyCycle.requested) ∧ (flood → s.glossy) then
      some (s.timerb1Interrupt flood)
    else none
  | .sending b => if s.configuring then none else some { s with weAreSending := b }
  | .strobe => if s.configuring ∨ s.weAreSending then none else some s.readStrobe
  | .setConfig config =>
    if s.configuring ∨ s.weAreSending ∨ ¬ config.Valid then none else some (s.setConfig config)
  | .turnOn rand =>
    if s.configuring then some { s.turnOn rand with configuring := false } else none
  | .glossyStart => if s.glossy then none else some s.glossyStart
  | .glossyEnd tbr rand => if s.glossy then some (s.glossyEnd tbr rand) else none

end XmacTimers

/-- The timers of X-MAC from `xmac_init` on. -/
def xmacTimers (tbr : UInt16) (config : DutyCycle) : Machine XmacTimers XmacTimers.Action where
  init := .init tbr config
  step := XmacTimers.step

end PTunes.Mac
