import PTunes.Core.Energest
import PTunes.Lib.Machine

/-!
# `PTunes.Mac.RadioEnergy`: the energy accounts of the radio

The driver (`cc2420.c`) keeps a LISTEN and a TRANSMIT account. It is called by X-MAC
(`xmac.c`), from processes and from interrupts. `cc2420_send` and `cc2420_read` hold a lock,
under which `cc2420_on` and `cc2420_off` only note what to do. Around the strobes of a
broadcast, `send_packet` replaces both accounts (`EXCLUDE_TRICKLE_ENERGY`).

An `Action` is a tick of the clock or what one function does between two points at which an
interrupt can come. The wrappers `on` and `off` of X-MAC may be called at any time. Less than
a round of the 16-bit clock passes between two calls of `energest_flush`, which `clock.c` makes
once a second. Glossy phases and `energest_init` in `app_process` are left out.

The last fields are records: the state of the hardware, and the ticks during which it listened
and transmitted, inside and outside of broadcasts.
-/

set_option autoImplicit false

namespace PTunes.Mac

/-- Where the driver is: outside its locked parts, in `cc2420_send` before the frame starts, in
`cc2420_send` while `CC2420_TX_ACTIVE` is set, or in `cc2420_read`. -/
inductive Driver where
  | idle
  | sending
  | transmitting
  | reading
deriving DecidableEq, Repr

/-- What the radio does. -/
inductive Hardware where
  | off
  | rx
  | tx
deriving DecidableEq, Repr

/-- The value of an account that `send_packet` keeps, and the same without overflow. -/
structure Saved where
  total : UInt32
  units : Nat
deriving DecidableEq, Repr

/-- The accounts and the flags of the radio. `energestListen` and `energestTransmit` are the
variables of `send_packet`, and `broadcasting` says that they are in use. -/
structure RadioEnergy where
  now : Nat
  start : Nat
  lastFlush : Nat
  listen : Account
  transmit : Account
  xmacIsOn : Bool
  radioIsOn : Bool
  receiveOn : Bool
  locked : Bool
  lockOn : Bool
  lockOff : Bool
  driver : Driver
  broadcasting : Bool
  energestListen : Saved
  energestTransmit : Saved
  hardware : Hardware
  listenTicks : Nat
  transmitTicks : Nat
  broadcastListenTicks : Nat
  broadcastTransmitTicks : Nat
  broadcastUnits : Nat
deriving DecidableEq, Repr

namespace RadioEnergy

/-- `cc2420_init`, `xmac_init` and `energest_init`. -/
def init (now : Nat) : RadioEnergy where
  now := now
  start := now
  lastFlush := now
  listen := .init
  transmit := .init
  xmacIsOn := true
  radioIsOn := false
  receiveOn := false
  locked := false
  lockOn := false
  lockOff := false
  driver := .idle
  broadcasting := false
  energestListen := ⟨0, 0⟩
  energestTransmit := ⟨0, 0⟩
  hardware := .off
  listenTicks := 0
  transmitTicks := 0
  broadcastListenTicks := 0
  broadcastTransmitTicks := 0
  broadcastUnits := 0

/-! ### `cc2420.c` -/

/-- `on`. -/
def driverOn (s : RadioEnergy) : RadioEnergy :=
  { s with listen := s.listen.on s.now, receiveOn := true, hardware := .rx }

/-- `off`. -/
def driverOff (s : RadioEnergy) : RadioEnergy :=
  { s with receiveOn := false, hardware := .off, listen := s.listen.off s.now }

/-- `RELEASE_LOCK`. -/
def releaseLock (s : RadioEnergy) : RadioEnergy :=
  let s := if s.lockOn then { s.driverOn with lockOn := false } else s
  let s := if s.lockOff then { s.driverOff with lockOff := false } else s
  { s with locked := false }

/-- `cc2420_off`. -/
def cc2420Off (s : RadioEnergy) : RadioEnergy :=
  if s.receiveOn = false then s
  else if s.locked then { s with lockOff := true }
  else s.driverOff

/-- `cc2420_on`. -/
def cc2420On (s : RadioEnergy) : RadioEnergy :=
  if s.receiveOn then s
  else if s.locked then { s with lockOn := true }
  else s.driverOn

/-- `cc2420_send`: the frame has started. -/
def txStart (s : RadioEnergy) : RadioEnergy :=
  { s with
    listen := if s.receiveOn then s.listen.off s.now else s.listen
    transmit := s.transmit.on s.now
    hardware := .tx
    driver := .transmitting }

/-- `cc2420_send`: the frame has ended. The radio has gone on to receive. -/
def txEnd (s : RadioEnergy) : RadioEnergy :=
  let s := { s with transmit := s.transmit.off s.now, hardware := .rx, driver := .idle }
  let s := if s.receiveOn then { s with listen := s.listen.on s.now } else s.driverOff
  s.releaseLock

/-! ### `xmac.c` -/

/-- `on`. -/
def on (s : RadioEnergy) : RadioEnergy :=
  if s.xmacIsOn ∧ s.radioIsOn = false then { s with radioIsOn := true }.cc2420On else s

/-- `off`. -/
def off (s : RadioEnergy) : RadioEnergy :=
  if s.xmacIsOn ∧ s.radioIsOn then { s with radioIsOn := false }.cc2420Off else s

/-- `turn_off`. -/
def turnOff (s : RadioEnergy) (keepRadioOn : Bool) : RadioEnergy :=
  let s := { s with xmacIsOn := false }
  if keepRadioOn then s.cc2420On else s.cc2420Off

/-- `energest_type_time` of both accounts, or `energest_flush`. -/
def typeTime (s : RadioEnergy) : RadioEnergy :=
  { s with listen := s.listen.sample s.now, transmit := s.transmit.sample s.now }

/-- `send_packet`, before the strobes of a broadcast. -/
def broadcastBegin (s : RadioEnergy) : RadioEnergy :=
  let s := s.typeTime
  { s with
    broadcasting := true
    energestListen := ⟨s.listen.total, s.listen.units⟩
    energestTransmit := ⟨s.transmit.total, s.transmit.units⟩ }

/-- `send_packet`, after the strobes of a broadcast, with `xmac_config.on_time`. -/
def broadcastEnd (s : RadioEnergy) (onTime : UInt16) : RadioEnergy :=
  let s := s.typeTime
  { s with
    broadcasting := false
    listen :=
      s.listen.set (s.energestListen.total + onTime.toUInt32)
        (s.energestListen.units + onTime.toNat)
    transmit := s.transmit.set s.energestTransmit.total s.energestTransmit.units
    broadcastUnits := s.broadcastUnits + onTime.toNat }

/-- The clock counts, and the records with it. -/
def tick (s : RadioEnergy) : RadioEnergy :=
  let listens := if s.hardware = .rx then 1 else 0
  let transmits := if s.hardware = .tx then 1 else 0
  if s.broadcasting then
    { s with
      now := s.now + 1
      broadcastListenTicks := s.broadcastListenTicks + listens
      broadcastTransmitTicks := s.broadcastTransmitTicks + transmits }
  else
    { s with
      now := s.now + 1
      listenTicks := s.listenTicks + listens
      transmitTicks := s.transmitTicks + transmits }

/-- What happens. -/
inductive Action where
  | tick
  | flush
  | typeTime
  | on
  | off
  | turnOn
  | turnOff (keepRadioOn : Bool)
  | send
  | txStart
  | txEnd
  | txFailed
  | read
  | readEnd
  | broadcastBegin
  | broadcastEnd (onTime : UInt16)
deriving DecidableEq, Repr

/-- One step. -/
def step (s : RadioEnergy) : Action → Option RadioEnergy
  | .tick => if s.now + 1 < s.lastFlush + 65536 then some s.tick else none
  | .flush => some { s.typeTime with lastFlush := s.now }
  | .typeTime => some s.typeTime
  | .on => some s.on
  | .off => some s.off
  | .turnOn => some { s with xmacIsOn := true }
  | .turnOff keepRadioOn => some (s.turnOff keepRadioOn)
  | .send => if s.driver = .idle then some { s with locked := true, driver := .sending } else none
  | .txStart => if s.driver = .sending then some s.txStart else none
  | .txEnd => if s.driver = .transmitting then some s.txEnd else none
  | .txFailed =>
    if s.driver = .sending then some { s with driver := .idle }.releaseLock else none
  | .read => if s.driver = .idle then some { s with locked := true, driver := .reading } else none
  | .readEnd =>
    if s.driver = .reading then some { s with driver := .idle }.releaseLock else none
  -- A process sends one packet at a time.
  | .broadcastBegin =>
    if s.driver = .idle ∧ s.broadcasting = false then some s.broadcastBegin else none
  | .broadcastEnd onTime =>
    if s.driver = .idle ∧ s.broadcasting then some (s.broadcastEnd onTime) else none

end RadioEnergy

/-- The accounts of the radio from `energest_init` at the time `now` on. -/
def radioEnergy (now : Nat) : Machine RadioEnergy RadioEnergy.Action where
  init := .init now
  step := RadioEnergy.step

/-! ### The accounts around the strobes of a broadcast -/

/-- The radio and `energest_total_time` of LPM. The LPM account is closed while the processor
runs, so `energest_type_time` returns its total. -/
structure StrobePhase where
  radio : RadioEnergy
  lpm : UInt32
deriving DecidableEq, Repr

namespace StrobePhase

/-- `send_packet`, before the strobes of a broadcast. -/
def excludeBegin (s : StrobePhase) : StrobePhase := { s with radio := s.radio.broadcastBegin }

/-- `energest_type_time` of both accounts of the radio. -/
def typeTime (s : StrobePhase) : StrobePhase := { s with radio := s.radio.typeTime }

/-- `diff_transmit`. -/
def diffTransmit (s : StrobePhase) : UInt32 :=
  s.typeTime.radio.transmit.total - s.radio.energestTransmit.total

/-- `diff_listen`. -/
def diffListen (s : StrobePhase) : UInt32 :=
  s.typeTime.radio.listen.total - s.radio.energestListen.total

/-- `send_packet`, after the strobes of a broadcast, with `xmac_config.on_time`. -/
def excludeEnd (s : StrobePhase) (onTime : UInt16) : StrobePhase where
  radio := s.radio.broadcastEnd onTime
  lpm := s.lpm + s.diffListen + s.diffTransmit - onTime.toUInt32

/-- What happens between the two. -/
def step (s : StrobePhase) : RadioEnergy.Action → Option StrobePhase
  | .broadcastEnd _ => none
  | a => (s.radio.step a).map fun radio => { s with radio := radio }

end StrobePhase

/-- The strobes of a broadcast, from the state `s` on. -/
def strobePhase (s : StrobePhase) : Machine StrobePhase RadioEnergy.Action where
  init := s.excludeBegin
  step := StrobePhase.step

end PTunes.Mac
