import PTunes.Lib.Machine

/-!
# `PTunes.Mac.RadioFlag`: the flag of X-MAC for the radio (`xmac.c`)

`on` and `off` keep `radio_is_on`, and do nothing when it says that there is nothing to do. They
also do nothing while `xmac_is_on` is 0. `turn_off` and `set_xmac_config` call the radio driver
themselves.

`send_packet` waits in two places, for the acknowledgement of the strobes and for the one of
the data, and other calls can come there. The driver notes a call that comes while it holds its
lock, and this is left out: a call of the driver takes effect at once.
-/

set_option autoImplicit false

namespace PTunes.Mac

/-- Where `send_packet` is. -/
inductive SendState where
  | idle
  | strobing (isBroadcast : Bool)
  | waitingForDataAck
deriving DecidableEq, Repr

/-- What `read_packet` finds in the buffer of the radio. A strobe that does not count is one that
this node sent or one that comes while the timeout of an earlier strobe runs. -/
inductive Reading where
  | strobeForUs (counts : Bool)
  | strobeForAll
  | data (forUs : Bool)
  | other
deriving DecidableEq, Repr

/-- The flags of X-MAC and `receive_on` of the driver. The last field is a record: the argument
of the last `turn_off`. -/
structure RadioFlag where
  xmacIsOn : Bool
  radioIsOn : Bool
  receiveOn : Bool
  send : SendState
  keepRadioOn : Bool
deriving DecidableEq, Repr

namespace RadioFlag

/-- `cc2420_on`. -/
def cc2420On (s : RadioFlag) : RadioFlag := { s with receiveOn := true }

/-- `cc2420_off`. -/
def cc2420Off (s : RadioFlag) : RadioFlag := { s with receiveOn := false }

/-- `on`. -/
def on (s : RadioFlag) : RadioFlag :=
  if s.xmacIsOn ∧ s.radioIsOn = false then { s with radioIsOn := true }.cc2420On else s

/-- `off`. -/
def off (s : RadioFlag) : RadioFlag :=
  if s.xmacIsOn ∧ s.radioIsOn then { s with radioIsOn := false }.cc2420Off else s

/-- `xmac_init`, after `cc2420_init`. -/
def xmacInit : RadioFlag where
  xmacIsOn := true
  radioIsOn := false
  receiveOn := false
  send := .idle
  keepRadioOn := false

/-- `turn_on`. -/
def turnOn (s : RadioFlag) : RadioFlag := { s with xmacIsOn := true }

/-- `turn_off`. -/
def turnOff (s : RadioFlag) (keepRadioOn : Bool) : RadioFlag :=
  let s := { s with xmacIsOn := false, keepRadioOn := keepRadioOn }
  if keepRadioOn then s.cc2420On else s.cc2420Off

/-- `set_xmac_config`. -/
def setXmacConfig (s : RadioFlag) : RadioFlag := (s.turnOff false).turnOn

/-- `send_packet`, up to the strobes. -/
def sendPacket (s : RadioFlag) (isBroadcast : Bool) : RadioFlag :=
  if s.xmacIsOn = false then s
  else
    let s := s.off
    let s := if isBroadcast then s else s.on
    { s with send := .strobing isBroadcast }

/-- `send_packet`, after the strobes. `reliable` is whether the packet has one of the attributes
`RELIABLE` and `ERELIABLE`. Only a unicast gets an acknowledgement. -/
def strobed (s : RadioFlag) (isBroadcast gotStrobeAck reliable : Bool) : RadioFlag :=
  let gotStrobeAck := !isBroadcast && gotStrobeAck
  let s := if gotStrobeAck && !reliable then s.on else s.off
  { s with send := if gotStrobeAck then .waitingForDataAck else .idle }

/-- `send_packet`, after the wait for the acknowledgement of the data. -/
def dataSent (s : RadioFlag) : RadioFlag := { s.off with send := .idle }

/-- `read_packet`. -/
def readPacket (s : RadioFlag) : Reading → RadioFlag
  | .strobeForUs counts => if counts then s.on else s
  | .strobeForAll => s.on
  | .data forUs => if forUs then s.off else s
  | .other => s

/-- What happens. -/
inductive Action where
  | on
  | off
  | turnOn
  | turnOff (keepRadioOn : Bool)
  | setXmacConfig
  | sendPacket (isBroadcast : Bool)
  | strobed (gotStrobeAck reliable : Bool)
  | dataSent
  | readPacket (r : Reading)
deriving DecidableEq, Repr

/-- One step. -/
def step (s : RadioFlag) : Action → Option RadioFlag
  | .on => some s.on
  | .off => some s.off
  | .turnOn => some s.turnOn
  | .turnOff keepRadioOn => some (s.turnOff keepRadioOn)
  | .setXmacConfig => some s.setXmacConfig
  -- A process sends one packet at a time.
  | .sendPacket isBroadcast => if s.send = .idle then some (s.sendPacket isBroadcast) else none
  | .strobed gotStrobeAck reliable =>
    match s.send with
    | .strobing isBroadcast => some (s.strobed isBroadcast gotStrobeAck reliable)
    | _ => none
  | .dataSent => if s.send = .waitingForDataAck then some s.dataSent else none
  | .readPacket r => some (s.readPacket r)

end RadioFlag

/-- The flag from `xmac_init` on. -/
def radioFlag : Machine RadioFlag RadioFlag.Action where
  init := .xmacInit
  step := RadioFlag.step

end PTunes.Mac
