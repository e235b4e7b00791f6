import PTunes.Glossy.Config
import PTunes.Mac.LppNew

/-!
# `PTunes.Mac.Adaptation`: the configuration of the MAC (`adaptation_process`)

`adaptation_process` (`adaptive-mac.c`) makes the configuration of the MAC from a new
configuration. `relunicast.c` and `contiki-conf.h` compute times from it: the period of the duty
cycle `T_DUTY`, the back-off before a retransmission, and how long before a Glossy phase a
transmission has to start. The MACs are X-MAC and LPP_NEW, the two that run with Glossy.

All values have 16 bits. `rand` is `random_rand()`.
-/

set_option autoImplicit false

namespace PTunes.Mac

/-- `struct xmac_config`. -/
structure XmacConfig where
  onTime : UInt16
  offTime : UInt16
  strobeTime : UInt16
  strobeWaitTime : UInt16
deriving DecidableEq, Repr

/-- The configuration of the MAC of the build. -/
inductive MacConfig where
  | xmac (c : XmacConfig)
  | lppNew (c : LppNew.Config)
deriving DecidableEq, Repr

/-- `adaptation_process`: `set_xmac_config` or `set_lpp_new_config` with a new configuration.
The fields that are not in it keep their values. -/
def adapt (new : Glossy.Config) : MacConfig → MacConfig
  | .xmac c => .xmac
      { onTime := new.tL
        offTime := new.tS
        strobeTime := 2 * new.tL + new.tS
        strobeWaitTime := c.strobeWaitTime }
  | .lppNew c => .lppNew { txTimeout := new.tL, offTime := new.tS, onTime := c.onTime }

/-- `RTIMER_ARCH_SECOND/CLOCK_SECOND`: the ticks of the real-time timer in a tick of the
clock. -/
def clockTick : UInt16 := 32768 / 128

namespace MacConfig

/-- `T_DUTY`, in ticks of the clock. -/
def tDuty : MacConfig → UInt16
  | .xmac c => (c.offTime + c.onTime) / clockTick
  | .lppNew c => (c.offTime + c.onTime) / clockTick

/-- `RANDOM_DELAY`. -/
def randomDelay (c : MacConfig) (rand : UInt16) : UInt16 := rand % c.tDuty

/-- `REXMIT_TIME`. -/
def rexmitTime (c : MacConfig) (rand : UInt16) : UInt16 := c.tDuty + c.randomDelay rand

/-- `SLACK_BEFORE_GLOSSY`, in ticks of the clock. -/
def slackBeforeGlossy : MacConfig → Int16
  | .xmac c => ((c.offTime + 2 * c.onTime) / clockTick + 2).toInt16
  | .lppNew c => (c.txTimeout / clockTick + 2).toInt16

end MacConfig

/-- `SLACK_AFTER_GLOSSY`. -/
def slackAfterGlossy : Int16 := 2

end PTunes.Mac
