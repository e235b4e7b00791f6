import Mathlib.Algebra.Order.Round
import Mathlib.Data.Rat.Floor

/-!
# `PTunes.Optimizer.Constants`: the constants of the optimizer

`constants.ecl`. The constants are rational numbers, in the units of the source. Currents
and voltage are only used for the powers.
-/

set_option autoImplicit false

namespace PTunes.Optimizer

/-- For the numeral 2 in the formulas. -/
instance atLeastTwo : Nat.AtLeastTwo 2 := inferInstance

/-! ### Hardware -/

/-- Current at Tx [A]. -/
def itx : ℚ := 17.4e-3

/-- Current at Rx [A]. -/
def irx : ℚ := 19.7e-3

/-- Current in idle mode [A], `Is` in the source. -/
def iidle : ℚ := 426e-6

/-- Supply voltage [V]. -/
def u : ℚ := 3

/-- Power consumption at Tx [W]. -/
def ptx : ℚ := u * itx

/-- Power consumption at Rx [W]. -/
def prx : ℚ := u * irx

/-- Power consumption in idle mode [W]. -/
def ps : ℚ := u * iidle

/-- Rx/Tx turnaround time [s]. -/
def tturn : ℚ := 192e-6

/-- Battery capacity [As]. -/
def q : ℚ := 7200

/-! ### Implementation -/

/-- Duration of the sender's acknowledgment listen [s]. -/
def tsl : ℚ := 4.15e-3

/-- Duration of the sender's wait for a data acknowledgment [s]. -/
def twait : ℚ := 2.4414e-3

/-- Duration of the receiver's wait for a data packet [s]. -/
def ttimeout : ℚ := 5.1269e-3

/-- Granularity of the timer [s/tick]. -/
def scale : ℚ := 1e-3

/-- Duration of a strobe transmission [s]. -/
def tstr : ℚ := 416e-6

/-- Duration of an acknowledgment transmission [s]. -/
def tack : ℚ := 416e-6

/-- Duration of a data transmission [s]. -/
def tdata : ℚ := 2.34e-3

/-- Duration of a strobe transmission and the listen after it [s]. -/
def titer : ℚ := 2 * tturn + tstr + tsl

/-! ### LPP -/

/-- Duration of the radio on-time (LPP) [s]. -/
def ton : ℚ := 7.8125e-3

/-- Duration of a probe transmission (LPP) [s]. -/
def tpr : ℚ := 416e-6

/-- Maximum of the random part of the period (LPP) [s]. -/
def trandmax : ℚ := 15.625e-3

/-- Duration of the sender's wait for a data acknowledgment (LPP) [s]. -/
def tdacktimeout : ℚ := 4.16564941e-3

/-- Duration of a data acknowledgment transmission (LPP) [s]. -/
def tdack : ℚ := 416e-6

end PTunes.Optimizer
