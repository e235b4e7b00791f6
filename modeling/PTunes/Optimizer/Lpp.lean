import Mathlib.Data.EReal.Basic
import PTunes.Controller.Topology
import PTunes.Optimizer.Constants
import PTunes.Optimizer.Tree

/-!
# `PTunes.Optimizer.Lpp`: the model of LPP

`lpp.ecl`, in the same form as `PTunes.Optimizer.Xmac`. The radio is switched on for the
fixed time `ton`, so Tl follows from Ts, in the domain of `createVariables` as well as in
`optimizedForReliabilityParameters`.
-/

set_option autoImplicit false

namespace PTunes.Optimizer.Lpp

open PTunes.Controller

/-! ### Reliability and latency -/

section PerHop

variable (prout : ℝ) (v : MacConfiguration)

/-- `K`: the number of probes. -/
def k : Nat := 1

/-- `Poneprobe`: at least one probe is received. -/
noncomputable def poneprobe : ℝ := 1 - (1 - prout) ^ k

/-- `Pf`: a transmission fails. -/
noncomputable def pf : ℝ := 1 - poneprobe prout * prout

/-- `Nftx`: the failed transmissions before the successful one. -/
noncomputable def nftx : ℝ :=
  pf prout / (1 - pf prout) -
    (v.n + 1) * pf prout ^ (v.n + 1) / (1 - pf prout ^ (v.n + 1))

/-- `Ttxdata` -/
noncomputable def ttxdata : ℝ := 2 * tturn + tdata

/-- `Tbackoff` -/
noncomputable def tbackoff : ℝ := (ton + scale * v.ts) * 1.5

/-- `Toneprobe`: the time until a probe is received. -/
noncomputable def toneprobe : ℝ :=
  tpr + 0.5 * (ton + scale * v.ts + 0.5 * trandmax) * (prout + (k : ℝ) ^ 2 * (1 - prout)) /
    (prout + k * (1 - prout))

/-- `Tftx`: the time of a failed transmission. -/
noncomputable def tftx : ℝ :=
  (toneprobe prout v + ttxdata + tdacktimeout) * poneprobe prout +
    scale * v.tl * (1 - poneprobe prout) + tbackoff v

/-- `Tstx`: the time of a successful transmission. -/
noncomputable def tstx : ℝ := toneprobe prout v + ttxdata

end PerHop

variable {size : Nat}

/-- `perHopReliability` -/
noncomputable def perHopReliability (node : Node size) (v : MacConfiguration) : ℝ :=
  if node.isSink then 1
  else 1 - (1 - poneprobe node.prr * (node.prr : ℝ)) ^ (v.n + 1)

/-- `perHopLatency` -/
noncomputable def perHopLatency (node : Node size) (v : MacConfiguration) : ℝ :=
  if node.isSink then 0
  else 0.5 * (ton + scale * v.ts) + nftx node.prr v * tftx node.prr v + tstx node.prr v

/-- The quotients of `perHopLatency` have values: not every transmission fails. -/
def LatencyDefined (node : Node size) (v : MacConfiguration) : Prop :=
  node.isSink = false → pf node.prr ≠ 1 ∧ pf node.prr ^ (v.n + 1) ≠ 1

/-! ### Node lifetime -/

/-- `Prtx`: a packet is sent again. -/
noncomputable def prtx (p : ℝ) : ℝ := 1 - poneprobe p * p ^ 2

/-- `Nrtx`: the number of times that a packet is sent again. -/
noncomputable def nrtx (p : ℝ) (v : MacConfiguration) : ℝ :=
  prtx p * (1 - prtx p ^ v.n) / (1 - prtx p)

/-- `Fdc`: the frequency of the duty cycle. -/
noncomputable def fdc (v : MacConfiguration) : ℝ := 1 / (ton + scale * v.ts + 0.5 * trandmax)

/-- `Don`: the fraction of time that the radio is on. -/
noncomputable def don (v : MacConfiguration) : ℝ := ton * fdc v

section Lifetime

variable (t : Topology) (fout : Fin t.size → ℝ) (i : Fin t.size) (v : MacConfiguration)

/-- `Frx`: the rate of receptions, the sum over the children. -/
noncomputable def frx : ℝ :=
  ((t.node i).children.map fun c =>
    (nrtx (t.node c).prr v + 1) * fout c * poneprobe (t.node c).prr * (t.node c).prr).sum

/-- `Trxdctx` -/
noncomputable def trxdctx : ℝ := tpr + tdack * frx t fout i v / fdc v

/-- `Trxdcrx` -/
noncomputable def trxdcrx : ℝ := ton - trxdctx t fout i v

/-- `Ftx`: the rate of transmissions. -/
noncomputable def ftx : ℝ := (nrtx (t.node i).prr v + 1) * fout i

/-- `Ttxptx`: the time in transmit mode for one transmission. -/
noncomputable def ttxptx (prout : ℝ) : ℝ := poneprobe prout * tdata

/-- `Ttxprx`: the time in receive mode for one transmission. -/
noncomputable def ttxprx (prout : ℝ) : ℝ :=
  poneprobe prout *
      (toneprobe prout v * (1 - don v) + 4 * tturn + prout ^ 2 * tdack +
        (1 - prout ^ 2) * tdacktimeout) +
    (1 - poneprobe prout) * ((scale * v.tl - 2 * tturn) * (1 - don v) + 2 * tturn)

/-- `Dtx`: the fraction of time in transmit mode. -/
noncomputable def dtx : ℝ :=
  fdc v * trxdctx t fout i v + ftx t fout i v * ttxptx (t.node i).prr

/-- `Drx`: the fraction of time in receive mode. The source multiplies the reception
frequency here. -/
noncomputable def drx : ℝ :=
  fdc v * trxdcrx t fout i v + frx t fout i v * ttxprx v (t.node i).prr

/-- `Didle`: the fraction of time in idle mode. -/
noncomputable def didle : ℝ := 1 - dtx t fout i v - drx t fout i v

/-- `Ptotal`: the total power draw. -/
noncomputable def ptotal : ℝ :=
  dtx t fout i v * ptx + drx t fout i v * prx + didle t fout i v * ps

/-- `nodeLifetime` -/
noncomputable def nodeLifetime : EReal :=
  if (t.node i).isSink then ⊤ else ((q * u / ptotal t fout i v : ℝ) : EReal)

/-! ### Queuing -/

/-- `Ttx` of `queuingRate`. -/
noncomputable def ttx (prout : ℝ) : ℝ :=
  (toneprobe prout v + 4 * tturn + tdata + tdack * prout ^ 2 +
      (tdacktimeout + tbackoff v) * (1 - prout ^ 2)) * poneprobe prout +
    (scale * v.tl + tbackoff v) * (1 - poneprobe prout)

/-- `queuingRate` -/
noncomputable def queuingRate : EReal :=
  if (t.node i).isSink then ⊥
  else
    ((fout i - 1 / ((nrtx (t.node i).prr v + 1) * ttx v (t.node i).prr) : ℝ) : EReal)

end Lifetime

/-! ### Variables -/

/-- `UBTs` -/
def ubTs : ℤ := round (0.5 / scale)

/-- `Fixed` -/
def fixed : ℤ := round ((ton + 0.5 * trandmax + tpr + tturn) / scale)

/-- `createVariables`: whether the parameters are in the domains. -/
def createVariables (v : MacConfiguration) : Bool :=
  v.ts ≥ 0 && v.ts ≤ ubTs && v.tl == fixed + v.ts && v.n ≥ 0 && v.n ≤ 10

/-- `optimizedForReliabilityParameters` -/
def optimizedForReliabilityParameters : MacConfiguration where
  tl := round ((ton + scale * 60 + 0.5 * trandmax + tpr + tturn) / scale)
  ts := 60
  n := 10

end PTunes.Optimizer.Lpp
