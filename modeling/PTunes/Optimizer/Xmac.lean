import Mathlib.Analysis.SpecialFunctions.Pow.Real
import Mathlib.Data.EReal.Basic
import PTunes.Controller.Topology
import PTunes.Optimizer.Constants
import PTunes.Optimizer.Tree

/-!
# `PTunes.Optimizer.Xmac`: the model of X-MAC

`xmac.ecl`. Each predicate attaches a metric to a node by arithmetic constraints, which
here are functions of the node and the parameters `v` (Tl, Ts and N), over the real
numbers. The unknown `fout` of the nodes is a parameter of the metrics that use it.

`createVariables` gives the integer domains, and `optimizedForReliabilityParameters` the
parameters for the case that the constraints are not satisfiable.
-/

set_option autoImplicit false

namespace PTunes.Optimizer.Xmac

open PTunes.Controller

/-! ### Reliability and latency -/

section PerHop

variable (prout : ℝ) (v : MacConfiguration)

/-- `K`: the number of strobes of one transmission. -/
noncomputable def k : ℝ := (scale * v.tl - tstr) / titer

/-- `Ponestrobe`: at least one strobe is received. -/
noncomputable def ponestrobe : ℝ := 1 - (1 - prout) ^ k v

/-- `Psack` -/
noncomputable def psack : ℝ := ponestrobe prout v * prout

/-- `Pf`: a transmission fails. -/
noncomputable def pf : ℝ := 1 - ponestrobe prout v * prout ^ 2

/-- `Niter` -/
noncomputable def niter : ℝ := (scale * (v.tl + v.ts)) / (2 * titer)

/-- `Tmax` -/
noncomputable def tmax : ℝ := scale * (2 * v.tl + v.ts)

/-- `Tbackoff` -/
noncomputable def tbackoff : ℝ := scale * (v.tl + v.ts) * 1.5

/-- `Nftx`: the failed transmissions before the successful one. -/
noncomputable def nftx : ℝ :=
  pf prout v / (1 - pf prout v) -
    (v.n + 1) * pf prout v ^ (v.n + 1) / (1 - pf prout v ^ (v.n + 1))

/-- `Ttxdata` -/
noncomputable def ttxdata : ℝ := 2 * tturn + tdata

/-- `Tftx`: the time of a failed transmission. -/
noncomputable def tftx : ℝ :=
  (niter v * titer + ttxdata + twait) * psack prout v + tmax v * (1 - psack prout v) +
    tbackoff v

/-- `Tstx`: the time of a successful transmission. -/
noncomputable def tstx : ℝ := niter v * titer + ttxdata

end PerHop

variable {size : Nat}

/-- `perHopReliability` -/
noncomputable def perHopReliability (node : Node size) (v : MacConfiguration) : ℝ :=
  if node.isSink then 1
  else 1 - (1 - ponestrobe node.prr v * (node.prr : ℝ) ^ 2) ^ (v.n + 1)

/-- `perHopLatency` -/
noncomputable def perHopLatency (node : Node size) (v : MacConfiguration) : ℝ :=
  if node.isSink then 0
  else 0.5 * (v.tl + v.ts) * scale + nftx node.prr v * tftx node.prr v + tstx v

/-- The quotients of `perHopLatency` have values: not every transmission fails. -/
def LatencyDefined (node : Node size) (v : MacConfiguration) : Prop :=
  node.isSink = false → pf node.prr v ≠ 1 ∧ pf node.prr v ^ (v.n + 1) ≠ 1

/-! ### Node lifetime -/

/-- `Prtx`: a packet is sent again. -/
noncomputable def prtx (p : ℝ) (v : MacConfiguration) : ℝ := 1 - ponestrobe p v * p ^ 3

/-- `Nrtx`: the number of times that a packet is sent again. -/
noncomputable def nrtx (p : ℝ) (v : MacConfiguration) : ℝ :=
  prtx p v * (1 - prtx p v ^ v.n) / (1 - prtx p v)

/-- `Frxi`: the rate of receptions from a child. -/
noncomputable def frxi (fin prin : ℝ) (v : MacConfiguration) : ℝ :=
  (nrtx prin v + 1) * fin * ponestrobe prin v

/-- `Trxri`: the time in receive mode for one reception from a child. -/
noncomputable def trxri (prin : ℝ) : ℝ :=
  2 * tturn + (tturn + tdata) * prin ^ 2 + ttimeout * (1 - prin ^ 2)

/-- `Trxti`: the time in transmit mode for one reception from a child. -/
noncomputable def trxti (prin : ℝ) : ℝ := tack + tack * prin ^ 2

section Lifetime

variable (t : Topology) (fout : Fin t.size → ℝ) (i : Fin t.size) (v : MacConfiguration)

/-- `Drxc1`, the sum over the children. -/
noncomputable def drxc1 : ℝ :=
  ((t.node i).children.map fun c =>
    frxi (fout c) (t.node c).prr v * trxri (t.node c).prr).sum

/-- `Dtx1`, the sum over the children. -/
noncomputable def dtx1 : ℝ :=
  ((t.node i).children.map fun c =>
    frxi (fout c) (t.node c).prr v * trxti (t.node c).prr).sum

/-- `Ftx`: the rate of transmissions. -/
noncomputable def ftx : ℝ := (nrtx (t.node i).prr v + 1) * fout i

/-- `Ttxr`: the time in receive mode for one transmission. -/
noncomputable def ttxr (prout : ℝ) : ℝ :=
  (niter v * (2 * tturn + tsl) + 2 * tturn + tack * prout ^ 2 + twait * (1 - prout ^ 2)) *
      psack prout v +
    (tmax v / titer) * (2 * tturn + tsl) * (1 - psack prout v)

/-- `Ttxt`: the time in transmit mode for one transmission. -/
noncomputable def ttxt (prout : ℝ) : ℝ :=
  (niter v * tstr + tdata) * psack prout v + (tmax v / titer) * tstr * (1 - psack prout v)

/-- `Drxc` -/
noncomputable def drxc : ℝ := drxc1 t fout i v + ftx t fout i v * ttxr v (t.node i).prr

/-- `Drx`: the fraction of time in receive mode. -/
noncomputable def drx : ℝ :=
  drxc t fout i v + (1 - drxc t fout i v) * v.tl / (v.tl + v.ts)

/-- `Dtx`: the fraction of time in transmit mode. -/
noncomputable def dtx : ℝ := dtx1 t fout i v + ftx t fout i v * ttxt v (t.node i).prr

/-- `Didle`: the fraction of time in idle mode. -/
noncomputable def didle : ℝ := 1 - dtx t fout i v - drx t fout i v

/-- `Ptotal`: the total power draw. -/
noncomputable def ptotal : ℝ :=
  dtx t fout i v * ptx + drx t fout i v * prx + didle t fout i v * ps

/-- `nodeLifetime` -/
noncomputable def nodeLifetime : EReal :=
  if (t.node i).isSink then ⊤ else ((q * u / ptotal t fout i v : ℝ) : EReal)

/-! ### Queuing -/

/-- `Ttx` of `queuingRate`. -/
noncomputable def ttx (prout : ℝ) : ℝ :=
  (niter v * titer + 2 * tturn + tdata + tack * prout ^ 2 +
      (twait + tbackoff v) * (1 - prout ^ 2)) * psack prout v +
    (tmax v + tbackoff v) * (1 - psack prout v)

/-- `queuingRate` -/
noncomputable def queuingRate : EReal :=
  if (t.node i).isSink then ⊥
  else
    ((fout i - 1 / ((nrtx (t.node i).prr v + 1) * ttx v (t.node i).prr) : ℝ) : EReal)

end Lifetime

/-! ### Variables -/

/-- `UBTs` -/
def ubTs : ℤ := round (0.5 / scale)

/-- `LBTs` -/
def lbTs : ℤ := round (0.02 / scale)

/-- `LBTl` -/
def lbTl : ℤ := ⌈(2 * tstr + 2 * tturn + tsl) / scale⌉

/-- `UBTl` -/
def ubTl : ℤ := ⌈(3 * titer + tstr) / scale⌉

/-- `createVariables`: whether the parameters are in the domains. -/
def createVariables (v : MacConfiguration) : Bool :=
  v.ts ≥ lbTs && v.ts ≤ ubTs && v.tl ≥ lbTl && v.tl ≤ ubTl && v.n ≥ 0 && v.n ≤ 10

/-- `optimizedForReliabilityParameters` -/
def optimizedForReliabilityParameters : MacConfiguration where
  tl := ⌈(3 * titer + tstr) / scale⌉
  ts := 20
  n := 10

end PTunes.Optimizer.Xmac
