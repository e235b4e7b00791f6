import PTunes.Optimizer.E2e

/-!
# `PTunes.Optimizer.TimeFractions`: the time fractions of both protocols

What `nodeLifetime` of `xmac.ecl` and of `lpp.ecl` computes on the way to the lifetime, by
protocol: the fractions of time in each mode of the radio, the frequency of the transmission
attempts, and the times of one attempt.
-/

set_option autoImplicit false

namespace PTunes.Optimizer

open PTunes.Controller

/-- The MAC protocol whose model is compiled in. -/
inductive MacProtocol
  | xmac
  | lpp
deriving DecidableEq, Repr

namespace MacProtocol

/-- The predicates of the model. -/
noncomputable def model : MacProtocol → MacModel
  | .xmac => .xmac
  | .lpp => .lpp

section Fractions

variable (t : Topology) (fout : Fin t.size → ℝ) (i : Fin t.size) (v : MacConfiguration)

/-- `Dtx`: the fraction of time in transmit mode. -/
noncomputable def dtx : MacProtocol → ℝ
  | .xmac => Xmac.dtx t fout i v
  | .lpp => Lpp.dtx t fout i v

/-- `Drx`: the fraction of time in receive mode. -/
noncomputable def drx : MacProtocol → ℝ
  | .xmac => Xmac.drx t fout i v
  | .lpp => Lpp.drx t fout i v

/-- `Didle`: the fraction of time in idle mode. -/
noncomputable def didle : MacProtocol → ℝ
  | .xmac => Xmac.didle t fout i v
  | .lpp => Lpp.didle t fout i v

/-- `Ptotal`: the total power draw. -/
noncomputable def ptotal : MacProtocol → ℝ
  | .xmac => Xmac.ptotal t fout i v
  | .lpp => Lpp.ptotal t fout i v

/-- `Ftx`: the rate of transmission attempts. -/
noncomputable def ftx : MacProtocol → ℝ
  | .xmac => Xmac.ftx t fout i v
  | .lpp => Lpp.ftx t fout i v

end Fractions

/-- `Ttxt` or `Ttxptx`: the time in transmit mode for one attempt. -/
noncomputable def attemptTx (v : MacConfiguration) (prout : ℝ) : MacProtocol → ℝ
  | .xmac => Xmac.ttxt v prout
  | .lpp => Lpp.ttxptx prout

/-- `Ttxr` or `Ttxprx`: the time in receive mode for one attempt. -/
noncomputable def attemptRx (v : MacConfiguration) (prout : ℝ) : MacProtocol → ℝ
  | .xmac => Xmac.ttxr v prout
  | .lpp => Lpp.ttxprx v prout

variable {m : MacProtocol} {t : Topology} {fout : Fin t.size → ℝ} {i : Fin t.size}
  {v : MacConfiguration}

/-- The fractions make up the whole time. -/
theorem didle_eq : m.didle t fout i v = 1 - m.dtx t fout i v - m.drx t fout i v := by
  cases m <;> rfl

/-- The power draw is the mean of the powers in the three modes. -/
theorem ptotal_eq : m.ptotal t fout i v =
    m.dtx t fout i v * ptx + m.drx t fout i v * prx + m.didle t fout i v * ps := by
  cases m <;> rfl

/-- The lifetime of a node that is not the sink. -/
theorem nodeLifetime_eq (h : (t.node i).isSink = false) :
    m.model.nodeLifetime t fout i v = ((q * u / m.ptotal t fout i v : ℝ) : EReal) := by
  cases m <;> exact if_neg (by simp [h])

end MacProtocol

end PTunes.Optimizer
