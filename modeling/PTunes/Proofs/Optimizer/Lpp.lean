import PTunes.Lib.Probability
import PTunes.Optimizer.Consistent
import PTunes.Proofs.Optimizer.Rates

/-!
# `PTunes.Proofs.Optimizer.Lpp`: bounds on the metrics of LPP

In the same form as `PTunes.Proofs.Optimizer.Xmac`. Here the total power is an increasing
function of the rates of receptions and of transmissions (`ptotal_eq`). The time for data
acknowledgments counts as time in transmit mode, which takes less power than the listening
that it replaces, so the share of a reception is a difference (`reception_nonneg`).
-/

set_option autoImplicit false

namespace PTunes.Optimizer.Lpp

open PTunes.Controller PTunes.Probability

/-- The parameters in the domains. -/
theorem usable_of_createVariables {v : MacConfiguration} (h : createVariables v = true) :
    Usable v := by
  have hfixed : fixed = 16 := by decide +kernel
  simp only [createVariables, Bool.and_eq_true, decide_eq_true_eq, beq_iff_eq, hfixed] at h
  exact ⟨by omega, by omega, by omega⟩

variable {v : MacConfiguration}

/-! ### Probabilities and times -/

section Link

variable {p : ℝ}

/-- With a single probe, it is received with the PRR. -/
theorem poneprobe_eq (p : ℝ) : poneprobe p = p := by
  simp [poneprobe, k]

/-- The number of retransmissions. -/
theorem nrtx_nonneg (hv : Usable v) (hp : p ∈ unitInterval) : 0 ≤ nrtx p v := by
  apply retries_nonneg _ hv.2.2
  rw [prtx, poneprobe_eq]
  exact compl_mem (unitInterval.mul_mem hp (pow_mem hp 2))

/-- The period of the duty cycle is at least the time that the radio is on. -/
theorem fdc_pos (hv : Usable v) : 0 < fdc v := by
  have hts := hv.ts_nonneg
  apply one_div_pos.mpr
  norm_num [ton, scale, trandmax]
  linarith

/-- The fraction of time that the radio is on without packets. -/
theorem don_mem (hv : Usable v) : don v ∈ unitInterval := by
  have hts := hv.ts_nonneg
  rw [don, fdc, mul_one_div]
  apply unitInterval.div_mem
  · norm_num [ton]
  · norm_num [ton, scale, trandmax]
    linarith
  · norm_num [ton, scale, trandmax]
    linarith

/-- The waiting time for a probe is not negative. With one probe the two quotients of the source are
1. -/
theorem toneprobe_nonneg (hv : Usable v) : 0 ≤ toneprobe p v := by
  have hts := hv.ts_nonneg
  have hone : p + (k : ℝ) * (1 - p) = 1 := by simp [k]
  have hone' : p + (k : ℝ) ^ 2 * (1 - p) = 1 := by simp [k]
  rw [toneprobe, hone, hone']
  norm_num [tpr, ton, scale, trandmax]
  linarith

/-- The listening for a probe that does not come, outside of the duty cycle. -/
theorem listen_nonneg (hv : Usable v) : 0 ≤ (scale * v.tl - 2 * tturn) * (1 - don v) := by
  have htl := hv.one_le_tl
  refine mul_nonneg ?_ (compl_mem (don_mem hv)).1
  norm_num [scale, tturn]
  linarith

/-- Bounds with and without a probe bound the time in receive mode. -/
theorem mix_le_ttxprx (hp : p ∈ unitInterval) {a b : ℝ}
    (ha : a ≤ toneprobe p v * (1 - don v) + 4 * tturn)
    (hb : b ≤ (scale * v.tl - 2 * tturn) * (1 - don v) + 2 * tturn) :
    p * a + (1 - p) * b ≤ ttxprx v p := by
  have hp2 := pow_mem hp 2
  have hack : (0 : ℝ) ≤ p ^ 2 * tdack := mul_nonneg hp2.1 (by norm_num [tdack])
  have hlost : (0 : ℝ) ≤ (1 - p ^ 2) * tdacktimeout :=
    mul_nonneg (compl_mem hp2).1 (by norm_num [tdacktimeout])
  rw [ttxprx, poneprobe_eq]
  exact add_le_add (mul_le_mul_of_nonneg_left (by linarith) hp.1)
    (mul_le_mul_of_nonneg_left hb (compl_mem hp).1)

/-- Two turnarounds bound the time in receive mode. -/
theorem ttxprx_ge (hv : Usable v) (hp : p ∈ unitInterval) : 2 * tturn ≤ ttxprx v p := by
  have hprobe := mul_nonneg (toneprobe_nonneg (p := p) hv) (compl_mem (don_mem hv)).1
  have hlisten := listen_nonneg hv
  have hturn : (0 : ℝ) ≤ tturn := by norm_num [tturn]
  have hmix := mix_le_ttxprx (v := v) hp (a := 2 * tturn) (b := 2 * tturn) (by linarith)
    (by linarith)
  linarith

/-- A reliability is a probability. -/
theorem perHopReliability_mem {size : Nat} {node : Node size} (hv : Usable v)
    (hp : (node.prr : ℝ) ∈ unitInterval) : perHopReliability node v ∈ unitInterval := by
  have hfail : 1 - poneprobe node.prr * (node.prr : ℝ) ∈ unitInterval := by
    rw [poneprobe_eq]
    exact compl_mem (unitInterval.mul_mem hp hp)
  have hn : 0 ≤ v.n + 1 := by have := hv.2.2; omega
  rw [perHopReliability]
  split
  · exact unitInterval.one_mem
  · exact compl_mem (zpow_mem hfail hn)

end Link

/-! ### Node lifetime -/

section Power

variable {t : Topology} {fout : Fin t.size → ℝ} {i j : Fin t.size}

/-- The share of the total power that does not depend on packets. -/
noncomputable def idlePower (v : MacConfiguration) : ℝ :=
  ps + fdc v * (ton * (prx - ps) - tpr * (prx - ptx))

/-- The share of one reception. -/
noncomputable def receptionPower (v : MacConfiguration) (prout : ℝ) : ℝ :=
  ttxprx v prout * (prx - ps) - tdack * (prx - ptx)

/-- The share of one transmission. -/
noncomputable def transmissionPower (prout : ℝ) : ℝ := ttxptx prout * (ptx - ps)

/-- The total power, by the rates of packets. -/
theorem ptotal_eq (hv : Usable v) : ptotal t fout i v = idlePower v +
    frx t fout i v * receptionPower v (t.node i).prr +
    ftx t fout i v * transmissionPower (t.node i).prr := by
  have hfdc := (fdc_pos hv).ne'
  rw [ptotal, didle, dtx, drx, trxdcrx, trxdctx, idlePower, receptionPower,
    transmissionPower]
  field_simp
  ring

/-- Without packets the node draws some power: a probe saves less than the listening around it
takes. -/
theorem idlePower_pos (hv : Usable v) : 0 < idlePower v := by
  have hps := ps_pos
  have hon : (0 : ℝ) ≤ ton * (prx - ps) - tpr * (prx - ptx) := by
    norm_num [ton, tpr, prx, ptx, ps, u, irx, itx, iidle]
  exact add_pos_of_pos_of_nonneg hps (mul_nonneg (fdc_pos hv).le hon)

/-- The listening of a reception takes more power than its acknowledgment saves. -/
theorem reception_nonneg (hv : Usable v) {p : ℝ} (hp : p ∈ unitInterval) :
    0 ≤ receptionPower v p := by
  have hprx := prx_sub_ps_pos.le
  have hlisten := mul_le_mul_of_nonneg_right (ttxprx_ge hv hp) hprx
  have hack : (tdack * (prx - ptx) : ℝ) ≤ 2 * tturn * (prx - ps) := by
    norm_num [tdack, tturn, prx, ptx, ps, u, irx, itx, iidle]
  rw [receptionPower]
  linarith

/-- A transmission draws at least what the idle mode draws. -/
theorem transmission_nonneg {p : ℝ} (hp : p ∈ unitInterval) : 0 ≤ transmissionPower p := by
  rw [transmissionPower, ttxptx, poneprobe_eq]
  exact mul_nonneg (mul_nonneg hp.1 (by norm_num [tdata]))
    ptx_sub_ps_pos.le

/-- The lifetime of a node that is not the sink. -/
theorem nodeLifetime_eq (h : (t.node i).isSink = false) :
    nodeLifetime t fout i v = ((q * u / ptotal t fout i v : ℝ) : EReal) :=
  if_neg (by simp [h])

/-- A leaf receives nothing. -/
theorem frx_of_isLeaf (hi : t.IsLeaf i) : frx t fout i v = 0 := by
  simp [frx, hi.1]

section Nonneg

variable (ht : t.Consistent) (hv : Usable v) (hfout : ∀ c, 0 ≤ fout c)

include ht hv hfout

/-- The rate of receptions, a sum over the children. -/
theorem frx_nonneg : 0 ≤ frx t fout i v := by
  apply List.sum_nonneg
  intro x hx
  obtain ⟨c, _, rfl⟩ := List.mem_map.mp hx
  have hp := prr_mem ht c
  have hnrtx := nrtx_nonneg hv hp
  rw [poneprobe_eq]
  exact mul_nonneg (mul_nonneg (mul_nonneg (by linarith) (hfout c)) hp.1) hp.1

/-- The rate of transmissions. -/
theorem ftx_nonneg : 0 ≤ ftx t fout i v := by
  have hnrtx := nrtx_nonneg hv (prr_mem ht i)
  exact mul_nonneg (by linarith) (hfout i)

/-- A node draws power, so its lifetime is a quotient with a value. -/
theorem ptotal_pos : 0 < ptotal t fout i v := by
  have hp := prr_mem ht i
  have hidle := idlePower_pos hv
  have hreceived := mul_nonneg (frx_nonneg (i := i) ht hv hfout) (reception_nonneg hv hp)
  have hsent := mul_nonneg (ftx_nonneg (i := i) ht hv hfout) (transmission_nonneg hp)
  rw [ptotal_eq hv]
  linarith

/-- A node with the same PRR as a leaf, and at least its rate, lives at most as long. -/
theorem nodeLifetime_le (hi : t.IsLeaf i) (hj : (t.node j).isSink = false)
    (hprr : (t.node j).prr = (t.node i).prr) (hrate : fout i ≤ fout j) :
    nodeLifetime t fout j v ≤ nodeLifetime t fout i v := by
  have hp := prr_mem ht i
  have hftx : ftx t fout i v ≤ ftx t fout j v := by
    have hnrtx := nrtx_nonneg hv hp
    rw [ftx, ftx, hprr]
    exact mul_le_mul_of_nonneg_left hrate (by linarith)
  have hpower : ptotal t fout i v ≤ ptotal t fout j v := by
    have hsent := mul_le_mul_of_nonneg_right hftx (transmission_nonneg hp)
    have hreceived := mul_nonneg (frx_nonneg (i := j) ht hv hfout) (reception_nonneg hv hp)
    rw [ptotal_eq hv, ptotal_eq hv, hprr, frx_of_isLeaf hi]
    linarith
  have hpos : 0 < ptotal t fout i v := ptotal_pos ht hv hfout
  have hqu : (0 : ℝ) ≤ q * u := by norm_num [q, u]
  rw [nodeLifetime_eq hi.2, nodeLifetime_eq hj]
  exact EReal.coe_le_coe_iff.mpr (div_le_div_of_nonneg_left hqu hpos hpower)

end Nonneg

end Power

/-! ### The search -/

/-- The domains are finite. -/
theorem finite_domain : {v | createVariables v = true}.Finite := by
  have hbox : (Set.Icc ((0 : ℤ), (0 : ℤ)) (ubTs, (10 : ℤ))).Finite := Set.finite_Icc _ _
  apply (hbox.image fun x => (⟨fixed + x.1, x.1, x.2⟩ : MacConfiguration)).subset
  intro v hv
  simp only [Set.mem_ofPred_eq, createVariables, Bool.and_eq_true, decide_eq_true_eq,
    beq_iff_eq] at hv
  obtain ⟨⟨⟨⟨hts0, hts1⟩, htl⟩, hn0⟩, hn1⟩ := hv
  refine ⟨(v.ts, v.n), ⟨⟨hts0, hn0⟩, ⟨hts1, hn1⟩⟩, ?_⟩
  show (⟨fixed + v.ts, v.ts, v.n⟩ : MacConfiguration) = v
  rw [← htl]

end PTunes.Optimizer.Lpp
