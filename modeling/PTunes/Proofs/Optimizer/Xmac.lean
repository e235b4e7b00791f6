import PTunes.Lib.Probability
import PTunes.Optimizer.Consistent
import PTunes.Proofs.Optimizer.Rates

/-!
# `PTunes.Proofs.Optimizer.Xmac`: bounds on the metrics of X-MAC

The metrics are bounded on every configuration with `Usable`, a weaker condition than the
domains of `createVariables`. The probabilities are between 0 and 1, the numbers of
retransmissions and the times are not negative, and the time for one transmission is at
least half of a period (`ttx_ge`).

The total power is an increasing function of two fractions, the time in receive mode for
packets (`drxc`) and the time in transmit mode (`dtx`). So a node that spends more time on
both lives shorter (`nodeLifetime_le`).
-/

set_option autoImplicit false

namespace PTunes.Optimizer.Xmac

open PTunes.Controller PTunes.Probability

/-- The parameters in the domains. -/
theorem usable_of_createVariables {v : MacConfiguration} (h : createVariables v = true) :
    Usable v := by
  have hlb : lbTs = 20 := by decide +kernel
  have hlb' : lbTl = 6 := by decide +kernel
  simp only [createVariables, Bool.and_eq_true, decide_eq_true_eq, hlb, hlb'] at h
  exact ⟨by omega, by omega, by omega⟩

/-- The lower bound of Ts. -/
theorem le_ts {v : MacConfiguration} (h : createVariables v = true) : 20 ≤ v.ts := by
  have hlb : lbTs = 20 := by decide +kernel
  simp only [createVariables, Bool.and_eq_true, decide_eq_true_eq, hlb] at h
  omega

variable {v : MacConfiguration}

/-! ### Probabilities -/

section Link

variable {p : ℝ}

/-- Some strobes are sent. -/
theorem k_pos (hv : Usable v) : 0 < k v := by
  have htl := hv.one_le_tl
  have hnum : (0 : ℝ) < scale * v.tl - tstr := by
    norm_num [scale, tstr]
    linarith
  exact div_pos hnum (by norm_num [titer, tturn, tstr, tsl])

/-- The probability that a strobe is received. -/
theorem ponestrobe_mem (hv : Usable v) (hp : p ∈ unitInterval) :
    ponestrobe p v ∈ unitInterval :=
  compl_mem (rpow_mem (compl_mem hp) (k_pos hv).le)

/-- On a link that delivers something, a strobe may be received. -/
theorem ponestrobe_pos (hv : Usable v) (hp : p ∈ unitInterval) (h0 : 0 < p) :
    0 < ponestrobe p v := by
  have hlt : (1 - p) ^ k v < 1 := Real.rpow_lt_one (compl_mem hp).1 (by linarith) (k_pos hv)
  rw [ponestrobe]
  linarith

/-- Over a link that delivers some packets, not every transmission fails, and the quotients of
`perHopLatency` have values. -/
theorem latencyDefined_of_pos {size : Nat} {node : Node size} (hv : Usable v)
    (hp : (node.prr : ℝ) ∈ unitInterval) (h0 : (0 : ℝ) < node.prr) : LatencyDefined node v := by
  intro _
  have hsuccess := unitInterval.mul_mem (ponestrobe_mem hv hp) (pow_mem hp 2)
  have hpos : 0 < ponestrobe node.prr v * (node.prr : ℝ) ^ 2 :=
    mul_pos (ponestrobe_pos hv hp h0) (pow_pos h0 2)
  have hnonneg : 0 ≤ pf node.prr v := (compl_mem hsuccess).1
  have hlt : pf node.prr v < 1 := by
    rw [pf]
    linarith
  obtain ⟨n, hn⟩ := Int.eq_ofNat_of_zero_le hv.2.2
  have hpow : pf node.prr v ^ (v.n + 1) = pf node.prr v ^ (n + 1) := by
    rw [hn, ← zpow_natCast, Nat.cast_add, Nat.cast_one]
  exact ⟨hlt.ne, hpow ▸ (pow_lt_one₀ hnonneg hlt n.succ_ne_zero).ne⟩

/-- The probability that a strobe is acknowledged. -/
theorem psack_mem (hv : Usable v) (hp : p ∈ unitInterval) : psack p v ∈ unitInterval :=
  unitInterval.mul_mem (ponestrobe_mem hv hp) hp

/-- The number of retransmissions. -/
theorem nrtx_nonneg (hv : Usable v) (hp : p ∈ unitInterval) : 0 ≤ nrtx p v :=
  retries_nonneg (compl_mem (unitInterval.mul_mem (ponestrobe_mem hv hp) (pow_mem hp 3)))
    hv.2.2

/-- Half of a period. -/
theorem niter_mul_titer (v : MacConfiguration) :
    niter v * titer = scale * (v.tl + v.ts) / 2 := by
  have htiter : (titer : ℝ) ≠ 0 := by norm_num [titer, tturn, tstr, tsl]
  rw [niter]
  field_simp

/-- One transmission takes at least half of a period. -/
theorem ttx_ge (hv : Usable v) (hp : p ∈ unitInterval) :
    scale * (v.tl + v.ts) / 2 ≤ ttx v p := by
  have htl := hv.one_le_tl
  have hts := hv.ts_nonneg
  have hp2 := pow_mem hp 2
  have hback : (0 : ℝ) ≤ tbackoff v := by
    norm_num [tbackoff, scale]
    linarith
  have hacked : (0 : ℝ) ≤ tack * p ^ 2 := mul_nonneg (by norm_num [tack]) hp2.1
  have hlost : 0 ≤ (twait + tbackoff v) * (1 - p ^ 2) :=
    mul_nonneg (add_nonneg (by norm_num [twait]) hback) (compl_mem hp2).1
  have hconst : (0 : ℝ) ≤ 2 * tturn + tdata := by norm_num [tturn, tdata]
  -- The mean of the times of an acknowledged and of another transmission.
  apply le_mix (psack_mem hv hp)
  · rw [niter_mul_titer]
    linarith
  · have hmax : scale * (v.tl + v.ts) / 2 ≤ tmax v := by
      norm_num [tmax, scale]
      linarith
    linarith

end Link

/-- The queuing rate of a node that is not the sink. -/
theorem queuingRate_eq {t : Topology} {fout : Fin t.size → ℝ} {i : Fin t.size}
    (h : (t.node i).isSink = false) : queuingRate t fout i v =
      ((fout i - 1 / ((nrtx (t.node i).prr v + 1) * ttx v (t.node i).prr) : ℝ) : EReal) :=
  if_neg (by simp [h])

/-! ### Node lifetime -/

section Times

variable {p : ℝ}

/-- The rate of receptions from a child. -/
theorem frxi_nonneg (hv : Usable v) (hp : p ∈ unitInterval) {fin : ℝ} (hf : 0 ≤ fin) :
    0 ≤ frxi fin p v := by
  have hnrtx := nrtx_nonneg hv hp
  exact mul_nonneg (mul_nonneg (by linarith) hf) (ponestrobe_mem hv hp).1

/-- A packet that is received was sent. -/
theorem frxi_le (hv : Usable v) (hp : p ∈ unitInterval) {fin : ℝ} (hf : 0 ≤ fin) :
    frxi fin p v ≤ (nrtx p v + 1) * fin := by
  have hnrtx := nrtx_nonneg hv hp
  exact mul_le_of_le_one_right (mul_nonneg (by linarith) hf) (ponestrobe_mem hv hp).2

/-- The time in receive mode for one reception. -/
theorem trxri_nonneg (hp : p ∈ unitInterval) : 0 ≤ trxri p := by
  have hp2 := pow_mem hp 2
  have hdata : (0 : ℝ) ≤ (tturn + tdata) * p ^ 2 :=
    mul_nonneg (by norm_num [tturn, tdata]) hp2.1
  have hwait : (0 : ℝ) ≤ ttimeout * (1 - p ^ 2) :=
    mul_nonneg (by norm_num [ttimeout]) (compl_mem hp2).1
  have hconst : (0 : ℝ) ≤ 2 * tturn := by norm_num [tturn]
  rw [trxri]
  linarith

/-- The time in transmit mode for one reception. -/
theorem trxti_nonneg (hp : p ∈ unitInterval) : 0 ≤ trxti p := by
  have hack : (0 : ℝ) ≤ tack := by norm_num [tack]
  exact add_nonneg hack (mul_nonneg hack (pow_mem hp 2).1)

/-- The listening after the strobes of half a period bounds the time in receive mode. -/
theorem ttxr_ge (hv : Usable v) (hp : p ∈ unitInterval) :
    niter v * (2 * tturn + tsl) ≤ ttxr v p := by
  have htl := hv.one_le_tl
  have hts := hv.ts_nonneg
  have hp2 := pow_mem hp 2
  have hacked : (0 : ℝ) ≤ tack * p ^ 2 := mul_nonneg (by norm_num [tack]) hp2.1
  have hlost : (0 : ℝ) ≤ twait * (1 - p ^ 2) :=
    mul_nonneg (by norm_num [twait]) (compl_mem hp2).1
  have hturn : (0 : ℝ) ≤ 2 * tturn := by norm_num [tturn]
  apply le_mix (psack_mem hv hp)
  · linarith
  · norm_num [niter, tmax, titer, tturn, tstr, tsl, scale]
    linarith

/-- The strobes of half a period bound the time in transmit mode. -/
theorem ttxt_ge (hv : Usable v) (hp : p ∈ unitInterval) : niter v * tstr ≤ ttxt v p := by
  have htl := hv.one_le_tl
  have hts := hv.ts_nonneg
  have hdata : (0 : ℝ) ≤ tdata := by norm_num [tdata]
  apply le_mix (psack_mem hv hp)
  · linarith
  · norm_num [niter, tmax, titer, tturn, tstr, tsl, scale]
    linarith

/-- Half a period has some strobes. -/
theorem niter_nonneg (hv : Usable v) : 0 ≤ niter v := by
  have htl := hv.one_le_tl
  have hts := hv.ts_nonneg
  norm_num [niter, titer, tturn, tstr, tsl, scale]
  linarith

/-- The time in receive mode for one transmission. -/
theorem ttxr_nonneg (hv : Usable v) (hp : p ∈ unitInterval) : 0 ≤ ttxr v p :=
  (mul_nonneg (niter_nonneg hv) (by norm_num [tturn, tsl])).trans (ttxr_ge hv hp)

/-- The time in transmit mode for one transmission. -/
theorem ttxt_nonneg (hv : Usable v) (hp : p ∈ unitInterval) : 0 ≤ ttxt v p :=
  (mul_nonneg (niter_nonneg hv) (by norm_num [tstr])).trans (ttxt_ge hv hp)

/-- A reliability is a probability. -/
theorem perHopReliability_mem {size : Nat} {node : Node size} (hv : Usable v)
    (hp : (node.prr : ℝ) ∈ unitInterval) : perHopReliability node v ∈ unitInterval := by
  have hfail : 1 - ponestrobe node.prr v * (node.prr : ℝ) ^ 2 ∈ unitInterval :=
    compl_mem (unitInterval.mul_mem (ponestrobe_mem hv hp) (pow_mem hp 2))
  have hn : 0 ≤ v.n + 1 := by have := hv.2.2; omega
  rw [perHopReliability]
  split
  · exact unitInterval.one_mem
  · exact compl_mem (zpow_mem hfail hn)

end Times

section Power

variable {t : Topology} {fout : Fin t.size → ℝ} {i j : Fin t.size}

/-- The total power, by the fractions of time that packets need. -/
theorem ptotal_eq : ptotal t fout i v = ps + dtx t fout i v * (ptx - ps) +
    (drxc t fout i v * (1 - v.tl / (v.tl + v.ts)) + v.tl / (v.tl + v.ts)) * (prx - ps) := by
  rw [ptotal, didle, drx]
  ring

/-- The fraction of time that the radio is on without packets. -/
theorem duty_mem (hv : Usable v) : (v.tl / (v.tl + v.ts) : ℝ) ∈ unitInterval := by
  have htl := hv.one_le_tl
  have hts := hv.ts_nonneg
  exact unitInterval.div_mem (by linarith) (by linarith) (by linarith)

/-- A node draws power, so its lifetime is a quotient with a value. -/
theorem ptotal_pos (hv : Usable v) (hdrxc : 0 ≤ drxc t fout i v) (hdtx : 0 ≤ dtx t fout i v) :
    0 < ptotal t fout i v := by
  have hduty := duty_mem hv
  have hps := ps_pos
  have htx : 0 ≤ dtx t fout i v * (ptx - ps) :=
    mul_nonneg hdtx ptx_sub_ps_pos.le
  have hrx : 0 ≤ (drxc t fout i v * (1 - v.tl / (v.tl + v.ts)) + v.tl / (v.tl + v.ts)) *
      (prx - ps) :=
    mul_nonneg (add_nonneg (mul_nonneg hdrxc (compl_mem hduty).1) hduty.1)
      prx_sub_ps_pos.le
  rw [ptotal_eq]
  linarith

/-- More time on packets takes more power. -/
theorem ptotal_le (hv : Usable v) (hdrxc : drxc t fout i v ≤ drxc t fout j v)
    (hdtx : dtx t fout i v ≤ dtx t fout j v) : ptotal t fout i v ≤ ptotal t fout j v := by
  have hduty := (compl_mem (duty_mem hv)).1
  have htx := ptx_sub_ps_pos.le
  have hrx := prx_sub_ps_pos.le
  rw [ptotal_eq, ptotal_eq]
  gcongr

/-- More time in transmit mode takes strictly more power. -/
theorem ptotal_lt (hv : Usable v) (hdrxc : drxc t fout i v ≤ drxc t fout j v)
    (hdtx : dtx t fout i v < dtx t fout j v) : ptotal t fout i v < ptotal t fout j v := by
  have hduty := (compl_mem (duty_mem hv)).1
  have htx := ptx_sub_ps_pos
  have hrx := prx_sub_ps_pos.le
  have hless := mul_lt_mul_of_pos_right hdtx htx
  have hmore := mul_le_mul_of_nonneg_right (mul_le_mul_of_nonneg_right hdrxc hduty) hrx
  rw [ptotal_eq, ptotal_eq]
  linarith

/-- A node that is busier than another one lives shorter. -/
theorem div_ptotal_lt (hv : Usable v) (hdrxc : drxc t fout i v ≤ drxc t fout j v)
    (hdtx : dtx t fout i v < dtx t fout j v) (hpos : 0 < ptotal t fout i v) :
    (q * u / ptotal t fout j v : ℝ) < q * u / ptotal t fout i v :=
  div_lt_div_of_pos_left (by norm_num [q, u]) hpos (ptotal_lt hv hdrxc hdtx)

/-- The lifetime of a node that is not the sink. -/
theorem nodeLifetime_eq (h : (t.node i).isSink = false) :
    nodeLifetime t fout i v = ((q * u / ptotal t fout i v : ℝ) : EReal) :=
  if_neg (by simp [h])

/-- A leaf receives nothing. -/
theorem drxc1_of_isLeaf (hi : t.IsLeaf i) : drxc1 t fout i v = 0 := by
  simp [drxc1, hi.1]

/-- A leaf acknowledges nothing. -/
theorem dtx1_of_isLeaf (hi : t.IsLeaf i) : dtx1 t fout i v = 0 := by
  simp [dtx1, hi.1]

section Nonneg

variable (ht : t.Consistent) (hv : Usable v) (hfout : ∀ c, 0 ≤ fout c)

include ht hv hfout

/-- The receptions from the children take no negative time in receive mode. -/
theorem drxc1_nonneg : 0 ≤ drxc1 t fout i v := by
  apply List.sum_nonneg
  intro x hx
  obtain ⟨c, _, rfl⟩ := List.mem_map.mp hx
  exact mul_nonneg (frxi_nonneg hv (prr_mem ht c) (hfout c)) (trxri_nonneg (prr_mem ht c))

/-- Nor do they in transmit mode. -/
theorem dtx1_nonneg : 0 ≤ dtx1 t fout i v := by
  apply List.sum_nonneg
  intro x hx
  obtain ⟨c, _, rfl⟩ := List.mem_map.mp hx
  exact mul_nonneg (frxi_nonneg hv (prr_mem ht c) (hfout c)) (trxti_nonneg (prr_mem ht c))

/-- The rate of transmissions. -/
theorem ftx_nonneg : 0 ≤ ftx t fout i v := by
  have hnrtx := nrtx_nonneg hv (prr_mem ht i)
  exact mul_nonneg (by linarith) (hfout i)

/-- The time in receive mode for packets, of the receptions and of the transmissions. -/
theorem drxc_nonneg : 0 ≤ drxc t fout i v :=
  add_nonneg (drxc1_nonneg ht hv hfout)
    (mul_nonneg (ftx_nonneg ht hv hfout) (ttxr_nonneg hv (prr_mem ht i)))

/-- The time in transmit mode, of the receptions and of the transmissions. -/
theorem dtx_nonneg : 0 ≤ dtx t fout i v :=
  add_nonneg (dtx1_nonneg ht hv hfout)
    (mul_nonneg (ftx_nonneg ht hv hfout) (ttxt_nonneg hv (prr_mem ht i)))

/-- A node with the same PRR as a leaf, and at least its rate, lives at most as long. -/
theorem nodeLifetime_le (hi : t.IsLeaf i) (hj : (t.node j).isSink = false)
    (hprr : (t.node j).prr = (t.node i).prr) (hrate : fout i ≤ fout j) :
    nodeLifetime t fout j v ≤ nodeLifetime t fout i v := by
  have hp := prr_mem ht i
  have hftx : ftx t fout i v ≤ ftx t fout j v := by
    have hnrtx := nrtx_nonneg hv hp
    rw [ftx, ftx, hprr]
    exact mul_le_mul_of_nonneg_left hrate (by linarith)
  have hdrxc : drxc t fout i v ≤ drxc t fout j v := by
    have hsent := mul_le_mul_of_nonneg_right hftx (ttxr_nonneg hv hp)
    have hreceived := drxc1_nonneg (i := j) ht hv hfout
    rw [drxc, drxc, hprr, drxc1_of_isLeaf hi]
    linarith
  have hdtx : dtx t fout i v ≤ dtx t fout j v := by
    have hsent := mul_le_mul_of_nonneg_right hftx (ttxt_nonneg hv hp)
    have hreceived := dtx1_nonneg (i := j) ht hv hfout
    rw [dtx, dtx, hprr, dtx1_of_isLeaf hi]
    linarith
  have hpos := ptotal_pos hv (drxc_nonneg (i := i) ht hv hfout) (dtx_nonneg ht hv hfout)
  have hqu : (0 : ℝ) ≤ q * u := by norm_num [q, u]
  rw [nodeLifetime_eq hi.2, nodeLifetime_eq hj]
  exact EReal.coe_le_coe_iff.mpr
    (div_le_div_of_nonneg_left hqu hpos (ptotal_le hv hdrxc hdtx))

end Nonneg

end Power

/-! ### The search -/

/-- The domains are finite. -/
theorem finite_domain : {v | createVariables v = true}.Finite := by
  have hbox : (Set.Icc ((lbTl, lbTs), (0 : ℤ)) ((ubTl, ubTs), (10 : ℤ))).Finite :=
    Set.finite_Icc _ _
  apply (hbox.image fun x => (⟨x.1.1, x.1.2, x.2⟩ : MacConfiguration)).subset
  intro v hv
  simp only [Set.mem_ofPred_eq, createVariables, Bool.and_eq_true, decide_eq_true_eq] at hv
  refine ⟨((v.tl, v.ts), v.n), ?_, rfl⟩
  simp only [Set.mem_Icc, Prod.mk_le_mk]
  omega

end PTunes.Optimizer.Xmac
