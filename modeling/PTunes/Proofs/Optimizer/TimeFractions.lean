import PTunes.Proofs.Optimizer.AttemptCosts

/-!
# `PTunes.Proofs.Optimizer.TimeFractions`: when the time fractions are fractions

The fractions of `nodeLifetime` make up 1, and those in transmit and receive mode are not negative,
so the power is at least the idle power. The queuing constraint bounds the attempts of a node: they
take at most the whole time.

The fraction in idle mode can be negative nevertheless. The models add the duty cycle, and the
receptions from the children, to the attempts, and no constraint bounds the sum
(`not_forall_fractions`). It is not negative when this sum, the `load` of the node, is at most 1.
-/

set_option autoImplicit false

namespace PTunes.Optimizer

open PTunes.Controller PTunes.Probability

namespace MacProtocol

/-- The time that a node needs for its receptions and attempts. With X-MAC the transmissions do not
stand in for the duty cycle, so they take their share of the time that it leaves. With LPP the
listening of a sender counts with the larger one of the frequencies of attempts and receptions. -/
noncomputable def load (t : Topology) (fout : Fin t.size → ℝ) (i : Fin t.size)
    (v : MacConfiguration) : MacProtocol → ℝ
  | .xmac =>
    ((t.node i).children.map fun c => Xmac.frxi (fout c) (t.node c).prr v *
        (Xmac.trxri (t.node c).prr + Xmac.trxti (t.node c).prr * ((v.tl + v.ts) / v.ts))).sum +
      Xmac.ftx t fout i v *
        (Xmac.ttxr v (t.node i).prr + Xmac.ttxt v (t.node i).prr * ((v.tl + v.ts) / v.ts))
  | .lpp =>
    Lpp.don v + Lpp.ftx t fout i v * Lpp.ttxptx (t.node i).prr +
      max (Lpp.ftx t fout i v) (Lpp.frx t fout i v) * Lpp.ttxprx v (t.node i).prr

/-- What the time fractions of a node mean. -/
structure Fractions (m : MacProtocol) (t : Topology) (fout : Fin t.size → ℝ) (i : Fin t.size)
    (v : MacConfiguration) : Prop where
  sum : m.dtx t fout i v + m.drx t fout i v + m.didle t fout i v = 1
  dtx_nonneg : 0 ≤ m.dtx t fout i v
  drx_nonneg : 0 ≤ m.drx t fout i v
  /-- The attempts of the node take at most the whole time. -/
  attempts : m.ftx t fout i v *
    (m.attemptTx v (t.node i).prr + m.attemptRx v (t.node i).prr) ≤ 1
  /-- The power is at least the idle power. -/
  ps_le : ps ≤ m.ptotal t fout i v
  lifetime_pos : 0 < m.model.nodeLifetime t fout i v
  lifetime_lt_top : m.model.nodeLifetime t fout i v < ⊤
  /-- With a load of at most 1 the fraction in idle mode is not negative, and the power is at most
  the maximum of the radio. -/
  idle : m.load t fout i v ≤ 1 → 0 ≤ m.didle t fout i v ∧ m.ptotal t fout i v ≤ prx
  /-- With X-MAC only then. -/
  load_le : m = .xmac → 0 ≤ m.didle t fout i v → m.load t fout i v ≤ 1

end MacProtocol

variable {m : MacProtocol} {t : Topology} {fout : Fin t.size → ℝ} {i : Fin t.size}
  {v : MacConfiguration} {p : ℝ}

/-- The queuing constraint: what is sent in the time that it takes is at most one packet. -/
theorem rate_mul_le {rate tries time : ℝ} (htries : 0 ≤ tries) (htime : 0 < time)
    (h : ((rate - 1 / ((tries + 1) * time) : ℝ) : EReal) ≤ 0) : (tries + 1) * rate * time ≤ 1 := by
  have hpos : 0 < (tries + 1) * time := mul_pos (by linarith) htime
  have hle : rate ≤ 1 / ((tries + 1) * time) :=
    sub_nonpos.mp (EReal.coe_le_coe_iff.mp (h.trans_eq EReal.coe_zero.symm))
  have hmul := (le_div_iff₀ hpos).mp hle
  linarith

/-! ### X-MAC -/

namespace Xmac

/-- The time in both modes for one attempt is at most the time for one transmission. -/
theorem attempt_le (hv : Usable v) (hp : p ∈ unitInterval) : ttxt v p + ttxr v p ≤ ttx v p := by
  have htl := hv.one_le_tl
  have hts := hv.ts_nonneg
  have hack := psack_mem hv hp
  have hback : (0 : ℝ) ≤ tbackoff v := by
    norm_num [tbackoff, scale]
    linarith
  have hstrobes : niter v * (tstr + (2 * tturn + tsl)) = niter v * titer := by
    norm_num [titer, tturn, tstr, tsl]
  have hlisten : tmax v / titer * (tstr + (2 * tturn + tsl)) = tmax v := by
    norm_num [titer, tturn, tstr, tsl]
  have hlost := mul_nonneg (mul_nonneg hback (compl_mem (pow_mem hp 2)).1) hack.1
  have hmissed := mul_nonneg hback (compl_mem hack).1
  calc ttxt v p + ttxr v p
      = (niter v * (tstr + (2 * tturn + tsl)) + 2 * tturn + tdata + tack * p ^ 2 +
            twait * (1 - p ^ 2)) * psack p v +
          tmax v / titer * (tstr + (2 * tturn + tsl)) * (1 - psack p v) := by
        rw [ttxt, ttxr]
        ring
    _ = (niter v * titer + 2 * tturn + tdata + tack * p ^ 2 + twait * (1 - p ^ 2)) * psack p v +
          tmax v * (1 - psack p v) := by rw [hstrobes, hlisten]
    _ ≤ ttx v p := by
        rw [ttx]
        linarith

/-- A transmission of X-MAC takes some time, since half a period does. -/
theorem ttx_pos (hv : Usable v) (hp : p ∈ unitInterval) : 0 < ttx v p := by
  have htl := hv.one_le_tl
  have hts := hv.ts_nonneg
  refine lt_of_lt_of_le ?_ (ttx_ge hv hp)
  norm_num [scale]
  linarith

/-- The attempts take at most the whole time. -/
theorem attempts_le (ht : t.Consistent) (hv : Usable v) (hfout : ∀ c, 0 ≤ fout c)
    (hi : (t.node i).isSink = false) (hq : queuingRate t fout i v ≤ 0) :
    ftx t fout i v * (ttxt v (t.node i).prr + ttxr v (t.node i).prr) ≤ 1 := by
  have hp := prr_mem ht i
  rw [queuingRate_eq hi] at hq
  calc ftx t fout i v * (ttxt v (t.node i).prr + ttxr v (t.node i).prr)
      ≤ ftx t fout i v * ttx v (t.node i).prr :=
        mul_le_mul_of_nonneg_left (attempt_le hv hp) (ftx_nonneg ht hv hfout)
    _ ≤ 1 := rate_mul_le (nrtx_nonneg hv hp) (ttx_pos hv hp) hq

/-- The time in receive mode, with what the packets leave of the duty cycle. -/
theorem drx_eq : drx t fout i v =
    drxc t fout i v * (1 - v.tl / (v.tl + v.ts)) + v.tl / (v.tl + v.ts) := by
  rw [drx]
  ring

/-- The load, by the mode of the radio. -/
theorem load_eq : MacProtocol.xmac.load t fout i v =
    drxc t fout i v + dtx t fout i v * ((v.tl + v.ts) / v.ts) := by
  have hsum : ((t.node i).children.map fun c => frxi (fout c) (t.node c).prr v *
      (trxri (t.node c).prr + trxti (t.node c).prr * ((v.tl + v.ts) / v.ts))).sum =
        drxc1 t fout i v + dtx1 t fout i v * ((v.tl + v.ts) / v.ts) := by
    rw [drxc1, dtx1, ← List.sum_map_mul_right, ← List.sum_map_add]
    refine congrArg List.sum (List.map_congr_left fun c _ => ?_)
    ring
  rw [MacProtocol.load, hsum, drxc, dtx]
  ring

/-- The fraction in idle mode is what the load leaves of the inactive part of the period. -/
theorem didle_eq (hv : Usable v) (hts : 0 < v.ts) : didle t fout i v =
    (1 - MacProtocol.xmac.load t fout i v) * (v.ts / (v.tl + v.ts)) := by
  have hts' : (0 : ℝ) < v.ts := by exact_mod_cast hts
  have htl := hv.one_le_tl
  have hperiod : (v.tl + v.ts : ℝ) ≠ 0 := by linarith
  rw [load_eq, didle, drx_eq]
  field_simp
  ring

/-- There is idle time exactly with a load of at most 1. -/
theorem didle_nonneg_iff (hv : Usable v) (hts : 0 < v.ts) :
    0 ≤ didle t fout i v ↔ MacProtocol.xmac.load t fout i v ≤ 1 := by
  have hts' : (0 : ℝ) < v.ts := by exact_mod_cast hts
  have htl := hv.one_le_tl
  have hshare : (0 : ℝ) < v.ts / (v.tl + v.ts) := div_pos hts' (by linarith)
  rw [didle_eq hv hts, mul_nonneg_iff_of_pos_right hshare, sub_nonneg]

/-- The time for packets and what they leave of the duty cycle are not negative. -/
theorem drx_nonneg (ht : t.Consistent) (hv : Usable v) (hfout : ∀ c, 0 ≤ fout c) :
    0 ≤ drx t fout i v := by
  have hduty := duty_mem hv
  rw [drx_eq]
  exact add_nonneg (mul_nonneg (drxc_nonneg ht hv hfout) (compl_mem hduty).1) hduty.1

end Xmac

/-! ### LPP -/

namespace Lpp

/-- The lower bound of Tl. -/
theorem le_tl {v : MacConfiguration} (h : createVariables v = true) : 16 ≤ v.tl := by
  have hfixed : fixed = 16 := by decide +kernel
  simp only [createVariables, Bool.and_eq_true, decide_eq_true_eq, beq_iff_eq, hfixed] at h
  omega

/-- The time in both modes for one attempt is at most the time for one transmission. -/
theorem attempt_le (hv : Usable v) (hp : p ∈ unitInterval) : ttxptx p + ttxprx v p ≤ ttx v p := by
  have htl := hv.one_le_tl
  have hts := hv.ts_nonneg
  have hdon := (don_mem hv).1
  have hback : (0 : ℝ) ≤ tbackoff v := by
    norm_num [tbackoff, ton, scale]
    linarith
  have hlost := mul_nonneg (mul_nonneg hback (compl_mem (pow_mem hp 2)).1) hp.1
  have hmissed := mul_nonneg hback (compl_mem hp).1
  -- The duty cycle covers a part of the listening.
  have hprobe := mul_nonneg (mul_nonneg (toneprobe_nonneg (p := p) hv) hdon) hp.1
  have hlisten : (0 : ℝ) ≤ (scale * v.tl - 2 * tturn) * don v * (1 - p) := by
    refine mul_nonneg (mul_nonneg ?_ hdon) (compl_mem hp).1
    norm_num [scale, tturn]
    linarith
  rw [ttxptx, ttxprx, ttx, poneprobe_eq]
  linarith

/-- A transmission of LPP takes at least the time of one attempt, in which the radio listens. -/
theorem ttx_pos (hv : Usable v) (hp : p ∈ unitInterval) : 0 < ttx v p := by
  have htx : 0 ≤ ttxptx p := by
    rw [ttxptx, poneprobe_eq]
    exact mul_nonneg hp.1 (by norm_num [tdata])
  have hrx := ttxptx_lt_ttxprx hv hp
  have hle := attempt_le hv hp
  linarith

/-- The attempts take at most the whole time. -/
theorem attempts_le (ht : t.Consistent) (hv : Usable v) (hfout : ∀ c, 0 ≤ fout c)
    (hi : (t.node i).isSink = false) (hq : queuingRate t fout i v ≤ 0) :
    ftx t fout i v * (ttxptx (t.node i).prr + ttxprx v (t.node i).prr) ≤ 1 := by
  have hp := prr_mem ht i
  rw [queuingRate, if_neg (by simp [hi])] at hq
  calc ftx t fout i v * (ttxptx (t.node i).prr + ttxprx v (t.node i).prr)
      ≤ ftx t fout i v * ttx v (t.node i).prr :=
        mul_le_mul_of_nonneg_left (attempt_le hv hp) (ftx_nonneg ht hv hfout)
    _ ≤ 1 := rate_mul_le (nrtx_nonneg hv hp) (ttx_pos hv hp) hq

/-- The time in transmit mode is a sum over the probes, the acknowledgments and the packets. -/
theorem dtx_nonneg (ht : t.Consistent) (hv : Usable v) (hfout : ∀ c, 0 ≤ fout c) :
    0 ≤ dtx t fout i v := by
  have hfdc := fdc_pos hv
  have hack : 0 ≤ tdack * frx t fout i v / fdc v :=
    div_nonneg (mul_nonneg (by norm_num [tdack]) (frx_nonneg ht hv hfout)) hfdc.le
  have hdata : 0 ≤ ttxptx (t.node i).prr := by
    rw [ttxptx, poneprobe_eq]
    exact mul_nonneg (prr_mem ht i).1 (by norm_num [tdata])
  exact add_nonneg (mul_nonneg hfdc.le (add_nonneg (by norm_num [tpr]) hack))
    (mul_nonneg (ftx_nonneg ht hv hfout) hdata)

/-- In the domains, a sender listens longer than a data acknowledgment takes. -/
theorem tdack_le_ttxprx (h : createVariables v = true) (hp : p ∈ unitInterval) :
    tdack ≤ ttxprx v p := by
  have hv := usable_of_createVariables h
  have htl : (16 : ℝ) ≤ v.tl := by exact_mod_cast le_tl h
  have hprobe := tdata_le hv p
  have hshort : (tdack : ℝ) ≤ tdata ∧ (0 : ℝ) ≤ tturn := by norm_num [tdack, tdata, tturn]
  have hlisten : tdack ≤ (scale * v.tl - 2 * tturn) * (1 - don v) := by
    have hlong : (2 * tdack : ℝ) ≤ scale * v.tl - 2 * tturn := by
      norm_num [tdack, scale, tturn]
      linarith
    have hoff : 1 / 2 ≤ 1 - don v := by linarith [don_le hv]
    have hlong0 : (0 : ℝ) ≤ scale * v.tl - 2 * tturn := hlong.trans' (by norm_num [tdack])
    have hmul := mul_le_mul hlong hoff (by norm_num) hlong0
    linarith
  have hmix := mix_le_ttxprx (v := v) hp (a := tdack) (b := tdack) (by linarith) (by linarith)
  linarith

/-- The acknowledgments take less time from the listening than the senders add to it. -/
theorem drx_nonneg (ht : t.Consistent) (h : createVariables v = true) (hfout : ∀ c, 0 ≤ fout c) :
    0 ≤ drx t fout i v := by
  have hv := usable_of_createVariables h
  have hfdc := fdc_pos hv
  have hprobe : 0 ≤ fdc v * (ton - tpr) := mul_nonneg hfdc.le (by norm_num [ton, tpr])
  have hlisten := mul_le_mul_of_nonneg_left (tdack_le_ttxprx h (prr_mem ht i))
    (frx_nonneg (i := i) ht hv hfout)
  have heq : fdc v * trxdcrx t fout i v = fdc v * (ton - tpr) - frx t fout i v * tdack := by
    have hne := hfdc.ne'
    rw [trxdcrx, trxdctx]
    field_simp
    ring
  rw [drx, heq]
  linarith

/-- There is idle time with a load of at most 1. -/
theorem didle_nonneg (hv : Usable v) (hp : ((t.node i).prr : ℝ) ∈ unitInterval)
    (hload : MacProtocol.lpp.load t fout i v ≤ 1) : 0 ≤ didle t fout i v := by
  have hturn : (0 : ℝ) ≤ 2 * tturn := by norm_num [tturn]
  have hmax := mul_le_mul_of_nonneg_right (le_max_right (ftx t fout i v) (frx t fout i v))
    (hturn.trans (ttxprx_ge hv hp))
  have hsum : dtx t fout i v + drx t fout i v = _ := dtx_add_drx
  rw [MacProtocol.load] at hload
  rw [didle]
  linarith

end Lpp

/-! ### Both protocols -/

namespace MacProtocol

/-- The parameters in the domains. -/
theorem usable (h : m.model.createVariables v = true) : Usable v := by
  cases m with
  | xmac => exact Xmac.usable_of_createVariables h
  | lpp => exact Lpp.usable_of_createVariables h

/-- A node sends packets, it does not take them back. -/
theorem fout_nonneg (ht : t.Consistent) (hv : Usable v) (h : PacketsToSend m.model t v fout)
    (c : Fin t.size) : 0 ≤ fout c := by
  refine PTunes.Optimizer.fout_nonneg ht (fun j => ?_) h c
  cases m with
  | xmac => exact (Xmac.perHopReliability_mem hv (prr_mem ht j)).1
  | lpp => exact (Lpp.perHopReliability_mem hv (prr_mem ht j)).1

/-- For both protocols the time in transmit mode is not negative. -/
theorem dtx_nonneg (ht : t.Consistent) (hv : Usable v) (hfout : ∀ c, 0 ≤ fout c) :
    0 ≤ m.dtx t fout i v := by
  cases m with
  | xmac => exact Xmac.dtx_nonneg ht hv hfout
  | lpp => exact Lpp.dtx_nonneg ht hv hfout

/-- Nor is the time in receive mode. LPP needs its domains for it, in which a sender listens longer
than an acknowledgment takes. -/
theorem drx_nonneg (ht : t.Consistent) (h : m.model.createVariables v = true)
    (hfout : ∀ c, 0 ≤ fout c) : 0 ≤ m.drx t fout i v := by
  cases m with
  | xmac => exact Xmac.drx_nonneg ht (usable h) hfout
  | lpp => exact Lpp.drx_nonneg ht h hfout

/-- For both protocols a node whose queue does not grow has the time for its attempts. -/
theorem attempts_le (ht : t.Consistent) (hv : Usable v) (hfout : ∀ c, 0 ≤ fout c)
    (hi : (t.node i).isSink = false) (hq : m.model.queuingRate t fout i v ≤ 0) :
    m.ftx t fout i v * (m.attemptTx v (t.node i).prr + m.attemptRx v (t.node i).prr) ≤ 1 := by
  cases m with
  | xmac => exact Xmac.attempts_le ht hv hfout hi hq
  | lpp => exact Lpp.attempts_le ht hv hfout hi hq

/-- With a load of at most 1 some time is left, or none. -/
theorem didle_nonneg (ht : t.Consistent) (h : m.model.createVariables v = true)
    (hload : m.load t fout i v ≤ 1) : 0 ≤ m.didle t fout i v := by
  cases m with
  | xmac =>
      have hts := Xmac.le_ts h
      exact (Xmac.didle_nonneg_iff (usable h) (by omega)).mpr hload
  | lpp => exact Lpp.didle_nonneg (usable h) (prr_mem ht i) hload

/-- The radio never draws less than in idle mode. -/
theorem ps_le_ptotal (htx : 0 ≤ m.dtx t fout i v) (hrx : 0 ≤ m.drx t fout i v) :
    ps ≤ m.ptotal t fout i v := by
  have hptx := mul_nonneg htx ptx_sub_ps_pos.le
  have hprx := mul_nonneg hrx prx_sub_ps_pos.le
  rw [ptotal_eq, didle_eq]
  linarith

/-- With three fractions it draws at most as much as in receive mode. -/
theorem ptotal_le_prx (htx : 0 ≤ m.dtx t fout i v) (hidle : 0 ≤ m.didle t fout i v) :
    m.ptotal t fout i v ≤ prx := by
  have hptx := mul_nonneg htx (show (0 : ℝ) ≤ prx - ptx by norm_num [prx, ptx, u, irx, itx])
  have hps := mul_nonneg hidle prx_sub_ps_pos.le
  have hrx : m.drx t fout i v = 1 - m.dtx t fout i v - m.didle t fout i v := by
    rw [didle_eq]
    ring
  rw [ptotal_eq, hrx]
  linarith

end MacProtocol

/-- For both protocols, every consistent topology and all parameters in the domains that satisfy
the queuing constraint: the time fractions of each node that is not the sink make up 1, those in
transmit and receive mode are not negative, the attempts take at most the whole time, and the
lifetime is positive and finite. With a load of at most 1 the fraction in idle mode is not negative
either. -/
theorem fractions (ht : t.Consistent) (hv : m.model.createVariables v = true)
    (h : PacketsToSend m.model t v fout) (hq : Queuing m.model t v fout)
    (hi : (t.node i).isSink = false) : m.Fractions t fout i v := by
  have hfout := MacProtocol.fout_nonneg ht (MacProtocol.usable hv) h
  have htx : 0 ≤ m.dtx t fout i v := MacProtocol.dtx_nonneg ht (MacProtocol.usable hv) hfout
  have hrx : 0 ≤ m.drx t fout i v := MacProtocol.drx_nonneg ht hv hfout
  have hps := MacProtocol.ps_le_ptotal htx hrx
  refine ⟨?_, htx, hrx, MacProtocol.attempts_le ht (MacProtocol.usable hv) hfout hi (hq i hi), hps,
    ?_, ?_, fun hload => ?_, ?_⟩
  · rw [MacProtocol.didle_eq]
    ring
  · rw [MacProtocol.nodeLifetime_eq hi]
    have hpos : (0 : ℝ) < m.ptotal t fout i v := hps.trans_lt' ps_pos
    exact EReal.coe_pos.mpr (div_pos (by norm_num [q, u]) hpos)
  · rw [MacProtocol.nodeLifetime_eq hi]
    exact EReal.coe_lt_top _
  · have hidle := MacProtocol.didle_nonneg ht hv hload
    exact ⟨hidle, MacProtocol.ptotal_le_prx htx hidle⟩
  · rintro rfl hidle
    have hts := Xmac.le_ts hv
    exact (Xmac.didle_nonneg_iff (MacProtocol.usable hv) (by omega)).mp hidle

/-! ### A chain -/

/-- The relay of the chain and its child. -/
theorem exists_relay_relayChain : ∃ j c,
    (∀ i, (relayChain.node i).isSink = false → i = j ∨ i = c) ∧
    (relayChain.node j).isSink = false ∧ (relayChain.node j).children = [c] ∧
    relayChain.IsLeaf c ∧ (relayChain.node j).f = 1 / 1000 ∧ (relayChain.node c).f = 1 / 1000 ∧
    ∀ i, (relayChain.node i).prr = 1 / 2 :=
  ⟨⟨1, by decide⟩, ⟨2, by decide⟩, by decide, rfl, rfl, ⟨rfl, rfl⟩, rfl, rfl, by decide +kernel⟩

/-- One transmission over a link of the chain takes less than half a second. -/
theorem Xmac.ttx_half_le : Xmac.ttx ⟨16, 20, 0⟩ (1 / 2) ≤ 1 / 2 := by
  have hp : (1 / 2 : ℝ) ∈ unitInterval := ⟨by norm_num, by norm_num⟩
  have hv : Usable ⟨16, 20, 0⟩ := by decide
  have hlow := (Xmac.psack_mem hv hp).1
  have hhigh := (Xmac.psack_mem hv hp).2
  norm_num [Xmac.ttx, Xmac.niter, Xmac.tmax, Xmac.tbackoff, titer, tturn, tstr, tsl, tdata, tack,
    twait, scale] at hlow ⊢
  linarith

/-- Without retransmissions there is one attempt for each packet. -/
theorem Xmac.ftx_of_n_zero {tl ts : Int} : Xmac.ftx t fout i ⟨tl, ts, 0⟩ = fout i := by
  simp [Xmac.ftx, Xmac.nrtx]

/-- In the chain a node sends at most the packets of both. -/
theorem fout_le_relayChain {fout : Fin relayChain.size → ℝ}
    (h : PacketsToSend .xmac relayChain ⟨16, 20, 0⟩ fout) {i : Fin relayChain.size}
    (hi : (relayChain.node i).isSink = false) : fout i ≤ 1 / 500 := by
  obtain ⟨j, c, hnodes, hsink, hchildren, hc, hfj, hfc, _⟩ := exists_relay_relayChain
  have hv : Usable ⟨16, 20, 0⟩ := by decide
  have hout : fout c = 1 / 1000 := by
    rw [fout_of_isLeaf h hc, hfc]
    norm_num
  have hR := (Xmac.perHopReliability_mem hv (prr_mem consistent_relayChain c)).2
  rcases hnodes i hi with rfl | rfl
  · have hrelay : fout i = Xmac.perHopReliability (relayChain.node c) ⟨16, 20, 0⟩ * (1 / 1000) +
        1 / 1000 := by
      rw [h i, hchildren, hsink, hfj]
      simp [hout]
      rfl
    rw [hrelay]
    linarith
  · rw [hout]
    norm_num

/-- So the queuing constraint holds. -/
theorem queuing_relayChain {fout : Fin relayChain.size → ℝ}
    (h : PacketsToSend .xmac relayChain ⟨16, 20, 0⟩ fout) :
    Queuing .xmac relayChain ⟨16, 20, 0⟩ fout := by
  intro i hi
  obtain ⟨_, _, _, _, _, _, _, _, hprr⟩ := exists_relay_relayChain
  have hv : Usable ⟨16, 20, 0⟩ := by decide
  have hp : ((relayChain.node i).prr : ℝ) = 1 / 2 := by
    rw [hprr i]
    norm_num
  have hpos := Xmac.ttx_pos hv (prr_mem consistent_relayChain i)
  have htime : Xmac.ttx ⟨16, 20, 0⟩ (relayChain.node i).prr ≤ 1 / 2 := by
    rw [hp]
    exact Xmac.ttx_half_le
  have hle := one_div_le_one_div_of_le hpos htime
  have hnrtx : Xmac.nrtx (relayChain.node i).prr ⟨16, 20, 0⟩ = 0 := by simp [Xmac.nrtx]
  have hout := fout_le_relayChain h hi
  show Xmac.queuingRate relayChain fout i ⟨16, 20, 0⟩ ≤ 0
  rw [Xmac.queuingRate_eq hi, hnrtx, ← EReal.coe_zero, EReal.coe_le_coe_iff]
  norm_num at hle hout ⊢
  linarith

/-- The relay of the chain has time left: its load, the receptions included, is at most 1. -/
theorem load_relayChain {fout : Fin relayChain.size → ℝ}
    (h : PacketsToSend .xmac relayChain ⟨16, 20, 0⟩ fout) {j c : Fin relayChain.size}
    (hj : (relayChain.node j).isSink = false) (hchildren : (relayChain.node j).children = [c])
    (hc : (relayChain.node c).isSink = false) (hprr : ∀ i, (relayChain.node i).prr = 1 / 2) :
    MacProtocol.xmac.load relayChain fout j ⟨16, 20, 0⟩ ≤ 1 := by
  have hv : Usable ⟨16, 20, 0⟩ := by decide
  have hp : (1 / 2 : ℝ) ∈ unitInterval := ⟨by norm_num, by norm_num⟩
  have hq : ∀ i, ((relayChain.node i).prr : ℝ) = 1 / 2 := by
    intro i
    rw [hprr i]
    norm_num
  have hnonneg := MacProtocol.fout_nonneg (m := .xmac) consistent_relayChain hv h
  have hoj := fout_le_relayChain h hj
  have hoc := fout_le_relayChain h hc
  -- The receptions.
  have hrec0 := Xmac.frxi_nonneg hv hp (hnonneg c)
  have hrec : Xmac.frxi (fout c) (1 / 2) ⟨16, 20, 0⟩ ≤ 1 / 500 := by
    have hle := Xmac.frxi_le hv hp (hnonneg c)
    simp only [Xmac.nrtx, zpow_zero, sub_self, mul_zero, zero_div, zero_add, one_mul] at hle
    exact hle.trans hoc
  have hmodes : Xmac.trxri (1 / 2) + Xmac.trxti (1 / 2) * (9 / 5) ≤ 1 := by
    norm_num [Xmac.trxri, Xmac.trxti, tturn, tdata, ttimeout, tack]
  have hin : Xmac.frxi (fout c) (1 / 2) ⟨16, 20, 0⟩ *
      (Xmac.trxri (1 / 2) + Xmac.trxti (1 / 2) * (9 / 5)) ≤ 1 / 500 :=
    (mul_le_of_le_one_right hrec0 hmodes).trans hrec
  -- The attempts.
  have hattempt := (Xmac.attempt_le hv hp).trans Xmac.ttx_half_le
  have hrx := Xmac.ttxr_nonneg hv hp
  have hout : fout j * (Xmac.ttxr ⟨16, 20, 0⟩ (1 / 2) + Xmac.ttxt ⟨16, 20, 0⟩ (1 / 2) * (9 / 5)) ≤
      1 / 500 :=
    (mul_le_of_le_one_right (hnonneg j) (by linarith)).trans hoj
  have hshare : (((16 : ℤ) : ℝ) + ((20 : ℤ) : ℝ)) / ((20 : ℤ) : ℝ) = 9 / 5 := by norm_num
  rw [MacProtocol.load, hchildren, Xmac.ftx_of_n_zero]
  simp only [List.map_cons, List.map_nil, List.sum_cons, List.sum_nil, hq, hshare]
  linarith

/-- `fractions` at the relay of the chain, which has idle time. -/
theorem fractions_relayChain : ∃ fout j, relayChain.IsRelay j ∧
    MacProtocol.xmac.Fractions relayChain fout j ⟨16, 20, 0⟩ ∧
    0 ≤ MacProtocol.xmac.didle relayChain fout j ⟨16, 20, 0⟩ := by
  have ht := consistent_relayChain
  obtain ⟨fout, h⟩ := exists_packetsToSend .xmac ht ⟨16, 20, 0⟩
  obtain ⟨j, c, _, hj, hchildren, hc, _, _, hprr⟩ := exists_relay_relayChain
  have hfractions : MacProtocol.xmac.Fractions relayChain fout j ⟨16, 20, 0⟩ :=
    fractions ht (by decide +kernel) h (queuing_relayChain h) hj
  have hrelay : relayChain.IsRelay j := ⟨by simp [hchildren], hj⟩
  have hload := load_relayChain h hj hchildren hc.2 hprr
  exact ⟨fout, j, hrelay, hfractions, (hfractions.idle hload).1⟩

/-! ### A full link -/

/-- A node next to the sink that sends over a good link. -/
def fullLink : Topology where
  size := 2
  node := ![{ id := 1, parent := [], children := [⟨1, Nat.one_lt_two⟩], f := 0, prr := 1 / 2 },
    { id := 2, parent := [⟨0, Nat.zero_lt_two⟩], children := [], f := 46, prr := 999 / 1000 }]
  paths := [[⟨1, Nat.one_lt_two⟩, ⟨0, Nat.zero_lt_two⟩]]

/-- The topology of the sample is one that the controller builds. -/
theorem consistent_fullLink : fullLink.Consistent where
  id_injective := by decide
  parent_length := by decide
  sink_unique := ⟨⟨0, by decide⟩, by decide⟩
  mem_children := by decide
  children_nodup := by decide
  acyclic := ⟨fun i => [0, 1].getD i 0, by decide⟩
  prr_mem := by decide +kernel
  f_nonneg := by decide +kernel
  paths_chain := by decide
  paths_sink := by decide
  paths_head := by decide

/-- Where more than one strobe is sent, an attempt is acknowledged at least with the probability
that a single strobe and its acknowledgment arrive. -/
theorem Xmac.sq_le_psack (hk : 1 ≤ Xmac.k v) (hp : p ∈ unitInterval) : p ^ 2 ≤ Xmac.psack p v := by
  have hlost := rpow_le_rpow (compl_mem hp) zero_le_one hk
  rw [Real.rpow_one] at hlost
  have hstrobe : p ≤ Xmac.ponestrobe p v := by
    rw [Xmac.ponestrobe]
    linarith
  rw [Xmac.psack, pow_two]
  exact mul_le_mul_of_nonneg_right hstrobe hp.1

/-- The times of one attempt over the link. -/
theorem fullLink_times : Xmac.ttx ⟨16, 20, 0⟩ (999 / 1000) ≤ 1 / 46 ∧
    5 / 414 < Xmac.ttxt ⟨16, 20, 0⟩ (999 / 1000) +
      5 / 9 * Xmac.ttxr ⟨16, 20, 0⟩ (999 / 1000) := by
  have hp : (999 / 1000 : ℝ) ∈ unitInterval := ⟨by norm_num, by norm_num⟩
  have hv : Usable ⟨16, 20, 0⟩ := by decide
  have hk : 1 ≤ Xmac.k ⟨16, 20, 0⟩ := by norm_num [Xmac.k, scale, tstr, titer, tturn, tsl]
  have hlow := Xmac.sq_le_psack hk hp
  have hhigh := (Xmac.psack_mem hv hp).2
  constructor
  · norm_num [Xmac.ttx, Xmac.niter, Xmac.tmax, Xmac.tbackoff, titer, tturn, tstr, tsl, tdata, tack,
      twait, scale] at hlow ⊢
    linarith
  · norm_num [Xmac.ttxt, Xmac.ttxr, Xmac.niter, Xmac.tmax, titer, tturn, tstr, tsl, tdata, tack,
      twait, scale] at hlow ⊢
    linarith

/-- The node that sends. -/
theorem exists_sender : ∃ i, fullLink.IsLeaf i ∧ (fullLink.node i).f = 46 ∧
    (fullLink.node i).prr = 999 / 1000 ∧ ∀ j, (fullLink.node j).isSink = false → j = i :=
  ⟨⟨1, by decide⟩, ⟨rfl, rfl⟩, rfl, rfl, by decide⟩

/-- The link is full, but not more than that. -/
theorem queuing_fullLink {fout : Fin fullLink.size → ℝ}
    (h : PacketsToSend .xmac fullLink ⟨16, 20, 0⟩ fout) :
    Queuing .xmac fullLink ⟨16, 20, 0⟩ fout := by
  intro j hj
  obtain ⟨i, hi, hf, hprr, honly⟩ := exists_sender
  obtain rfl := honly j hj
  have hrate : fout j = 46 := by
    rw [fout_of_isLeaf h hi, hf]
    norm_num
  have hp : ((fullLink.node j).prr : ℝ) = 999 / 1000 := by
    rw [hprr]
    norm_num
  have hpos := Xmac.ttx_pos (v := ⟨16, 20, 0⟩) (by decide) (prr_mem consistent_fullLink j)
  have hle := one_div_le_one_div_of_le hpos (hp ▸ fullLink_times.1)
  have hnrtx : Xmac.nrtx (fullLink.node j).prr ⟨16, 20, 0⟩ = 0 := by simp [Xmac.nrtx]
  show Xmac.queuingRate fullLink fout j ⟨16, 20, 0⟩ ≤ 0
  rw [Xmac.queuingRate_eq hj, hrate, hnrtx, ← EReal.coe_zero, EReal.coe_le_coe_iff]
  norm_num at hle ⊢
  exact hle

/-- Over the full link, X-MAC with the parameters (16, 20, 0) has less than no idle time. -/
theorem not_forall_fractions :
    ¬ ∀ (m : MacProtocol) (t : Topology) (fout : Fin t.size → ℝ) (v : MacConfiguration),
      t.Consistent → (∀ i, 0 < (t.node i).prr ∧ (t.node i).prr < 1) →
      m.model.createVariables v = true → PacketsToSend m.model t v fout →
      Queuing m.model t v fout → ∀ i, (t.node i).isSink = false →
      0 ≤ m.dtx t fout i v ∧ 0 ≤ m.drx t fout i v ∧ 0 ≤ m.didle t fout i v ∧
        m.dtx t fout i v + m.drx t fout i v + m.didle t fout i v = 1 := by
  intro hall
  obtain ⟨fout, h⟩ := exists_packetsToSend .xmac consistent_fullLink ⟨16, 20, 0⟩
  obtain ⟨i, hi, hf, hprr, -⟩ := exists_sender
  have hidle : 0 ≤ Xmac.didle fullLink fout i ⟨16, 20, 0⟩ :=
    (hall .xmac fullLink fout ⟨16, 20, 0⟩ consistent_fullLink (by decide +kernel)
      (by decide +kernel) h (queuing_fullLink h) i hi.2).2.2.1
  have hrate : fout i = 46 := by
    rw [fout_of_isLeaf h hi, hf]
    norm_num
  have hp : ((fullLink.node i).prr : ℝ) = 999 / 1000 := by
    rw [hprr]
    norm_num
  have htimes := fullLink_times.2
  rw [Xmac.didle, Xmac.drx_eq, Xmac.drxc, Xmac.dtx, Xmac.drxc1_of_isLeaf hi,
    Xmac.dtx1_of_isLeaf hi, Xmac.ftx_of_n_zero, hrate, hp] at hidle
  norm_num at hidle htimes
  linarith

end PTunes.Optimizer
