import PTunes.Optimizer.TimeFractions
import PTunes.Proofs.Optimizer.Lpp
import PTunes.Proofs.Optimizer.Xmac

/-!
# `PTunes.Proofs.Optimizer.AttemptCosts`: what a node pays for its own transmissions

Each transmission attempt keeps the radio on for some time. `ChargesAttempts` says that the time
fractions of a node account for this time, and that a leaf with a higher rate draws at least the
power of the added attempts on top.

The model of X-MAC does. The model of LPP multiplies the time that a sender listens with the rate
of receptions (`Frx`), which is 0 at a leaf. So it charges a leaf only for the transmission of the
data, and does not do so at any leaf (`chargesAttempts_iff`). At the other nodes it accounts for
the attempts as long as those without a reception fit into the duty cycle (`Lpp.radioOn_iff`).
-/

set_option autoImplicit false

namespace PTunes.Optimizer

open PTunes.Controller PTunes.Probability

/-- The same topology with another rate at one node. -/
@[reducible] def Topology.withRate (t : Topology) (i : Fin t.size) (f : ℚ) : Topology :=
  { t with node := Function.update t.node i { t.node i with f := f } }

namespace MacProtocol

/-- The condition on the receptions under which the model of X-MAC is taken. -/
def ReceptionsFit (t : Topology) (fout : Fin t.size → ℝ) (i : Fin t.size) (v : MacConfiguration) :
    MacProtocol → Prop
  | .xmac => Xmac.drxc t fout i v ≤ 1
  | .lpp => True

/-- The energy of one attempt, beyond what the node draws in this time without packets. -/
noncomputable def attemptCost (m : MacProtocol) (t : Topology) (i : Fin t.size)
    (v : MacConfiguration) : ℝ :=
  m.attemptTx v (t.node i).prr * (ptx - m.ptotal t (fun _ => 0) i v) +
    m.attemptRx v (t.node i).prr * (prx - m.ptotal t (fun _ => 0) i v)

/-- The model charges the nodes for their own transmissions. -/
structure ChargesAttempts (m : MacProtocol) (t : Topology) (v : MacConfiguration) : Prop where
  /-- The radio is on at least for the attempts. -/
  radioOn : ∀ fout, PacketsToSend m.model t v fout → ∀ i, (t.node i).isSink = false →
    m.ReceptionsFit t fout i v →
    m.ftx t fout i v * (m.attemptTx v (t.node i).prr + m.attemptRx v (t.node i).prr) ≤
      m.dtx t fout i v + m.drx t fout i v
  /-- A leaf with a higher rate lives shorter, and draws at least the power of the added attempts
  on top. -/
  leaf : ∀ fout, PacketsToSend m.model t v fout → ∀ i, t.IsLeaf i → ∀ f, (t.node i).f < f →
    ∀ fout', PacketsToSend m.model (t.withRate i f) v fout' →
    m.model.nodeLifetime (t.withRate i f) fout' i v < m.model.nodeLifetime t fout i v ∧
      m.ptotal t fout i v +
          (m.ftx (t.withRate i f) fout' i v - m.ftx t fout i v) * m.attemptCost t i v ≤
        m.ptotal (t.withRate i f) fout' i v

end MacProtocol

variable {t : Topology} {fout : Fin t.size → ℝ} {i : Fin t.size} {v : MacConfiguration} {f : ℚ}

/-- The node itself has the new rate, and keeps its link, parent and children. -/
@[simp] theorem Topology.withRate_node_self :
    (t.withRate i f).node i = { t.node i with f := f } :=
  Function.update_self ..

/-- Only the rate of the node changes. -/
theorem Topology.withRate_eq : t.withRate i f =
    { t with node := fun j => { t.node j with f := if j = i then f else (t.node j).f } } := by
  refine congrArg (fun node : Fin t.size → Node t.size => ({ t with node := node } : Topology)) ?_
  funext j
  by_cases hj : j = i
  · subst hj
    simp
  · simp [hj]

/-- A consistent topology stays consistent. -/
theorem Topology.Consistent.withRate (ht : t.Consistent) (hf : 0 ≤ f) :
    (t.withRate i f).Consistent := by
  rw [withRate_eq]
  refine { ht with f_nonneg := fun j => ?_ }
  show 0 ≤ if j = i then f else (t.node j).f
  split
  · exact hf
  · exact ht.f_nonneg j

/-- A leaf stays a leaf. -/
theorem Topology.IsLeaf.withRate (h : t.IsLeaf i) : (t.withRate i f).IsLeaf i := by
  rw [Topology.IsLeaf, withRate_node_self]
  exact h

/-- Some node that is not the sink has no children: one that is farthest from the sink. -/
theorem Topology.Consistent.exists_isLeaf (ht : t.Consistent) (hs : t.HasSource) :
    ∃ i, t.IsLeaf i := by
  obtain ⟨depth, hd⟩ := ht.acyclic
  obtain ⟨j, hj⟩ := hs
  obtain ⟨i, hi, hmax⟩ := Finset.exists_max_image
    (Finset.univ.filter fun i => (t.node i).isSink = false) depth ⟨j, by simpa using hj⟩
  refine ⟨i, List.eq_nil_iff_forall_not_mem.mpr fun c hc => ?_, by simpa using hi⟩
  have hlt := ht.depth_lt hd hc
  -- A child has a parent, so it is not the sink.
  have hsink : (t.node c).isSink = false := by
    rw [Node.isSink, List.isEmpty_eq_false_iff_exists_mem]
    exact ⟨i, (ht.mem_children i c).mp hc⟩
  have hle := hmax c (by simpa using hsink)
  omega

/-! ### X-MAC -/

namespace Xmac

/-- A transmission of X-MAC takes some time in transmit mode, since half a period has some strobes
and the strobes take time. -/
theorem ttxt_pos (hv : Usable v) {p : ℝ} (hp : p ∈ unitInterval) : 0 < ttxt v p := by
  have htl := hv.one_le_tl
  have hts := hv.ts_nonneg
  refine lt_of_lt_of_le ?_ (ttxt_ge hv hp)
  norm_num [niter, titer, tturn, tstr, tsl, scale]
  linarith

/-- The radio is on at least for the attempts. -/
theorem radioOn (ht : t.Consistent) (hv : Usable v) (hfout : ∀ c, 0 ≤ fout c)
    (hfit : drxc t fout i v ≤ 1) :
    ftx t fout i v * (ttxt v (t.node i).prr + ttxr v (t.node i).prr) ≤
      dtx t fout i v + drx t fout i v := by
  have hduty := duty_mem hv
  have hrx := drxc1_nonneg (i := i) ht hv hfout
  have htx := dtx1_nonneg (i := i) ht hv hfout
  -- The duty cycle adds to the receptions.
  have hcycle : 0 ≤ (1 - drxc t fout i v) * (v.tl / (v.tl + v.ts)) :=
    mul_nonneg (sub_nonneg.mpr hfit) hduty.1
  rw [drx, mul_div_assoc, dtx]
  have hdrxc : drxc1 t fout i v + ftx t fout i v * ttxr v (t.node i).prr = drxc t fout i v := rfl
  linarith

/-- The power that a leaf draws: that of the duty cycle, and a share for each attempt. -/
theorem ptotal_of_isLeaf (hi : t.IsLeaf i) : ptotal t fout i v =
    ps + v.tl / (v.tl + v.ts) * (prx - ps) + ftx t fout i v *
      (ttxt v (t.node i).prr * (ptx - ps) +
        ttxr v (t.node i).prr * ((1 - v.tl / (v.tl + v.ts)) * (prx - ps))) := by
  rw [ptotal_eq, drxc, dtx, drxc1_of_isLeaf hi, dtx1_of_isLeaf hi]
  ring

/-- Without packets only the duty cycle is left. -/
theorem ptotal_zero_of_isLeaf (hi : t.IsLeaf i) :
    ptotal t (fun _ => 0) i v = ps + v.tl / (v.tl + v.ts) * (prx - ps) := by
  rw [ptotal_of_isLeaf hi, ftx]
  ring

/-- The rate of attempts of a leaf. -/
theorem ftx_of_isLeaf (h : PacketsToSend .xmac t v fout) (hi : t.IsLeaf i) :
    ftx t fout i v = (nrtx (t.node i).prr v + 1) * (t.node i).f := by
  rw [ftx, fout_of_isLeaf h hi]

/-- An attempt costs at most the share of the leaf's power. -/
theorem attemptCost_le (hv : Usable v) (hp : ((t.node i).prr : ℝ) ∈ unitInterval)
    (hi : t.IsLeaf i) : MacProtocol.xmac.attemptCost t i v ≤
      ttxt v (t.node i).prr * (ptx - ps) +
        ttxr v (t.node i).prr * ((1 - v.tl / (v.tl + v.ts)) * (prx - ps)) := by
  have hsaved : 0 ≤ ttxt v (t.node i).prr * (v.tl / (v.tl + v.ts) * (prx - ps)) :=
    mul_nonneg (ttxt_nonneg hv hp)
      (mul_nonneg (duty_mem hv).1 prx_sub_ps_pos.le)
  show ttxt v (t.node i).prr * (ptx - ptotal t (fun _ => 0) i v) +
    ttxr v (t.node i).prr * (prx - ptotal t (fun _ => 0) i v) ≤ _
  rw [ptotal_zero_of_isLeaf hi]
  linarith

/-- A leaf with a higher rate pays for the added attempts. -/
theorem leaf (ht : t.Consistent) (hv : Usable v) (h : PacketsToSend .xmac t v fout)
    (hi : t.IsLeaf i) (hf : (t.node i).f < f) {fout' : Fin t.size → ℝ}
    (h' : PacketsToSend .xmac (t.withRate i f) v fout') :
    nodeLifetime (t.withRate i f) fout' i v < nodeLifetime t fout i v ∧
      ptotal t fout i v +
          (ftx (t.withRate i f) fout' i v - ftx t fout i v) *
            MacProtocol.xmac.attemptCost t i v ≤
        ptotal (t.withRate i f) fout' i v := by
  have hp := prr_mem ht i
  have hi' : (t.withRate i f).IsLeaf i := hi.withRate
  have hf' : ((t.node i).f : ℝ) < f := by exact_mod_cast hf
  have hf0 : (0 : ℝ) ≤ (t.node i).f := by exact_mod_cast ht.f_nonneg i
  have hnrtx := nrtx_nonneg hv hp
  have hftx : ftx t fout i v < ftx (t.withRate i f) fout' i v := by
    rw [ftx_of_isLeaf h hi, ftx_of_isLeaf h' hi', Topology.withRate_node_self]
    exact mul_lt_mul_of_pos_left hf' (by linarith)
  have hftx0 : 0 ≤ ftx t fout i v := by
    rw [ftx_of_isLeaf h hi]
    exact mul_nonneg (by linarith) hf0
  -- The share of one attempt.
  have hcost := attemptCost_le hv hp hi
  have hduty := duty_mem hv
  have hshare : 0 < ttxt v (t.node i).prr * (ptx - ps) +
      ttxr v (t.node i).prr * ((1 - v.tl / (v.tl + v.ts)) * (prx - ps)) :=
    add_pos_of_pos_of_nonneg
      (mul_pos (ttxt_pos hv hp) ptx_sub_ps_pos)
      (mul_nonneg (ttxr_nonneg hv hp)
        (mul_nonneg (compl_mem hduty).1 prx_sub_ps_pos.le))
  have hpower : ptotal t fout i v = _ := ptotal_of_isLeaf hi
  have hpower' : ptotal (t.withRate i f) fout' i v = _ := ptotal_of_isLeaf hi'
  rw [Topology.withRate_node_self] at hpower'
  generalize ttxt v (t.node i).prr * (ptx - ps) + ttxr v (t.node i).prr *
    ((1 - v.tl / (v.tl + v.ts)) * (prx - ps)) = share at hcost hshare hpower hpower'
  have hbase : (0 : ℝ) < ps + v.tl / (v.tl + v.ts) * (prx - ps) :=
    add_pos_of_pos_of_nonneg ps_pos
      (mul_nonneg hduty.1 prx_sub_ps_pos.le)
  have hpos : 0 < ptotal t fout i v := by
    rw [hpower]
    exact add_pos_of_pos_of_nonneg hbase (mul_nonneg hftx0 hshare.le)
  have hadded := mul_lt_mul_of_pos_right hftx hshare
  constructor
  · rw [nodeLifetime_eq hi.2, nodeLifetime_eq hi'.2]
    refine EReal.coe_lt_coe_iff.mpr (div_lt_div_of_pos_left (by norm_num [q, u]) hpos ?_)
    linarith
  · have hle := mul_le_mul_of_nonneg_left hcost (sub_nonneg.mpr hftx.le)
    rw [hpower, hpower']
    linarith

/-- The model of X-MAC charges the nodes for their transmissions. -/
theorem chargesAttempts (ht : t.Consistent) (hv : Usable v) :
    MacProtocol.xmac.ChargesAttempts t v where
  radioOn _ h _ _ hfit := radioOn ht hv
    (fout_nonneg ht (fun j => (perHopReliability_mem hv (prr_mem ht j)).1) h) hfit
  leaf _ h _ hi _ hf _ h' := leaf ht hv h hi hf h'

end Xmac

/-! ### LPP -/

namespace Lpp

/-- The fraction of time that the radio is on. -/
theorem dtx_add_drx : dtx t fout i v + drx t fout i v = don v +
    ftx t fout i v * ttxptx (t.node i).prr + frx t fout i v * ttxprx v (t.node i).prr := by
  rw [dtx, drx, trxdcrx, don]
  ring

/-- The radio is on for the attempts exactly when the listening that is not charged fits into the
duty cycle. -/
theorem radioOn_iff : ftx t fout i v * (ttxptx (t.node i).prr + ttxprx v (t.node i).prr) ≤
    dtx t fout i v + drx t fout i v ↔
      (ftx t fout i v - frx t fout i v) * ttxprx v (t.node i).prr ≤ don v := by
  rw [dtx_add_drx]
  constructor <;> intro h <;> linarith

/-- The radio is on without packets for at most half of the time. -/
theorem don_le (hv : Usable v) : don v ≤ 1 / 2 := by
  have hts := hv.ts_nonneg
  have hperiod : (0 : ℝ) < ton + scale * v.ts + 0.5 * trandmax := one_div_pos.mp (fdc_pos hv)
  rw [don, fdc, mul_one_div, div_le_iff₀ hperiod]
  norm_num [ton, scale, trandmax]
  linarith

/-- The listening for a probe alone is longer than the data. -/
theorem tdata_le (hv : Usable v) (p : ℝ) : tdata ≤ toneprobe p v * (1 - don v) := by
  have hts := hv.ts_nonneg
  have hone : p + (k : ℝ) * (1 - p) = 1 := by simp [k]
  have hone' : p + (k : ℝ) ^ 2 * (1 - p) = 1 := by simp [k]
  have hlong : 2 * tdata ≤ toneprobe p v := by
    rw [toneprobe, hone, hone']
    norm_num [tpr, ton, scale, trandmax, tdata]
    linarith
  have hoff : 1 / 2 ≤ 1 - don v := by linarith [don_le hv]
  have hmul := mul_le_mul hlong hoff (by norm_num) (toneprobe_nonneg hv)
  linarith

/-- A sender listens longer than it transmits. -/
theorem ttxptx_lt_ttxprx (hv : Usable v) {p : ℝ} (hp : p ∈ unitInterval) :
    ttxptx p < ttxprx v p := by
  have hprobe := tdata_le hv p
  have hlisten := listen_nonneg hv
  have hturn : (0 : ℝ) < tturn := by norm_num [tturn]
  have hmix := mix_le_ttxprx (v := v) hp (a := tdata + 2 * tturn) (b := 2 * tturn) (by linarith)
    (by linarith)
  rw [ttxptx, poneprobe_eq]
  linarith

/-- The power that a leaf draws. -/
theorem ptotal_of_isLeaf (hv : Usable v) (hi : t.IsLeaf i) : ptotal t fout i v =
    idlePower v + ftx t fout i v * transmissionPower (t.node i).prr := by
  rw [ptotal_eq hv, frx_of_isLeaf hi]
  ring

/-- The rate of attempts of a leaf. -/
theorem ftx_of_isLeaf (h : PacketsToSend .lpp t v fout) (hi : t.IsLeaf i) :
    ftx t fout i v = (nrtx (t.node i).prr v + 1) * (t.node i).f := by
  rw [ftx, fout_of_isLeaf h hi]

/-- The share of the leaf's power does not cover an attempt. -/
theorem transmissionPower_lt (hv : Usable v) (hp : ((t.node i).prr : ℝ) ∈ unitInterval)
    (hi : t.IsLeaf i) :
    transmissionPower (t.node i).prr < MacProtocol.lpp.attemptCost t i v := by
  have hprx := prx_sub_ps_pos
  have hzero : ptotal t (fun _ => 0) i v = idlePower v := by
    rw [ptotal_of_isLeaf hv hi, ftx]
    ring
  -- Without packets the node draws at most half of what it draws in receive mode.
  have hidle : idlePower v - ps ≤ (prx - ps) / 2 := by
    have hprobe : 0 ≤ fdc v * (tpr * (prx - ptx)) :=
      mul_nonneg (fdc_pos hv).le (by norm_num [tpr, prx, ptx, u, irx, itx])
    have hon := mul_le_mul_of_nonneg_right (don_le hv) hprx.le
    rw [don] at hon
    rw [idlePower]
    linarith
  have hlisten := mul_lt_mul_of_pos_right (ttxptx_lt_ttxprx hv hp) (half_pos hprx)
  have htx0 : 0 ≤ ttxptx ((t.node i).prr : ℝ) := by
    rw [ttxptx, poneprobe_eq]
    exact mul_nonneg hp.1 (by norm_num [tdata])
  have hrx0 : 0 ≤ ttxprx v (t.node i).prr := htx0.trans (ttxptx_lt_ttxprx hv hp).le
  have htx := mul_le_mul_of_nonneg_left hidle htx0
  have hrx := mul_le_mul_of_nonneg_left hidle hrx0
  show ttxptx (t.node i).prr * (ptx - ps) < ttxptx (t.node i).prr *
    (ptx - ptotal t (fun _ => 0) i v) + ttxprx v (t.node i).prr *
    (prx - ptotal t (fun _ => 0) i v)
  rw [hzero]
  linarith

/-- The model of LPP does not charge a leaf for its attempts. -/
theorem not_chargesAttempts (ht : t.Consistent) (hv : Usable v) (hi : t.IsLeaf i) :
    ¬ MacProtocol.lpp.ChargesAttempts t v := by
  intro hcharges
  have hp := prr_mem ht i
  have hf : (t.node i).f < (t.node i).f + 1 := by linarith
  have hi' : (t.withRate i ((t.node i).f + 1)).IsLeaf i := hi.withRate
  have hf0 := ht.f_nonneg i
  obtain ⟨fout, h⟩ := exists_packetsToSend .lpp ht v
  obtain ⟨fout', h'⟩ := exists_packetsToSend .lpp
    (ht.withRate (i := i) (f := (t.node i).f + 1) (by linarith)) v
  have hftx : ftx t fout i v < ftx (t.withRate i ((t.node i).f + 1)) fout' i v := by
    have hf' : ((t.node i).f : ℝ) < ((t.node i).f + 1 : ℚ) := by exact_mod_cast hf
    have hnrtx := nrtx_nonneg hv hp
    rw [ftx_of_isLeaf h hi, ftx_of_isLeaf h' hi', Topology.withRate_node_self]
    exact mul_lt_mul_of_pos_left hf' (by linarith)
  have hcost := mul_lt_mul_of_pos_left (transmissionPower_lt hv hp hi) (sub_pos.mpr hftx)
  have hpower : ptotal t fout i v = _ := ptotal_of_isLeaf hv hi
  have hpower' : ptotal (t.withRate i ((t.node i).f + 1)) fout' i v = _ :=
    ptotal_of_isLeaf hv hi'
  rw [Topology.withRate_node_self] at hpower'
  have hle : ptotal t fout i v +
      (ftx (t.withRate i ((t.node i).f + 1)) fout' i v - ftx t fout i v) *
        MacProtocol.lpp.attemptCost t i v ≤ ptotal (t.withRate i ((t.node i).f + 1)) fout' i v :=
    (hcharges.leaf fout h i hi _ hf fout' h').2
  rw [hpower, hpower'] at hle
  linarith

end Lpp

/-! ### Both protocols -/

variable {m : MacProtocol}

/-- For both protocols, every consistent topology and all parameters: the model charges the nodes
for their own transmissions exactly when it is the model of X-MAC, or the topology has only the
sink. -/
theorem chargesAttempts_iff (ht : t.Consistent) (hv : Usable v) :
    m.ChargesAttempts t v ↔ m = .xmac ∨ ¬ t.HasSource := by
  constructor
  · refine fun hcharges => or_iff_not_imp_right.mpr fun hs => ?_
    cases m with
    | xmac => rfl
    | lpp =>
        obtain ⟨i, hi⟩ := ht.exists_isLeaf (not_not.mp hs)
        exact absurd hcharges (Lpp.not_chargesAttempts ht hv hi)
  · rintro (rfl | hs)
    · exact Xmac.chargesAttempts ht hv
    · exact ⟨fun _ _ i hi => absurd ⟨i, hi⟩ hs, fun _ _ i hi => absurd ⟨i, hi.2⟩ hs⟩

/-- With the parameters (36, 20, 0) of LPP the leaves of the sample are not charged. -/
theorem chargesAttempts_iff_busyLeaf : ¬ MacProtocol.lpp.ChargesAttempts busyLeaf ⟨36, 20, 0⟩ := by
  rw [chargesAttempts_iff consistent_busyLeaf (by decide)]
  rintro (h | h)
  · cases h
  · exact h ⟨⟨1, by decide⟩, by decide⟩

/-- With LPP, the busy leaf of the sample is said to listen less than its attempts take. -/
theorem not_forall_chargesAttempts :
    ¬ ∀ (m : MacProtocol) (t : Topology) (v : MacConfiguration), t.Consistent →
      m.model.createVariables v = true → m.ChargesAttempts t v := by
  intro hall
  obtain ⟨i, hi, hf, hprr⟩ := exists_busy
  have ht := consistent_busyLeaf
  have hv : Usable ⟨36, 20, 0⟩ := by decide
  have hp := prr_mem ht i
  obtain ⟨fout, h⟩ := exists_packetsToSend .lpp ht ⟨36, 20, 0⟩
  have hradio := (hall .lpp busyLeaf ⟨36, 20, 0⟩ ht (by decide +kernel)).radioOn fout h i hi.2
    trivial
  have hdon := Lpp.radioOn_iff.mp hradio
  have hlisten := Lpp.ttxprx_ge hv hp
  have hbusy : 1000 ≤ Lpp.ftx busyLeaf fout i ⟨36, 20, 0⟩ := by
    have hnrtx := Lpp.nrtx_nonneg hv hp
    rw [Lpp.ftx_of_isLeaf h hi, hf]
    norm_num
    linarith
  rw [Lpp.frx_of_isLeaf hi, sub_zero] at hdon
  have hle := mul_le_mul hbusy hlisten (by norm_num [tturn]) (by linarith)
  norm_num [Lpp.don, Lpp.fdc, ton, scale, trandmax, tturn] at hdon hle
  linarith

end PTunes.Optimizer
