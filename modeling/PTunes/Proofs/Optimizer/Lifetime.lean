import PTunes.Optimizer.Performance
import PTunes.Proofs.Optimizer.Totality

/-!
# `PTunes.Proofs.Optimizer.Lifetime`: the objective and the network lifetime

`createCost` attaches the lifetime metric only to the nodes with children and a parent, and
`determinePerformance` takes the minimum over all nodes. So the objective is never below the
network lifetime, and it is above it exactly when some leaf lives shorter than every relay.
The lifetime formulas do not exclude that: a leaf that generates many packets is the
bottleneck (`not_forall_createCost_eq`).

A leaf cannot be the bottleneck when some relay has the same PRR and generates packets at
least as fast. The relay then has the same cost for each transmission, at least as many
transmissions, and receptions besides (`nodeLifetime_le` of both protocols).
-/

set_option autoImplicit false

namespace PTunes.Optimizer

open PTunes.Controller

/-! ### Minima -/

section Minima

variable {M : MacModel} {t : Topology} {v : MacConfiguration} {fout : Fin t.size → ℝ}
  {p : Performance} {minT : EReal}

/-- The network lifetime is the lifetime of some node, and no node lives shorter. -/
theorem DeterminePerformance.minT_spec (ht : t.Consistent) (h : PacketsToSend M t v fout)
    (hp : DeterminePerformance M t v p) :
    (∃ i, M.nodeLifetime t fout i v = p.minT) ∧ ∀ i, p.minT ≤ M.nodeLifetime t fout i v := by
  obtain ⟨_, fout', h', hmin, _⟩ := hp
  obtain rfl := packetsToSend_unique ht h h'
  obtain ⟨s, _⟩ := ht.sink_unique
  have hne : ((List.finRange t.size).map fun i => M.nodeLifetime t fout i v) ≠ [] :=
    List.ne_nil_of_mem (List.mem_map_of_mem (List.mem_finRange s))
  obtain ⟨m, hmem, hm, hle⟩ := icMin_of_ne_nil hne
  obtain rfl : m = p.minT := Option.mem_unique hm hmin
  obtain ⟨i, _, hi⟩ := List.mem_map.mp hmem
  exact ⟨⟨i, hi⟩, fun i => hle _ (List.mem_map_of_mem (List.mem_finRange i))⟩

/-- The objective is the lifetime of some relay, and no relay lives shorter. -/
theorem CreateCost.minT_spec (ht : t.Consistent) (hrelay : t.HasRelay)
    (h : PacketsToSend M t v fout) (hcost : CreateCost M t v minT) :
    (∃ i, t.IsRelay i ∧ M.nodeLifetime t fout i v = minT) ∧
      ∀ i, t.IsRelay i → minT ≤ M.nodeLifetime t fout i v := by
  obtain ⟨fout', h', hmin⟩ := hcost
  obtain rfl := packetsToSend_unique ht h h'
  have hne : lifetimes M t v fout ≠ [] := lifetimes_ne_nil_iff.mpr hrelay
  obtain ⟨m, hmem, hm, hle⟩ := icMin_of_ne_nil hne
  obtain rfl : m = minT := Option.mem_unique hm hmin
  exact ⟨mem_lifetimes_iff.mp hmem, fun i hi => hle _ (mem_lifetimes_iff.mpr ⟨i, hi, rfl⟩)⟩

end Minima

/-! ### Load -/

/-- What the model of a MAC protocol says of the load of a node. -/
structure MacModel.LoadMonotone (M : MacModel) : Prop where
  nodeLifetime_sink : ∀ (t : Topology) (fout : Fin t.size → ℝ) (i : Fin t.size) v,
    (t.node i).isSink = true → M.nodeLifetime t fout i v = ⊤
  /-- A relay that sends at least as much as a leaf, over a link with the same PRR, lives at
  most as long. -/
  nodeLifetime_le : ∀ (t : Topology) (fout : Fin t.size → ℝ) (i j : Fin t.size) v,
    t.Consistent → Usable v → (∀ c, 0 ≤ fout c) → t.IsLeaf i → (t.node j).isSink = false →
    (t.node j).prr = (t.node i).prr → fout i ≤ fout j →
    M.nodeLifetime t fout j v ≤ M.nodeLifetime t fout i v
  perHopReliability_nonneg : ∀ {size : Nat} (node : Node size) v,
    Usable v → (node.prr : ℝ) ∈ unitInterval → 0 ≤ M.perHopReliability node v

/-- In the model of X-MAC a relay with the load of a leaf lives at most as long as the leaf. -/
theorem loadMonotone_xmac : MacModel.xmac.LoadMonotone where
  nodeLifetime_sink := fun _ _ _ _ hi => if_pos hi
  nodeLifetime_le := fun _ _ _ _ _ ht hv hfout hi hj hprr hrate =>
    Xmac.nodeLifetime_le ht hv hfout hi hj hprr hrate
  perHopReliability_nonneg := fun _ _ hv hp => (Xmac.perHopReliability_mem hv hp).1

/-- So it does in the model of LPP. -/
theorem loadMonotone_lpp : MacModel.lpp.LoadMonotone where
  nodeLifetime_sink := fun _ _ _ _ hi => if_pos hi
  nodeLifetime_le := fun _ _ _ _ _ ht hv hfout hi hj hprr hrate =>
    Lpp.nodeLifetime_le ht hv hfout hi hj hprr hrate
  perHopReliability_nonneg := fun _ _ hv hp => (Lpp.perHopReliability_mem hv hp).1

section Load

variable {M : MacModel} {t : Topology} {v : MacConfiguration} {p : Performance} {minT : EReal}

/-- No leaf of the topology lives shorter than `minT`. -/
def LeavesOutlive (M : MacModel) (t : Topology) (v : MacConfiguration) (minT : EReal) : Prop :=
  ∀ fout, PacketsToSend M t v fout → ∀ i, t.IsLeaf i → minT ≤ M.nodeLifetime t fout i v

/-- The objective is at least the network lifetime, with equality when no leaf lives
shorter. -/
theorem MacModel.LoadMonotone.createCost_spec (hM : M.LoadMonotone) (ht : t.Consistent)
    (hrelay : t.HasRelay) (hp : DeterminePerformance M t v p)
    (hcost : CreateCost M t v minT) :
    p.minT ≤ minT ∧ (minT = p.minT ↔ LeavesOutlive M t v minT) := by
  obtain ⟨fout, h⟩ := exists_packetsToSend M ht v
  obtain ⟨⟨n, hn⟩, hall⟩ := hp.minT_spec ht h
  obtain ⟨⟨r, _, hrmin⟩, hrelays⟩ := hcost.minT_spec ht hrelay h
  have hle : p.minT ≤ minT := hrmin ▸ hall r
  refine ⟨hle, ?_⟩
  constructor
  · intro heq fout' h' i _
    obtain rfl := packetsToSend_unique ht h h'
    rw [heq]
    exact hall i
  · intro hleaves
    apply le_antisymm _ hle
    rw [← hn]
    by_cases hsink : (t.node n).isSink = true
    · rw [hM.nodeLifetime_sink t fout n v hsink]
      exact le_top
    · rcases Topology.isRelay_or_isLeaf (Bool.eq_false_iff.mpr hsink) with hrel | hleaf
      · exact hrelays n hrel
      · exact hleaves fout h n hleaf

/-- When relays dominate the leaves, no leaf lives shorter than the objective. -/
theorem MacModel.LoadMonotone.leavesOutlive (hM : M.LoadMonotone) (ht : t.Consistent)
    (hv : Usable v) (hdom : t.LeavesDominated) (hrelay : t.HasRelay)
    (hcost : CreateCost M t v minT) : LeavesOutlive M t v minT := by
  intro fout h i hi
  have hR : ∀ j, 0 ≤ M.perHopReliability (t.node j) v :=
    fun j => hM.perHopReliability_nonneg _ v hv (prr_mem ht j)
  obtain ⟨j, hj, hprr, hf⟩ := hdom i hi
  have hrate : fout i ≤ fout j :=
    calc fout i = (t.node i).f := fout_of_isLeaf h hi
      _ ≤ (t.node j).f := by exact_mod_cast hf
      _ ≤ fout j := f_le_fout ht hR h hj.2
  calc minT ≤ M.nodeLifetime t fout j v := (hcost.minT_spec ht hrelay h).2 j hj
    _ ≤ M.nodeLifetime t fout i v :=
      hM.nodeLifetime_le t fout i j v ht hv (fout_nonneg ht hR h) hi hj.2 hprr hrate

end Load

/-- For both protocols, every consistent topology with a relay and all parameters: the
minimum that `createCost` maximises is at least the network lifetime that
`determinePerformance` reports, and they are equal exactly when no leaf lives shorter than
every relay. So they are equal when each leaf has a relay with the same PRR that generates
packets at least as fast. -/
theorem createCost_determinePerformance {M : MacModel}
    (hM : M ∈ [MacModel.xmac, MacModel.lpp]) {t : Topology} (ht : t.Consistent)
    (hrelay : t.HasRelay) {v : MacConfiguration} {p : Performance}
    (hp : DeterminePerformance M t v p) {minT : EReal} (hcost : CreateCost M t v minT) :
    p.minT ≤ minT ∧ (minT = p.minT ↔ LeavesOutlive M t v minT) ∧
      (Usable v → t.LeavesDominated → minT = p.minT) := by
  have hload : M.LoadMonotone := by
    simp only [List.mem_cons, List.not_mem_nil, or_false] at hM
    rcases hM with rfl | rfl
    · exact loadMonotone_xmac
    · exact loadMonotone_lpp
  obtain ⟨hle, hiff⟩ := hload.createCost_spec ht hrelay hp hcost
  exact ⟨hle, hiff, fun hv hdom => hiff.mpr (hload.leavesOutlive ht hv hdom hrelay hcost)⟩

/-! ### A busy leaf -/

/-- Where the quotients of the latency have values, the performance is reported: the averages over
the paths are quotients by their number. -/
theorem exists_determinePerformance {M : MacModel} {t : Topology} {v : MacConfiguration}
    (ht : t.Consistent) (hdef : ∀ i, M.latencyDefined (t.node i) v) (hpaths : t.paths ≠ []) :
    ∃ p, DeterminePerformance M t v p := by
  obtain ⟨fout, hpackets⟩ := exists_packetsToSend M ht v
  obtain ⟨s, _⟩ := ht.sink_unique
  have hne : List.finRange t.size ≠ [] := List.ne_nil_of_mem (List.mem_finRange s)
  obtain ⟨n, l, hl⟩ := List.exists_cons_of_ne_nil hne
  obtain ⟨minT, hmin⟩ : ∃ m, icMin
      ((List.finRange t.size).map fun i => M.nodeLifetime t fout i v) = some m := by
    rw [hl]
    exact ⟨_, rfl⟩
  obtain ⟨maxQ, hmax⟩ : ∃ m, icMax
      ((List.finRange t.size).map fun i => M.queuingRate t fout i v) = some m := by
    rw [hl]
    exact ⟨_, rfl⟩
  have hlength : (t.paths.length : ℝ) ≠ 0 :=
    Nat.cast_ne_zero.mpr fun h => hpaths (List.length_eq_zero_iff.mp h)
  exact ⟨⟨minT, _, _, maxQ⟩, hdef, fout, hpackets, hmin, hmax, div_mul_cancel₀ _ hlength,
    div_mul_cancel₀ _ hlength⟩

/-- With a relay, the objective exists. -/
theorem exists_createCost {M : MacModel} {t : Topology} (ht : t.Consistent)
    (hrelay : t.HasRelay) (v : MacConfiguration) : ∃ minT, CreateCost M t v minT := by
  obtain ⟨fout, hpackets⟩ := exists_packetsToSend M ht v
  have hne : lifetimes M t v fout ≠ [] := lifetimes_ne_nil_iff.mpr hrelay
  obtain ⟨m, _, hm, _⟩ := icMin_of_ne_nil hne
  exact ⟨m, fout, hpackets, hm⟩

/-- The sample topology has a relay. -/
theorem hasRelay_busyLeaf : busyLeaf.HasRelay := by
  obtain ⟨j, _, hrelays, _⟩ := exists_relay
  exact ⟨j, (hrelays j).mpr rfl⟩

/-- `createCost_determinePerformance` on the chain. Its relay dominates its leaf, so the objective
is the network lifetime. -/
theorem createCost_determinePerformance_relayChain :
    relayChain.LeavesDominated ∧ ∃ p minT, DeterminePerformance .xmac relayChain ⟨16, 20, 0⟩ p ∧
      CreateCost .xmac relayChain ⟨16, 20, 0⟩ minT ∧ minT = p.minT := by
  have ht := consistent_relayChain
  have hv : Usable ⟨16, 20, 0⟩ := by decide
  have hrelay : relayChain.HasRelay := ⟨(1 : Fin 3), by decide, rfl⟩
  have hpos : ∀ i, 0 < (relayChain.node i).prr := by decide +kernel
  obtain ⟨p, hp⟩ := exists_determinePerformance (M := .xmac) (v := ⟨16, 20, 0⟩) ht
    (fun i => Xmac.latencyDefined_of_pos hv (prr_mem ht i) (by exact_mod_cast hpos i))
    (by decide)
  obtain ⟨minT, hcost⟩ := exists_createCost (M := .xmac) ht hrelay ⟨16, 20, 0⟩
  obtain ⟨_, _, heq⟩ := createCost_determinePerformance (by simp) ht hrelay hp hcost
  exact ⟨leavesDominated_relayChain, p, minT, hp, hcost, heq hv leavesDominated_relayChain⟩

/-- On the sample topology the busy leaf lives shorter than the relay, with X-MAC and the
parameters (16, 20, 0). -/
theorem busyLeaf_lifetime_lt {fout : Fin busyLeaf.size → ℝ}
    (h : PacketsToSend .xmac busyLeaf ⟨16, 20, 0⟩ fout) :
    ∃ i, ∀ j, busyLeaf.IsRelay j →
      Xmac.nodeLifetime busyLeaf fout i ⟨16, 20, 0⟩ <
        Xmac.nodeLifetime busyLeaf fout j ⟨16, 20, 0⟩ := by
  obtain ⟨i, hi, hfi, hprri⟩ := exists_busy
  obtain ⟨j, c, hrelays, hchildren, hsink, hc, hfj, hfc, hprrj, hprrc⟩ := exists_relay
  have ht := consistent_busyLeaf
  have hv : Usable ⟨16, 20, 0⟩ := by decide
  have hp : ((1 / 2 : ℚ) : ℝ) ∈ unitInterval := Probability.cast_mem (by norm_num)
  refine ⟨i, fun j' hj' => ?_⟩
  obtain rfl := (hrelays j').mp hj'
  have houti : fout i = 1000 := by
    rw [fout_of_isLeaf h hi, hfi]
    norm_num
  have houtc : fout c = 1 / 1000 := by
    rw [fout_of_isLeaf h hc, hfc]
    norm_num
  have hR := Xmac.perHopReliability_mem hv (prr_mem ht c)
  have houtj : fout j' = Xmac.perHopReliability (busyLeaf.node c) ⟨16, 20, 0⟩ * (1 / 1000) +
      1 / 1000 := by
    rw [h j', hchildren, hsink, hfj]
    simp [houtc]
    rfl
  -- The shares of one reception and of one transmission.
  obtain ⟨r, hr⟩ : ∃ r, r = Xmac.nrtx ((1 / 2 : ℚ) : ℝ) ⟨16, 20, 0⟩ + 1 := ⟨_, rfl⟩
  have hr0 : 0 < r := by
    have hnrtx := Xmac.nrtx_nonneg hv hp
    linarith
  have hrec := Xmac.frxi_le hv hp (show (0 : ℝ) ≤ 1 / 1000 by norm_num)
  have hrec0 := Xmac.frxi_nonneg hv hp (show (0 : ℝ) ≤ 1 / 1000 by norm_num)
  have hrxr : Xmac.trxri ((1 / 2 : ℚ) : ℝ) ≤ 1 := by
    norm_num [Xmac.trxri, tturn, tdata, ttimeout]
  have hrxt : Xmac.trxti ((1 / 2 : ℚ) : ℝ) ≤ 1 := by
    norm_num [Xmac.trxti, tack]
  have htxr : 1 / 1000 ≤ Xmac.ttxr ⟨16, 20, 0⟩ ((1 / 2 : ℚ) : ℝ) := by
    refine le_trans ?_ (Xmac.ttxr_ge hv hp)
    norm_num [Xmac.niter, titer, tturn, tstr, tsl, scale]
  have htxt : 1 / 1000 ≤ Xmac.ttxt ⟨16, 20, 0⟩ ((1 / 2 : ℚ) : ℝ) := by
    refine le_trans ?_ (Xmac.ttxt_ge hv hp)
    norm_num [Xmac.niter, titer, tturn, tstr, tsl, scale]
  -- The relay spends less time on its packets than the leaf, in both modes of the radio.
  have hless : ∀ rx tx : ℝ, 0 ≤ rx → rx ≤ 1 → 1 / 1000 ≤ tx →
      Xmac.frxi (1 / 1000) ((1 / 2 : ℚ) : ℝ) ⟨16, 20, 0⟩ * rx + r * fout j' * tx <
        r * 1000 * tx := by
    intro rx tx hrx0 hrx1 htx
    have hin : Xmac.frxi (1 / 1000) ((1 / 2 : ℚ) : ℝ) ⟨16, 20, 0⟩ * rx ≤ r * (1 / 1000) :=
      (mul_le_of_le_one_right hrec0 hrx1).trans (hr ▸ hrec)
    have hout : r * fout j' * tx ≤ r * (2 / 1000) * tx := by
      gcongr
      rw [houtj]
      linarith [hR.2]
    have hbusy : r * 999 * (1 / 1000) ≤ r * 999 * tx := by gcongr
    have hgap : 0 ≤ r * tx := by positivity
    linarith
  have hdrxc : Xmac.drxc busyLeaf fout j' ⟨16, 20, 0⟩ <
      Xmac.drxc busyLeaf fout i ⟨16, 20, 0⟩ := by
    have hlt := hless _ _ (Xmac.trxri_nonneg hp) hrxr htxr
    simp only [Xmac.drxc, Xmac.drxc1, Xmac.ftx, hchildren, hi.1, hprri, hprrj, hprrc, houti,
      houtc, ← hr, List.map_cons, List.map_nil, List.sum_cons, List.sum_nil]
    linarith
  have hdtx : Xmac.dtx busyLeaf fout j' ⟨16, 20, 0⟩ <
      Xmac.dtx busyLeaf fout i ⟨16, 20, 0⟩ := by
    have hlt := hless _ _ (Xmac.trxti_nonneg hp) hrxt htxt
    simp only [Xmac.dtx, Xmac.dtx1, Xmac.ftx, hchildren, hi.1, hprri, hprrj, hprrc, houti,
      houtc, ← hr, List.map_cons, List.map_nil, List.sum_cons, List.sum_nil]
    linarith
  have hfout := fout_nonneg ht (fun k => (Xmac.perHopReliability_mem hv (prr_mem ht k)).1) h
  have hpos := Xmac.ptotal_pos hv (Xmac.drxc_nonneg (i := j') ht hv hfout)
    (Xmac.dtx_nonneg ht hv hfout)
  rw [Xmac.nodeLifetime_eq hi.2, Xmac.nodeLifetime_eq hsink]
  exact EReal.coe_lt_coe_iff.mpr (Xmac.div_ptotal_lt hv hdrxc.le hdtx hpos)

/-- On the sample topology the objective is above the network lifetime. -/
theorem not_forall_createCost_eq :
    ¬ ∀ M ∈ [MacModel.xmac, MacModel.lpp], ∀ (t : Topology) (v : MacConfiguration)
        (p : Performance) (minT : EReal), t.Consistent → t.HasSource → M.createVariables v = true →
        DeterminePerformance M t v p → CreateCost M t v minT →
        minT = p.minT := by
  intro hall
  have ht := consistent_busyLeaf
  obtain ⟨hdom, hend⟩ := setupEndToEnd_busyLeaf
  obtain ⟨p, hp⟩ :=
    exists_determinePerformance ht (hend busyLeaf (by simp)).1 (List.cons_ne_nil _ _)
  have hrelay := hasRelay_busyLeaf
  obtain ⟨minT, hcost⟩ := exists_createCost (M := .xmac) ht hrelay ⟨16, 20, 0⟩
  have heq := hall .xmac (by simp) busyLeaf ⟨16, 20, 0⟩ p minT ht
    ⟨⟨1, by decide⟩, by decide⟩ hdom hp hcost
  obtain ⟨fout, h⟩ := exists_packetsToSend .xmac ht ⟨16, 20, 0⟩
  obtain ⟨i, hi⟩ := busyLeaf_lifetime_lt h
  obtain ⟨⟨j, hj, hjmin⟩, _⟩ := hcost.minT_spec ht hrelay h
  have hle := (hp.minT_spec ht h).2 i
  rw [← heq, ← hjmin] at hle
  exact absurd (hi j hj) (not_lt.mpr hle)

end PTunes.Optimizer
