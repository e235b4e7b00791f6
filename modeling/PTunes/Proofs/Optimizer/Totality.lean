import Mathlib.Data.EReal.Operations
import Mathlib.Data.Set.Finite.Lattice
import Mathlib.Order.Interval.Finset.Basic
import PTunes.Optimizer.Consistent
import PTunes.Proofs.Optimizer.Lpp
import PTunes.Proofs.Optimizer.Rates
import PTunes.Proofs.Optimizer.Xmac

/-!
# `PTunes.Proofs.Optimizer.Totality`: when the optimizer answers

`optimize` tests the end-to-end constraints before it commits to its first branch. The
queuing constraint, the cost and the search come after the commit, so their failure is not
caught: `optimize` then has no answer, although the fallback would be due. There are two
ways to get there. No parameters satisfy the queuing constraint together with the end-to-end
constraints, or the most recent topology has no relay, so that `ic:min` raises an error on the
empty list of lifetimes.

In all other cases there is an answer, and it is the right one (`answers_iff`). The domains
are finite and the outgoing rates are determined by the tree (`packetsToSend_unique`), so a
solution of least cost exists, and it cannot be improved.
-/

set_option autoImplicit false

namespace PTunes.Optimizer

open PTunes.Controller

/-! ### The cost -/

section Cost

variable {M : MacModel} {t : Topology} {v : MacConfiguration}
  {fout : Fin t.size → ℝ}

/-- The nodes whose lifetimes the cost collects are the relays. -/
theorem mem_lifetimes_iff {x : EReal} :
    x ∈ lifetimes M t v fout ↔ ∃ i, t.IsRelay i ∧ M.nodeLifetime t fout i v = x := by
  simp [lifetimes, Topology.IsRelay]

/-- The list of lifetimes is empty when the topology has no relay. -/
theorem lifetimes_ne_nil_iff : lifetimes M t v fout ≠ [] ↔ t.HasRelay := by
  constructor
  · intro h
    obtain ⟨x, hx⟩ := List.exists_mem_of_ne_nil _ h
    obtain ⟨i, hi, _⟩ := mem_lifetimes_iff.mp hx
    exact ⟨i, hi⟩
  · rintro ⟨i, hi⟩
    exact List.ne_nil_of_mem (mem_lifetimes_iff.mpr ⟨i, hi, rfl⟩)

/-- The fold of `min` over a list is an entry, and no entry is below it. -/
theorem foldl_min_spec (l : List EReal) (a : EReal) :
    l.foldl min a ∈ a :: l ∧ ∀ x ∈ a :: l, l.foldl min a ≤ x := by
  induction l generalizing a with
  | nil => simp
  | cons b l ih =>
      obtain ⟨hmem, hle⟩ := ih (min a b)
      have hle' := hle (min a b) (by simp)
      rw [List.foldl_cons]
      constructor
      · rcases List.mem_cons.mp hmem with h | h
        · rw [h]
          rcases min_choice a b with hm | hm <;> simp [hm]
        · simp [h]
      · intro x hx
        simp only [List.mem_cons] at hx
        rcases hx with rfl | rfl | hx
        · exact hle'.trans (min_le_left _ _)
        · exact hle'.trans (min_le_right _ _)
        · exact hle x (by simp [hx])

/-- The minimum of a list that is not empty is one of its entries. -/
theorem icMin_of_ne_nil {l : List EReal} (h : l ≠ []) :
    ∃ m ∈ l, icMin l = some m ∧ ∀ x ∈ l, m ≤ x := by
  cases l with
  | nil => exact absurd rfl h
  | cons a l =>
      obtain ⟨hmem, hle⟩ := foldl_min_spec l a
      exact ⟨_, hmem, rfl, hle⟩

end Cost

/-! ### Search -/

/-- What the search needs of the model of a MAC protocol. -/
structure MacModel.Searchable (M : MacModel) : Prop where
  finite_domain : {v | M.createVariables v = true}.Finite
  nodeLifetime_real : ∀ (t : Topology) (fout : Fin t.size → ℝ) (i : Fin t.size) v,
    (t.node i).isSink = false → ∃ r : ℝ, M.nodeLifetime t fout i v = r

/-- The most recent topology has a relay, so that `createCost` takes the minimum of a list that
is not empty. -/
def CostDefined (ts : List Topology) : Prop :=
  ∃ recent ∈ ts.head?, recent.HasRelay

/-- The least improvement as a real number. -/
theorem delta_eq : delta = ((3600 : ℝ) : EReal) := rfl

section Search

variable {M : MacModel} {ts : List Topology} {b : Bounds}
  {v : MacConfiguration} {c : EReal}

/-- A solution is feasible. -/
theorem Solution.feasible (h : Solution M ts b v c) : Feasible M ts b v := by
  obtain ⟨hsetup, recent, hrecent, fout, hpackets, hqueuing, _⟩ := h
  exact ⟨hsetup, recent, hrecent, fout, hpackets, hqueuing⟩

/-- With a defined cost, feasible parameters are a solution. -/
theorem Feasible.exists_cost (hM : M.Searchable) (hcost : CostDefined ts)
    (h : Feasible M ts b v) : ∃ r : ℝ, Solution M ts b v r := by
  obtain ⟨hsetup, recent, hrecent, fout, hpackets, hqueuing⟩ := h
  obtain ⟨recent', hrecent', hrelay⟩ := hcost
  obtain rfl : recent' = recent := Option.mem_unique hrecent' hrecent
  obtain ⟨m, hm, hmin, _⟩ := icMin_of_ne_nil (lifetimes_ne_nil_iff.mpr hrelay)
  obtain ⟨i, hi, rfl⟩ := mem_lifetimes_iff.mp hm
  obtain ⟨r, hr⟩ := hM.nodeLifetime_real recent' fout i v hi.2
  rw [hr] at hmin
  exact ⟨-r, hsetup, recent', hrecent, fout, hpackets, hqueuing, r, hmin,
    by rw [EReal.coe_neg]⟩

/-- The cost is a function of the parameters. -/
theorem Solution.unique (hts : ∀ t ∈ ts, t.Consistent) {c' : EReal}
    (h : Solution M ts b v c) (h' : Solution M ts b v c') : c = c' := by
  obtain ⟨_, recent, hrecent, fout, hpackets, _, m, hm, rfl⟩ := h
  obtain ⟨_, recent', hrecent', fout', hpackets', _, m', hm', rfl⟩ := h'
  obtain rfl : recent = recent' := Option.mem_unique hrecent hrecent'
  have ht := hts recent (List.mem_of_head? hrecent)
  obtain rfl := packetsToSend_unique ht hpackets hpackets'
  obtain rfl : m = m' := Option.mem_unique hm hm'
  rfl

/-- When something is feasible and the cost is defined, the search ends with a solution: one
of least cost. -/
theorem exists_solve (hM : M.Searchable) (hts : ∀ t ∈ ts, t.Consistent)
    (hcost : CostDefined ts) (h : ∃ v, Feasible M ts b v) :
    ∃ v, Solve M ts b v := by
  classical
  have hsol : ∀ v, ∃ r : ℝ, Feasible M ts b v → Solution M ts b v r := by
    intro v
    by_cases hv : Feasible M ts b v
    · obtain ⟨r, hr⟩ := hv.exists_cost hM hcost
      exact ⟨r, fun _ => hr⟩
    · exact ⟨0, fun hv' => absurd hv' hv⟩
  choose cost hcost' using hsol
  have hfin : {v | Feasible M ts b v}.Finite :=
    hM.finite_domain.subset fun v hv => hv.1.1
  obtain ⟨v, hv, hmin⟩ := hfin.exists_minimalFor cost _ h
  refine ⟨v, cost v, hcost' v hv, fun v' c' hsol' hle => ?_⟩
  -- An improvement would have a lower cost than the least one.
  have hv' := hsol'.feasible
  have hc' : c' = cost v' := hsol'.unique hts (hcost' v' hv')
  have hlt : cost v' ≤ cost v - 3600 := by
    rw [hc', delta_eq, ← EReal.coe_sub, EReal.coe_le_coe_iff] at hle
    exact hle
  have hge : cost v ≤ cost v' := hmin hv' (by linarith)
  linarith

/-- A solution that the search ends with has a cost, so the most recent topology has a relay. -/
theorem Solution.costDefined (h : Solution M ts b v c) : CostDefined ts := by
  obtain ⟨_, recent, hrecent, fout, _, _, m, hm, _⟩ := h
  have hne : lifetimes M recent v fout ≠ [] := by
    intro hnil
    rw [hnil] at hm
    cases hm
  exact ⟨recent, hrecent, lifetimes_ne_nil_iff.mp hne⟩

/-- When nothing is feasible although the end-to-end constraints are satisfiable, or when the
most recent topology has no relay, there is no answer. Otherwise every answer is right. -/
theorem MacModel.Searchable.answers_spec (hM : M.Searchable) (hts : ∀ t ∈ ts, t.Consistent) :
    Answers M ts b ↔
      Infeasible M ts b ∨ (∃ v, Feasible M ts b v) ∧ CostDefined ts := by
  constructor
  · rintro ⟨⟨v, ⟨hfeas, hsolve⟩ | ⟨hinf, _⟩⟩, _⟩
    · obtain ⟨c, hsol, _⟩ := hsolve
      exact .inr ⟨⟨v, hsol.feasible⟩, hsol.costDefined⟩
    · exact .inl hinf
  · rintro (hinf | ⟨hfeas, hcost⟩)
    · have hnone : ¬ ∃ v', Feasible M ts b v' := fun ⟨v', hv'⟩ => hinf ⟨v', hv'.1⟩
      constructor
      · exact ⟨_, .inr ⟨hinf, rfl⟩⟩
      · rintro v (⟨hnot, _⟩ | ⟨_, hv⟩)
        · exact absurd hinf hnot
        · exact .inr ⟨hv, hnone⟩
    · have hsat : ¬ Infeasible M ts b := by
        obtain ⟨v, hv⟩ := hfeas
        exact fun hinf => hinf ⟨v, hv.1⟩
      constructor
      · obtain ⟨v, hv⟩ := exists_solve hM hts hcost hfeas
        exact ⟨v, .inl ⟨hsat, hv⟩⟩
      · rintro v (⟨_, hsolve⟩ | ⟨hinf, _⟩)
        · obtain ⟨c, hsol, _⟩ := hsolve
          exact .inl hsol.feasible
        · exact absurd hinf hsat

end Search

/-! ### Both protocols -/

/-- The search of X-MAC. -/
theorem searchable_xmac : MacModel.xmac.Searchable where
  finite_domain := Xmac.finite_domain
  nodeLifetime_real := by
    intro t fout i v hi
    exact ⟨_, if_neg (by simp [hi])⟩

/-- The search of LPP. -/
theorem searchable_lpp : MacModel.lpp.Searchable where
  finite_domain := Lpp.finite_domain
  nodeLifetime_real := by
    intro t fout i v hi
    exact ⟨_, if_neg (by simp [hi])⟩

/-- For both protocols, every list of consistent topologies and every pair of bounds: the
optimizer has an answer and the answer is right exactly when the end-to-end constraints are
not satisfiable, or some parameters satisfy both groups of constraints and the most recent
topology has a relay. -/
theorem answers_iff {M : MacModel} (hM : M ∈ [MacModel.xmac, MacModel.lpp])
    {ts : List Topology} (hts : ∀ t ∈ ts, t.Consistent) (b : Bounds) :
    Answers M ts b ↔
      Infeasible M ts b ∨ (∃ v, Feasible M ts b v) ∧ CostDefined ts := by
  simp only [List.mem_cons, List.not_mem_nil, or_false] at hM
  rcases hM with rfl | rfl
  · exact searchable_xmac.answers_spec hts
  · exact searchable_lpp.answers_spec hts

/-- The sample topology satisfies the condition on the topologies. -/
theorem answers_iff_busyLeaf :
    (∀ t ∈ [busyLeaf], t.Consistent) ∧
      (Answers .lpp [busyLeaf] ⟨0, 1000⟩ ↔
        Infeasible .lpp [busyLeaf] ⟨0, 1000⟩ ∨
          (∃ v, Feasible .lpp [busyLeaf] ⟨0, 1000⟩ v) ∧ CostDefined [busyLeaf]) :=
  ⟨by simpa using consistent_busyLeaf,
    answers_iff (by simp) (by simpa using consistent_busyLeaf) _⟩

/-! ### A network with a busy leaf -/

/-- The parameters (16, 20, 0) satisfy loose end-to-end bounds on the sample topology. -/
theorem setupEndToEnd_busyLeaf :
    SetupEndToEnd .xmac [busyLeaf] ⟨0, 1000⟩ ⟨16, 20, 0⟩ := by
  have hv : Usable ⟨16, 20, 0⟩ := by decide
  have hp : ((1 / 2 : ℚ) : ℝ) ∈ unitInterval := Probability.cast_mem (by norm_num)
  refine ⟨by decide +kernel, ?_⟩
  intro t ht
  obtain rfl : t = busyLeaf := by simpa using ht
  -- `x` is the probability that one transmission succeeds.
  obtain ⟨x, hx⟩ : ∃ x, x = Xmac.ponestrobe ((1 / 2 : ℚ) : ℝ) ⟨16, 20, 0⟩ *
    ((1 / 2 : ℚ) : ℝ) ^ 2 := ⟨_, rfl⟩
  have hx0 : 0 < x := by
    rw [hx]
    exact mul_pos (Xmac.ponestrobe_pos hv hp (by norm_num)) (by norm_num)
  have hx1 : x < 1 := by
    have hle := (Xmac.ponestrobe_mem hv hp).2
    rw [hx]
    norm_num at hle ⊢
    linarith
  have hprr : ∀ i : Fin 4, (busyLeaf.node i).prr = 1 / 2 := by decide +kernel
  have hsink : ∀ i : Fin 4, (busyLeaf.node i).isSink = true ↔ i = 0 := by decide
  have hrel : ∀ i : Fin 4, MacModel.xmac.perHopReliability (busyLeaf.node i) ⟨16, 20, 0⟩ =
      if i = 0 then 1 else x := by
    intro i
    show Xmac.perHopReliability _ _ = _
    rw [Xmac.perHopReliability, hprr i, ← hx]
    simp [hsink]
  -- Without retransmissions nothing fails before the transmission that succeeds.
  have hnftx : ∀ i : Fin 4, Xmac.nftx (busyLeaf.node i).prr ⟨16, 20, 0⟩ = 0 := by
    intro i
    simp [Xmac.nftx]
  obtain ⟨y, hy⟩ : ∃ y, y = (0.5 * (16 + 20) * scale + Xmac.tstx ⟨16, 20, 0⟩ : ℝ) := ⟨_, rfl⟩
  have hy0 : 0 ≤ y := by
    rw [hy, Xmac.tstx, Xmac.niter_mul_titer, Xmac.ttxdata]
    norm_num [scale, tturn, tdata]
  have hy1 : y < 1 := by
    rw [hy, Xmac.tstx, Xmac.niter_mul_titer, Xmac.ttxdata]
    norm_num [scale, tturn, tdata]
  have hlat : ∀ i : Fin 4, MacModel.xmac.perHopLatency (busyLeaf.node i) ⟨16, 20, 0⟩ =
      if i = 0 then 0 else y := by
    intro i
    show Xmac.perHopLatency _ _ = _
    rw [Xmac.perHopLatency, hnftx i, hy]
    simp [hsink]
  have hrel' : endToEndReliability .xmac busyLeaf ⟨16, 20, 0⟩ =
      fun path : List (Fin 4) => (path.map fun i => if i = 0 then 1 else x).prod :=
    funext fun path => congrArg (fun f => (path.map f).prod) (funext hrel)
  have hlat' : endToEndLatency .xmac busyLeaf ⟨16, 20, 0⟩ =
      fun path : List (Fin 4) => (path.map fun i => if i = 0 then 0 else y).sum :=
    funext fun path => congrArg (fun f => (path.map f).sum) (funext hlat)
  refine ⟨?_, (x + x * x + x) / 3, (y + (y + y) + y) / 3, ?_, ?_, ?_, ?_, ?_, ?_⟩
  · intro i
    refine Xmac.latencyDefined_of_pos hv (hprr i ▸ hp) ?_
    rw [hprr i]
    norm_num
  · rw [hrel']
    show (x + x * x + x) / 3 * ((3 : Nat) : ℝ) =
      ([[1, 0], [2, 1, 0], [3, 0]].map fun path : List (Fin 4) =>
        (path.map fun i => if i = 0 then 1 else x).prod).sum
    simp
    ring
  · rw [hlat']
    show (y + (y + y) + y) / 3 * ((3 : Nat) : ℝ) =
      ([[1, 0], [2, 1, 0], [3, 0]].map fun path : List (Fin 4) =>
        (path.map fun i => if i = 0 then 0 else y).sum).sum
    simp
    ring
  · have hpos : 0 < (x + x * x + x) / 3 := by positivity
    simpa using hpos
  · nlinarith
  · norm_num
    linarith
  · positivity

/-- No parameters satisfy the queuing constraint on the sample topology: one transmission
takes longer than the time between two packets of node 4. -/
theorem not_feasible_busyLeaf (b : Bounds) (v : MacConfiguration) :
    ¬ Feasible .xmac [busyLeaf] b v := by
  rintro ⟨⟨hdom, _⟩, recent, hrecent, fout, hpackets, hqueuing⟩
  obtain rfl : busyLeaf = recent := by simpa using hrecent
  have hv : Usable v := Xmac.usable_of_createVariables hdom
  have htl := hv.one_le_tl
  have hts : (20 : ℝ) ≤ v.ts := by exact_mod_cast Xmac.le_ts hdom
  obtain ⟨i, ⟨hchildren, hsink⟩, hf, hprr⟩ := exists_busy
  have hp : ((busyLeaf.node i).prr : ℝ) ∈ unitInterval := prr_mem consistent_busyLeaf i
  have hfout : fout i = 1000 := by
    rw [hpackets i, hchildren, hf]
    simp [hsink]
  have hrate : fout i - 1 / ((Xmac.nrtx (busyLeaf.node i).prr v + 1) *
      Xmac.ttx v (busyLeaf.node i).prr) ≤ 0 := by
    have hqueue : Xmac.queuingRate busyLeaf fout i v ≤ 0 := hqueuing i hsink
    rw [Xmac.queuingRate_eq hsink] at hqueue
    exact_mod_cast hqueue
  -- The time of one transmission with its retransmissions.
  have htime : 1 / 100 ≤ (Xmac.nrtx (busyLeaf.node i).prr v + 1) *
      Xmac.ttx v (busyLeaf.node i).prr := by
    have hnrtx := Xmac.nrtx_nonneg hv hp
    have httx := Xmac.ttx_ge hv hp
    have hhalf : (1 / 100 : ℝ) ≤ scale * (v.tl + v.ts) / 2 := by
      norm_num [scale]
      linarith
    nlinarith
  have hforward := one_div_le_one_div_of_le (by norm_num) htime
  norm_num at hforward hrate hfout
  linarith

/-- With a busy leaf and loose end-to-end bounds the optimizer has no answer. -/
theorem not_forall_answers :
    ¬ ∀ M ∈ [MacModel.xmac, MacModel.lpp], ∀ (ts : List Topology) (b : Bounds), ts ≠ [] →
      (∀ t ∈ ts, t.Consistent ∧ t.HasSource) → Answers M ts b := by
  intro hall
  have hts : ∀ t ∈ [busyLeaf], t.Consistent ∧ t.HasSource := by
    have hsource : busyLeaf.HasSource := ⟨⟨1, by decide⟩, by decide⟩
    simpa using ⟨consistent_busyLeaf, hsource⟩
  obtain ⟨⟨v, hv⟩, hright⟩ :=
    hall .xmac (by simp) [busyLeaf] ⟨0, 1000⟩ (by simp) hts
  rcases hv with ⟨_, hsolve⟩ | ⟨hinf, _⟩
  · obtain ⟨c, hsol, _⟩ := hsolve
    exact not_feasible_busyLeaf _ v hsol.feasible
  · exact hinf ⟨_, setupEndToEnd_busyLeaf⟩

end PTunes.Optimizer
