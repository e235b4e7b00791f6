import PTunes.Lib.Probability
import PTunes.Proofs.Optimizer.Flow

/-!
# `PTunes.Proofs.Optimizer.Rates`: the outgoing packet rates of a tree

The equations of `packetsToSend` determine the outgoing rates of a consistent topology, as for
every tree (`Topology.IsTree.packetsToSend_iff_eq`). Here are also the facts about the parameters
and the powers that the models of both protocols use.
-/

set_option autoImplicit false

namespace PTunes.Optimizer

open PTunes.Controller

variable {M : MacModel} {t : Topology} {v : MacConfiguration} {fout fout' : Fin t.size → ℝ}

/-- The radio is switched on for at least one unit of time. -/
theorem Usable.one_le_tl (hv : Usable v) : (1 : ℝ) ≤ v.tl := by exact_mod_cast hv.1

/-- The time without the radio is not negative. -/
theorem Usable.ts_nonneg (hv : Usable v) : (0 : ℝ) ≤ v.ts := by exact_mod_cast hv.2.1

/-- The idle mode draws some power. -/
theorem ps_pos : (0 : ℝ) < ps := by norm_num [ps, u, iidle]

/-- Transmitting takes more power than idling. -/
theorem ptx_sub_ps_pos : (0 : ℝ) < ptx - ps := by norm_num [ptx, ps, u, itx, iidle]

/-- Receiving takes more power than idling. -/
theorem prx_sub_ps_pos : (0 : ℝ) < prx - ps := by norm_num [prx, ps, u, irx, iidle]

/-- The outgoing rates of a consistent topology exist. -/
theorem exists_packetsToSend (M : MacModel) (ht : t.Consistent) (v : MacConfiguration) :
    ∃ fout, PacketsToSend M t v fout :=
  ⟨_, ht.isTree.packetsToSend_iff_eq.mpr rfl⟩

/-- The outgoing rates of a consistent topology are unique. -/
theorem packetsToSend_unique (ht : t.Consistent) (h : PacketsToSend M t v fout)
    (h' : PacketsToSend M t v fout') : fout = fout' :=
  (ht.isTree.packetsToSend_iff_eq.mp h).trans (ht.isTree.packetsToSend_iff_eq.mp h').symm

/-- What a node receives from its children is not negative. -/
theorem received_nonneg {l : List (Fin t.size)} {R : Fin t.size → ℝ} (hR : ∀ c ∈ l, 0 ≤ R c)
    (hfout : ∀ c ∈ l, 0 ≤ fout c) : 0 ≤ (l.map fun c => R c * fout c).sum := by
  apply List.sum_nonneg
  intro x hx
  obtain ⟨c, hc, rfl⟩ := List.mem_map.mp hx
  exact mul_nonneg (hR c hc) (hfout c hc)

/-- The outgoing rates are not negative when the reliabilities are not. -/
theorem fout_nonneg (ht : t.Consistent) (hR : ∀ i, 0 ≤ M.perHopReliability (t.node i) v)
    (h : PacketsToSend M t v fout) (i : Fin t.size) : 0 ≤ fout i := by
  have hf : ∀ i, (0 : ℝ) ≤ (t.node i).f := fun i => by exact_mod_cast ht.f_nonneg i
  rw [ht.isTree.packetsToSend_iff_eq.mp h, Topology.IsTree.outgoing]
  split
  · exact le_refl 0
  · exact Forest.pathSum_nonneg hR hf i

/-- A leaf sends what it generates. -/
theorem fout_of_isLeaf (h : PacketsToSend M t v fout) {i : Fin t.size} (hi : t.IsLeaf i) :
    fout i = (t.node i).f := by
  rw [h i, hi.1, hi.2]
  simp

/-- A node that is not the sink sends at least what it generates. -/
theorem f_le_fout (ht : t.Consistent) (hR : ∀ i, 0 ≤ M.perHopReliability (t.node i) v)
    (h : PacketsToSend M t v fout) {i : Fin t.size} (hi : (t.node i).isSink = false) :
    (t.node i).f ≤ fout i := by
  have hreceived := received_nonneg (l := (t.node i).children) (fun c _ => hR c)
    fun c _ => fout_nonneg ht hR h c
  rw [h i, hi]
  simpa using hreceived

/-- The PRR of a link is a probability. -/
theorem prr_mem (ht : t.Consistent) (i : Fin t.size) :
    ((t.node i).prr : ℝ) ∈ unitInterval :=
  Probability.cast_mem (ht.prr_mem i)

end PTunes.Optimizer
