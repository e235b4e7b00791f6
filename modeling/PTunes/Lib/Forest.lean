import Mathlib.Algebra.BigOperators.Group.Finset.Basic
import Mathlib.Algebra.BigOperators.Ring.Finset
import Mathlib.Algebra.Order.BigOperators.Group.Finset
import Mathlib.Algebra.Order.BigOperators.GroupWithZero.List
import Mathlib.Order.WellFounded
import Mathlib.Tactic.Ring

/-!
# `PTunes.Lib.Forest`: flows in a forest

Each node of a forest has at most one parent, and who follows the parents arrives at a root.
`route` lists a node and its ancestors. So a node `m` is in the subtree of the nodes on its
route, and `between m n` are `m` and the nodes strictly between `m` and `n`.

In a flow each node adds its own part `f` to what its children hand on, and the node `c` hands
on the share `R c` of its value. `pathSum` is the solution: `f m` times the shares along the
path, summed over the subtree.

* `pathSum_eq`: it solves the equations.
* `eq_pathSum`: it is the only solution, on every set of nodes that is closed under children.
-/

set_option autoImplicit false

namespace PTunes

open Finset

/-- The parents of a forest. -/
structure Forest (α : Type) where
  parent : α → Option α
  wellFounded : WellFounded fun p m => parent m = some p

namespace Forest

variable {α : Type} (F : Forest α)

/-! ### Routes -/

/-- A node and its ancestors. -/
noncomputable def route : α → List α :=
  F.wellFounded.fix fun m above =>
    m :: match h : F.parent m with
      | some p => above p h
      | none => []

variable {F} {m n p c : α}

/-- The route of a root. -/
theorem route_of_none (h : F.parent m = none) : F.route m = [m] := by
  rw [route, WellFounded.fix_eq]
  congr 1
  -- The `match` of the definition is over the equation as well, so it is split, not rewritten.
  split
  · next hp => rw [h] at hp; cases hp
  · rfl

/-- The route of another node goes on with the one of its parent. -/
theorem route_of_some (h : F.parent m = some p) : F.route m = m :: F.route p := by
  rw [route, WellFounded.fix_eq]
  congr 1
  split
  · next q hq =>
      rw [h] at hq
      obtain rfl := Option.some.inj hq
      rfl
  · next hp => rw [h] at hp; cases hp

/-- A route starts with its node. -/
theorem exists_route (F : Forest α) (m : α) : ∃ rest, F.route m = m :: rest := by
  cases h : F.parent m with
  | none => exact ⟨[], route_of_none h⟩
  | some p => exact ⟨F.route p, route_of_some h⟩

/-- The route of an ancestor is the end of the route. -/
theorem route_suffix (h : n ∈ F.route m) : F.route n <:+ F.route m := by
  induction m using F.wellFounded.induction with
  | h m ih =>
      cases hm : F.parent m with
      | none =>
          rw [route_of_none hm, List.mem_singleton] at h
          rw [h]
      | some p =>
          rw [route_of_some hm] at h ⊢
          rcases List.mem_cons.mp h with rfl | hp
          · rw [route_of_some hm]
          · exact (ih p hm hp).trans (List.suffix_cons m _)

/-- A child is not on the route of its parent. -/
theorem notMem_route_of_parent (h : F.parent c = some n) : c ∉ F.route n := by
  intro hc
  -- The route of the child would be a part of the shorter route of its parent.
  have hlen := (route_suffix hc).length_le
  rw [route_of_some h, List.length_cons] at hlen
  omega

/-- In a finite forest one can go on from the children to their parents. -/
theorem wellFounded_children [Finite α] (F : Forest α) :
    WellFounded fun c n => F.parent c = some n := by
  cases nonempty_fintype α
  obtain ⟨bound, hbound⟩ : ∃ bound, ∀ m, (F.route m).length ≤ bound :=
    ⟨univ.sup fun m => (F.route m).length, fun m =>
      le_sup (f := fun m => (F.route m).length) (mem_univ m)⟩
  -- The routes get longer towards the leaves, up to the bound.
  apply Subrelation.wf (r := (measure fun m => bound - (F.route m).length).rel) _ (measure _).wf
  intro c n hc
  have hlen : (F.route c).length = (F.route n).length + 1 := by
    rw [route_of_some hc, List.length_cons]
  have hle := hbound c
  show bound - (F.route c).length < bound - (F.route n).length
  omega

/-! ### Paths -/

section Paths

variable [DecidableEq α] {K : Type} [CommSemiring K] (F : Forest α) (R : α → K)

/-- `m` and the nodes strictly between `m` and `n`, when `m` is in the subtree of `n`. -/
noncomputable def between (m n : α) : List α := (F.route m).takeWhile (· ≠ n)

/-- The product of the shares along the path from `m` to `n`, if there is one. -/
noncomputable def weight (m n : α) : K :=
  if n ∈ F.route m then ((F.between m n).map R).prod else 0

variable {F R}

/-- The empty path. -/
theorem weight_self : F.weight R n n = 1 := by
  obtain ⟨rest, hroute⟩ := F.exists_route n
  simp [weight, between, hroute]

/-- No path starts at another root. -/
theorem weight_of_none (h : F.parent m = none) (hmn : m ≠ n) : F.weight R m n = 0 := by
  simp [weight, route_of_none h, hmn.symm]

/-- A path goes through the parent. -/
theorem weight_of_some (h : F.parent m = some p) (hmn : m ≠ n) :
    F.weight R m n = R m * F.weight R p n := by
  simp [weight, between, route_of_some h, hmn, hmn.symm]

/-- No path leads from a node to its child. -/
theorem weight_child (h : F.parent c = some n) : F.weight R n c = 0 :=
  if_neg (notMem_route_of_parent h)

/-- A path that is not empty goes on from the parent of its first node. -/
theorem weight_mul_share (hm : F.parent m = some p) (c : α) :
    F.weight R m c * R c = R m * (F.weight R p c * R c) + if c = m then R m else 0 := by
  by_cases hcm : c = m
  · subst hcm
    simp [weight_self, weight_child hm]
  · rw [if_neg hcm, add_zero, weight_of_some hm (Ne.symm hcm), mul_assoc]

variable [Fintype α]

/-- No path from a node leads to one of its children. -/
theorem sum_weight_self (F : Forest α) (R : α → K) (n : α) :
    ∑ c with F.parent c = some n, F.weight R n c * R c = 0 :=
  sum_eq_zero fun c hc => by rw [weight_child (mem_filter.mp hc).2, zero_mul]

/-- No path from a root leads to a child. -/
theorem sum_weight_of_none (h : F.parent m = none) :
    ∑ c with F.parent c = some n, F.weight R m c * R c = 0 := by
  refine sum_eq_zero fun c hc => ?_
  have hcn := (mem_filter.mp hc).2
  have hmc : m ≠ c := by
    rintro rfl
    cases h.symm.trans hcn
  rw [weight_of_none h hmc, zero_mul]

/-- A path is empty, or it ends with a child. -/
theorem weight_eq (F : Forest α) (R : α → K) (m n : α) :
    F.weight R m n =
      (if m = n then 1 else 0) + ∑ c with F.parent c = some n, F.weight R m c * R c := by
  induction m using F.wellFounded.induction with
  | h m ih =>
      -- The empty path, or a path that goes on from the parent of `m`, if there is one.
      by_cases hmn : m = n
      · rw [hmn, weight_self, if_pos rfl, sum_weight_self, add_zero]
      · rw [if_neg hmn, zero_add]
        cases hm : F.parent m with
        | none => rw [weight_of_none hm hmn, sum_weight_of_none hm]
        | some p =>
            have hchild : (∑ c with F.parent c = some n, if c = m then R m else 0) =
                R m * if p = n then 1 else 0 := by
              simp [sum_ite_eq', hm]
            rw [weight_of_some hm hmn, ih p hm, mul_add,
              sum_congr rfl fun c _ => weight_mul_share hm c, sum_add_distrib, ← mul_sum,
              hchild, add_comm]

/-! ### Flows -/

/-- The nodes whose route leads through `n`. -/
noncomputable def subtree (F : Forest α) (n : α) : Finset α := univ.filter (n ∈ F.route ·)

/-- The parts of the subtree, each times the shares along its path. -/
noncomputable def pathSum (F : Forest α) (R f : α → K) (n : α) : K :=
  ∑ m ∈ F.subtree n, f m * ((F.between m n).map R).prod

/-- The sum over all nodes. -/
theorem pathSum_eq_sum_weight (F : Forest α) (R f : α → K) (n : α) :
    F.pathSum R f n = ∑ m, f m * F.weight R m n := by
  simp only [pathSum, subtree, sum_filter, weight, mul_ite, mul_zero]

/-- The sums over the paths solve the equations of a flow. -/
theorem pathSum_eq (F : Forest α) (R f : α → K) (n : α) :
    F.pathSum R f n = (∑ c with F.parent c = some n, R c * F.pathSum R f c) + f n := by
  have hown : ∑ m, f m * (if m = n then 1 else 0) = f n := by simp
  have hchildren : ∑ m, f m * ∑ c with F.parent c = some n, F.weight R m c * R c =
      ∑ c with F.parent c = some n, R c * F.pathSum R f c := by
    -- Sum over the children first, then over the nodes below each.
    simp only [pathSum_eq_sum_weight, mul_sum]
    rw [sum_comm]
    refine sum_congr rfl fun c _ => sum_congr rfl fun m _ => ?_
    ring
  calc F.pathSum R f n = ∑ m, f m * F.weight R m n := pathSum_eq_sum_weight F R f n
    _ = ∑ m, (f m * (if m = n then 1 else 0) +
          f m * ∑ c with F.parent c = some n, F.weight R m c * R c) :=
        sum_congr rfl fun m _ => by rw [← mul_add, ← weight_eq]
    _ = (∑ c with F.parent c = some n, R c * F.pathSum R f c) + f n := by
        rw [sum_add_distrib, hown, hchildren, add_comm]

/-- A flow on nodes that are closed under children is the sum over the paths. -/
theorem eq_pathSum {S : α → Prop} (hS : ∀ c n, F.parent c = some n → S n → S c)
    {f x : α → K} (hx : ∀ n, S n → x n = (∑ c with F.parent c = some n, R c * x c) + f n)
    (hn : S n) : x n = F.pathSum R f n := by
  -- From the leaves to `n`: the equation of `n` is about the values of its children.
  induction n using F.wellFounded_children.induction with
  | h n ih =>
      rw [hx n hn, pathSum_eq]
      refine congrArg (· + f n) (sum_congr rfl fun c hc => ?_)
      have hcn := (mem_filter.mp hc).2
      rw [ih c hcn (hS c n hcn hn)]

/-- When everything is handed on, the whole subtree arrives. -/
theorem pathSum_one (f : α → K) (n : α) :
    F.pathSum (fun _ => 1) f n = ∑ m ∈ F.subtree n, f m := by
  simp [pathSum]

end Paths

/-! ### Bounds -/

section Bounds

variable [DecidableEq α] {K : Type} [CommSemiring K] [PartialOrder K] [IsOrderedRing K]
  {R R' f f' : α → K}

/-- A product of shares that are not negative. -/
theorem prod_between_nonneg (hR : ∀ c, 0 ≤ R c) (m n : α) :
    0 ≤ ((F.between m n).map R).prod := by
  apply List.prod_nonneg
  intro x hx
  obtain ⟨c, _, rfl⟩ := List.mem_map.mp hx
  exact hR c

/-- A product of larger shares is larger. -/
theorem prod_between_mono (hR : ∀ c, 0 ≤ R c) (hRR : ∀ c, R c ≤ R' c) (m n : α) :
    ((F.between m n).map R).prod ≤ ((F.between m n).map R').prod :=
  List.prod_map_le_prod_map₀ R R' (fun c _ => hR c) fun c _ => hRR c

variable [Fintype α]

/-- What arrives is not negative. -/
theorem pathSum_nonneg (hR : ∀ c, 0 ≤ R c) (hf : ∀ m, 0 ≤ f m) (n : α) :
    0 ≤ F.pathSum R f n :=
  sum_nonneg fun m _ => mul_nonneg (hf m) (prod_between_nonneg hR m n)

/-- What arrives grows with the parts. -/
theorem pathSum_mono_left (hR : ∀ c, 0 ≤ R c) (hff : ∀ m, f m ≤ f' m) (n : α) :
    F.pathSum R f n ≤ F.pathSum R f' n :=
  sum_le_sum fun m _ => mul_le_mul_of_nonneg_right (hff m) (prod_between_nonneg hR m n)

/-- What arrives grows with the shares. -/
theorem pathSum_mono_right (hR : ∀ c, 0 ≤ R c) (hRR : ∀ c, R c ≤ R' c) (hf : ∀ m, 0 ≤ f m)
    (n : α) : F.pathSum R f n ≤ F.pathSum R' f n :=
  sum_le_sum fun m _ => mul_le_mul_of_nonneg_left (prod_between_mono hR hRR m n) (hf m)

/-- What arrives is at most the sum of the parts of the subtree. -/
theorem pathSum_le (hR : ∀ c, 0 ≤ R c) (hR1 : ∀ c, R c ≤ 1) (hf : ∀ m, 0 ≤ f m) (n : α) :
    F.pathSum R f n ≤ ∑ m ∈ F.subtree n, f m := by
  rw [← pathSum_one]
  exact pathSum_mono_right hR hR1 hf n

end Bounds

end Forest

end PTunes
