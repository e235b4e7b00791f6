import PTunes.Proofs.Rime.NeighborTable
import Mathlib.Algebra.BigOperators.Group.List.Basic
import Mathlib.Algebra.Order.BigOperators.Group.List
import Mathlib.Algebra.Order.Ring.Nat

/-!
# `PTunes.Proofs.Rime.NeighborEtx`: the estimate of a link that keeps timing out

`neighbor_timedout_etx` adds a transmission count to the current slot of the ring `etxs`, and
`neighbor_etx` is the truncated mean of the slots. A slot has 8 bits, so a sum that passes 255
loses 256, and the estimate of a link can fall by a timeout.

`exactSlots` adds the same counts to slots without a bound. The 8-bit ring is the exact ring
slot by slot modulo 256 (`slots_timeouts`), so the sum of the slots is the exact sum less 256
for each multiple of 256 that a slot passes, which `lost` counts. The exact sum is
the sum before plus all counts. That gives the condition of
`neighborEtx_le_timeouts_iff`: the estimate falls exactly when more is lost than the counts
and the remainder of the mean before make up for.
-/

set_option autoImplicit false

namespace PTunes.Rime

open PTunes.Core

/-- Consecutive calls of `neighbor_timedout_etx` for one neighbor. -/
def timeouts (t : NeighborTable) (i : NeighborPtr) (counts : List UInt8) : NeighborTable :=
  counts.foldl (fun t etx => neighborTimedoutEtx t (some i) etx) t

/-- The slots of a neighbor as numbers. -/
def slots (n : Neighbor) : List Nat := n.etxs.toList.map UInt8.toNat

/-- The ring after the counts, with slots that never wrap. -/
def exactSlots (xs : List Nat) (p : Nat) : List UInt8 → List Nat
  | [] => xs
  | etx :: counts =>
      exactSlots (xs.modify p (· + etx.toNat)) ((p + 1) % neighborNumEtxs) counts

/-- What the 8-bit slots lose: 256 for each multiple of 256 that a slot passes. -/
def lost (n : Neighbor) (counts : List UInt8) : Nat :=
  256 * ((exactSlots (slots n) n.etxptr.toNat counts).map (· / 256)).sum

/-! ### Lists of numbers -/

/-- Adding to one element adds to the sum. -/
theorem sum_modify_add (xs : List Nat) (p c : Nat) (hp : p < xs.length) :
    (xs.modify p (· + c)).sum = xs.sum + c := by
  induction xs generalizing p with
  | nil => simp at hp
  | cons x xs ih =>
      cases p with
      | zero =>
          simp only [List.modify_zero_cons, List.sum_cons]
          omega
      | succ p =>
          simp only [List.length_cons, Nat.add_lt_add_iff_right] at hp
          simp only [List.modify_succ_cons, List.sum_cons, ih p hp]
          omega

/-- A sum is the sum of the remainders plus the sum of the quotients. -/
theorem sum_mod_add_div (xs : List Nat) :
    (xs.map (· % 256)).sum + 256 * (xs.map (· / 256)).sum = xs.sum := by
  induction xs with
  | nil => rfl
  | cons x xs ih =>
      simp only [List.map_cons, List.sum_cons]
      omega

/-- Adding modulo 256 to one element is adding, and then taking all remainders. -/
theorem modify_map_mod (xs : List Nat) (p c : Nat) :
    (xs.map (· % 256)).modify p (fun x => (x + c) % 256)
      = (xs.modify p (· + c)).map (· % 256) := by
  refine List.ext_getElem? fun k => ?_
  simp only [List.getElem?_map, List.getElem?_modify]
  by_cases hk : p = k
  · simp [hk, Function.comp_def]
  · simp [hk]

/-! ### The ring -/

/-- The ring has `NUM_ETXS` slots. -/
@[simp] theorem length_slots (n : Neighbor) : (slots n).length = neighborNumEtxs := by
  simp [slots]

/-- A slot has 8 bits. -/
theorem slots_lt (n : Neighbor) {x : Nat} (hx : x ∈ slots n) : x < 256 := by
  obtain ⟨b, _, rfl⟩ := List.mem_map.mp hx
  exact b.toNat_lt

/-- The slots are their own remainders modulo 256. -/
theorem slots_map_mod (n : Neighbor) : (slots n).map (· % 256) = slots n := by
  refine (List.map_congr_left fun x hx => ?_).trans (List.map_id _)
  exact Nat.mod_eq_of_lt (slots_lt n hx)

/-- The estimate is the truncated mean. The mean of 8-bit slots fits 8 bits. -/
theorem neighborEtx_toNat (n : Neighbor) :
    (neighborEtx n).toNat = (slots n).sum / neighborNumEtxs := by
  have hle : (slots n).sum ≤ neighborNumEtxs * 255 := by
    have h := List.sum_le_card_nsmul (slots n) 255 fun x hx => Nat.le_of_lt_succ (slots_lt n hx)
    rwa [length_slots, Nat.nsmul_eq_mul] at h
  have hmean : (slots n).sum / neighborNumEtxs < 256 :=
    Nat.lt_succ_of_le (Nat.div_le_of_le_mul hle)
  have hscale : neighborEtxScale * (slots n).sum = (slots n).sum := Nat.one_mul _
  show (UInt8.ofNat (neighborEtxScale * (slots n).sum / neighborNumEtxs)).toNat = _
  rw [hscale, UInt8.toNat_ofNat']
  exact Nat.mod_eq_of_lt hmean

/-- One timeout adds to the current slot modulo 256 and advances `etxptr`. -/
theorem slots_timedout {t : NeighborTable} {i : NeighborPtr} (etx : UInt8)
    (hp : (t.get i).etxptr.toNat < neighborNumEtxs) :
    slots ((neighborTimedoutEtx t (some i) etx).get i)
      = (slots (t.get i)).modify (t.get i).etxptr.toNat (fun x => (x + etx.toNat) % 256) ∧
    ((neighborTimedoutEtx t (some i) etx).get i).etxptr.toNat
      = ((t.get i).etxptr.toNat + 1) % neighborNumEtxs := by
  simp only [neighborTimedoutEtx, NeighborTable.get_write_self]
  refine ⟨?_, ?_⟩
  · have hsize : (t.get i).etxptr.toNat < (t.get i).etxs.toList.length := by simpa using hp
    refine List.ext_getElem? fun k => ?_
    simp only [slots, List.getElem?_map, List.getElem?_modify, Vector.toList_setIfInBounds,
      List.getElem?_set]
    by_cases hk : (t.get i).etxptr.toNat = k
    · subst hk
      simp [hp]
    · simp [hk]
  · have hmod : ((t.get i).etxptr.toNat + 1) % neighborNumEtxs < neighborNumEtxs :=
      Nat.mod_lt _ (by decide)
    rw [nextEtxptr, UInt8.toNat_ofNat']
    exact Nat.mod_eq_of_lt (hmod.trans (by decide))

/-- The 8-bit ring after any number of timeouts is the exact ring modulo 256. -/
theorem slots_timeouts {t : NeighborTable} {i : NeighborPtr} {counts : List UInt8}
    {xs : List Nat} (hp : (t.get i).etxptr.toNat < neighborNumEtxs)
    (hxs : slots (t.get i) = xs.map (· % 256)) :
    slots ((timeouts t i counts).get i)
      = (exactSlots xs (t.get i).etxptr.toNat counts).map (· % 256) := by
  induction counts generalizing t xs with
  | nil => exact hxs
  | cons etx counts ih =>
      obtain ⟨hslots, hnext⟩ := slots_timedout etx hp
      have hlt : ((neighborTimedoutEtx t (some i) etx).get i).etxptr.toNat < neighborNumEtxs := by
        rw [hnext]
        exact Nat.mod_lt _ (by decide)
      rw [hxs, modify_map_mod] at hslots
      have hrest := ih hlt hslots
      rw [hnext] at hrest
      exact hrest

/-- The exact ring keeps everything that is added. -/
theorem sum_exactSlots {xs : List Nat} {p : Nat} {counts : List UInt8}
    (hlen : xs.length = neighborNumEtxs) (hp : p < neighborNumEtxs) :
    (exactSlots xs p counts).sum = xs.sum + (counts.map UInt8.toNat).sum := by
  induction counts generalizing xs p with
  | nil => simp [exactSlots]
  | cons etx counts ih =>
      have hlen' : (xs.modify p (· + etx.toNat)).length = neighborNumEtxs := by
        rw [List.length_modify, hlen]
      rw [exactSlots, ih hlen' (Nat.mod_lt _ (by decide)), sum_modify_add xs p _ (hlen ▸ hp),
        List.map_cons, List.sum_cons]
      omega

/-- The sum of the slots after the timeouts, and what they have lost, is the sum before plus
all counts. -/
theorem sum_slots_timeouts {t : NeighborTable} {i : NeighborPtr} (counts : List UInt8)
    (hp : (t.get i).etxptr.toNat < neighborNumEtxs) :
    (slots ((timeouts t i counts).get i)).sum + lost (t.get i) counts
      = (slots (t.get i)).sum + (counts.map UInt8.toNat).sum := by
  rw [slots_timeouts hp (slots_map_mod _).symm, lost, sum_mod_add_div,
    sum_exactSlots (length_slots _) hp]

/-! ### The estimate -/

/-- Timeouts never lower the estimate of a link exactly when the slots lose at most what the
counts add and the truncation of the mean had left over. -/
theorem neighborEtx_le_timeouts_iff (t : NeighborTable) (i : NeighborPtr)
    (counts : List UInt8) (hp : (t.get i).etxptr.toNat < neighborNumEtxs) :
    neighborEtx (t.get i) ≤ neighborEtx ((timeouts t i counts).get i) ↔
      lost (t.get i) counts
        ≤ (slots (t.get i)).sum % neighborNumEtxs + (counts.map UInt8.toNat).sum := by
  have hsum := sum_slots_timeouts counts hp
  rw [UInt8.le_iff_toNat_le, neighborEtx_toNat, neighborEtx_toNat]
  simp only [neighborNumEtxs] at hsum ⊢
  omega

/-- One timeout that wraps no slot. -/
theorem neighborEtx_le_timeouts_iff_sample :
    neighborEtx ((neighborAdd samplePlatform neighborInit ⟨2, 0⟩ 0 1).get 0)
      ≤ neighborEtx ((timeouts (neighborAdd samplePlatform neighborInit ⟨2, 0⟩ 0 1) 0
        [11]).get 0) :=
  (neighborEtx_le_timeouts_iff _ 0 [11] (by decide)).mpr (by decide)

/-- In every run, each neighbor satisfies the hypothesis: `etxptr` is a slot number. -/
theorem etxptr_lt_of_reachable {P : Platform} {t : NeighborTable}
    (h : (neighborMachine P).ReachableIf NonNull t) (i : NeighborPtr) :
    (t.get i).etxptr.toNat < neighborNumEtxs :=
  (wellFormed_of_reachable h).etxptr_lt i

/-- As long as no slot passes 255, timeouts never lower the estimate. -/
theorem neighborEtx_le_timeouts_of_no_wrap {t : NeighborTable} {i : NeighborPtr}
    {counts : List UInt8} (hp : (t.get i).etxptr.toNat < neighborNumEtxs)
    (hw : ∀ x ∈ exactSlots (slots (t.get i)) (t.get i).etxptr.toNat counts, x < 256) :
    neighborEtx (t.get i) ≤ neighborEtx ((timeouts t i counts).get i) := by
  have hzero : lost (t.get i) counts = 0 := by
    rw [lost, List.sum_eq_zero, Nat.mul_zero]
    intro q hq
    obtain ⟨x, hx, rfl⟩ := List.mem_map.mp hq
    exact Nat.div_eq_of_lt (hw x hx)
  rw [neighborEtx_le_timeouts_iff t i counts hp, hzero]
  exact Nat.zero_le _

/-- A new neighbor, and 368 timeouts after 11 transmissions each. -/
def manyTimeouts : List NeighborOp :=
  .add ⟨2, 0⟩ 0 1 :: List.replicate 368 (.timedoutEtx (some 0) 11)

/-- A neighbor added with the estimate 1 that times out 368 times after 11 transmissions
has 254 in every slot. One timeout more lowers its estimate. -/
theorem not_forall_neighborEtx_le_timeouts :
    ¬ ∀ (P : Platform) (t : NeighborTable), (neighborMachine P).ReachableIf NonNull t →
      ∀ (i : NeighborPtr) (counts : List UInt8),
        neighborEtx (t.get i) ≤ neighborEtx ((timeouts t i counts).get i) := by
  intro h
  have hend : ((neighborMachine samplePlatform).runIf NonNull neighborInit manyTimeouts).map
      (fun t => (neighborEtx (t.get 0), neighborEtx ((timeouts t 0 [11]).get 0)))
        = some (254, 238) := by
    decide +kernel
  obtain ⟨t, ht, he⟩ := Machine.exists_reachableIf_of_runIf (M := neighborMachine samplePlatform)
    hend
  have hle := h samplePlatform t ht 0 [11]
  rw [(Prod.mk.inj he).1, (Prod.mk.inj he).2] at hle
  exact absurd hle (by decide)

end PTunes.Rime
