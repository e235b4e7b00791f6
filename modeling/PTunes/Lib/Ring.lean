import Mathlib.Data.List.Basic
import Mathlib.Logic.Function.Basic

/-!
# `PTunes.Lib.Ring`: a queue in a ring of places

The items of a queue lie in an array of `n` places, one behind the other from the place `get` on,
and around its end. `ringContents data n get count` are the items, the first one first.

* `ringContents_push`: a write to the place behind the last item adds an item.
* `ringContents_pop`: the place `get` has the first item, and the rest begins behind it.
* `ringContents_update`: a write to the place behind the last item, which is still none of them,
  changes no item.
-/

set_option autoImplicit false

namespace PTunes

variable {α : Type}

/-- The items of the queue. -/
def ringContents (data : Nat → α) (n get count : Nat) : List α :=
  (List.range count).map fun i => data ((get + i) % n)

/-- A ring holds as many values as its count says. -/
@[simp] theorem length_ringContents (data : Nat → α) (n get count : Nat) :
    (ringContents data n get count).length = count := by
  simp [ringContents]

/-- An empty ring. -/
@[simp] theorem ringContents_zero (data : Nat → α) (n get : Nat) :
    ringContents data n get 0 = [] := rfl

/-- The last item. -/
theorem ringContents_succ (data : Nat → α) (n get count : Nat) :
    ringContents data n get (count + 1) =
      ringContents data n get count ++ [data ((get + count) % n)] := by
  rw [ringContents, List.range_succ, List.map_append]
  rfl

/-- The first item, and the rest. -/
theorem ringContents_pop (data : Nat → α) (n get count : Nat) :
    ringContents data n get (count + 1) =
      data (get % n) :: ringContents data n ((get + 1) % n) count := by
  rw [ringContents, List.range_succ_eq_map, List.map_cons, List.map_map, Nat.add_zero]
  refine congrArg₂ List.cons rfl (List.map_congr_left fun i _ => ?_)
  show data ((get + (i + 1)) % n) = data (((get + 1) % n + i) % n)
  rw [Nat.mod_add_mod, Nat.add_assoc, Nat.add_comm 1 i]

/-- The items lie in the places `(get + i) % n`. -/
theorem ringContents_congr {data data' : Nat → α} {n get count : Nat}
    (h : ∀ i < count, data' ((get + i) % n) = data ((get + i) % n)) :
    ringContents data' n get count = ringContents data n get count :=
  List.map_congr_left fun i hi => h i (List.mem_range.mp hi)

/-- The place behind the last item has none of them. -/
theorem ring_place_ne {n get count i : Nat} (hcount : count < n) (hi : i < count) :
    (get + i) % n ≠ (get + count) % n := by
  intro h
  have hdvd : n ∣ (get + count) - (get + i) :=
    Nat.dvd_of_mod_eq_zero (Nat.sub_mod_eq_zero_of_mod_eq h.symm)
  have hle := Nat.le_of_dvd (by omega) hdvd
  omega

/-- A write to the place behind the last item changes no item. -/
theorem ringContents_update (data : Nat → α) {n get count : Nat} (hcount : count < n) (a : α) :
    ringContents (Function.update data ((get + count) % n) a) n get count =
      ringContents data n get count :=
  ringContents_congr fun _ hi => Function.update_of_ne (ring_place_ne hcount hi) _ _

/-- A new last item. -/
theorem ringContents_push (data : Nat → α) {n get count : Nat} (hcount : count < n) (a : α) :
    ringContents (Function.update data ((get + count) % n) a) n get (count + 1) =
      ringContents data n get count ++ [a] := by
  rw [ringContents_succ, ringContents_update data hcount, Function.update_self]

end PTunes
