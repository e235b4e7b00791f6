import Mathlib.Data.List.Basic
import Mathlib.Logic.Function.Basic

/-!
# `PTunes.Lib.Slice`: ranges of a memory

A memory gives a value to each address. `slice m p n` are the `n` values from the address `p` on.

* `slice_append`, `drop_slice`: a range in two parts, and the rest of a range.
* `slice_store`, `slice_store_of_disjoint`: the range that is written has the values, and a range
  apart from it keeps its own.
* `moveDown`: the loop that copies a range to a lower address, one value after the other. The
  two ranges may overlap: a turn reads what no turn before it has written (`moveDown_apply`).
-/

set_option autoImplicit false

namespace PTunes

variable {α : Type}

/-- The `n` values from the address `p` on. A list, so that what is known of lists carries over; the
addresses do not end, so no range is cut short. -/
def slice (m : Nat → α) (p n : Nat) : List α := (List.range n).map fun i => m (p + i)

/-- The values `l` are written from the address `p` on. An address behind them keeps its value,
which is what the default of `getD` says. -/
def store (m : Nat → α) (p : Nat) (l : List α) : Nat → α := fun i =>
  if p ≤ i then (l[i - p]?).getD (m i) else m i

/-- The loop that copies the `n` values from the address `d + s` on to the addresses from `s` on,
the first one first. Each turn reads the memory as the turns before it have left it, so with an
overlap the order matters. -/
def moveDown (m : Nat → α) (d s n : Nat) : Nat → α :=
  (List.range' s n).foldl (fun m i => Function.update m i (m (d + i))) m

section Ranges

variable (m : Nat → α) (p n k : Nat)

/-- A range has as many values as it asks for, so a bound on an index of the list is one on the
offset of an address. -/
@[simp] theorem length_slice : (slice m p n).length = n := by
  simp [slice]

/-- An empty range. It is where an induction on the length of a range begins. -/
@[simp] theorem slice_zero : slice m p 0 = [] := rfl

/-- The index in the list is the offset of the address. With `length_slice`, two ranges are equal
when their values are (`List.ext_getElem`). -/
@[simp] theorem getElem_slice {i : Nat} (h : i < (slice m p n).length) :
    (slice m p n)[i] = m (p + i) := by
  simp [slice]

/-- A range in two parts: the second one starts where the first one ends. A header and the data
behind it are read in this way. -/
theorem slice_append : slice m p (n + k) = slice m p n ++ slice m (p + n) k := by
  rw [slice, List.range_add, List.map_append, List.map_map]
  refine congrArg₂ List.append rfl (List.map_congr_left fun i _ => ?_)
  show m (p + (n + i)) = m (p + n + i)
  rw [Nat.add_assoc]

/-- The rest of a range is a range. It is empty when more is dropped than there is, because the
length is a difference of natural numbers. -/
theorem drop_slice : (slice m p n).drop k = slice m (p + k) (n - k) := by
  apply List.ext_getElem
  · simp
  · intro i _ _
    rw [List.getElem_drop, getElem_slice, getElem_slice, Nat.add_assoc]

end Ranges

/-- Two ranges with the same values, of one memory or of two. The lemmas about writes below go
through this one, and then speak of one address only. -/
theorem slice_congr {m m' : Nat → α} {p p' n : Nat} (h : ∀ i < n, m (p + i) = m' (p' + i)) :
    slice m p n = slice m' p' n :=
  List.map_congr_left fun i hi => h i (List.mem_range.mp hi)

section Writes

variable {m : Nat → α} {p : Nat} {l : List α}

/-- Inside the range that is written, an address has its value of the list. -/
theorem store_add {i : Nat} (h : i < l.length) : store m p l (p + i) = l[i] := by
  rw [store, if_pos (Nat.le_add_right p i), Nat.add_sub_cancel_left,
    List.getElem?_eq_getElem h]
  rfl

/-- An address in front of the range that is written keeps its value, and so does one behind it. -/
theorem store_of_disjoint {i : Nat} (h : i < p ∨ p + l.length ≤ i) : store m p l i = m i := by
  rw [store]
  split
  · rw [List.getElem?_eq_none (by omega)]
    rfl
  · rfl

/-- What was written is read back. -/
theorem slice_store : slice (store m p l) p l.length = l := by
  apply List.ext_getElem
  · simp
  · intro i _ h
    rw [getElem_slice, store_add h]

/-- A range that lies apart from the one that is written, on either side of it, is read as before.
The condition is on the bounds, so that `omega` can show it. -/
theorem slice_store_of_disjoint {q n : Nat} (h : q + n ≤ p ∨ p + l.length ≤ q) :
    slice (store m p l) q n = slice m q n := by
  refine slice_congr fun i hi => store_of_disjoint ?_
  omega

end Writes

/-- After the loop, an address of the range has the value that was `d` above it at the start, and
every other address keeps its own. This needs no condition on `d`: the source of a turn is at or
above the address that it writes, so no earlier turn has overwritten it. -/
theorem moveDown_apply (m : Nat → α) (d s n j : Nat) :
    moveDown m d s n j = if s ≤ j ∧ j < s + n then m (d + j) else m j := by
  -- By induction on the number of turns: the last one writes to `s + n`, and it reads from
  -- `d + (s + n)`, which no turn has written.
  induction n generalizing j with
  | zero =>
    rw [if_neg (by omega)]
    rfl
  | succ n ih =>
    have hlast : moveDown m d s (n + 1) =
        Function.update (moveDown m d s n) (s + n) (moveDown m d s n (d + (s + n))) := by
      rw [moveDown, List.range'_concat, List.foldl_append, Nat.one_mul]
      rfl
    have hread : moveDown m d s n (d + (s + n)) = m (d + (s + n)) := by
      rw [ih, if_neg (by omega)]
    rw [hlast, hread]
    by_cases hj : j = s + n
    · rw [hj, Function.update_self, if_pos (by omega)]
    · rw [Function.update_of_ne hj, ih]
      exact if_congr (by omega) rfl rfl

/-- The range that the loop writes holds the values from `d` above, also where the two ranges
overlap. -/
theorem slice_moveDown (m : Nat → α) (d s n : Nat) :
    slice (moveDown m d s n) s n = slice m (d + s) n := by
  refine slice_congr fun i hi => ?_
  rw [moveDown_apply, if_pos (by omega), Nat.add_assoc]

/-- The loop writes to its range only, so a range apart from it is read as before. The source range
need not be: what of it overlaps is overwritten. -/
theorem slice_moveDown_of_disjoint {m : Nat → α} {d s n q k : Nat}
    (h : q + k ≤ s ∨ s + n ≤ q) : slice (moveDown m d s n) q k = slice m q k := by
  refine slice_congr fun i hi => ?_
  rw [moveDown_apply, if_neg (by omega)]

end PTunes
