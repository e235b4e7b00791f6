import Mathlib.Data.List.Nodup
import Mathlib.Data.List.FinRange
import Mathlib.Data.Fintype.Card

/-!
# `PTunes.Core.Memb`: memory block pools (`core/lib/memb.c`)

A `Memb α n` is a static pool of `n` blocks of type `α` with one reference count for each
block. A pointer to a block is its index. `memb_alloc` returns the first block whose count
is zero and leaves the block's old contents in place, and `memb_free` decreases a positive
count.

`Owns m owned` is the ownership discipline the callers keep: the blocks in the list
`owned` are pairwise different and are exactly the allocated ones, each with count one.
The lemmas say what `membAlloc`, `membFree` and a write to a block do to it.
-/

set_option autoImplicit false

namespace PTunes.Core

/-- `struct memb`: the reference counts and the blocks. -/
structure Memb (α : Type) (n : Nat) where
  count : Vector Nat n
  mem : Vector α n

namespace Memb

variable {α : Type} {n : Nat}

/-- `memb_init`: all counts are zero, and the blocks are cleared to `zero`. -/
def membInit (zero : α) : Memb α n where
  count := Vector.replicate n 0
  mem := Vector.replicate n zero

/-- The contents of a block. -/
def block (m : Memb α n) (i : Fin n) : α := m.mem[i]

/-- A write to a block, allocated or not. -/
def write (m : Memb α n) (i : Fin n) (a : α) : Memb α n :=
  { m with mem := m.mem.set i a }

/-- `memb_alloc`: the first block whose count is zero. -/
def membAlloc (m : Memb α n) : Option (Fin n × Memb α n) :=
  match (List.finRange n).find? (fun i => m.count[i] == 0) with
  | some i => some (i, { m with count := m.count.set i (m.count[i] + 1) })
  | none => none

/-- `memb_free`: a positive count is decreased. -/
def membFree (m : Memb α n) (i : Fin n) : Memb α n :=
  if m.count[i] > 0 then { m with count := m.count.set i (m.count[i] - 1) } else m

/-- The number of allocated blocks. -/
def allocated (m : Memb α n) : Nat := (List.finRange n).countP fun i => m.count[i] ≠ 0

/-- What was written to a block is read back. -/
@[simp] theorem block_write_self (m : Memb α n) (i : Fin n) (a : α) :
    (m.write i a).block i = a := by
  simp [block, write]

/-- A write to one block leaves the others alone. -/
theorem block_write_ne (m : Memb α n) {i j : Fin n} (a : α) (h : i ≠ j) :
    (m.write i a).block j = m.block j := by
  have hij : (i : Nat) ≠ j := fun hc => h (Fin.ext hc)
  simp [block, write, hij]

/-- Both cases in one equation, for a proof that cannot tell yet which of them it has. -/
theorem block_write (m : Memb α n) (i j : Fin n) (a : α) :
    (m.write i a).block j = if i = j then a else m.block j := by
  by_cases h : i = j
  · subst h
    simp
  · rw [block_write_ne m a h, if_neg h]

/-- A write changes the contents of a block. Whether it is allocated stays as it is. -/
@[simp] theorem count_write (m : Memb α n) (i : Fin n) (a : α) :
    (m.write i a).count = m.count := rfl

/-- `memb_free` only lowers the counter of a block. Its contents stay, which is how a pointer that
was kept may still find them. -/
@[simp] theorem block_membFree (m : Memb α n) (i j : Fin n) :
    (m.membFree i).block j = m.block j := by
  unfold membFree
  split <;> rfl

/-- What a successful allocation does: it returns a block with count zero, and only the
count of this block changes. -/
theorem membAlloc_some {m m' : Memb α n} {i : Fin n} (h : m.membAlloc = some (i, m')) :
    m.count[i] = 0 ∧ m' = { m with count := m.count.set i 1 } := by
  unfold membAlloc at h
  split at h
  · rename_i j hj
    have h0 : m.count[j] = 0 := by simpa using List.find?_some hj
    cases h
    exact ⟨h0, by rw [h0]⟩
  · cases h

/-- An allocation fails only when every block is taken. -/
theorem membAlloc_none {m : Memb α n} (h : m.membAlloc = none) (i : Fin n) :
    m.count[i] ≠ 0 := by
  unfold membAlloc at h
  split at h
  · cases h
  · rename_i hnone
    simpa using List.find?_eq_none.mp hnone i (List.mem_finRange i)

/-- The blocks in `owned` are pairwise different and are exactly the allocated ones. -/
structure Owns (m : Memb α n) (owned : List (Fin n)) : Prop where
  nodup : owned.Nodup
  count : ∀ i : Fin n, m.count[i] = if i ∈ owned then 1 else 0

/-- After `memb_init` no block is allocated. -/
theorem owns_membInit (zero : α) : Owns (membInit zero : Memb α n) [] where
  nodup := List.nodup_nil
  count i := by simp [membInit]

namespace Owns

variable {m m' : Memb α n} {owned owned' : List (Fin n)} {i : Fin n}

/-- The order of the list does not matter: it says which blocks are allocated and that each is in it
once. -/
theorem perm (h : Owns m owned) (hp : owned.Perm owned') : Owns m owned' where
  nodup := hp.nodup_iff.mp h.nodup
  count i := by rw [h.count i]; simp only [hp.mem_iff]

/-- A write to a block, allocated or not, changes nothing about who owns what. -/
theorem write (h : Owns m owned) (a : α) : Owns (m.write i a) owned :=
  ⟨h.nodup, h.count⟩

/-- An allocation returns a block nobody owns and makes the caller its owner. -/
theorem alloc (h : Owns m owned) (ha : m.membAlloc = some (i, m')) :
    i ∉ owned ∧ Owns m' (i :: owned) := by
  obtain ⟨h0, rfl⟩ := membAlloc_some ha
  have hi : i ∉ owned := by
    intro hmem
    have hc := h.count i
    rw [if_pos hmem] at hc
    omega
  refine ⟨hi, List.nodup_cons.mpr ⟨hi, h.nodup⟩, fun j => ?_⟩
  by_cases hj : i = j
  · subst hj
    simp
  · have hij : (i : Nat) ≠ j := fun hc => hj (Fin.ext hc)
    have hji : ¬ j = i := fun hc => hj hc.symm
    simpa [hij, hji] using h.count j

/-- An allocation that fails finds every block owned. -/
theorem alloc_none (h : Owns m owned) (ha : m.membAlloc = none) (i : Fin n) : i ∈ owned := by
  by_contra hi
  exact membAlloc_none ha i (by rw [h.count i, if_neg hi])

/-- The owner of a block gives it back. -/
theorem free (h : Owns m (i :: owned)) : Owns (m.membFree i) owned := by
  obtain ⟨hi, hnd⟩ := List.nodup_cons.mp h.nodup
  refine ⟨hnd, fun j => ?_⟩
  have h1 : m.count[i] = 1 := by simpa using h.count i
  unfold membFree
  rw [if_pos (by omega)]
  by_cases hj : i = j
  · subst hj
    simp [hi, h1]
  · have hij : (i : Nat) ≠ j := fun hc => hj (Fin.ext hc)
    have hji : ¬ j = i := fun hc => hj hc.symm
    have hcount := h.count j
    simp only [List.mem_cons, hji, false_or] at hcount
    simpa [hij] using hcount

/-- The owner of a block gives it back, with the block anywhere in the list. -/
theorem free_erase (h : Owns m owned) (hi : i ∈ owned) : Owns (m.membFree i) (owned.erase i) :=
  (h.perm (List.perm_cons_erase hi)).free

/-- The allocated blocks are the owned ones. -/
theorem count_ne_zero (h : Owns m owned) (i : Fin n) : m.count[i] ≠ 0 ↔ i ∈ owned := by
  rw [h.count i]
  simp

/-- As many blocks are allocated as are owned. -/
theorem allocated_eq (h : Owns m owned) : m.allocated = owned.length := by
  have hperm : ((List.finRange n).filter fun i => m.count[i] ≠ 0).Perm owned := by
    refine (List.perm_ext_iff_of_nodup ((List.nodup_finRange n).filter _) h.nodup).mpr ?_
    intro i
    simpa using h.count_ne_zero i
  rw [allocated, List.countP_eq_length_filter, hperm.length_eq]

/-- All owned blocks fit the pool. -/
theorem length_le (h : Owns m owned) : owned.length ≤ n := by
  simpa using List.Nodup.length_le_card h.nodup

/-- An allocation fails only when as many blocks are owned as the pool has. -/
theorem length_of_alloc_none (h : Owns m owned) (ha : m.membAlloc = none) :
    owned.length = n := by
  have hsub : List.finRange n ⊆ owned := fun i _ => h.alloc_none ha i
  have hle := (List.nodup_finRange n).subperm hsub |>.length_le
  have := h.length_le
  simp only [List.length_finRange] at hle
  omega

end Owns

end Memb

end PTunes.Core
