import Mathlib.Data.Finset.Card
import Mathlib.Data.List.Rotate

/-!
# `PTunes.Lib.Window`: the last values of a sequence

`lastOf n z R` are the last `n` values of the sequence `R`, with `z` for those that are missing.
A ring buffer that is filled with `z` holds them: read from the write position on, a write drops
the oldest value and appends the new one (`rotate_set_succ`, `lastOf_concat`).

A sequence is `Distinct n z` when no value is among the last `n` before it. Between two
occurrences of a value there are then at least `n` other values (`Distinct.le_card`). This is what
a filter for duplicates with a memory of `n` values guarantees.
-/

set_option autoImplicit false

namespace PTunes.Window

variable {κ : Type}

/-- The last `n` values of the sequence, oldest first. -/
def lastOf (n : Nat) (z : κ) (R : List κ) : List κ := (List.replicate n z ++ R).drop R.length

/-- No value of the sequence is among the last `n` before it. -/
inductive Distinct (n : Nat) (z : κ) : List κ → Prop
  | nil : Distinct n z []
  | concat {R : List κ} {k : κ} : Distinct n z R → k ∉ lastOf n z R → Distinct n z (R ++ [k])

/-! ### The ring buffer -/

/-- A new value takes the place of the oldest one. -/
theorem lastOf_concat {n : Nat} (hn : 0 < n) (z : κ) (R : List κ) (k : κ) :
    lastOf n z (R ++ [k]) = (lastOf n z R).tail ++ [k] := by
  have hle : R.length + 1 ≤ (List.replicate n z ++ R).length := by
    rw [List.length_append, List.length_replicate]
    omega
  rw [lastOf, lastOf, List.tail_drop, ← List.append_assoc, List.length_append,
    List.length_singleton, List.drop_append_of_le_length hle]

/-- A write at the position `p` of a ring, read from the position after it. -/
theorem rotate_set_succ (l : List κ) {p : Nat} (hp : p < l.length) (k : κ) :
    (l.set p k).rotate ((p + 1) % l.length) = (l.rotate p).tail ++ [k] := by
  have hmod : (l.set p k).rotate ((p + 1) % l.length) = (l.set p k).rotate (p + 1) := by
    have hset : (l.set p k).length = l.length := List.length_set
    rw [← hset, List.rotate_mod]
  have hlen : p + 1 ≤ (l.set p k).length := by
    rw [List.length_set]
    exact hp
  have hne : l.drop p ≠ [] := by
    rw [ne_eq, List.drop_eq_nil_iff]
    omega
  rw [hmod, List.rotate_eq_drop_append_take hlen, List.rotate_eq_drop_append_take hp.le,
    List.tail_append_of_ne_nil hne, List.tail_drop, List.drop_set_of_lt (Nat.lt_succ_self p),
    List.append_assoc]
  congr 1
  rw [List.take_succ_eq_append_getElem hlen, List.getElem_set_self, List.take_set_of_le le_rfl]

/-! ### Distinct values -/

/-- The last values that are really there. -/
theorem mem_lastOf_of_mem_drop {n : Nat} {z k : κ} {R : List κ}
    (h : k ∈ R.drop (R.length - n)) : k ∈ lastOf n z R := by
  rw [lastOf, List.drop_append, List.length_replicate]
  exact List.mem_append_right _ h

/-- The last `n` values are pairwise different. -/
theorem Distinct.nodup_drop {n : Nat} {z : κ} {R : List κ} (h : Distinct n z R) :
    (R.drop (R.length - n)).Nodup := by
  induction h with
  | nil => simp
  | @concat R k _ hk ih =>
      cases n with
      | zero => simp
      | succ n =>
          have hle : R.length + 1 - (n + 1) ≤ R.length := by omega
          have hdrop : R.drop (R.length + 1 - (n + 1)) = R.drop (R.length - n) := by
            congr 1
            omega
          have hsub : (R.drop (R.length - n)).Sublist (R.drop (R.length - (n + 1))) :=
            List.drop_sublist_drop_left R (by omega)
          have hnew : k ∉ R.drop (R.length - n) := fun hmem =>
            hk (mem_lastOf_of_mem_drop (hsub.subset hmem))
          rw [List.length_append, List.length_singleton, List.drop_append_of_le_length hle, hdrop]
          exact (hsub.nodup ih).append (List.nodup_singleton k)
            (List.disjoint_singleton.mpr hnew)

/-- The beginning of a sequence without early repetitions is one too. -/
theorem Distinct.of_append {n : Nat} {z : κ} {A B : List κ} (h : Distinct n z (A ++ B)) :
    Distinct n z A := by
  induction B using List.reverseRecOn with
  | nil =>
      rw [List.append_nil] at h
      exact h
  | append_singleton B b ih =>
      apply ih
      generalize hR : A ++ (B ++ [b]) = R at h
      cases h with
      | nil => simp at hR
      | concat h _ =>
          rw [← List.append_assoc] at hR
          obtain ⟨rfl, _⟩ := List.append_inj' hR rfl
          exact h

/-- The last value of such a sequence is not among the `n` before it. -/
theorem Distinct.notMem_lastOf {n : Nat} {z k : κ} {R : List κ} (h : Distinct n z (R ++ [k])) :
    k ∉ lastOf n z R := by
  generalize hR : R ++ [k] = R' at h
  cases h with
  | nil => simp at hR
  | concat _ hk =>
      obtain ⟨rfl, hk'⟩ := List.append_inj' hR rfl
      cases hk'
      exact hk

/-- Between two occurrences of a value there are at least `n` other values. -/
theorem Distinct.le_card [DecidableEq κ] {n : Nat} {z k : κ} {R₁ R₂ R₃ : List κ}
    (h : Distinct n z (R₁ ++ k :: (R₂ ++ k :: R₃))) : n ≤ (R₂.toFinset.erase k).card := by
  have hsplit : R₁ ++ k :: (R₂ ++ k :: R₃) = (R₁ ++ k :: R₂ ++ [k]) ++ R₃ := by simp
  rw [hsplit] at h
  have hpre := h.of_append
  have hold : k ∉ (R₁ ++ k :: R₂).drop ((R₁ ++ k :: R₂).length - n) := fun hmem =>
    hpre.notMem_lastOf (mem_lastOf_of_mem_drop hmem)
  have hnodup := hpre.of_append.nodup_drop
  have hlen : (R₁ ++ k :: R₂).length = R₁.length + (R₂.length + 1) := by simp
  -- The first occurrence is not among the last `n` values, so these lie behind it.
  have hn : n ≤ R₂.length := by
    by_contra hlt
    apply hold
    have hle : (R₁ ++ k :: R₂).length - n ≤ R₁.length := by omega
    rw [List.drop_append_of_le_length hle]
    exact List.mem_append_right _ List.mem_cons_self
  have hdrop : (R₁ ++ k :: R₂).drop ((R₁ ++ k :: R₂).length - n) = R₂.drop (R₂.length - n) := by
    rw [show (R₁ ++ k :: R₂).length - n = R₁.length + (R₂.length - n + 1) by omega,
      List.drop_append, List.drop_eq_nil_of_le (by omega), List.nil_append]
    rw [show R₁.length + (R₂.length - n + 1) - R₁.length = R₂.length - n + 1 by omega,
      List.drop_succ_cons]
  rw [hdrop] at hold hnodup
  have hsub : (R₂.drop (R₂.length - n)).toFinset ⊆ R₂.toFinset.erase k := by
    intro x hx
    rw [List.mem_toFinset] at hx
    rw [Finset.mem_erase, List.mem_toFinset]
    exact ⟨fun he => hold (he ▸ hx), (List.drop_sublist _ _).subset hx⟩
  calc n = (R₂.drop (R₂.length - n)).length := by
        rw [List.length_drop]
        omega
    _ = (R₂.drop (R₂.length - n)).toFinset.card := (List.toFinset_card_of_nodup hnodup).symm
    _ ≤ (R₂.toFinset.erase k).card := Finset.card_le_card hsub

end PTunes.Window
