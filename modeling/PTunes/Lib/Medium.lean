import Mathlib.Data.List.Perm.Basic

/-!
# `PTunes.Lib.Medium`: a broadcast medium that loses, delays and reorders

A `Medium` holds the messages that are under way: a copy of each message for each node that
may still receive it. `transmit` adds one copy for every node but the sender. `receive`
takes any copy that is for the receiver, so messages are delayed and reordered at will, and
`lose` drops any copy. No step makes up a message or a second copy.

The rules speak about one message (`mem_transmit`, `mem_of_receive`), and about all copies
for one node. If `f` picks labels, `labels f dst` lists the labels under way to `dst`:
transmitting adds at most the label of the message (`labels_transmit`), receiving takes one
(`labels_receive`), losing takes some (`labels_lose`).
-/

set_option autoImplicit false

namespace PTunes

/-- A copy of a message that is under way to `dst`. -/
structure InFlight (Addr Msg : Type) where
  dst : Addr
  msg : Msg
deriving DecidableEq, Repr

/-- The copies that are under way. They are a list so that two copies of equal messages are two, but
no step depends on their order. -/
abbrev Medium (Addr Msg : Type) := List (InFlight Addr Msg)

namespace Medium

variable {Addr Msg β : Type} [DecidableEq Addr]

/-- The copies of a message from `src`. -/
def copies (nodes : List Addr) (src : Addr) (m : Msg) : Medium Addr Msg :=
  (nodes.filter (· ≠ src)).map fun dst => ⟨dst, m⟩

/-- A message from `src` is under way to every node but `src`. -/
def transmit (nodes : List Addr) (src : Addr) (m : Msg) (air : Medium Addr Msg) :
    Medium Addr Msg :=
  air ++ copies nodes src m

/-- `dst` takes the copy at `k`, if it is one for `dst`. -/
def receive (air : Medium Addr Msg) (dst : Addr) (k : Nat) : Option (Msg × Medium Addr Msg) :=
  match air[k]? with
  | some p => if p.dst = dst then some (p.msg, air.eraseIdx k) else none
  | none => none

/-- The copy at `k` is lost. An index behind the end loses nothing. -/
def lose (air : Medium Addr Msg) (k : Nat) : Medium Addr Msg := air.eraseIdx k

variable {nodes : List Addr} {src dst : Addr} {m : Msg} {air air' : Medium Addr Msg} {k : Nat}

/-! ### One message -/

/-- What the copies of a message are. -/
theorem mem_copies {p : InFlight Addr Msg} :
    p ∈ copies nodes src m ↔ p.dst ∈ nodes ∧ p.dst ≠ src ∧ p.msg = m := by
  constructor
  · intro h
    obtain ⟨d, hd, rfl⟩ := List.mem_map.mp h
    obtain ⟨hmem, hne⟩ := List.mem_filter.mp hd
    exact ⟨hmem, by simpa using hne, rfl⟩
  · rintro ⟨hmem, hne, rfl⟩
    exact List.mem_map.mpr ⟨p.dst, List.mem_filter.mpr ⟨hmem, by simpa using hne⟩, rfl⟩

/-- What is under way after a transmission was so before, or is a copy of the message. -/
theorem mem_transmit {p : InFlight Addr Msg} :
    p ∈ transmit nodes src m air ↔
      p ∈ air ∨ p.dst ∈ nodes ∧ p.dst ≠ src ∧ p.msg = m := by
  rw [transmit, List.mem_append, mem_copies]

/-- A received message was under way to the receiver. -/
theorem mem_of_receive (h : receive air dst k = some (m, air')) : ⟨dst, m⟩ ∈ air := by
  unfold receive at h
  split at h
  · rename_i p hp
    split at h
    · rename_i hdst
      cases h
      rw [← hdst]
      exact List.mem_of_getElem? hp
    · cases h
  · cases h

/-- What is under way after a reception was under way before it. -/
theorem subset_of_receive (h : receive air dst k = some (m, air')) : air' ⊆ air := by
  unfold receive at h
  split at h
  · split at h
    · cases h
      exact (List.eraseIdx_sublist air k).subset
    · cases h
  · cases h

omit [DecidableEq Addr] in
/-- What is under way after a loss was so before. -/
theorem lose_subset (air : Medium Addr Msg) (k : Nat) : lose air k ⊆ air :=
  (List.eraseIdx_sublist air k).subset

/-! ### The copies for one node -/

/-- The labels of the messages that are under way to `dst`. -/
def labels (f : Msg → Option β) (dst : Addr) (air : Medium Addr Msg) : List β :=
  air.filterMap fun p => if p.dst = dst then f p.msg else none

/-- The copies of a message hold its label once, for a node that hears it. -/
theorem labels_copies (f : Msg → Option β) (hnodes : nodes.Nodup) :
    labels f dst (copies nodes src m) =
      if dst ∈ nodes ∧ dst ≠ src then (f m).toList else [] := by
  induction nodes with
  | nil => simp [labels, copies]
  | cons x xs ih =>
      obtain ⟨hx, hxs⟩ := List.nodup_cons.mp hnodes
      by_cases hsrc : x = src
      · have hskip : copies (x :: xs) src m = copies xs src m := by
          simp [copies, hsrc]
        rw [hskip, ih hxs, hsrc]
        simp only [List.mem_cons, ne_eq]
        by_cases hd : dst = src <;> simp [hd]
      · have hcons : copies (x :: xs) src m = ⟨x, m⟩ :: copies xs src m := by
          simp [copies, hsrc]
        rw [hcons]
        by_cases hd : x = dst
        · -- No copy in the tail is for `dst`.
          subst hd
          have htail : labels f x (copies xs src m) = [] := by
            rw [ih hxs]
            simp [hx]
          unfold labels at htail ⊢
          rw [List.filterMap_cons, htail]
          cases hf : f m <;> simp [hsrc]
        · have htail := ih hxs
          unfold labels at htail ⊢
          rw [List.filterMap_cons]
          simp only [if_neg hd, htail, List.mem_cons, Ne.symm hd, false_or]

/-- Transmitting adds the label of the message, for a node that hears it. -/
theorem labels_transmit (f : Msg → Option β) (hnodes : nodes.Nodup) :
    labels f dst (transmit nodes src m air) =
      labels f dst air ++ if dst ∈ nodes ∧ dst ≠ src then (f m).toList else [] := by
  have hcopies := @labels_copies _ _ _ _ _ src dst m f hnodes
  unfold labels at hcopies ⊢
  rw [transmit, List.filterMap_append, hcopies]

/-- A message without a label changes no labels. -/
theorem labels_transmit_of_none (f : Msg → Option β) (hf : f m = none) :
    labels f dst (transmit nodes src m air) = labels f dst air := by
  have hnil : labels f dst (copies nodes src m) = [] := by
    apply List.filterMap_eq_nil_iff.mpr
    intro p hp
    obtain ⟨-, -, hm⟩ := mem_copies.mp hp
    simp [hm, hf]
  unfold labels at hnil ⊢
  rw [transmit, List.filterMap_append, hnil, List.append_nil]

/-- Receiving takes the label of the message. -/
theorem labels_receive (f : Msg → Option β) (h : receive air dst k = some (m, air')) :
    (labels f dst air).Perm ((f m).toList ++ labels f dst air') := by
  unfold receive at h
  split at h
  · rename_i p hp
    split at h
    · rename_i hdst
      cases h
      obtain ⟨hk, hget⟩ := List.getElem?_eq_some_iff.mp hp
      have hperm := (List.getElem_cons_eraseIdx_perm hk).symm
      rw [hget] at hperm
      have hlabels := hperm.filterMap fun p => if p.dst = dst then f p.msg else none
      rw [List.filterMap_cons] at hlabels
      unfold labels
      cases hf : f p.msg <;> simpa [hdst, hf] using hlabels
    · cases h
  · cases h

/-- Receiving and losing take labels only. -/
theorem labels_eraseIdx (f : Msg → Option β) (dst : Addr) (air : Medium Addr Msg) (k : Nat) :
    (labels f dst (air.eraseIdx k)).Sublist (labels f dst air) :=
  (List.eraseIdx_sublist air k).filterMap _

/-- A reception takes at most one label away from those for any node. The others keep their
order. -/
theorem labels_receive_sublist (f : Msg → Option β) (h : receive air dst k = some (m, air'))
    (d : Addr) : (labels f d air').Sublist (labels f d air) := by
  unfold receive at h
  split at h
  · split at h
    · cases h
      exact labels_eraseIdx f d air k
    · cases h
  · cases h

/-- So does a loss. -/
theorem labels_lose (f : Msg → Option β) (dst : Addr) (air : Medium Addr Msg) (k : Nat) :
    (labels f dst (lose air k)).Sublist (labels f dst air) :=
  labels_eraseIdx f dst air k

end Medium

end PTunes
