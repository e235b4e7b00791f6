import Mathlib.Data.Fintype.Card
import Mathlib.Data.List.Induction
import PTunes.Proofs.Rime.SampleIntegrity
import PTunes.Rime.FtspRoot

/-!
# `PTunes.Proofs.Rime.FtspRoot`: the table and the root of a node

`add_new_entry` counts the entries that it leaves in use (`tableEntries_addNewEntry`), so
`calculate_conversion` divides by at least 1, and the counts that the node keeps are at most 8. A
node takes over a root only when it is smaller, so its root never grows.

`process_msg` means to spare a node that has just become its own root, but the complement that it
takes of the condition is never zero (`rootGuard_ne_zero`): the node switches to every smaller
root. So a new root stays when it has received no smaller root (`switchedEarly_iff`).
-/

set_option autoImplicit false

namespace PTunes.Rime

variable {φ : Type} (C : FtspConf)

namespace Ftsp

/-! ### The table -/

/-- An entry is written. -/
theorem isFull_set (table : Vector TableItem 8) (i j : Fin 8) (item : TableItem) :
    isFull (table.set i item i.isLt) j = if i = j then item.state == .full else isFull table j := by
  rw [isFull, isFull]
  by_cases hij : i = j
  · subst hij
    simp
  · have hne : (i : Nat) ≠ j := fun h => hij (Fin.ext h)
    simp [hij, hne]

/-- One turn of the loop: the entry at the index is counted when it stays in use, and noted as
free otherwise. -/
theorem scanItem_spec (localTime : UInt32) (c : Scan) (i : Fin 8) :
    (∀ j, j ≠ i → isFull (scanItem localTime c i).table j = isFull c.table j) ∧
    (scanItem localTime c i).tableEntries =
      (if isFull (scanItem localTime c i).table i then c.tableEntries + 1 else c.tableEntries) ∧
    (scanItem localTime c i).freeItem =
      (if isFull (scanItem localTime c i).table i then c.freeItem else some i) := by
  -- The table after the entry has been dropped if it is too old.
  generalize htable : (if 0x7FFFFFFF ≤ localTime - c.table[i].localTime then
    c.table.set i { c.table[i] with state := .empty } else c.table) = table
  have hother : ∀ j, j ≠ i → isFull table j = isFull c.table j := by
    intro j hj
    rw [← htable]
    split
    · rw [isFull_set, if_neg (Ne.symm hj)]
    · rfl
  simp only [scanItem, htable]
  cases hfull : isFull table i with
  | true =>
      simp only [if_true]
      split <;> exact ⟨hother, by simp, by simp⟩
  | false =>
      simp only [Bool.false_eq_true, if_false]
      split <;> exact ⟨hother, by simp [hfull], by simp [hfull]⟩

/-- What the loop knows after the indices `l`: the number of entries in use among them, and one
that is free if there is one. -/
structure ScanInv (l : List (Fin 8)) (c : Scan) : Prop where
  entries : c.tableEntries.toNat = l.countP (isFull c.table)
  none : c.freeItem = none → ∀ i ∈ l, isFull c.table i = true
  some : ∀ i, c.freeItem = some i → i ∈ l ∧ isFull c.table i = false

/-- Different indices are at most eight. -/
theorem length_le_of_nodup {l : List (Fin 8)} (h : l.Nodup) : l.length ≤ 8 := by
  simpa using h.length_le_card

/-- One more index. -/
theorem ScanInv.scanItem {l : List (Fin 8)} {c : Scan} (h : ScanInv l c) {i : Fin 8}
    (hnodup : (l ++ [i]).Nodup) (localTime : UInt32) :
    ScanInv (l ++ [i]) (Ftsp.scanItem localTime c i) := by
  have hlen := length_le_of_nodup hnodup
  rw [List.length_append, List.length_singleton] at hlen
  have hi : ∀ j ∈ l, j ≠ i := fun j hj =>
    (List.nodup_append.mp hnodup).2.2 j hj i (List.mem_singleton_self i)
  have hle := List.countP_le_length (p := isFull c.table) (l := l)
  obtain ⟨hother, hentries, hfree⟩ := scanItem_spec localTime c i
  generalize Ftsp.scanItem localTime c i = c' at hother hentries hfree
  -- The entries before are as they were.
  have hcount : l.countP (isFull c'.table) = l.countP (isFull c.table) :=
    List.countP_congr fun j hj => by rw [hother j (hi j hj)]
  cases hfull : isFull c'.table i with
  | true =>
      rw [hfull, if_pos rfl] at hentries hfree
      refine ⟨?_, fun hnone j hj => ?_, fun j hj => ?_⟩
      · rw [hentries, UInt8.toNat_add, UInt8.toNat_one, h.entries, List.countP_append, hcount,
          List.countP_singleton, if_pos hfull]
        omega
      · rcases List.mem_append.mp hj with hj | hj
        · rw [hother j (hi j hj)]
          exact h.none (hfree ▸ hnone) j hj
        · rwa [List.mem_singleton.mp hj]
      · obtain ⟨hmem, hj'⟩ := h.some j (hfree ▸ hj)
        rw [hother j (hi j hmem)]
        exact ⟨List.mem_append_left _ hmem, hj'⟩
  | false =>
      rw [hfull, if_neg Bool.false_ne_true] at hentries hfree
      refine ⟨?_, fun hnone => ?_, fun j hj => ?_⟩
      · rw [hentries, h.entries, List.countP_append, hcount, List.countP_singleton,
          if_neg (by simp [hfull]), Nat.add_zero]
      · cases hfree.symm.trans hnone
      · cases hfree.symm.trans hj
        exact ⟨List.mem_append_right _ (List.mem_singleton_self i), hfull⟩

/-- The loop over different indices. -/
theorem scanInv_foldl (localTime : UInt32) (table : Vector TableItem 8) {l : List (Fin 8)}
    (h : l.Nodup) : ScanInv l (l.foldl (Ftsp.scanItem localTime) ⟨table, none, 0, 0, 0⟩) := by
  induction l using List.reverseRecOn with
  | nil => exact ⟨rfl, fun _ _ hi => (List.not_mem_nil hi).elim, fun _ hi => nomatch hi⟩
  | append_singleton l i ih =>
      rw [List.foldl_append, List.foldl_cons, List.foldl_nil]
      exact (ih (List.nodup_append.mp h).1).scanItem h localTime

/-- An entry that was free is one more in use. -/
theorem countP_set {l : List (Fin 8)} (h : l.Nodup) {table : Vector TableItem 8} {i : Fin 8}
    (hi : i ∈ l) (hfree : isFull table i = false) {item : TableItem} (hitem : item.state = .full) :
    l.countP (isFull (table.set i item i.isLt)) = l.countP (isFull table) + 1 := by
  induction l with
  | nil => cases hi
  | cons j l ih =>
      obtain ⟨hj, hl⟩ := List.nodup_cons.mp h
      rw [List.countP_cons, List.countP_cons, isFull_set]
      by_cases hij : i = j
      · -- The other indices are not the one of the entry.
        subst hij
        have hcongr : l.countP (isFull (table.set i item i.isLt)) = l.countP (isFull table) :=
          List.countP_congr fun k hk => by
            rw [isFull_set, if_neg fun hik : i = k => hj (hik ▸ hk)]
        simp [hcongr, hfree, hitem]
      · have hil : i ∈ l := (List.mem_cons.mp hi).resolve_left hij
        rw [if_neg hij, ih hl hil]
        omega

/-- When all entries are in use, they still are after one of them is replaced. -/
theorem countP_set_of_full {l : List (Fin 8)} {table : Vector TableItem 8}
    (h : ∀ j ∈ l, isFull table j = true) (i : Fin 8) {item : TableItem}
    (hitem : item.state = .full) :
    l.countP (isFull (table.set i item i.isLt)) = l.countP (isFull table) := by
  refine List.countP_congr fun j hj => ?_
  rw [isFull_set]
  split
  · simp [h j hj, hitem]
  · rfl

/-- The entries in use are at most eight. -/
theorem fullSlots_le (s : Ftsp φ) : s.fullSlots ≤ 8 := by
  have hle := List.countP_le_length (p := isFull s.table) (l := List.finRange 8)
  rwa [List.length_finRange] at hle

/-! ### The root -/

/-- The complement of the condition is never zero, so it does not restrict the switch to another
root. -/
theorem rootGuard_ne_zero (s : Ftsp φ) : s.rootGuard C ≠ 0 := by
  rw [rootGuard]
  split <;> decide

/-- What the other steps leave. -/
def SameRoot (s t : Ftsp φ) : Prop := t.msg = s.msg ∧ t.numEntries = s.numEntries

/-- A beacon is copied into `msg_rcv` and no further. -/
theorem sameRoot_ftspRecv (arrivalTime : UInt32) (b : FtspBeacon) (s : Ftsp φ) :
    SameRoot s (ftspRecv arrivalTime b s).1 := by
  simp only [ftspRecv]
  split <;> exact ⟨rfl, rfl⟩

/-- The sending process counts what it has sent, and keeps the root. -/
theorem sameRoot_sendReady (sent : Bool) (s : Ftsp φ) : SameRoot s (s.sendReady C sent) := by
  simp only [sendReady]
  split_ifs <;> exact ⟨rfl, rfl⟩

variable [SkewFloat φ]

/-! ### `process_msg` -/

/-- The table and its count after `add_new_entry`, by what its loop has found. -/
theorem addNewEntry_eq (s : Ftsp φ) : ∃ (t : Ftsp φ) (c : Scan) (i : Fin 8),
    ScanInv (List.finRange 8) c ∧ i = c.freeItem.getD c.oldestItem ∧
    (s.addNewEntry C).1.table = c.table.set i (itemOf t.msgRcv) i.isLt ∧
    (s.addNewEntry C).1.tableEntries =
      if c.freeItem.isSome then c.tableEntries + 1 else c.tableEntries :=
  ⟨s.noteError C, scan (s.noteError C).msgRcv.localTime (s.noteError C).table, _,
    scanInv_foldl _ _ (List.nodup_finRange 8), rfl, rfl, rfl⟩

/-- `add_new_entry` counts the entries in use, and there is at least one. -/
theorem tableEntries_addNewEntry (s : Ftsp φ) :
    (s.addNewEntry C).1.tableEntries.toNat = (s.addNewEntry C).1.fullSlots ∧
      1 ≤ (s.addNewEntry C).1.tableEntries.toNat := by
  obtain ⟨t, c, i, ⟨hentries, hnone, hsome⟩, hi, htable, hcount⟩ := addNewEntry_eq C s
  rw [fullSlots, htable, hcount]
  cases hfree : c.freeItem with
  | none =>
      -- All entries are in use, and the oldest one is replaced.
      have hfull := hnone hfree
      have hall : (List.finRange 8).countP (isFull c.table) = 8 := by
        rw [List.countP_eq_length.mpr hfull, List.length_finRange]
      rw [Option.isSome_none, if_neg Bool.false_ne_true, countP_set_of_full hfull i rfl,
        hentries, hall]
      exact ⟨rfl, by decide⟩
  | some j =>
      obtain rfl : i = j := by rw [hi, hfree, Option.getD_some]
      have hle := List.countP_le_length (p := isFull c.table) (l := List.finRange 8)
      rw [List.length_finRange] at hle
      rw [Option.isSome_some, if_pos rfl,
        countP_set (List.nodup_finRange 8) (List.mem_finRange i) (hsome i hfree).2 rfl,
        UInt8.toNat_add, UInt8.toNat_one, hentries]
      omega

/-- The errors may clear the table. -/
theorem numEntries_noteError {s : Ftsp φ} (h : s.numEntries ≤ 8) :
    (s.noteError C).numEntries ≤ 8 := by
  simp only [noteError, clearTable]
  split_ifs
  · exact UInt8.zero_le
  · exact h
  · exact h
  · exact h

/-- The regression takes its number of entries from the table, unless that is empty. -/
theorem numEntries_calculateConversion (s : Ftsp φ) :
    s.calculateConversion.numEntries = s.numEntries ∨
      s.calculateConversion.numEntries = s.tableEntries := by
  unfold calculateConversion
  split
  · exact .inl rfl
  · exact .inr rfl

/-- A new entry and the regression. -/
theorem numEntries_addNewEntry {s : Ftsp φ} (h : s.numEntries ≤ 8) :
    (s.addNewEntry C).1.calculateConversion.numEntries ≤ 8 := by
  rcases numEntries_calculateConversion (s.addNewEntry C).1 with heq | heq
  · rw [heq]
    simp only [addNewEntry]
    exact numEntries_noteError C h
  · rw [heq, UInt8.le_iff_toNat_le, (tableEntries_addNewEntry C s).1]
    exact fullSlots_le _

/-- The number of entries that the node goes by is at most 8. -/
theorem numEntries_acceptMsg {s : Ftsp φ} (h : s.numEntries ≤ 8) :
    (acceptMsg C s).1.numEntries ≤ 8 := by
  simp only [acceptMsg]
  apply numEntries_addNewEntry
  split <;> exact h

/-- A new entry does not change the root. -/
theorem rootId_acceptMsg (s : Ftsp φ) : (acceptMsg C s).1.msg.rootId = s.msg.rootId := by
  obtain ⟨i, _, hrec⟩ := acceptMsg_spec C s
  exact (FtspRecord.mk.inj hrec).1

/-- `process_msg` with all of its first condition. -/
theorem processMsg_eq (s : Ftsp φ) : s.processMsg C =
    if s.msgRcv.rootId < s.msg.rootId ∧ s.rootGuard C ≠ 0 then
      acceptMsg C
        { s with msg := { s.msg with rootId := s.msgRcv.rootId }, seqNum := s.msgRcv.seqNum }
    else if s.msg.rootId = s.msgRcv.rootId ∧ 0 < (s.msgRcv.seqNum - s.seqNum).toInt8 then
      acceptMsg C { s with seqNum := s.msgRcv.seqNum }
    else ({ s with processing := false }, none) := by
  rw [processMsg]
  simp only [and_iff_left (rootGuard_ne_zero C s)]

/-- `process_msg` takes over a smaller root. -/
theorem rootId_processMsg (s : Ftsp φ) : (s.processMsg C).1.msg.rootId =
    if s.msgRcv.rootId < s.msg.rootId then s.msgRcv.rootId else s.msg.rootId := by
  rw [processMsg]
  split
  · exact rootId_acceptMsg C _
  · split
    · exact rootId_acceptMsg C _
    · rfl

/-- `process_msg` keeps the number of entries within the table. -/
theorem numEntries_processMsg {s : Ftsp φ} (h : s.numEntries ≤ 8) :
    (s.processMsg C).1.numEntries ≤ 8 := by
  rw [processMsg]
  split
  · exact numEntries_acceptMsg C h
  · split
    · exact numEntries_acceptMsg C h
    · exact h

/-- `msg_send` reads the root that it announces. -/
theorem sameRoot_msgSend (now : UInt32) (s : Ftsp φ) : SameRoot s (s.msgSend C now).1 := by
  simp only [msgSend]
  split_ifs <;> exact ⟨rfl, rfl⟩

end Ftsp

namespace FtspNode

variable [SkewFloat φ]

/-- Only `process_msg` changes the root or the number of entries. -/
theorem step_cases {s t : FtspNode φ} {a : FtspAction} (hst : (machine C).step s a = some t) :
    (a = .expired ∧ t.ftsp = (s.ftsp.processMsg C).1) ∨
      (a ≠ .expired ∧ s.ftsp.SameRoot t.ftsp) := by
  cases a with
  | arrive f now edge =>
      cases hst
      refine .inr ⟨by simp, ?_⟩
      split <;> exact ⟨rfl, rfl⟩
  | fifop now =>
      obtain ⟨_, ⟨⟩⟩ := Option.ite_none_left_eq_some.mp hst
      exact .inr ⟨by simp, rfl, rfl⟩
  | read ok =>
      simp only [machine] at hst
      split at hst
      · cases hst
        exact .inr ⟨by simp, rfl, rfl⟩
      · cases hst
  | flushrx =>
      cases hst
      exact .inr ⟨by simp, rfl, rfl⟩
  | received room =>
      simp only [machine] at hst
      split at hst
      · cases hst
        exact .inr ⟨by simp, Ftsp.sameRoot_ftspRecv _ _ _⟩
      · cases hst
        exact .inr ⟨by simp, rfl, rfl⟩
      · cases hst
  | msgReady =>
      obtain ⟨_, ⟨⟩⟩ := Option.ite_none_right_eq_some.mp hst
      exact .inr ⟨by simp, rfl, rfl⟩
  | expired =>
      obtain ⟨_, ⟨⟩⟩ := Option.ite_none_right_eq_some.mp hst
      exact .inl ⟨rfl, rfl⟩
  | msgSend now room =>
      obtain ⟨_, ⟨⟩⟩ := Option.ite_none_right_eq_some.mp hst
      exact .inr ⟨by simp, Ftsp.sameRoot_msgSend C now s.ftsp⟩
  | sendReady sent =>
      obtain ⟨_, ⟨⟩⟩ := Option.ite_none_right_eq_some.mp hst
      exact .inr ⟨by simp, Ftsp.sameRoot_sendReady C sent s.ftsp⟩

end FtspNode

namespace FtspRoot

open FtspNode (Slope)

variable {s t : FtspRoot φ} {a : FtspAction}

/-- The condition is about the step that processes a record. -/
theorem noSmallerRoot_iff : s.NoSmallerRoot C a ↔ (s.isNewRoot C = true → a = .expired →
    ¬ s.node.ftsp.msgRcv.rootId < s.node.ftsp.msg.rootId) := by
  cases a <;> simp [NoSmallerRoot]

variable [SkewFloat φ]

/-- What holds in every run: the number of entries is bounded, and the roots that the node has had
get smaller, up to the present one. -/
structure Ordered (s : FtspRoot φ) : Prop where
  numEntries : s.node.ftsp.numEntries ≤ 8
  roots : s.roots.Pairwise (· < ·)
  head : s.roots.head? = some s.node.ftsp.msg.rootId

/-- The node boots with its own address as the root, the only one so far. -/
theorem ordered_boot : (boot C : FtspRoot φ).Ordered where
  numEntries := UInt8.zero_le
  roots := List.pairwise_singleton _ _
  head := rfl

/-- The root after a step. -/
theorem rootId_step (hst : (machine C).step s a = some t) :
    t = s.next C a t.node ∧
      (t.node.ftsp.msg.rootId = s.node.ftsp.msg.rootId ∨
        t.node.ftsp.msg.rootId < s.node.ftsp.msg.rootId) ∧
      (t.node.ftsp.msg.rootId = s.node.ftsp.msg.rootId ↔
        (a = .expired → ¬ s.node.ftsp.msgRcv.rootId < s.node.ftsp.msg.rootId)) := by
  obtain ⟨n, hn, rfl⟩ := Option.map_eq_some_iff.mp hst
  refine ⟨rfl, ?_⟩
  show (n.ftsp.msg.rootId = _ ∨ n.ftsp.msg.rootId < _) ∧ (n.ftsp.msg.rootId = _ ↔ _)
  rcases FtspNode.step_cases C hn with ⟨rfl, heq⟩ | ⟨hne, hsame⟩
  · rw [heq, Ftsp.rootId_processMsg]
    by_cases hlt : s.node.ftsp.msgRcv.rootId < s.node.ftsp.msg.rootId
    · rw [if_pos hlt]
      exact ⟨.inr hlt, fun h => absurd hlt (h ▸ UInt16.lt_irrefl _), fun h => absurd hlt (h rfl)⟩
    · rw [if_neg hlt]
      exact ⟨.inl rfl, fun _ _ => hlt, fun _ => rfl⟩
  · rw [hsame.1]
    exact ⟨.inl rfl, fun _ h => absurd h hne, fun _ => rfl⟩

/-- A root that is smaller than the last one is smaller than all before. -/
theorem pairwise_cons {l : List UInt16} {x y : UInt16} (hl : l.Pairwise (· < ·))
    (hhead : l.head? = some y) (hxy : x < y) : (x :: l).Pairwise (· < ·) := by
  obtain ⟨rest, rfl⟩ := List.head?_eq_some_iff.mp hhead
  refine List.pairwise_cons.mpr ⟨fun z hz => ?_, hl⟩
  rcases List.mem_cons.mp hz with rfl | hz
  · exact hxy
  · exact UInt16.lt_trans hxy (List.rel_of_pairwise_cons hl hz)

/-- A step keeps the root, or it goes to one that is smaller than all before. -/
theorem Ordered.step (h : s.Ordered) (hst : (machine C).step s a = some t) : t.Ordered := by
  obtain ⟨_, hroot, _⟩ := rootId_step C hst
  obtain ⟨n, hn, rfl⟩ := Option.map_eq_some_iff.mp hst
  have hnum : n.ftsp.numEntries ≤ 8 := by
    rcases FtspNode.step_cases C hn with ⟨_, heq⟩ | ⟨_, hsame⟩
    · rw [heq]
      exact Ftsp.numEntries_processMsg C h.numEntries
    · rw [hsame.2]
      exact h.numEntries
  by_cases heq : n.ftsp.msg.rootId = s.node.ftsp.msg.rootId
  · have hroots : (s.next C a n).roots = s.roots := if_pos heq
    exact ⟨hnum, hroots ▸ h.roots, hroots ▸ h.head.trans (congrArg some heq.symm)⟩
  · -- The node has switched to a smaller root.
    have hroots : (s.next C a n).roots = n.ftsp.msg.rootId :: s.roots := if_neg heq
    exact ⟨hnum, hroots ▸ pairwise_cons h.roots h.head (hroot.resolve_left heq), hroots ▸ rfl⟩

/-- The table and the order of the roots, in every run. -/
theorem ordered_of_reachable (h : (machine C).Reachable s) : s.Ordered :=
  h.invariant Ordered (ordered_boot C) fun _ _ _ hs hst => hs.step C hst

/-- A new root stays in a step when it has received no smaller root. -/
theorem switchedEarly_iff (hs : s.switchedEarly = false) (hst : (machine C).step s a = some t) :
    t.switchedEarly = false ↔ s.NoSmallerRoot C a := by
  obtain ⟨hnext, _, hiff⟩ := rootId_step C hst
  -- The flag was not set before, so this step alone decides.
  have hearly : t.switchedEarly = (s.isNewRoot C &&
      t.node.ftsp.msg.rootId != s.node.ftsp.msg.rootId) := by
    rw [hnext, next, hs, Bool.false_or]
  rw [hearly, noSmallerRoot_iff, ← hiff]
  cases s.isNewRoot C <;> simp

/-- What is said of a node in a run: the table, the order of the roots, and that it has not
switched to another root before `IGNORE_ROOT_MSG` heart beats as its own root. -/
structure Sound (s : FtspRoot φ) : Prop extends Ordered s where
  settled : s.switchedEarly = false

/-- `add_new_entry` counts the entries in use, of which there is one at least. In every run the
number of entries is bounded, and the root of the node gets smaller whenever it changes. A node
that is its own root for fewer than `IGNORE_ROOT_MSG` heart beats stays so in the runs in which it
receives no smaller root, and in no others. -/
theorem sound_of_reachableIf :
    (∀ x : Ftsp φ, (x.addNewEntry C).1.tableEntries.toNat = (x.addNewEntry C).1.fullSlots ∧
      1 ≤ (x.addNewEntry C).1.tableEntries.toNat) ∧
    (∀ s : FtspRoot φ, (machine C).Reachable s → s.Ordered) ∧
    ∀ s : FtspRoot φ, (machine C).ReachableIf (NoSmallerRoot C) s → s.Sound ∧
      ∀ a t, (machine C).step s a = some t → (t.Sound ↔ s.NoSmallerRoot C a) := by
  refine ⟨Ftsp.tableEntries_addNewEntry C, fun s h => ordered_of_reachable C h, fun s h => ?_⟩
  have hordered := ordered_of_reachable C (h.mono fun _ _ _ => trivial)
  have hsettled : s.switchedEarly = false :=
    h.invariant (fun s => s.switchedEarly = false) rfl fun _ _ _ hs hok hst =>
      (switchedEarly_iff C hs hst).mpr hok
  refine ⟨⟨hordered, hsettled⟩, fun a t hst => ?_⟩
  rw [← switchedEarly_iff C hsettled hst]
  exact ⟨Sound.settled, fun ht => ⟨hordered.step C hst, ht⟩⟩

/-- The sink, which is its own root from the beginning. -/
def sinkFtspConf : FtspConf := ⟨200, 200⟩

/-- A beacon from another node. -/
def beaconOf (rootId : UInt16) : RadioFrame := .ftsp ⟨rootId, 3, 7, some 1000⟩

/-- The sink has sent a beacon and receives one with its own root. -/
theorem sound_of_reachableIf_sink :
    ∃ s : FtspRoot Slope, (s.roots, s.rootBeats, s.node.ftsp.numEntries) = ([200], 1, 1) ∧
      s.Sound := by
  have hend : ((machine sinkFtspConf).runIf (NoSmallerRoot sinkFtspConf)
      (boot sinkFtspConf : FtspRoot Slope)
      [.msgSend 50 true, .sendReady true, .arrive (beaconOf 200) 100 false, .read true,
        .received true, .msgReady, .expired]).map
      (fun s => (s.roots, s.rootBeats, s.node.ftsp.numEntries)) = some ([200], 1, 1) := by
    decide +kernel
  obtain ⟨s, hs, hrecord⟩ :=
    Machine.exists_reachableIf_of_runIf (M := machine sinkFtspConf) hend
  exact ⟨s, hrecord, ((sound_of_reachableIf sinkFtspConf).2.2 s hs).1⟩

/-- The sink has just booted, and takes over the root 1 from a beacon. -/
theorem not_forall_root_sound :
    ¬ ∀ s : FtspRoot Slope, (machine sinkFtspConf).Reachable s → s.Sound := by
  intro hall
  have hend : ((machine sinkFtspConf).run
      [.arrive (beaconOf 1) 100 false, .read true, .received true, .msgReady, .expired]).map
      (fun s : FtspRoot Slope => (s.roots, s.switchedEarly)) = some ([1, 200], true) := by
    decide +kernel
  obtain ⟨s, hs, hrecord⟩ := Machine.exists_reachable_of_run (M := machine sinkFtspConf) hend
  cases (Prod.mk.inj hrecord).2.symm.trans (hall s hs).settled

end FtspRoot

end PTunes.Rime
