import Mathlib.Data.List.Count
import PTunes.Controller.InitialOptimizationTrigger

/-!
# `PTunes.Proofs.Controller.InitialOptimizationTrigger`: the number of optimizations

The class comment promises up to ten retries, after failures and after answers that are optimized
for reliability. The loop counts the failures only. So it ends after eleven optimizations when one
of the first eleven answers is proper, or when all of them are failures, and in no other case
(`bounded_iff`).

The answers of the optimizer are a sequence `o`, of which a run takes one after the other. The
invariant `Inv` says that the loop has gone on after each number of answers before the present one.
-/

set_option autoImplicit false

namespace PTunes.Controller.InitialTrigger

/-- The optimizer gives the answers of `o`. -/
def Follows (o : Nat → Option MacConfiguration) (s : InitialTrigger) : InitialAction → Prop
  | .optimizeEnd newConf => newConf = o s.outcomes.length
  | .delayOver | .checkWait | .spuriousWakeUp | .collectionFinished _ => True

instance (o : Nat → Option MacConfiguration) (s : InitialTrigger) :
    (a : InitialAction) → Decidable (s.Follows o a)
  | .optimizeEnd _ => inferInstanceAs (Decidable (_ = _))
  | .delayOver | .checkWait | .spuriousWakeUp | .collectionFinished _ => .isTrue trivial

/-- What the class comment says: one optimization and up to ten retries, and the thread stops
right after the first proper configuration. -/
structure Bounded (s : InitialTrigger) : Prop where
  length_le : (s.outcomes.length : Int) ≤ maxRetries + 1
  stops : ∀ k c, s.outcomes[k]? = some c → isProper c = true →
    k + 1 = s.outcomes.length ∧ s.pc = .finished

/-- Among the answers to the first optimization and its ten retries is a proper configuration, or
none of them is optimized for reliability. -/
def Settles (o : Nat → Option MacConfiguration) : Prop :=
  (∃ k : Nat, k ≤ maxRetries ∧ isProper (o k) = true) ∨
    ∀ k : Nat, k ≤ maxRetries → ∀ newConf ∈ o k, isReliabilityFallback newConf = false

/-- The loop goes on after these answers. -/
def goesOn (l : List (Option MacConfiguration)) : Bool :=
  !l.any isProper && decide ((l.count none : Int) ≤ maxRetries)

/-- The first `n` answers. -/
def answers (o : Nat → Option MacConfiguration) (n : Nat) : List (Option MacConfiguration) :=
  (List.range n).map o

variable {o : Nat → Option MacConfiguration} {s t : InitialTrigger} {a : InitialAction} {n : Nat}

/-- One more optimization, one more answer. -/
theorem answers_succ (o : Nat → Option MacConfiguration) (n : Nat) :
    answers o (n + 1) = answers o n ++ [o n] := by
  rw [answers, List.range_succ, List.map_append, List.map_singleton, answers]

/-- There are as many answers as optimizations. -/
theorem length_answers (o : Nat → Option MacConfiguration) (n : Nat) :
    (answers o n).length = n := by
  rw [answers, List.length_map, List.length_range]

/-- The loop goes on while no answer is proper and not too many of them are `null`. -/
theorem goesOn_iff : goesOn (answers o n) = true ↔
    (∀ k < n, isProper (o k) = false) ∧ ((answers o n).count none : Int) ≤ maxRetries := by
  rw [goesOn, Bool.and_eq_true, decide_eq_true_iff]
  exact and_congr_left' (by simp [answers])

/-! ### The loop -/

/-- What holds in every run with the answers `o`. -/
structure Inv (o : Nat → Option MacConfiguration) (s : InitialTrigger) : Prop where
  outcomes : s.outcomes = answers o s.outcomes.length
  retries : s.retries = s.outcomes.count none
  done : s.initialOptimizationDone = s.outcomes.any isProper
  /-- The loop went on so far. -/
  before : ∀ k < s.outcomes.length, goesOn (answers o k) = true
  finished : s.pc = .finished ↔ goesOn s.outcomes = false

/-- The head of the loop. -/
theorem loopHead_pc (hretries : s.retries = s.outcomes.count none)
    (hdone : s.initialOptimizationDone = s.outcomes.any isProper) :
    s.loopHead.pc = if goesOn s.outcomes then .atWait else .finished := by
  rw [loopHead, goesOn, ← hdone, ← hretries]

/-- Before the first optimization no answer has come. -/
theorem inv_init (o : Nat → Option MacConfiguration) : init.Inv o where
  outcomes := rfl
  retries := rfl
  done := rfl
  before k hk := absurd hk (Nat.not_lt_zero k)
  finished := ⟨nofun, fun h => nomatch h⟩

/-- The variables count the answer. -/
theorem afterOptimize_counts (hretries : s.retries = s.outcomes.count none)
    (hdone : s.initialOptimizationDone = s.outcomes.any isProper)
    (newConf : Option MacConfiguration) :
    (s.afterOptimize newConf).retries = (s.outcomes ++ [newConf]).count none ∧
      (s.afterOptimize newConf).initialOptimizationDone =
        (s.outcomes ++ [newConf]).any isProper := by
  cases newConf with
  | none => simp [afterOptimize, hretries, hdone, isProper]
  | some newConf =>
      cases hf : isReliabilityFallback newConf <;>
        simp [afterOptimize, hretries, hdone, isProper, hf]

/-- An answer of the optimizer. -/
theorem Inv.optimizeEnd (h : s.Inv o) (hgoes : goesOn s.outcomes = true) :
    { ((s.afterOptimize (o s.outcomes.length)).loopHead) with
      outcomes := s.outcomes ++ [o s.outcomes.length] }.Inv o := by
  obtain ⟨hretries, hdone⟩ :=
    afterOptimize_counts h.retries h.done (o s.outcomes.length)
  have hlen : (s.outcomes ++ [o s.outcomes.length]).length = s.outcomes.length + 1 := by simp
  have heq : s.outcomes ++ [o s.outcomes.length] = answers o (s.outcomes.length + 1) := by
    rw [answers_succ, ← h.outcomes]
  refine ⟨?_, hretries, hdone, fun k hk => ?_, ?_⟩
  · show s.outcomes ++ [o s.outcomes.length] =
      answers o (s.outcomes ++ [o s.outcomes.length]).length
    rw [hlen, heq]
  · -- The loop went on before this answer too, or there would have been none.
    rcases Nat.lt_succ_iff_lt_or_eq.mp (hlen ▸ hk) with hk | rfl
    · exact h.before k hk
    · rw [← h.outcomes]
      exact hgoes
  · have hpc := loopHead_pc (s := { s.afterOptimize (o s.outcomes.length) with
      outcomes := s.outcomes ++ [o s.outcomes.length] }) hretries hdone
    show _ ↔ goesOn (s.outcomes ++ [o s.outcomes.length]) = false
    refine (Iff.of_eq (congrArg (· = InitialPc.finished) hpc)).trans ?_
    cases goesOn (s.outcomes ++ [o s.outcomes.length]) <;> simp

/-- Outside of the loop head the trigger thread has not finished. -/
theorem Inv.goesOn_of_pc (h : s.Inv o) (hpc : s.pc ≠ .finished) : goesOn s.outcomes = true :=
  Bool.not_eq_false _ |>.mp fun hg => hpc (h.finished.mpr hg)

/-- The thread waits, or is woken up. -/
theorem Inv.waiting (h : s.Inv o) (hpc : s.pc ≠ .finished) (pc : InitialPc)
    (hpc' : pc ≠ .finished) (w : WaitNotify) : { s with pc := pc, waitNotify := w }.Inv o where
  outcomes := h.outcomes
  retries := h.retries
  done := h.done
  before := h.before
  finished := ⟨fun hp => absurd hp hpc', fun hg => absurd (h.finished.mpr hg) hpc⟩

/-- Every step keeps the record of the answers that the loop has seen. -/
theorem Inv.step (h : s.Inv o) (hok : s.Follows o a) (hst : s.step a = some t) : t.Inv o := by
  cases a with
  | delayOver =>
      obtain ⟨hpc, ⟨⟩⟩ := Option.ite_none_right_eq_some.mp hst
      refine ⟨h.outcomes, h.retries, h.done, h.before, ?_⟩
      rw [loopHead_pc h.retries h.done]
      show _ ↔ goesOn s.outcomes = false
      cases goesOn s.outcomes <;> simp
  | checkWait =>
      obtain ⟨hpc, hst⟩ := Option.ite_none_right_eq_some.mp hst
      have hne : s.pc ≠ .finished := hpc ▸ nofun
      split at hst
      · cases hst
        exact h.waiting hne .blocked nofun _
      · cases hst
        exact h.waiting hne .optimizing nofun _
  | spuriousWakeUp =>
      obtain ⟨hpc, ⟨⟩⟩ := Option.ite_none_right_eq_some.mp hst
      exact h.waiting (hpc ▸ nofun) .atWait nofun _
  | optimizeEnd newConf =>
      obtain ⟨hpc, ⟨⟩⟩ := Option.ite_none_right_eq_some.mp hst
      obtain rfl : newConf = o s.outcomes.length := hok
      exact h.optimizeEnd (h.goesOn_of_pc (hpc ▸ nofun))
  | collectionFinished historyIsEmpty =>
      cases historyIsEmpty with
      | true =>
          cases hst
          exact h
      | false =>
          cases hst
          refine ⟨h.outcomes, h.retries, h.done, h.before, ?_⟩
          -- A sleeping thread is woken up, which has not finished before or after.
          show (if s.pc = .blocked then InitialPc.atWait else s.pc) = .finished ↔ _
          rw [← h.finished]
          split
          · next hpc => simp [hpc]
          · rfl

/-- It holds in every run that gets the answers `o`. -/
theorem inv_of_reachableIf (h : machine.ReachableIf (Follows o) s) : s.Inv o :=
  h.invariant (Inv o) (inv_init o) fun _ _ _ hs hok hst => hs.step hok hst

/-! ### Enough answers -/

/-- The thread is about to wait for a collection, or it has finished. -/
def Ready (s : InitialTrigger) : Prop :=
  s.waitNotify = ⟨0, 1⟩ ∧ (s.pc = .atWait ∨ s.pc = .finished)

/-- After the next collection the optimizer gives its next answer. -/
theorem Ready.next (hready : s.Ready) (h : machine.ReachableIf (Follows o) s)
    (hgoes : goesOn s.outcomes = true) :
    ∃ t, machine.ReachableIf (Follows o) t ∧ t.Ready ∧
      t.outcomes.length = s.outcomes.length + 1 := by
  obtain ⟨hw, hpc⟩ := hready
  have hinv := inv_of_reachableIf h
  have hat : s.pc = .atWait := hpc.resolve_right fun hf => by
    cases hgoes.symm.trans (hinv.finished.mp hf)
  -- A collection, the end of the wait, and the answer.
  let s₁ : InitialTrigger := { s with pc := .atWait, waitNotify := ⟨1, 1⟩ }
  let s₂ : InitialTrigger := { s with pc := .optimizing, waitNotify := ⟨0, 1⟩ }
  have h₁ : machine.ReachableIf (Follows o) s₁ := by
    refine .step (a := .collectionFinished false) h trivial ?_
    simp [machine, InitialTrigger.step, WaitNotify.doNotify, hw, hat, s₁]
  have h₂ : machine.ReachableIf (Follows o) s₂ :=
    .step (a := .checkWait) h₁ trivial rfl
  refine ⟨_, .step (a := .optimizeEnd (o s₂.outcomes.length)) h₂ rfl rfl, ⟨?_, ?_⟩, by simp [s₂]⟩
  · cases o s₂.outcomes.length with
    | none => rfl
    | some newConf =>
        simp only [afterOptimize]
        split <;> rfl
  · simp only [loopHead]
    split
    · exact .inl rfl
    · exact .inr rfl

/-- While the loop goes on, there is a run with any number of answers. -/
theorem exists_ready (hgoes : ∀ k < n, goesOn (answers o k) = true) :
    ∃ s, machine.ReachableIf (Follows o) s ∧ s.Ready ∧ s.outcomes.length = n := by
  induction n with
  | zero =>
      exact ⟨_, .step (a := .delayOver) .init trivial rfl, ⟨rfl, .inl rfl⟩, rfl⟩
  | succ n ih =>
      obtain ⟨s, hs, hready, hlen⟩ := ih fun k hk => hgoes k (Nat.lt_succ_of_lt hk)
      have hnext : goesOn s.outcomes = true := by
        rw [(inv_of_reachableIf hs).outcomes, hlen]
        exact hgoes n (Nat.lt_succ_self n)
      obtain ⟨t, ht, htready, htlen⟩ := hready.next hs hnext
      exact ⟨t, ht, htready, by rw [htlen, hlen]⟩

/-! ### The bound -/

/-- When the answers do not settle, the loop goes on after eleven of them. -/
theorem goesOn_of_not_settles (h : ¬ Settles o) (hn : n ≤ 11) : goesOn (answers o n) = true := by
  simp only [Settles, not_or, not_exists, not_and, not_forall, Bool.not_eq_true] at h
  obtain ⟨hproper, j, hj, newConf, hnewConf, hfallback⟩ := h
  have hmax : maxRetries = 10 := rfl
  refine goesOn_iff.mpr ⟨fun k hk => hproper k (by omega), ?_⟩
  have hle := List.count_le_length (a := none) (l := answers o n)
  rw [length_answers] at hle
  rcases Nat.lt_or_ge n 11 with hlt | hge
  · omega
  · -- One of the eleven answers is no failure.
    have hne : (answers o n).count none ≠ (answers o n).length := by
      intro hall
      have hnone := List.count_eq_length.mp hall (o j)
        (List.mem_map_of_mem (List.mem_range.mpr (by omega)))
      rw [← hnone] at hnewConf
      cases hnewConf
    rw [length_answers] at hne
    omega

/-- When they settle, it does not. -/
theorem not_goesOn_of_settles (h : Settles o) : goesOn (answers o 11) = false := by
  have hmax : maxRetries = 10 := rfl
  refine Bool.not_eq_true _ |>.mp fun hgoes => ?_
  obtain ⟨hproper, hcount⟩ := goesOn_iff.mp hgoes
  rcases h with ⟨k, hk, hkproper⟩ | hfallback
  · cases hkproper.symm.trans (hproper k (by omega))
  · -- Neither proper nor optimized for reliability, so all of them are failures.
    have hnone : ∀ newConf ∈ answers o 11, none = newConf := by
      intro newConf hmem
      obtain ⟨k, hk, rfl⟩ := List.mem_map.mp hmem
      have hk := List.mem_range.mp hk
      have hnot := hproper k hk
      cases hok : o k with
      | none => rfl
      | some newConf =>
          have hno := hfallback k (by omega) newConf hok
          rw [hok, isProper, hno] at hnot
          cases hnot
    rw [List.count_eq_length.mpr hnone, length_answers] at hcount
    omega

/-- Right after a proper answer the loop ends. -/
theorem Inv.stops (h : s.Inv o) {k : Nat} {newConf : Option MacConfiguration}
    (hk : s.outcomes[k]? = some newConf) (hproper : isProper newConf = true) :
    k + 1 = s.outcomes.length ∧ s.pc = .finished := by
  have hlt : k < s.outcomes.length := (List.getElem?_eq_some_iff.mp hk).1
  have hok : o k = newConf := by
    rw [h.outcomes, answers, List.getElem?_map, List.getElem?_range hlt] at hk
    exact Option.some.inj hk
  -- After the proper answer the loop does not go on, whatever is answered later.
  have hnot : ∀ n, k < n → goesOn (answers o n) = false := by
    refine fun n hn => Bool.not_eq_true _ |>.mp fun hgoes => ?_
    cases hproper.symm.trans (hok ▸ (goesOn_iff.mp hgoes).1 k hn)
  have hlen : k + 1 = s.outcomes.length := by
    rcases Nat.lt_or_ge (k + 1) s.outcomes.length with hlt' | hge
    · cases (h.before (k + 1) hlt').symm.trans (hnot (k + 1) (Nat.lt_succ_self k))
    · omega
  exact ⟨hlen, h.finished.mpr (h.outcomes ▸ hnot _ hlt)⟩

/-- When the answers do not settle, the thread optimizes for the twelfth time. -/
theorem exists_not_bounded (h : ¬ Settles o) :
    ∃ s, machine.ReachableIf (Follows o) s ∧ ¬ s.Bounded := by
  have hmax : maxRetries = 10 := rfl
  obtain ⟨s, hs, -, hlen⟩ := exists_ready (n := 12) fun k hk =>
    goesOn_of_not_settles h (Nat.le_of_lt_succ hk)
  refine ⟨s, hs, fun hbounded => ?_⟩
  have hle := hbounded.length_le
  omega

/-- For every sequence of answers and every timing of the collections: the thread performs at most
eleven optimizations, and stops right after the first proper configuration, exactly when one of
the first eleven answers is proper or none of them is optimized for reliability. -/
theorem bounded_iff (o : Nat → Option MacConfiguration) :
    (∀ s, machine.ReachableIf (Follows o) s → s.Bounded) ↔ Settles o := by
  have hmax : maxRetries = 10 := rfl
  constructor
  · refine fun hall => Classical.by_contradiction fun hnot => ?_
    obtain ⟨s, hs, hs'⟩ := exists_not_bounded hnot
    exact hs' (hall s hs)
  · refine fun hsettles s hs => ⟨?_, fun k c hk hproper => (inv_of_reachableIf hs).stops hk hproper⟩
    -- More than eleven answers would mean that the loop went on after the eleventh.
    rcases Nat.lt_or_ge 11 s.outcomes.length with hlt | hge
    · cases ((inv_of_reachableIf hs).before 11 hlt).symm.trans (not_goesOn_of_settles hsettles)
    · omega

/-- An optimizer that always answers with the X-MAC parameters for reliability is called for the
twelfth time. -/
theorem not_forall_bounded :
    ¬ ∀ (o : Nat → Option MacConfiguration) (s : InitialTrigger),
      machine.ReachableIf (Follows o) s → s.Bounded := by
  intro hall
  obtain ⟨s, hs, hnot⟩ := exists_not_bounded (o := fun _ => some xmacRel) fun hsettles => by
    rcases hsettles with ⟨k, hk, hproper⟩ | hnone
    · cases hproper
    · cases hnone 0 (by decide) xmacRel rfl
  exact hnot (hall _ s hs)

end PTunes.Controller.InitialTrigger
