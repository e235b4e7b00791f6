import Mathlib.Tactic.Ring
import PTunes.Proofs.Core.Etimer

/-!
# `PTunes.Proofs.Core.EtimerReturn`: every function returns

The loops of `etimer.c` follow the links of `timerlist`, and `etimer_process` starts again from its
head after every event. `calls_return`: with `n` pending timers a function takes at most
`2 n² + 3 n + 5` more steps, however many clock interrupts come in between, and it is never stuck.
-/

set_option autoImplicit false

namespace PTunes.Core

variable {κ π : Type} [DecidableEq κ]

namespace Etimers

variable {s s' : Etimers κ π} {l : List κ}

/-- The steps of `etimer_process` from the timer with `r - 1` timers behind it. -/
def scanSteps (n r : Nat) : Nat := 2 * n ^ 2 + 2 * r + 1

/-- The steps after `update_time` has returned. -/
def returnSteps (n : Nat) : EtimerReturn κ → Nat
  | .caller => 0
  | .stop _ => 1
  | .again => scanSteps n n

/-- The running function takes at most `N` more steps. -/
def Budget (s : Etimers κ π) (l : List κ) (N : Nat) : EtimerPc κ π → Prop
  | .idle => N = 0
  | .addTimer _ => N = 2 * l.length + 5
  | .addWalk _ t => ∃ l₁ l₂, s.At l t l₁ l₂ ∧ N = l₂.length + l.length + 4
  | .link _ => N = l.length + 3
  | .updateTime ret => N = l.length + 1 + returnSteps l.length ret
  | .updateWalk _ _ t ret =>
    ∃ l₁ l₂, s.At l t l₁ l₂ ∧ N = l₂.length + 1 + returnSteps l.length ret
  | .stopWalk _ t => ∃ l₁ l₂, s.At l t l₁ l₂ ∧ N = l₂.length + l.length + 2
  | .stopEnd _ => N = 1
  | .scan t _ => ∃ l₁ l₂, s.At l t l₁ l₂ ∧ N = scanSteps l.length l₂.length
  | .expired t _ => ∃ l₁ l₂, s.At l (some t) l₁ l₂ ∧ N + 1 = scanSteps l.length l₂.length
  | .exitedHead _ => N = 2 * l.length + 1
  | .exitedWalk _ t => ∃ l₁ l₂, s.At l (some t) l₁ l₂ ∧ N = l₂.length

/-- A function of which the place is known takes so many steps at most. -/
theorem Linked.budget (h : s.Linked l) :
    ∃ N, s.Budget l N s.pc ∧ N ≤ 2 * l.length ^ 2 + 3 * l.length + 5 := by
  cases hpc : s.pc with
  | idle => exact ⟨0, rfl, Nat.zero_le _⟩
  | addTimer et => exact ⟨_, rfl, by omega⟩
  | link et => exact ⟨_, rfl, by omega⟩
  | stopEnd et => exact ⟨_, rfl, by omega⟩
  | exitedHead p => exact ⟨_, rfl, by omega⟩
  | updateTime ret =>
      refine ⟨_, rfl, ?_⟩
      -- A return into `etimer_process` starts the scan again.
      cases ret <;> simp only [returnSteps, scanSteps] <;> omega
  | addWalk et t =>
      obtain ⟨_, l₁, l₂, hwalk, _⟩ := h.place_of hpc
      refine ⟨_, ⟨l₁, l₂, hwalk, rfl⟩, ?_⟩
      -- The rest of the walk is not longer than the list.
      rw [hwalk.1, List.length_append]
      omega
  | updateWalk now tdist t ret =>
      obtain ⟨_, l₁, l₂, hwalk, _⟩ := h.place_of hpc
      refine ⟨_, ⟨l₁, l₂, hwalk, rfl⟩, ?_⟩
      have hlen := congrArg List.length hwalk.1
      rw [List.length_append] at hlen
      cases ret <;> simp only [returnSteps, scanSteps] <;> omega
  | stopWalk et t =>
      obtain ⟨l₁, l₂, hwalk, _⟩ := h.place_of hpc
      refine ⟨_, ⟨l₁, l₂, hwalk, rfl⟩, ?_⟩
      rw [hwalk.1, List.length_append]
      omega
  | scan t u =>
      obtain ⟨l₁, l₂, hwalk, _⟩ := h.place_of hpc
      refine ⟨_, ⟨l₁, l₂, hwalk, rfl⟩, ?_⟩
      have hlen := congrArg List.length hwalk.1
      rw [List.length_append] at hlen
      rw [scanSteps]
      omega
  | expired t u =>
      obtain ⟨_, l₁, l₂, hwalk, _⟩ := h.place_of hpc
      refine ⟨2 * l.length ^ 2 + 2 * l₂.length, ⟨l₁, l₂, hwalk, rfl⟩, ?_⟩
      have hlen := congrArg List.length hwalk.1
      rw [List.length_append] at hlen
      omega
  | exitedWalk p t =>
      obtain ⟨l₁, l₂, hl, _, hrest⟩ := h.chain.split (h.place_of hpc)
      refine ⟨_, ⟨l₁, t :: l₂, ⟨hl, .cons hrest⟩, rfl⟩, ?_⟩
      rw [hl, List.length_append]
      omega

/-- `update_time` returns. -/
theorem Linked.budget_returnTo (h : s.Linked l) (ret : EtimerReturn κ) (hnext : s'.next = s.next) :
    s'.Budget l (returnSteps l.length ret) (s.returnTo ret) := by
  cases ret with
  | caller | stop et => rfl
  | again => exact ⟨[], l, ⟨rfl, by rw [hnext]; exact h.chain⟩, rfl⟩

variable [DecidableEq π]

/-- A function that is running can take a step. -/
theorem exists_code (hpc : s.pc ≠ .idle) (posted : Bool) : ∃ s', s.code posted = some s' := by
  rw [Etimers.code]
  cases h : s.pc with
  | idle => exact absurd h hpc
  | addTimer | link | stopEnd => exact ⟨_, rfl⟩
  | addWalk _ t | updateWalk _ _ t _ | scan t _ => cases t <;> exact ⟨_, rfl⟩
  | updateTime ret =>
      dsimp only
      split <;> exact ⟨_, rfl⟩
  | stopWalk et t =>
      cases t with
      | none => exact ⟨_, rfl⟩
      | some t =>
          dsimp only
          split <;> exact ⟨_, rfl⟩
  | expired t u => cases posted <;> exact ⟨_, rfl⟩
  | exitedHead p | exitedWalk p t =>
      dsimp only
      split
      · exact ⟨_, rfl⟩
      · split <;> exact ⟨_, rfl⟩

/-! ### Each step lowers the budget -/

/-- A function that has made a step: fewer than `N` steps are left to it at most, counted along the
timers that are on the list now. -/
def StepsLeft (s : Etimers κ π) (N : Nat) : Prop :=
  ∃ l N', Segment s.next s.timerlist l none ∧ s.Budget l N' s.pc ∧ N' < N

variable {N : Nat} {posted : Bool}

/-- `add_timer` has both its own loop and that of `update_time` ahead when the timer has a process,
and only the second one when it has none. -/
theorem Linked.budget_addTimer (h : s.Linked l) {timer : κ} (hpc : s.pc = .addTimer timer)
    (hN : s.Budget l N (.addTimer timer)) (hstep : s.code posted = some s') : s'.StepsLeft N := by
  rw [Etimers.code, hpc] at hstep
  rw [Budget] at hN
  cases hstep
  rw [StepsLeft]
  dsimp only
  split
  · exact ⟨l, _, h.chain, ⟨[], l, at_head h.chain, rfl⟩, by omega⟩
  · exact ⟨l, _, h.chain, rfl, by omega⟩

/-- The loop of `add_timer` takes one step for each timer of the list. -/
theorem Linked.budget_addWalk (h : s.Linked l) {timer : κ} {t : Option κ}
    (hpc : s.pc = .addWalk timer t) (hN : s.Budget l N (.addWalk timer t))
    (hstep : s.code posted = some s') : s'.StepsLeft N := by
  obtain ⟨l₁, l₂, hwalk, hN⟩ := hN
  rw [Etimers.code, hpc] at hstep
  cases t with
  | none =>
      cases hstep
      exact ⟨l, _, h.chain, rfl, by omega⟩
  | some t =>
      cases hstep
      obtain ⟨l₃, rfl, hwalk'⟩ := hwalk.next
      rw [List.length_cons] at hN
      rw [StepsLeft]
      dsimp only
      split
      · exact ⟨l, _, h.chain, rfl, by rw [returnSteps]; omega⟩
      · exact ⟨l, _, h.chain, ⟨_, l₃, hwalk', rfl⟩, by omega⟩

/-- The new timer makes the list one longer, and so the loop of `update_time`. -/
theorem Linked.budget_link (h : s.Linked l) {timer : κ} (hpc : s.pc = .link timer)
    (hN : s.Budget l N (.link timer)) (hstep : s.code posted = some s') : s'.StepsLeft N := by
  obtain ⟨_, hnot⟩ := h.place_of hpc
  rw [Etimers.code, hpc] at hstep
  rw [Budget] at hN
  cases hstep
  refine ⟨timer :: l, _, h.chain.push hnot, rfl, ?_⟩
  rw [List.length_cons, returnSteps]
  omega

/-- `update_time` looks at the head of the list first, and at the others in its loop. -/
theorem Linked.budget_updateTime (h : s.Linked l) {ret : EtimerReturn κ}
    (hpc : s.pc = .updateTime ret) (hN : s.Budget l N (.updateTime ret))
    (hstep : s.code posted = some s') : s'.StepsLeft N := by
  rw [Etimers.code, hpc] at hstep
  rw [Budget] at hN
  dsimp only at hstep
  split at hstep
  · cases hstep
    exact ⟨l, _, h.chain, h.budget_returnTo ret rfl, by omega⟩
  · rename_i t hhead
    cases hstep
    have hwalk : s.At l (some t) [] l := hhead ▸ at_head h.chain
    obtain ⟨l₃, rfl, hwalk'⟩ := hwalk.next
    refine ⟨_, _, h.chain, ⟨_, l₃, hwalk', rfl⟩, ?_⟩
    rw [List.length_cons] at hN ⊢
    omega

/-- The loop of `update_time` takes one step for each timer, and returns at the end. -/
theorem Linked.budget_updateWalk (h : s.Linked l) {now tdist : UInt16} {t : Option κ}
    {ret : EtimerReturn κ} (hpc : s.pc = .updateWalk now tdist t ret)
    (hN : s.Budget l N (.updateWalk now tdist t ret)) (hstep : s.code posted = some s') :
    s'.StepsLeft N := by
  obtain ⟨l₁, l₂, hwalk, hN⟩ := hN
  rw [Etimers.code, hpc] at hstep
  cases t with
  | none =>
      cases hstep
      exact ⟨l, _, h.chain, h.budget_returnTo ret rfl, by omega⟩
  | some t =>
      cases hstep
      obtain ⟨l₃, rfl, hwalk'⟩ := hwalk.next
      rw [List.length_cons] at hN
      exact ⟨l, _, h.chain, ⟨_, l₃, hwalk', rfl⟩, by omega⟩

/-- The loop of `etimer_stop` takes one step for each timer. Once the timer is off, the list that
`update_time` walks along is one shorter. -/
theorem Linked.budget_stopWalk (h : s.Linked l) {et : κ} {t : Option κ}
    (hpc : s.pc = .stopWalk et t) (hN : s.Budget l N (.stopWalk et t))
    (hstep : s.code posted = some s') : s'.StepsLeft N := by
  obtain ⟨l₁, l₂, hwalk, hN⟩ := hN
  rw [Etimers.code, hpc] at hstep
  cases t with
  | none =>
      cases hstep
      exact ⟨l, _, h.chain, rfl, by omega⟩
  | some t =>
      obtain ⟨l₃, rfl, hwalk'⟩ := hwalk.next
      rw [List.length_cons] at hN
      dsimp only at hstep
      split at hstep
      · rename_i hnext
        cases hstep
        obtain ⟨l', _, hlen, hseg⟩ := (hnext ▸ hwalk').remove h.chain rfl
        rw [List.getLast?_concat] at hseg
        exact ⟨l', _, hseg, rfl, by rw [returnSteps]; omega⟩
      · cases hstep
        exact ⟨l, _, h.chain, ⟨_, l₃, hwalk', rfl⟩, by omega⟩

/-- The last step of `etimer_stop`. -/
theorem Linked.budget_stopEnd (h : s.Linked l) {et : κ} (hpc : s.pc = .stopEnd et)
    (hN : s.Budget l N (.stopEnd et)) (hstep : s.code posted = some s') : s'.StepsLeft N := by
  have hnot : et ∉ l := h.place_of hpc
  rw [Etimers.code, hpc] at hstep
  rw [Budget] at hN
  cases hstep
  exact ⟨l, _, h.chain.update hnot, rfl, by omega⟩

/-- The loop of `etimer_process` takes two steps for each timer: one for the test, and one more when
the interval has passed but the event is not taken. -/
theorem Linked.budget_scan (h : s.Linked l) {t u : Option κ} (hpc : s.pc = .scan t u)
    (hN : s.Budget l N (.scan t u)) (hstep : s.code posted = some s') : s'.StepsLeft N := by
  obtain ⟨l₁, l₂, hwalk, hN⟩ := hN
  rw [scanSteps] at hN
  rw [Etimers.code, hpc] at hstep
  cases t with
  | none =>
      cases hstep
      exact ⟨l, _, h.chain, rfl, by omega⟩
  | some t =>
      cases hstep
      obtain ⟨l₃, rfl, hwalk'⟩ := hwalk.next
      rw [List.length_cons] at hN
      rw [StepsLeft]
      dsimp only
      split
      · refine ⟨l, 2 * l.length ^ 2 + 2 * (l₃.length + 1), h.chain, ⟨l₁, _, hwalk, ?_⟩, ?_⟩
        · rw [scanSteps, List.length_cons]
        · omega
      · exact ⟨l, _, h.chain, ⟨_, l₃, hwalk', rfl⟩, by rw [scanSteps]; omega⟩

/-- The event is not taken, and the loop of `etimer_process` goes on to the next timer. -/
theorem Linked.budget_notPosted (h : s.Linked l) {t : κ} {u : Option κ}
    (hpc : s.pc = .expired t u) (hN : s.Budget l N (.expired t u))
    (hstep : s.code false = some s') : s'.StepsLeft N := by
  obtain ⟨l₁, l₂, hwalk, hN⟩ := hN
  obtain ⟨l₃, rfl, hwalk'⟩ := hwalk.next
  rw [scanSteps, List.length_cons] at hN
  rw [Etimers.code, hpc] at hstep
  cases hstep
  exact ⟨l, _, h.chain, ⟨_, l₃, hwalk', rfl⟩, by rw [scanSteps]; omega⟩

/-- The event is taken, and `etimer_process` starts again from the head. The square in `scanSteps`
is there for this step: a list that is one timer shorter makes up for the new start. -/
theorem Linked.budget_posted (h : s.Linked l) {t : κ} {u : Option κ} (hpc : s.pc = .expired t u)
    (hN : s.Budget l N (.expired t u)) (hstep : s.code true = some s') : s'.StepsLeft N := by
  obtain ⟨l₁, l₂, hwalk, hN⟩ := hN
  obtain ⟨l₃, rfl, _⟩ := hwalk.next
  rw [scanSteps, List.length_cons] at hN
  obtain ⟨l', hlinked, hlen⟩ := h.code_posted hpc hstep
  have hpc' : s'.pc = .updateTime .again := by
    rw [Etimers.code, hpc] at hstep
    cases u <;> cases hstep <;> rfl
  refine ⟨l', _, hlinked.chain, by rw [hpc']; rfl, ?_⟩
  have hsq : (l'.length + 1) ^ 2 = l'.length ^ 2 + 2 * l'.length + 1 := by ring
  rw [← hlen] at hN
  rw [returnSteps, scanSteps]
  omega

/-- Dropping timers at the head takes one step for each. The walk behind the head has the rest of
the list ahead, once more from its first timer. -/
theorem Linked.budget_exitedHead (h : s.Linked l) {p : π} (hpc : s.pc = .exitedHead p)
    (hN : s.Budget l N (.exitedHead p)) (hstep : s.code posted = some s') : s'.StepsLeft N := by
  rw [Etimers.code, hpc] at hstep
  rw [Budget] at hN
  dsimp only at hstep
  split at hstep
  · cases hstep
    exact ⟨l, _, h.chain, rfl, by omega⟩
  · rename_i t hhead
    have hwalk : s.At l (some t) [] l := hhead ▸ at_head h.chain
    split at hstep
    · cases hstep
      obtain ⟨l', _, hlen, hseg⟩ := hwalk.remove h.chain rfl
      exact ⟨l', _, hseg, rfl, by omega⟩
    · cases hstep
      exact ⟨l, _, h.chain, ⟨[], l, hwalk, rfl⟩, by omega⟩

/-- Behind the head the walk goes on or drops a timer, and either way fewer timers are ahead. -/
theorem Linked.budget_exitedWalk (h : s.Linked l) {p : π} {t : κ} (hpc : s.pc = .exitedWalk p t)
    (hN : s.Budget l N (.exitedWalk p t)) (hstep : s.code posted = some s') : s'.StepsLeft N := by
  obtain ⟨l₁, l₂, hwalk, hN⟩ := hN
  obtain ⟨l₃, rfl, hwalk'⟩ := hwalk.next
  rw [List.length_cons] at hN
  rw [Etimers.code, hpc] at hstep
  dsimp only at hstep
  split at hstep
  · cases hstep
    exact ⟨l, _, h.chain, rfl, by omega⟩
  · rename_i n hnext
    split at hstep
    · cases hstep
      obtain ⟨l₄, rfl, _⟩ := (hnext ▸ hwalk').next
      have hchain := h.chain
      have hnodup := hchain.nodup
      rw [hwalk.1] at hchain hnodup
      -- The link of `t` now goes past `n`, both in the whole list and in the rest from `t` on.
      have hrest : Segment _ (some t) ([] ++ t :: l₄) none :=
        Segment.bypass hwalk.2 (List.nodup_append.mp hnodup).2.1
      refine ⟨l₁ ++ t :: l₄, _, hchain.bypass hnodup, ⟨l₁, _, ⟨rfl, hrest⟩, rfl⟩, ?_⟩
      rw [List.length_cons] at hN ⊢
      omega
    · cases hstep
      exact ⟨l, _, h.chain, ⟨_, l₃, hnext ▸ hwalk', rfl⟩, by omega⟩

/-- Each step of a function lowers the number of steps that it takes at most. -/
theorem Linked.code_budget (h : s.Linked l) (hN : s.Budget l N s.pc)
    (hstep : s.code posted = some s') : s'.StepsLeft N := by
  cases hpc : s.pc with
  | idle =>
      rw [Etimers.code, hpc] at hstep
      cases hstep
  | addTimer timer => exact h.budget_addTimer hpc (hpc ▸ hN) hstep
  | addWalk timer t => exact h.budget_addWalk hpc (hpc ▸ hN) hstep
  | link timer => exact h.budget_link hpc (hpc ▸ hN) hstep
  | updateTime ret => exact h.budget_updateTime hpc (hpc ▸ hN) hstep
  | updateWalk now tdist t ret => exact h.budget_updateWalk hpc (hpc ▸ hN) hstep
  | stopWalk et t => exact h.budget_stopWalk hpc (hpc ▸ hN) hstep
  | stopEnd et => exact h.budget_stopEnd hpc (hpc ▸ hN) hstep
  | scan t u => exact h.budget_scan hpc (hpc ▸ hN) hstep
  | expired t u =>
      cases posted with
      | false => exact h.budget_notPosted hpc (hpc ▸ hN) hstep
      | true => exact h.budget_posted hpc (hpc ▸ hN) hstep
  | exitedHead p => exact h.budget_exitedHead hpc (hpc ▸ hN) hstep
  | exitedWalk p t => exact h.budget_exitedWalk hpc (hpc ▸ hN) hstep

end Etimers

/-- A step of a function, or an interrupt. -/
def EtimerLabel.isRunning : EtimerLabel κ π → Bool
  | .code _ | .tick _ => true
  | _ => false

/-- A step of a function. -/
def EtimerLabel.isCode : EtimerLabel κ π → Bool
  | .code _ => true
  | _ => false

namespace Etimers

variable {s t : Etimers κ π} {l : List κ} [DecidableEq π]

omit [DecidableEq κ] [DecidableEq π] in
/-- The interrupt leaves the steps as they are. -/
theorem Budget.tick {N : Nat} (h : s.Budget l N s.pc) (late : Fin 256) :
    (s.timera1 late).Budget l N (s.timera1 late).pc := by
  have hfields : (s.timera1 late).next = s.next ∧ (s.timera1 late).pc = s.pc := by
    rw [timera1]
    dsimp only
    split <;> exact ⟨rfl, rfl⟩
  rw [hfields.2]
  cases hpc : s.pc with
  | addWalk | updateWalk | stopWalk | scan | expired | exitedWalk =>
      rw [hpc] at h
      simpa only [Budget, At, hfields.1] using h
  | _ =>
      rw [hpc] at h
      exact h

/-- A run of steps and interrupts has no more steps than the budget. -/
theorem Inv.count_code {N : Nat} (h : s.Inv)
    (hl : Segment s.next s.timerlist l none) (hN : s.Budget l N s.pc)
    (labels : List (EtimerLabel κ π)) (hlabels : ∀ a ∈ labels, a.isRunning)
    (hrun : (etimers κ π).runIf (fun _ _ => True) s labels = some t) :
    labels.countP EtimerLabel.isCode ≤ N ∧ t.Inv := by
  -- By induction on the labels: a step of the code takes from the budget, an interrupt does not.
  induction labels generalizing s l N with
  | nil =>
      cases hrun
      exact ⟨Nat.zero_le _, h⟩
  | cons a labels ih =>
      have hrest : ∀ b ∈ labels, b.isRunning := fun b hb => hlabels b (List.mem_cons_of_mem a hb)
      have ha := hlabels a List.mem_cons_self
      rw [Machine.runIf, if_pos trivial] at hrun
      split at hrun
      · rename_i s' hstep
        have hcalled : CalledByProcess s a := by
          cases a with
          | code | tick => trivial
          | _ => cases ha
        have hinv' := h.step hcalled hstep
        obtain ⟨l₀, hlinked⟩ := h.linked
        -- The list of the invariant is the one that the budget is counted on.
        obtain rfl := hlinked.chain.unique hl
        cases a with
        | code posted =>
            obtain ⟨l', N', hl', hN', hlt⟩ := hlinked.code_budget hN hstep
            obtain ⟨hle, ht⟩ := ih hinv' hl' hN' hrest hrun
            refine ⟨?_, ht⟩
            rw [List.countP_cons_of_pos rfl]
            omega
        | tick late =>
            cases hstep
            have hl' : Segment (s.timera1 late).next (s.timera1 late).timerlist l₀ none :=
              (hlinked.tick late).chain
            rw [List.countP_cons_of_neg (by simp [EtimerLabel.isCode])]
            exact ih hinv' hl' (hN.tick late) hrest hrun
        | _ => cases ha
      · cases hrun

end Etimers

variable [DecidableEq π]

/-- **Every function returns.** With `n` pending timers it takes at most `2 n² + 3 n + 5` more
steps, in every run of steps and interrupts, and until it has returned it can take a step. -/
theorem calls_return {s : Etimers κ π} (h : (etimers κ π).ReachableIf CalledByProcess s) :
    ∃ l, Segment s.next s.timerlist l none ∧
      ∀ (labels : List (EtimerLabel κ π)) (t : Etimers κ π), (∀ a ∈ labels, a.isRunning) →
        (etimers κ π).runIf (fun _ _ => True) s labels = some t →
          labels.countP EtimerLabel.isCode ≤ 2 * l.length ^ 2 + 3 * l.length + 5 ∧
            (t.pc ≠ .idle → ∀ posted, ∃ t', t.code posted = some t') := by
  have hinv := etimers_inv h
  obtain ⟨l, hl⟩ := hinv.linked
  obtain ⟨N, hN, hle⟩ := hl.budget
  refine ⟨l, hl.chain, fun labels t hlabels hrun => ⟨?_, fun hpc posted => ?_⟩⟩
  · exact (hinv.count_code hl.chain hN labels hlabels hrun).1.trans hle
  · exact Etimers.exists_code hpc posted

/-- `calls_return` when `etimer_process` is about to look at the timer of three ticks. -/
theorem calls_return_threeTicks : ∃ s : Etimers Bool Unit,
    s.pc = .scan (some true) none ∧ ∃ l, Segment s.next s.timerlist l none ∧
      ∀ (labels : List (EtimerLabel Bool Unit)) (t : Etimers Bool Unit),
        (∀ a ∈ labels, a.isRunning) →
          (etimers Bool Unit).runIf (fun _ _ => True) s labels = some t →
            labels.countP EtimerLabel.isCode ≤ 2 * l.length ^ 2 + 3 * l.length + 5 ∧
              (t.pc ≠ .idle → ∀ posted, ∃ t', t.code posted = some t') := by
  have hend : ((etimers Bool Unit).runIf CalledByProcess Etimers.init
      (threeTicks.take 12)).map (fun s => s.pc) = some (.scan (some true) none) := by
    decide
  obtain ⟨s, hs, hpc⟩ := Machine.exists_reachableIf_of_runIf (M := etimers Bool Unit) hend
  exact ⟨s, hpc, calls_return hs⟩

end PTunes.Core
