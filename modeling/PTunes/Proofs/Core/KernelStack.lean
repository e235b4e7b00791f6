import Mathlib.Data.List.Nodup
import PTunes.Core.Kernel

/-!
# `PTunes.Proofs.Core.KernelStack`: the calls that have not returned

`StackInv` relates the states of the processes to the calls on the stack. A process is `called`
exactly while its thread is on the stack, and no process has two calls there. A process in the list
that is not running is about to leave it.

`process_exit` breaks this when its process has a call on the stack, so the results are for runs in
which it does not.

* `StackInv.push`, `StackInv.call`, `StackInv.ret`, `StackInv.leave`, `StackInv.remove`,
  `StackInv.start`: what the functions of the kernel do to the stack.
-/

set_option autoImplicit false

namespace PTunes.Core

variable {π : Type}

namespace Frame

/-- The process that is called, or that exits. -/
def process : Frame π → Option π
  | .thread p _ _ | .exiting p _ _ _ | .exitCall p _ _ _ | .exitThread p _ | .unlink p _ _ => some p
  | .search _ _ _ | .postSynch _ => none

/-- The process that `call_process` has called. -/
def called : Frame π → Option π
  | .thread p _ _ => some p
  | _ => none

/-- The process that exits. -/
def leaving : Frame π → Option π
  | .exiting p _ _ _ | .exitCall p _ _ _ | .exitThread p _ | .unlink p _ _ => some p
  | _ => none

/-- The process that exits, until it is taken out of the list. -/
def linked : Frame π → Option π
  | .exiting p _ _ _ | .exitCall p _ _ _ | .exitThread p _ => some p
  | _ => none

/-- The frame waits for a call to return. -/
def waits : Frame π → Bool
  | .thread _ _ _ | .postSynch _ | .exitCall _ _ _ _ | .exitThread _ _ => true
  | .search _ _ _ | .exiting _ _ _ _ | .unlink _ _ _ => false

/-- A process that exits is one of a call. -/
theorem process_of_leaving {f : Frame π} {p : π} (h : f.leaving = some p) :
    f.process = some p := by
  cases f <;> first | exact h | cases h

/-- The process that a frame has called is the one that the frame belongs to. -/
theorem process_of_called {f : Frame π} {p : π} (h : f.called = some p) :
    f.process = some p := by
  cases f <;> first | exact h | cases h

/-- A process with a call is called or exits. -/
theorem called_or_leaving {f : Frame π} {p : π} (h : f.process = some p) :
    f.called = some p ∨ f.leaving = some p := by
  cases f <;> first | exact .inl h | exact .inr h

/-- A frame that waits has not yet taken its process out of the list. -/
theorem linked_of_leaving {f : Frame π} {p : π} (hwaits : f.waits = true)
    (h : f.leaving = some p) : f.linked = some p := by
  cases f <;> first | exact h | cases hwaits

end Frame

/-- The states of the processes, the stack, and the list of the processes. -/
structure StackInv (state : π → ProcessState) (stack : List (Frame π)) (l : List π) : Prop where
  nodup : (stack.filterMap Frame.process).Nodup
  called : ∀ p, state p = .called ↔ p ∈ stack.filterMap Frame.called
  leaving : ∀ p ∈ stack.filterMap Frame.leaving, state p = .none
  linked : ∀ p ∈ stack.filterMap Frame.linked, p ∈ l
  listed : ∀ p, state p ≠ .none → p ∈ l
  ended : ∀ p ∈ l, state p = .none → p ∈ stack.filterMap Frame.leaving
  waits : ∀ f ∈ stack.tail, f.waits = true

namespace StackInv

variable {state : π → ProcessState} {stack : List (Frame π)} {l : List π} {f g : Frame π} {p : π}

/-- The frame on top waits when there is one above it. -/
def TopWaits (stack : List (Frame π)) : Prop := ∀ f ∈ stack, f.waits = true

/-- All frames but the top one wait for a call to return. -/
theorem topWaits_tail (h : StackInv state (f :: stack) l) : TopWaits stack := h.waits

/-- A running process has no call on the stack. -/
theorem not_mem_of_running (h : StackInv state stack l) (hp : state p = .running) :
    p ∉ stack.filterMap Frame.process := by
  intro hmem
  obtain ⟨f, hf, hfp⟩ := List.mem_filterMap.mp hmem
  rcases Frame.called_or_leaving hfp with hcalled | hleaving
  · have := (h.called p).mpr (List.mem_filterMap.mpr ⟨f, hf, hcalled⟩)
    rw [hp] at this
    cases this
  · have := h.leaving p (List.mem_filterMap.mpr ⟨f, hf, hleaving⟩)
    rw [hp] at this
    cases this

/-- A process outside the list has no call on a stack that waits. -/
theorem not_mem_of_not_listed (h : StackInv state stack l) (hwaits : TopWaits stack)
    (hp : p ∉ l) : p ∉ stack.filterMap Frame.process := by
  intro hmem
  obtain ⟨f, hf, hfp⟩ := List.mem_filterMap.mp hmem
  rcases Frame.called_or_leaving hfp with hcalled | hleaving
  · have hstate := (h.called p).mpr (List.mem_filterMap.mpr ⟨f, hf, hcalled⟩)
    exact hp (h.listed p (by rw [hstate]; decide))
  · exact hp (h.linked p (List.mem_filterMap.mpr
      ⟨f, hf, Frame.linked_of_leaving (hwaits f hf) hleaving⟩))

/-- A process that exits has only this call. -/
theorem not_mem_tail (h : StackInv state (f :: stack) l) (hf : f.process = some p) :
    p ∉ stack.filterMap Frame.process := by
  have hnodup := h.nodup
  rw [List.filterMap_cons_some hf] at hnodup
  exact (List.nodup_cons.mp hnodup).1

/-- A frame without a process. -/
theorem push (h : StackInv state stack l) (hwaits : TopWaits stack) (hf : f.process = none) :
    StackInv state (f :: stack) l := by
  have hcalled : f.called = none := by cases f <;> first | rfl | cases hf
  have hleaving : f.leaving = none := by cases f <;> first | rfl | cases hf
  have hlinked : f.linked = none := by cases f <;> first | rfl | cases hf
  constructor
  case waits => exact hwaits
  case listed => exact h.listed
  all_goals simp only [List.filterMap_cons, hf, hcalled, hleaving, hlinked]
  · exact h.nodup
  · exact h.called
  · exact h.leaving
  · exact h.linked
  · exact h.ended

/-- A frame without a process goes. -/
theorem pop (h : StackInv state (f :: stack) l) (hf : f.process = none) :
    StackInv state stack l := by
  have hcalled : f.called = none := by cases f <;> first | rfl | cases hf
  have hleaving : f.leaving = none := by cases f <;> first | rfl | cases hf
  have hlinked : f.linked = none := by cases f <;> first | rfl | cases hf
  obtain ⟨h₁, h₂, h₃, h₄, h₅, h₆, h₇⟩ := h
  simp only [List.filterMap_cons, hf, hcalled, hleaving, hlinked] at h₁ h₂ h₃ h₄ h₆
  exact ⟨h₁, h₂, h₃, h₄, h₅, h₆, fun g hg => h₇ g (List.mem_of_mem_tail hg)⟩

/-- `exit_process` goes on with the same process. -/
theorem change (h : StackInv state (f :: stack) l) (hprocess : g.process = f.process)
    (hcalled : g.called = f.called) (hleaving : g.leaving = f.leaving)
    (hlinked : g.linked = f.linked ∨ g.linked = none) : StackInv state (g :: stack) l := by
  obtain ⟨h₁, h₂, h₃, h₄, h₅, h₆, h₇⟩ := h
  constructor
  case linked =>
    intro p hp
    rcases hlinked with hlinked | hlinked
    · exact h₄ p (by simpa only [List.filterMap_cons, hlinked] using hp)
    · refine h₄ p ?_
      simp only [List.filterMap_cons, hlinked] at hp ⊢
      split
      · exact hp
      · exact List.mem_cons_of_mem _ hp
  case waits => exact h₇
  case listed => exact h₅
  all_goals simpa only [List.filterMap_cons, hprocess, hcalled, hleaving]

/-- `exit_process` of a process that does not run. -/
theorem leaveEnded (h : StackInv state stack l) (hwaits : TopWaits stack)
    (hnot : p ∉ stack.filterMap Frame.process) (hp : state p = .none)
    (oldCurrent q : Option π) : StackInv state (.unlink p oldCurrent q :: stack) l where
  nodup := List.nodup_cons.mpr ⟨hnot, h.nodup⟩
  called := h.called
  leaving := by
    intro r hr
    rcases List.mem_cons.mp hr with rfl | hr
    · exact hp
    · exact h.leaving r hr
  linked := h.linked
  listed := h.listed
  ended r hr hstate := List.mem_cons_of_mem p (h.ended r hr hstate)
  waits := hwaits

variable [DecidableEq π]

/-- `call_process` calls a running process. -/
theorem call (h : StackInv state stack l) (hwaits : TopWaits stack) (hp : state p = .running)
    (ev : UInt8) (data : ProcessData π) :
    StackInv (Function.update state p .called) (.thread p ev data :: stack) l where
  nodup := List.nodup_cons.mpr ⟨h.not_mem_of_running hp, h.nodup⟩
  called q := by
    show _ ↔ q ∈ p :: stack.filterMap Frame.called
    rw [List.mem_cons, Function.update_apply, ← h.called q]
    split
    · simp [*]
    · simp [*]
  leaving q hq := by
    -- A process on its way out is in no state to be called.
    have hne : q ≠ p := by
      rintro rfl
      rw [h.leaving q hq] at hp
      cases hp
    rw [Function.update_of_ne hne]
    exact h.leaving q hq
  linked := h.linked
  listed q hq := by
    rw [Function.update_apply] at hq
    split at hq
    · rename_i hqp
      exact h.listed q (by rw [hqp, hp]; decide)
    · exact h.listed q hq
  ended q hq hstate := by
    rw [Function.update_apply] at hstate
    split at hstate
    · cases hstate
    · exact h.ended q hq hstate
  waits := hwaits

/-- The thread returns. -/
theorem ret {ev : UInt8} {data : ProcessData π}
    (h : StackInv state (.thread p ev data :: stack) l) :
    StackInv (Function.update state p .running) stack l := by
  have hp : state p = .called := (h.called p).mpr List.mem_cons_self
  have hnot := h.not_mem_tail rfl
  constructor
  case nodup => exact (List.nodup_cons.mp h.nodup).2
  case called =>
    intro q
    have hq := h.called q
    rw [show (Frame.thread p ev data :: stack).filterMap Frame.called =
      p :: stack.filterMap Frame.called from rfl, List.mem_cons] at hq
    rw [Function.update_apply]
    split
    · rename_i hqp
      subst hqp
      -- The process is on the stack once, and this call is gone.
      refine ⟨fun h => (by cases h), fun hmem => ?_⟩
      obtain ⟨f, hf, hfq⟩ := List.mem_filterMap.mp hmem
      exact absurd (List.mem_filterMap.mpr ⟨f, hf, Frame.process_of_called hfq⟩) hnot
    · rename_i hqp
      rw [hq, or_iff_right hqp]
  case leaving =>
    intro q hq
    have hnone : state q = .none := h.leaving q hq
    -- It was called, so it is not on its way out.
    rw [Function.update_of_ne]
    · exact hnone
    · rintro rfl
      rw [hp] at hnone
      cases hnone
  case linked => exact h.linked
  case listed =>
    intro q hq
    rw [Function.update_apply] at hq
    split at hq
    · rename_i hqp
      exact h.listed q (by rw [hqp, hp]; decide)
    · exact h.listed q hq
  case ended =>
    intro q hq hstate
    rw [Function.update_apply] at hstate
    split at hstate
    · cases hstate
    · exact h.ended q hq hstate
  case waits => exact fun f hf => h.waits f (List.mem_of_mem_tail hf)

/-- `exit_process` of a process without another call. -/
theorem leave (h : StackInv state stack l) (hwaits : TopWaits stack)
    (hnot : p ∉ stack.filterMap Frame.process) (hp : state p ≠ .none) (hf : f.linked = some p) :
    StackInv (Function.update state p .none) (f :: stack) l := by
  have hprocess : f.process = some p := by cases f <;> first | exact hf | cases hf
  have hfcalled : f.called = none := by cases f <;> first | rfl | cases hf
  have hfleaving : f.leaving = some p := by cases f <;> first | exact hf | cases hf
  constructor
  case nodup =>
    rw [List.filterMap_cons_some hprocess]
    exact List.nodup_cons.mpr ⟨hnot, h.nodup⟩
  case called =>
    intro q
    rw [List.filterMap_cons_none hfcalled, Function.update_apply]
    split
    · rename_i hqp
      subst hqp
      -- No other call has it on the stack.
      refine ⟨fun h => (by cases h), fun hmem => ?_⟩
      obtain ⟨g, hg, hgq⟩ := List.mem_filterMap.mp hmem
      exact absurd (List.mem_filterMap.mpr ⟨g, hg, Frame.process_of_called hgq⟩) hnot
    · rename_i hqp
      exact h.called q
  case leaving =>
    intro q hq
    rw [List.filterMap_cons_some hfleaving] at hq
    rw [Function.update_apply]
    split
    · rfl
    · rename_i hqp
      exact h.leaving q ((List.mem_cons.mp hq).resolve_left hqp)
  case linked =>
    intro q hq
    rw [List.filterMap_cons_some hf] at hq
    rcases List.mem_cons.mp hq with rfl | hq
    · -- It is still listed, since its state was not `none`.
      exact h.listed q hp
    · exact h.linked q hq
  case listed =>
    intro q hq
    rw [Function.update_apply] at hq
    split at hq
    · exact absurd rfl hq
    · exact h.listed q hq
  case ended =>
    intro q hq hstate
    rw [List.filterMap_cons_some hfleaving, List.mem_cons]
    rw [Function.update_apply] at hstate
    split at hstate
    · rename_i hqp
      exact .inl hqp
    · exact .inr (h.ended q hq hstate)
  case waits => exact hwaits

/-- The process on top leaves the list. -/
theorem remove (h : StackInv state (f :: stack) l) (hf : f.leaving = some p) :
    StackInv state stack (l.filter (· ≠ p)) := by
  have hprocess := Frame.process_of_leaving hf
  have hcalled : f.called = none := by cases f <;> first | rfl | cases hf
  have hnot := h.not_mem_tail hprocess
  constructor
  case nodup =>
    have hnodup := h.nodup
    rw [List.filterMap_cons_some hprocess] at hnodup
    exact (List.nodup_cons.mp hnodup).2
  case called =>
    intro q
    rw [h.called q, List.filterMap_cons_none hcalled]
  case leaving =>
    intro q hq
    refine h.leaving q ?_
    rw [List.filterMap_cons_some hf]
    exact List.mem_cons_of_mem _ hq
  case linked =>
    intro q hq
    obtain ⟨g, hg, hgq⟩ := List.mem_filterMap.mp hq
    refine List.mem_filter.mpr ⟨h.linked q (List.mem_filterMap.mpr
      ⟨g, List.mem_cons_of_mem f hg, hgq⟩), decide_eq_true ?_⟩
    rintro rfl
    -- No other call is about to take it out.
    refine hnot (List.mem_filterMap.mpr ⟨g, hg, ?_⟩)
    cases g <;> first | exact hgq | cases hgq
  case listed =>
    intro q hq
    refine List.mem_filter.mpr ⟨h.listed q hq, decide_eq_true ?_⟩
    rintro rfl
    -- A process with a state is not on its way out.
    exact hq (h.leaving q (List.mem_filterMap.mpr ⟨f, List.mem_cons_self, hf⟩))
  case ended =>
    intro q hq hstate
    obtain ⟨hql, hqp⟩ := List.mem_filter.mp hq
    have hmem := h.ended q hql hstate
    rw [List.filterMap_cons_some hf] at hmem
    exact (List.mem_cons.mp hmem).resolve_left (of_decide_eq_true hqp)
  case waits => exact fun g hg => h.waits g (List.mem_of_mem_tail hg)

/-- A new process at the front of the list. -/
theorem start (h : StackInv state stack l) (hwaits : TopWaits stack) (hp : p ∉ l) :
    StackInv (Function.update state p .running) stack (p :: l) := by
  have hnot := h.not_mem_of_not_listed hwaits hp
  constructor
  case nodup => exact h.nodup
  case called =>
    intro q
    rw [Function.update_apply]
    split
    · rename_i hqp
      subst hqp
      -- What is not listed is on no call.
      refine ⟨fun h => (by cases h), fun hmem => ?_⟩
      obtain ⟨g, hg, hgq⟩ := List.mem_filterMap.mp hmem
      exact absurd (List.mem_filterMap.mpr ⟨g, hg, Frame.process_of_called hgq⟩) hnot
    · exact h.called q
  case leaving =>
    intro q hq
    rw [Function.update_of_ne]
    · exact h.leaving q hq
    · rintro rfl
      obtain ⟨g, hg, hgq⟩ := List.mem_filterMap.mp hq
      exact hnot (List.mem_filterMap.mpr ⟨g, hg, Frame.process_of_leaving hgq⟩)
  case linked => exact fun q hq => List.mem_cons_of_mem p (h.linked q hq)
  case listed =>
    intro q hq
    rw [Function.update_apply] at hq
    split at hq
    · rename_i hqp
      rw [hqp]
      exact List.mem_cons_self
    · exact List.mem_cons_of_mem p (h.listed q hq)
  case ended =>
    intro q hq hstate
    rw [Function.update_apply] at hstate
    split at hstate
    · cases hstate
    · rename_i hqp
      exact h.ended q ((List.mem_cons.mp hq).resolve_left hqp) hstate
  case waits => exact fun g hg => hwaits g (List.mem_of_mem_tail hg)

end StackInv

end PTunes.Core
