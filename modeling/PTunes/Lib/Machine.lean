import Mathlib.Logic.Basic

/-!
# `PTunes.Lib.Machine`: machines, guarded runs and their invariants

A `Machine` has one initial state and a partial, labelled step. The label carries every
choice of the environment, so the step itself is a function and a run is a list of labels.

`ReachableIf ok` holds of the states of the runs whose every step satisfies `ok` in the
state before it. `Reachable` is the case without a guard. The rules:

* `ReachableIf.invariant`: what holds initially and is kept by every step that satisfies
  the guard holds of every such state.
* `ReachableIf.mono`: a weaker guard reaches more states.
* `reachableIf_of_runIf`: a concrete run that `runIf` executes, checking the guard at each
  step, ends in a state that `ReachableIf` reaches. This is how a concrete run enters a
  proof, and `exists_reachable_of_run` adds what was computed of its end.
-/

set_option autoImplicit false

namespace PTunes

/-- A machine with a partial, labelled step. -/
structure Machine (σ α : Type) where
  /-- The state before the first step. -/
  init : σ
  /-- The state after the step `a`, if the step is enabled. -/
  step : σ → α → Option σ

namespace Machine

variable {σ α : Type} (M : Machine σ α)

/-- The states of the runs whose every step satisfies `ok` in the state before it. -/
inductive ReachableIf (ok : σ → α → Prop) : σ → Prop
  | init : ReachableIf ok M.init
  | step {s t : σ} {a : α} :
      ReachableIf ok s → ok s a → M.step s a = some t → ReachableIf ok t

/-- The states of all runs. -/
def Reachable (s : σ) : Prop := M.ReachableIf (fun _ _ => True) s

variable {M}

/-- The invariant rule for guarded runs. -/
theorem ReachableIf.invariant {ok : σ → α → Prop} {s : σ} (I : σ → Prop)
    (hinit : I M.init)
    (hstep : ∀ s a t, I s → ok s a → M.step s a = some t → I t)
    (h : M.ReachableIf ok s) : I s := by
  induction h with
  | init => exact hinit
  | step _ hok hst ih => exact hstep _ _ _ ih hok hst

/-- The invariant rule for all runs. -/
theorem Reachable.invariant {s : σ} (I : σ → Prop)
    (hinit : I M.init)
    (hstep : ∀ s a t, I s → M.step s a = some t → I t)
    (h : M.Reachable s) : I s :=
  ReachableIf.invariant I hinit (fun s a t hs _ hst => hstep s a t hs hst) h

/-- A weaker guard reaches more states. -/
theorem ReachableIf.mono {ok ok' : σ → α → Prop} {s : σ}
    (hok : ∀ s a, ok s a → ok' s a) (h : M.ReachableIf ok s) : M.ReachableIf ok' s := by
  induction h with
  | init => exact .init
  | step _ ha hst ih => exact .step ih (hok _ _ ha) hst

variable (M)

/-- The run over a list of labels from `s`. It stops at the first label that violates the
guard or is not enabled. -/
def runIf (ok : σ → α → Prop) [∀ s a, Decidable (ok s a)] : σ → List α → Option σ
  | s, [] => some s
  | s, a :: as =>
    if ok s a then
      match M.step s a with
      | some t => runIf ok t as
      | none => none
    else none

/-- The run over a list of labels, from the initial state and without a guard. -/
def run (as : List α) : Option σ := M.runIf (fun _ _ => True) M.init as

variable {M}

/-- A concrete guarded run from a reachable state ends in a reachable state. -/
theorem ReachableIf.runIf {ok : σ → α → Prop} [∀ s a, Decidable (ok s a)] {as : List α}
    {s t : σ} (hs : M.ReachableIf ok s) (h : M.runIf ok s as = some t) :
    M.ReachableIf ok t := by
  induction as generalizing s with
  | nil =>
      cases h
      exact hs
  | cons a as ih =>
      simp only [Machine.runIf] at h
      split at h
      · rename_i hok
        split at h
        · rename_i u hu
          exact ih (.step hs hok hu) h
        · cases h
      · cases h

/-- The end of a concrete guarded run is reachable. -/
theorem reachableIf_of_runIf (ok : σ → α → Prop) [∀ s a, Decidable (ok s a)] (as : List α)
    {t : σ} (h : M.runIf ok M.init as = some t) : M.ReachableIf ok t :=
  ReachableIf.runIf .init h

/-- The end of a concrete run is reachable. -/
theorem reachable_of_run (as : List α) {t : σ} (h : M.run as = some t) : M.Reachable t :=
  reachableIf_of_runIf _ as h

/-- The end of a concrete guarded run is reachable, and `f` has the value there that it was
computed to have. -/
theorem exists_reachableIf_of_runIf {β : Type} {ok : σ → α → Prop} [∀ s a, Decidable (ok s a)]
    {f : σ → β} {as : List α} {b : β} (h : (M.runIf ok M.init as).map f = some b) :
    ∃ s, M.ReachableIf ok s ∧ f s = b := by
  obtain ⟨s, hs, hb⟩ := Option.map_eq_some_iff.mp h
  exact ⟨s, reachableIf_of_runIf ok as hs, hb⟩

/-- The end of a concrete run is reachable, and `f` has the value there that it was computed
to have. -/
theorem exists_reachable_of_run {β : Type} {f : σ → β} {as : List α} {b : β}
    (h : (M.run as).map f = some b) : ∃ s, M.Reachable s ∧ f s = b :=
  exists_reachableIf_of_runIf h

/-- A property of all reachable states fails when it fails at the end of one run. -/
theorem not_forall_reachable {P : σ → Prop} (as : List α) {t : σ} (h : M.run as = some t)
    (hP : ¬ P t) : ¬ ∀ s, M.Reachable s → P s :=
  fun hall => hP (hall t (reachable_of_run as h))

end Machine

end PTunes
