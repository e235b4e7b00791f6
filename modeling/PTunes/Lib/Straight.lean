import Mathlib.Init

/-!
# `PTunes.Lib.Straight`: straight-line threads that may be interrupted

A `Thread` is the code that it has left to run and one register. Its instructions move
values between the register and the cells of a memory, one cell at a time, so another
thread or an interrupt may run between any two of them.

Reasoning about such a thread needs no invariant for each point of its code. `Thread.result`
is the memory that the thread leaves when it runs to its end without an interruption:

* `Thread.result_step`: a step of the thread keeps the result.
* `Thread.result_of_idle`: a thread at its end has reached it.
* `exec_frame`: what no store of the code changes, the result keeps.

So a fact about the result holds from the start of the thread to its end, unless something
else writes the memory between two of its steps.
-/

set_option autoImplicit false

namespace PTunes.Straight

/-- How the cells of a memory are read and written. -/
structure Memory (μ Cell Val : Type) where
  read : μ → Cell → Val
  write : μ → Cell → Val → μ

/-- An instruction. `pause` does nothing: it marks a place where the thread may wait. -/
inductive Instr (Cell Val : Type) where
  | const (v : Val)
  | load (c : Cell)
  | add (v : Val)
  | store (c : Cell)
  | pause
deriving DecidableEq, Repr

/-- The code that a thread has left, and its register. -/
structure Thread (Cell Val : Type) where
  code : List (Instr Cell Val)
  reg : Val
deriving DecidableEq, Repr

variable {μ Cell Val β : Type} [Add Val] (M : Memory μ Cell Val)

/-- What one instruction does to the register and the memory. -/
def Instr.run : Instr Cell Val → Val × μ → Val × μ
  | .const v, s => (v, s.2)
  | .load c, s => (M.read s.2 c, s.2)
  | .add v, s => (s.1 + v, s.2)
  | .store c, s => (s.1, M.write s.2 c s.1)
  | .pause, s => s

/-- The effect of a whole code. -/
def exec (code : List (Instr Cell Val)) (s : Val × μ) : Val × μ :=
  code.foldl (fun s i => i.run M s) s

/-- No code changes nothing. -/
@[simp] theorem exec_nil (s : Val × μ) : exec M [] s = s := rfl

/-- The first instruction, and then the rest. -/
@[simp] theorem exec_cons (i : Instr Cell Val) (code : List (Instr Cell Val)) (s : Val × μ) :
    exec M (i :: code) s = exec M code (i.run M s) := rfl

/-- Code in two parts. The register goes from the first one to the second one. -/
theorem exec_append (xs ys : List (Instr Cell Val)) (s : Val × μ) :
    exec M (xs ++ ys) s = exec M ys (exec M xs s) := by
  simp [exec, List.foldl_append]

variable {M} in
/-- One instruction keeps what its store, if it is one, does not change. -/
theorem Instr.run_frame (f : μ → β) {i : Instr Cell Val}
    (h : ∀ c, i = .store c → ∀ m v, f (M.write m c v) = f m) (s : Val × μ) :
    f (i.run M s).2 = f s.2 := by
  cases i with
  | store c => exact h c rfl s.2 s.1
  | const v => rfl
  | load c => rfl
  | add v => rfl
  | pause => rfl

variable {M} in
/-- A code keeps what none of its stores changes. -/
theorem exec_frame (f : μ → β) {code : List (Instr Cell Val)}
    (h : ∀ c, .store c ∈ code → ∀ m v, f (M.write m c v) = f m) (s : Val × μ) :
    f (exec M code s).2 = f s.2 := by
  induction code generalizing s with
  | nil => rfl
  | cons i code ih =>
      rw [exec_cons, ih (fun c hc => h c (List.mem_cons_of_mem i hc))]
      exact Instr.run_frame f (fun c hc => h c (hc ▸ List.mem_cons_self)) s

namespace Thread

variable {M} {t t' : Thread Cell Val} {m m' : μ}

variable (M) in
/-- The next instruction of a thread, if it has one left. -/
def step (t : Thread Cell Val) (m : μ) : Option (Thread Cell Val × μ) :=
  match t.code with
  | [] => none
  | i :: code =>
    let s := i.run M (t.reg, m)
    some (⟨code, s.1⟩, s.2)

variable (M) in
/-- The memory at the end of the thread when nothing interrupts it. -/
def result (t : Thread Cell Val) (m : μ) : μ := (exec M t.code (t.reg, m)).2

/-- What a step does. -/
theorem step_cases (h : t.step M m = some (t', m')) :
    ∃ i code, t.code = i :: code ∧ t'.code = code ∧
      (t'.reg, m') = i.run M (t.reg, m) := by
  unfold step at h
  split at h
  · cases h
  · rename_i i code hcode
    cases h
    exact ⟨i, code, hcode, rfl, rfl⟩

/-- A step keeps the result. -/
theorem result_step (h : t.step M m = some (t', m')) : t'.result M m' = t.result M m := by
  obtain ⟨i, code, hcode, hcode', hs⟩ := step_cases h
  simp [result, hcode, hcode', hs]

/-- A thread at its end has reached its result. -/
theorem result_of_idle (h : t.code = []) : t.result M m = m := by
  simp [result, h]

/-- The result keeps what no store of the code changes. -/
theorem result_frame (f : μ → β)
    (h : ∀ c, .store c ∈ t.code → ∀ m v, f (M.write m c v) = f m) :
    f (t.result M m) = f m :=
  exec_frame f h (t.reg, m)

/-- A step keeps what the store at the head of the code, if there is one, does not
change. -/
theorem step_frame (f : μ → β) (h : t.step M m = some (t', m'))
    (hf : ∀ c, t.code.head? = some (.store c) → ∀ m v, f (M.write m c v) = f m) :
    f m' = f m := by
  obtain ⟨i, code, hcode, -, hs⟩ := step_cases h
  have hi := Instr.run_frame (M := M) f (i := i) (fun c hc => hf c (by simp [hcode, hc]))
    (t.reg, m)
  rwa [← hs] at hi

end Thread

end PTunes.Straight
