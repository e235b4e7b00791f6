import Mathlib.Tactic.Common

/-!
# `PTunes.Lib.Word16`: expressions over unsigned 16-bit values

A computation of a program as an expression, so that its intermediate results can be spoken
about. `eval` is what a machine with 16-bit registers computes, and `exact` the value without a
bound on the registers. `Defined` says that no intermediate result overflows and that nothing
is divided by zero. Then the two agree (`Defined.toNat_eval`).
-/

set_option autoImplicit false

namespace PTunes

/-- An expression over unsigned 16-bit values. -/
inductive Word16 where
  | lit (x : UInt16)
  | add (a b : Word16)
  | mul (a b : Word16)
  | div (a b : Word16)
  | mod (a b : Word16)
deriving DecidableEq, Repr

namespace Word16

/-- The value in 16 bits. -/
@[simp] def eval : Word16 → UInt16
  | lit x => x
  | add a b => a.eval + b.eval
  | mul a b => a.eval * b.eval
  | div a b => a.eval / b.eval
  | mod a b => a.eval % b.eval

/-- The value without a bound. -/
@[simp] def exact : Word16 → Nat
  | lit x => x.toNat
  | add a b => a.exact + b.exact
  | mul a b => a.exact * b.exact
  | div a b => a.exact / b.exact
  | mod a b => a.exact % b.exact

/-- No intermediate result overflows, and no divisor is zero. -/
@[simp] def Defined : Word16 → Prop
  | lit _ => True
  | add a b => a.Defined ∧ b.Defined ∧ a.exact + b.exact < 65536
  | mul a b => a.Defined ∧ b.Defined ∧ a.exact * b.exact < 65536
  | div a b => a.Defined ∧ b.Defined ∧ b.exact ≠ 0
  | mod a b => a.Defined ∧ b.Defined ∧ b.exact ≠ 0

/-- A defined expression has its exact value. -/
theorem Defined.toNat_eval {e : Word16} (h : e.Defined) : e.eval.toNat = e.exact := by
  induction e with
  | lit x => rfl
  | add a b iha ihb =>
      obtain ⟨ha, hb, hlt⟩ := h
      rw [eval, UInt16.toNat_add, iha ha, ihb hb, exact]
      exact Nat.mod_eq_of_lt hlt
  | mul a b iha ihb =>
      obtain ⟨ha, hb, hlt⟩ := h
      rw [eval, UInt16.toNat_mul, iha ha, ihb hb, exact]
      exact Nat.mod_eq_of_lt hlt
  | div a b iha ihb =>
      obtain ⟨ha, hb, _⟩ := h
      rw [eval, UInt16.toNat_div, iha ha, ihb hb, exact]
  | mod a b iha ihb =>
      obtain ⟨ha, hb, _⟩ := h
      rw [eval, UInt16.toNat_mod, iha ha, ihb hb, exact]

/-- A remainder is less than its divisor. -/
theorem Defined.exact_mod_lt {a b : Word16} (h : (mod a b).Defined) :
    (mod a b).exact < b.exact :=
  Nat.mod_lt _ (Nat.pos_of_ne_zero h.2.2)

end Word16

end PTunes
