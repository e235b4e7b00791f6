import Mathlib.Init

/-!
# `PTunes.Rime.Addr`: Rime addresses (`core/net/rime/rimeaddr.c`)

`RIMEADDR_SIZE` is 2 in this build, so an address is two bytes.
-/

set_option autoImplicit false

namespace PTunes.Rime

/-- `rimeaddr_t`. -/
structure RimeAddr where
  u8_0 : UInt8
  u8_1 : UInt8
deriving DecidableEq, Repr, Inhabited

/-- `rimeaddr_null`. -/
def rimeaddrNull : RimeAddr := ⟨0, 0⟩

/-- `rimeaddr_cmp`: byte by byte, true on equal addresses. -/
def rimeaddrCmp (a b : RimeAddr) : Bool := a.u8_0 == b.u8_0 && a.u8_1 == b.u8_1

/-- `rimeaddr_cmp` is true when the addresses are the same. -/
@[simp] theorem rimeaddrCmp_iff (a b : RimeAddr) : rimeaddrCmp a b = true ↔ a = b := by
  cases a
  cases b
  simp [rimeaddrCmp]

/-- It is false when they differ. -/
@[simp] theorem rimeaddrCmp_eq_false (a b : RimeAddr) : rimeaddrCmp a b = false ↔ a ≠ b := by
  rw [ne_eq, ← rimeaddrCmp_iff, Bool.not_eq_true]

end PTunes.Rime
