import Mathlib.Algebra.Order.Ring.Nat
import Mathlib.Tactic.Common

/-!
# `PTunes.Lib.Decimal`: decimal numerals and tokens

A text is a list of bytes in ASCII. `decimal n` is the numeral of `n` without leading zeros, and
`value` is the number of a list of digits.

* `value_decimal`: the numeral of a number has this number as its value.
* `isDigit_of_mem_decimal`, `decimal_ne_nil`, `length_decimal_le`: what a numeral looks like.
* `tokens_cons`, `tokens_of_noSpace`: the tokens of a text, one after the other.
-/

set_option autoImplicit false

namespace PTunes

/-- The bytes of a string in ASCII. -/
def ascii (s : String) : List UInt8 := s.toList.map fun c => UInt8.ofNat c.toNat

/-! ### Numerals -/

/-- The digit of a number below 10. -/
def digit (d : Nat) : UInt8 := UInt8.ofNat (48 + d)

/-- An ASCII digit. -/
def isDigit (c : UInt8) : Bool := 48 ≤ c ∧ c ≤ 57

/-- The number of a list of digits. -/
def value (l : List UInt8) : Nat := l.foldl (fun v c => 10 * v + (c.toNat - 48)) 0

/-- The numeral of `n`, with at most `fuel + 1` digits. -/
def decimalUpTo : Nat → Nat → List UInt8
  | 0, n => [digit n]
  | fuel + 1, n => if n < 10 then [digit n] else decimalUpTo fuel (n / 10) ++ [digit (n % 10)]

/-- The numeral of `n`. -/
def decimal (n : Nat) : List UInt8 := decimalUpTo n n

/-- The digits follow each other from `0` on, which is 48. -/
theorem toNat_digit {d : Nat} (h : d < 10) : (digit d).toNat = 48 + d := by
  rw [digit, UInt8.toNat_ofNat']
  omega

/-- The test in natural numbers, so that `omega` can use it. -/
theorem isDigit_iff {c : UInt8} : isDigit c = true ↔ 48 ≤ c.toNat ∧ c.toNat ≤ 57 := by
  simp only [isDigit, decide_eq_true_eq, UInt8.le_iff_toNat_le]
  exact Iff.rfl

/-- The digit of a number below 10 is one. -/
theorem isDigit_digit {d : Nat} (h : d < 10) : isDigit (digit d) = true := by
  rw [isDigit_iff, toNat_digit h]
  omega

/-- A further digit multiplies the value by ten and is added. Digits are read from the left. -/
theorem value_concat (l : List UInt8) (c : UInt8) :
    value (l ++ [c]) = 10 * value l + (c.toNat - 48) := by
  rw [value, List.foldl_append]
  rfl

/-- A numeral is not empty, and it consists of digits. -/
theorem decimalUpTo_digits {fuel n : Nat} (h : n ≤ fuel) :
    decimalUpTo fuel n ≠ [] ∧ ∀ c ∈ decimalUpTo fuel n, isDigit c = true := by
  induction fuel generalizing n with
  | zero =>
      rw [decimalUpTo]
      refine ⟨List.cons_ne_nil _ _, fun c hc => ?_⟩
      rw [List.mem_singleton] at hc
      exact hc ▸ isDigit_digit (by omega)
  | succ fuel ih =>
      rw [decimalUpTo]
      split
      · rename_i hlt
        refine ⟨List.cons_ne_nil _ _, fun c hc => ?_⟩
        rw [List.mem_singleton] at hc
        exact hc ▸ isDigit_digit hlt
      · obtain ⟨_, hdigits⟩ := ih (show n / 10 ≤ fuel by omega)
        refine ⟨by simp, fun c hc => ?_⟩
        rcases List.mem_append.mp hc with hc | hc
        · exact hdigits c hc
        · rw [List.mem_singleton] at hc
          exact hc ▸ isDigit_digit (Nat.mod_lt n (by omega))

/-- The digits of a number have its value. The fuel bounds the number of digits, and the number
itself is enough of it. -/
theorem value_decimalUpTo {fuel n : Nat} (h : n ≤ fuel) : value (decimalUpTo fuel n) = n := by
  induction fuel generalizing n with
  | zero =>
      have hzero : n = 0 := Nat.le_zero.mp h
      subst hzero
      rfl
  | succ fuel ih =>
      rw [decimalUpTo]
      split
      · rename_i hlt
        show 10 * 0 + ((digit n).toNat - 48) = n
        rw [toNat_digit hlt]
        omega
      · rw [value_concat, ih (show n / 10 ≤ fuel by omega),
          toNat_digit (Nat.mod_lt n (by omega))]
        omega

/-- A numeral has at most as many digits as its number allows. -/
theorem length_decimalUpTo_le {k fuel n : Nat} (hk : n < 10 ^ (k + 1)) :
    (decimalUpTo fuel n).length ≤ k + 1 := by
  induction k generalizing fuel n with
  | zero =>
      have hlt : n < 10 := by simpa using hk
      cases fuel with
      | zero => exact Nat.le_refl 1
      | succ fuel =>
          rw [decimalUpTo, if_pos hlt]
          exact Nat.le_refl 1
  | succ k ih =>
      cases fuel with
      | zero =>
          rw [decimalUpTo]
          exact Nat.le_add_left 1 (k + 1)
      | succ fuel =>
          rw [decimalUpTo]
          split
          · exact Nat.le_add_left 1 (k + 1)
          · have hdiv : n / 10 < 10 ^ (k + 1) := by
              rw [Nat.pow_succ] at hk
              exact Nat.div_lt_of_lt_mul (Nat.mul_comm _ 10 ▸ hk)
            rw [List.length_append, List.length_singleton]
            exact Nat.succ_le_succ (ih hdiv)

/-- The digits of a number have its value. -/
theorem value_decimal (n : Nat) : value (decimal n) = n := value_decimalUpTo (Nat.le_refl n)

/-- A number has at least one digit, 0 as well. -/
theorem decimal_ne_nil (n : Nat) : decimal n ≠ [] := (decimalUpTo_digits (Nat.le_refl n)).1

/-- There is nothing but digits in it. -/
theorem isDigit_of_mem_decimal {n : Nat} {c : UInt8} (h : c ∈ decimal n) : isDigit c = true :=
  (decimalUpTo_digits (Nat.le_refl n)).2 c h

/-- A number below `10 ^ (k + 1)` has at most `k + 1` digits. -/
theorem length_decimal_le {k n : Nat} (h : n < 10 ^ (k + 1)) : (decimal n).length ≤ k + 1 :=
  length_decimalUpTo_le h

/-- A byte that is no digit does not occur in a numeral. -/
theorem notMem_decimal {n : Nat} {c : UInt8} (h : isDigit c = false) : c ∉ decimal n := by
  intro hc
  rw [isDigit_of_mem_decimal hc] at h
  exact nomatch h

/-- The digits at the beginning of a text that goes on with something else. -/
theorem takeWhile_isDigit_decimal {n : Nat} {l : List UInt8}
    (h : ∀ c ∈ l.head?, isDigit c = false) :
    (decimal n ++ l).takeWhile isDigit = decimal n := by
  rw [List.takeWhile_append_of_pos fun c hc => isDigit_of_mem_decimal hc]
  cases l with
  | nil => rw [List.takeWhile_nil, List.append_nil]
  | cons c l =>
      have hc : ¬ isDigit c = true := by
        rw [h c rfl]
        exact Bool.false_ne_true
      rw [List.takeWhile_cons_of_neg hc, List.append_nil]

/-! ### Tokens -/

/-- The token that has been read so far, and the tokens of the rest of the text. Tokens are
separated by spaces and are not empty. -/
def tokensFrom (token : List UInt8) : List UInt8 → List (List UInt8)
  | [] => if token = [] then [] else [token]
  | c :: rest =>
    if c = 32 then
      if token = [] then tokensFrom [] rest else token :: tokensFrom [] rest
    else tokensFrom (token ++ [c]) rest

/-- The tokens of a text. -/
def tokens (l : List UInt8) : List (List UInt8) := tokensFrom [] l

/-- A text without spaces belongs to the token. -/
theorem tokensFrom_append {token a : List UInt8} (ha : (32 : UInt8) ∉ a) (rest : List UInt8) :
    tokensFrom token (a ++ rest) = tokensFrom (token ++ a) rest := by
  induction a generalizing token with
  | nil => rw [List.nil_append, List.append_nil]
  | cons c a ih =>
      rw [List.mem_cons, not_or] at ha
      obtain ⟨hc, ha'⟩ := ha
      rw [List.cons_append, tokensFrom, if_neg (Ne.symm hc), ih ha', List.append_assoc,
        List.singleton_append]

/-- The first token. -/
theorem tokens_cons {a : List UInt8} (ha : (32 : UInt8) ∉ a) (hne : a ≠ []) (rest : List UInt8) :
    tokens (a ++ 32 :: rest) = a :: tokens rest := by
  rw [tokens, tokensFrom_append ha, List.nil_append, tokensFrom, if_pos rfl, if_neg hne]
  rfl

/-- The last token. -/
theorem tokens_of_noSpace {a : List UInt8} (ha : (32 : UInt8) ∉ a) (hne : a ≠ []) :
    tokens a = [a] := by
  have happend := @tokensFrom_append [] a ha []
  rw [List.append_nil, List.nil_append] at happend
  rw [tokens, happend, tokensFrom, if_neg hne]

end PTunes
