import PTunes.Glossy.ConfigLine

/-!
# `PTunes.Proofs.Glossy.ConfigParser`: which lines the parser handles

`dissemination_process` assumes lines of the form `t_l,t_s,n,`, as its comment says. It does not
test them. Without a third comma it reads behind the line, and a long field does not fit into
its buffer. Any other line is disseminated as a configuration.

* `readField_append`: what one turn of the loop does.
* `handlesLine_iff`: a line is handled safely exactly when it has the form, with fields of at
  most 10 digits.
-/

set_option autoImplicit false

namespace PTunes.Glossy

open Straight

/-- A numeral, as it is written in a line. -/
def IsNumeral (s : List UInt8) : Prop := s ≠ [] ∧ ∀ c ∈ s, isDigit c = true

/-- The line has the form `t_l,t_s,n,` with fields that satisfy `P`. -/
def HasForm (P : List UInt8 → Prop) (data : List UInt8) : Prop :=
  ∃ tL tS n, (P tL ∧ P tS ∧ P n) ∧ data = tL ++ comma :: (tS ++ comma :: (n ++ [comma]))

/-- The parser neither reads behind the line nor writes behind its buffer, and a line that does
not have the form changes nothing and is not disseminated. -/
def HandlesLine (behind : List UInt8) (m : DissMem) (data : List UInt8) : Prop :=
  ∃ m', receiveLine behind m data = .ok m' ∧ (¬ HasForm IsNumeral data → m' = m)

/-- A numeral of at most 10 digits. -/
def IsShortNumeral (s : List UInt8) : Prop := IsNumeral s ∧ s.length ≤ 10

/-- A numeral has digits only, so the parser does not find the end of a field inside it. -/
theorem IsNumeral.noComma {s : List UInt8} (h : IsNumeral s) : comma ∉ s := by
  intro hc
  exact absurd (h.2 comma hc) (by decide)

/-- The scan stops at the first comma. -/
theorem scan_append {s : List UInt8} (h : comma ∉ s) (count : UInt8) (rest : List UInt8) :
    scan count (s ++ comma :: rest) = .ok (count + UInt8.ofNat s.length, rest) := by
  induction s generalizing count with
  | nil =>
      rw [List.nil_append, scan, if_pos rfl]
      simp
  | cons c s ih =>
      rw [List.mem_cons, not_or] at h
      rw [List.cons_append, scan, if_neg (Ne.symm h.1), ih h.2, List.length_cons,
        Nat.add_comm s.length 1, UInt8.ofNat_add, ← UInt8.add_assoc]
      rfl

/-- One turn of the loop, for a field that is shorter than 256 bytes. -/
theorem readField_append {s : List UInt8} (h : comma ∉ s) (hlen : s.length < 256)
    (behind rest : List UInt8) :
    readField behind (s ++ comma :: rest) =
      if s.length ≤ 10 then
        .ok (Int16.ofInt (atoi (s ++ List.replicate (10 - s.length) 0 ++ behind)), rest)
      else .error .writePastBuf := by
  have hcount : ((0 : UInt8) + UInt8.ofNat s.length).toNat = s.length := by
    rw [UInt8.zero_add, UInt8.toNat_ofNat', Nat.mod_eq_of_lt hlen]
  rw [readField, scan_append h]
  show (strncpy (s ++ comma :: rest) ((0 : UInt8) + UInt8.ofNat s.length) >>= _) = _
  rw [strncpy, hcount]
  split
  · rw [List.take_left]
    rfl
  · rfl

/-- A line of the form is parsed when its fields fit into the buffer. -/
theorem parseConfig_append {tL tS n : List UInt8} (htL : comma ∉ tL) (htS : comma ∉ tS)
    (hn : comma ∉ n) (hlen : (tL ++ comma :: (tS ++ comma :: (n ++ [comma]))).length < 256)
    (behind : List UInt8) :
    (∃ line, parseConfig behind (tL ++ comma :: (tS ++ comma :: (n ++ [comma]))) = .ok line) ↔
      tL.length ≤ 10 ∧ tS.length ≤ 10 ∧ n.length ≤ 10 := by
  simp only [List.length_append, List.length_cons, List.length_nil] at hlen
  rw [parseConfig, readField_append htL (by omega)]
  by_cases h₁ : tL.length ≤ 10
  · rw [if_pos h₁]
    show (∃ line, (readField behind (tS ++ comma :: (n ++ [comma])) >>= _) = _) ↔ _
    rw [readField_append htS (by omega)]
    by_cases h₂ : tS.length ≤ 10
    · rw [if_pos h₂]
      show (∃ line, (readField behind (n ++ comma :: []) >>= _) = _) ↔ _
      rw [readField_append hn (by omega)]
      by_cases h₃ : n.length ≤ 10
      · rw [if_pos h₃]
        exact ⟨fun _ => ⟨h₁, h₂, h₃⟩, fun _ => ⟨_, rfl⟩⟩
      · rw [if_neg h₃]
        exact ⟨fun ⟨_, hline⟩ => (nomatch hline), fun h => absurd h.2.2 h₃⟩
    · rw [if_neg h₂]
      exact ⟨fun ⟨_, hline⟩ => (nomatch hline), fun h => absurd h.2.1 h₂⟩
  · rw [if_neg h₁]
    exact ⟨fun ⟨_, hline⟩ => (nomatch hline), fun h => absurd h.1 h₁⟩

/-- What is parsed is published: the configuration of the line, under a new sequence number. -/
theorem receiveLine_of_parseConfig {behind data : List UInt8} {line : Line}
    (h : parseConfig behind data = .ok line) (m : DissMem) :
    receiveLine behind m data = .ok ⟨line.config, ⟨line.config, m.data.seqNo + 1⟩⟩ := by
  rw [receiveLine, h]
  show Except.ok (exec dissMemory (disseminate line) (0, m)).2 = _
  rw [exec_disseminate]

/-- A line that is handled without a fault is parsed, and the sequence number grows. -/
theorem exists_of_receiveLine {behind data : List UInt8} {m m' : DissMem}
    (h : receiveLine behind m data = .ok m') :
    (∃ line, parseConfig behind data = .ok line) ∧ m'.data.seqNo = m.data.seqNo + 1 := by
  cases hparse : parseConfig behind data with
  | error fault =>
      rw [receiveLine, hparse] at h
      exact nomatch h
  | ok line =>
      rw [receiveLine_of_parseConfig hparse] at h
      cases h
      exact ⟨⟨line, rfl⟩, rfl⟩

/-- A line is handled safely exactly when it has the form, with numerals that fit into the
buffer. -/
theorem handlesLine_iff (behind : List UInt8) (m : DissMem) (line : SerialLine) :
    HandlesLine behind m line.bytes ↔ HasForm IsShortNumeral line.bytes := by
  have hlength := line.length_le
  constructor
  · rintro ⟨m', hm', hform⟩
    obtain ⟨hparse, hseqNo⟩ := exists_of_receiveLine hm'
    -- The sequence number has changed, so the line has the form.
    have hnumeral : HasForm IsNumeral line.bytes := by
      apply Classical.byContradiction
      intro hnot
      rw [hform hnot] at hseqNo
      exact absurd hseqNo (by grind)
    obtain ⟨tL, tS, n, ⟨htL, htS, hn⟩, heq⟩ := hnumeral
    rw [heq] at hparse hlength
    obtain ⟨h₁, h₂, h₃⟩ := (parseConfig_append htL.noComma htS.noComma hn.noComma
      (by omega) behind).mp hparse
    exact ⟨tL, tS, n, ⟨⟨htL, h₁⟩, ⟨htS, h₂⟩, ⟨hn, h₃⟩⟩, heq⟩
  · rintro ⟨tL, tS, n, ⟨⟨htL, h₁⟩, ⟨htS, h₂⟩, ⟨hn, h₃⟩⟩, heq⟩
    rw [heq] at hlength
    obtain ⟨l, hl⟩ := (parseConfig_append htL.noComma htS.noComma hn.noComma
      (by omega) behind).mpr ⟨h₁, h₂, h₃⟩
    rw [heq]
    exact ⟨_, receiveLine_of_parseConfig hl m, fun hnot =>
      absurd ⟨tL, tS, n, ⟨htL, htS, hn⟩, rfl⟩ hnot⟩

/-- The line `5` has no comma, so the scan goes on behind it. -/
theorem not_handlesLine :
    ¬ ∀ (behind : List UInt8) (m : DissMem) (line : SerialLine),
      HandlesLine behind m line.bytes := by
  intro h
  obtain ⟨m', hm', _⟩ := h [] ⟨⟨0, 0, 0⟩, ⟨⟨0, 0, 0⟩, 0⟩⟩ ⟨[53], by decide, by decide⟩
  have hfault : receiveLine [] ⟨⟨0, 0, 0⟩, ⟨⟨0, 0, 0⟩, 0⟩⟩ [53] = .error .readPastEnd := rfl
  rw [hfault] at hm'
  exact nomatch hm'

end PTunes.Glossy
