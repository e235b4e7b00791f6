import PTunes.Proofs.Glossy.ConfigParser
import PTunes.Controller.Serial

/-!
# `PTunes.Proofs.Glossy.ConfigRoundTrip`: a configuration comes back

The controller injects a configuration in milliseconds. The sink turns them into ticks, and when
it prints its current configuration, turns the ticks into milliseconds again. Both conversions
round a tenth of the unit that they compute. A tick is shorter than a millisecond, so an error of
about half a tick is gone after the second rounding.

* `ticksToPrint_roundTicks`: the two conversions are inverse to each other.
* `processMsg_reportLine`: the controller reads what the sink prints.
* `config_roundTrip`: from the injected line to the report.
-/

set_option autoImplicit false

namespace PTunes.Glossy

open Straight
open Controller (MacConfiguration MsgFields NodeTopologyInfo processMsg readToken intValueOf
  intToString)

/-! ### The conversions -/

/-- The number of ticks of `k` milliseconds, rounded as the sink does it. -/
def exactTicks (k : Nat) : Nat := (k * 327680 / 1000 + 5) / 10

/-- The tick counts fit into 16 bits, and the number of retransmissions into 8. -/
structure Injectable (v : MacConfiguration) : Prop where
  tl : 0 ≤ v.tl ∧ exactTicks v.tl.toNat < 65536
  ts : 0 ≤ v.ts ∧ exactTicks v.ts.toNat < 65536
  n : 0 ≤ v.n ∧ v.n ≤ 255

/-- A number of milliseconds whose ticks fit in 16 bits is below 2000, since there are 32768 ticks
in a second. -/
theorem lt_of_exactTicks {k : Nat} (h : exactTicks k < 65536) : k < 2000 := by
  rw [exactTicks] at h
  omega

/-- Ten times the ticks, without overflow. -/
theorem toNat_tenTicks {k : Nat} (hk : k < 2000) :
    (tenTicks (Int16.ofInt k)).toNat = k * 327680 / 1000 := by
  have hcast : (Int16.ofInt k).toInt32.toUInt32.toNat = k := by
    have hint : (Int16.ofInt k).toInt = k := by
      rw [Int16.toInt_ofInt, Int.bmod_def, show Int16.size = 65536 from rfl]
      omega
    have h32 : (Int16.ofInt k).toInt32 = Int32.ofInt k := by
      rw [← Int32.toInt_inj, Int16.toInt_toInt32, hint, Int32.toInt_ofInt, Int.bmod_def,
        show Int32.size = 4294967296 from rfl]
      omega
    rw [h32]
    show (BitVec.ofInt 32 k).toNat = k
    rw [BitVec.toNat_ofInt]
    omega
  have hsecond : (rtimerSecond * 10).toNat = 327680 := by decide
  have hscale : scale.toNat = 1000 := by decide
  rw [tenTicks, UInt32.toNat_div, UInt32.toNat_mul, hsecond, hscale, hcast,
    Nat.mod_eq_of_lt (by omega), Nat.mul_comm]

/-- The ticks. -/
theorem toNat_roundTicks {k : Nat} (hk : k < 2000) :
    (roundTicks (tenTicks (Int16.ofInt k))).toNat = exactTicks k := by
  have hten := toNat_tenTicks hk
  have hmod : (tenTicks (Int16.ofInt k) % 10 > 4) ↔ 4 < k * 327680 / 1000 % 10 := by
    rw [gt_iff_lt, UInt32.lt_iff_toNat_lt, UInt32.toNat_mod, hten]
    exact Iff.rfl
  have hdiv : (tenTicks (Int16.ofInt k) / 10).toUInt16.toNat = k * 327680 / 1000 / 10 := by
    rw [UInt32.toNat_toUInt16, UInt32.toNat_div, hten]
    show k * 327680 / 1000 / 10 % 65536 = _
    omega
  have hle : k * 327680 / 1000 ≤ 655032 := by omega
  rw [roundTicks, exactTicks, UInt16.toNat_add, hdiv]
  generalize k * 327680 / 1000 = q at hle hmod ⊢
  -- The last digit decides whether the ticks are rounded up.
  by_cases h : 4 < q % 10
  · rw [if_pos (hmod.mpr h)]
    show (q / 10 + 1) % 65536 = _
    rw [Nat.mod_eq_of_lt (by omega)]
    omega
  · rw [if_neg (fun hgt => h (hmod.mp hgt))]
    show (q / 10 + 0) % 65536 = _
    rw [Nat.mod_eq_of_lt (by omega)]
    omega

/-- The two conversions are inverse to each other. -/
theorem ticksToPrint_roundTicks {k : Nat} (hk : k < 2000) :
    (ticksToPrint (roundTicks (tenTicks (Int16.ofInt k)))).toNat = k := by
  have hticks := toNat_roundTicks hk
  generalize roundTicks (tenTicks (Int16.ofInt k)) = t at hticks ⊢
  rw [exactTicks] at hticks
  -- Ten times the milliseconds, a little less than `10 * k` or a little more.
  have hprint : (t.toUInt32 * scale * 10 / rtimerSecond).toNat = t.toNat * 10000 / 32768 := by
    have hlt := t.toNat_lt
    rw [UInt32.toNat_div, UInt32.toNat_mul, UInt32.toNat_mul, UInt16.toNat_toUInt32,
      show scale.toNat = 1000 from rfl, show (10 : UInt32).toNat = 10 from rfl,
      show rtimerSecond.toNat = 32768 from rfl]
    rw [Nat.mod_eq_of_lt (show t.toNat * 1000 < 4294967296 by omega),
      Nat.mod_eq_of_lt (show t.toNat * 1000 * 10 < 4294967296 by omega)]
    omega
  rw [ticksToPrint]
  generalize t.toUInt32 * scale * 10 / rtimerSecond = x at hprint ⊢
  have hmod : x % 10 > 4 ↔ 4 < x.toNat % 10 := by
    rw [gt_iff_lt, UInt32.lt_iff_toNat_lt, UInt32.toNat_mod]
    exact Iff.rfl
  -- At most one below, so that the rounding gives `k` in both cases.
  have hlow : 10 * k ≤ x.toNat + 1 := by omega
  have hhigh : x.toNat ≤ 10 * k := by omega
  by_cases h : 4 < x.toNat % 10
  · have hdiv : (x / 10 + 1).toUInt16.toNat = x.toNat / 10 + 1 := by
      rw [UInt32.toNat_toUInt16, UInt32.toNat_add, UInt32.toNat_div,
        show (10 : UInt32).toNat = 10 from rfl, show (1 : UInt32).toNat = 1 from rfl]
      rw [Nat.mod_eq_of_lt (show x.toNat / 10 + 1 < 4294967296 by omega),
        Nat.mod_eq_of_lt (show x.toNat / 10 + 1 < 65536 by omega)]
    rw [if_pos (hmod.mpr h), hdiv]
    omega
  · have hdiv : (x / 10).toUInt16.toNat = x.toNat / 10 := by
      rw [UInt32.toNat_toUInt16, UInt32.toNat_div, show (10 : UInt32).toNat = 10 from rfl]
      exact Nat.mod_eq_of_lt (show x.toNat / 10 < 65536 by omega)
    rw [if_neg (fun hgt => h (hmod.mp hgt)), hdiv]
    omega

/-! ### The texts -/

/-- A numeral begins with a digit. -/
theorem exists_decimal (k : Nat) : ∃ c rest, decimal k = c :: rest ∧ isDigit c = true := by
  obtain ⟨c, rest, heq⟩ := List.exists_cons_of_ne_nil (decimal_ne_nil k)
  exact ⟨c, rest, heq, isDigit_of_mem_decimal (heq ▸ List.mem_cons_self)⟩

/-- A digit is no space and no sign. -/
theorem digit_spec {c : UInt8} (h : isDigit c = true) :
    isSpace c = false ∧ c ≠ 45 ∧ c ≠ 43 := by
  have hc := isDigit_iff.mp h
  refine ⟨?_, ?_, ?_⟩
  · simp only [isSpace, decide_eq_false_iff_not, ← UInt8.toNat_inj, UInt8.le_iff_toNat_le]
    show ¬ (c.toNat = 32 ∨ 9 ≤ c.toNat ∧ c.toNat ≤ 13)
    omega
  · rintro rfl
    exact absurd hc (by decide)
  · rintro rfl
    exact absurd hc (by decide)

/-- `atoi` reads a numeral up to a byte that is no digit. -/
theorem atoi_decimal {k : Nat} {l : List UInt8} (h : ∀ c ∈ l.head?, isDigit c = false) :
    atoi (decimal k ++ l) = k := by
  obtain ⟨c, rest, heq, hc⟩ := exists_decimal k
  obtain ⟨hspace, hminus, hplus⟩ := digit_spec hc
  have hdrop : (decimal k ++ l).dropWhile isSpace = c :: (rest ++ l) := by
    rw [heq, List.cons_append,
      List.dropWhile_cons_of_neg (by rw [hspace]; exact Bool.false_ne_true)]
  have htake : (c :: (rest ++ l)).takeWhile isDigit = decimal k := by
    rw [← List.cons_append, ← heq, takeWhile_isDigit_decimal h]
  rw [atoi, hdrop]
  show (if c = 45 then _ else if c = 43 then _ else _) = _
  rw [if_neg hminus, if_neg hplus, htake, value_decimal]

/-- `Integer.valueOf` reads a numeral. -/
theorem intValueOf_decimal {k : Nat} (hk : k ≤ 2147483647) : intValueOf (decimal k) = some k := by
  obtain ⟨c, rest, heq, hc⟩ := exists_decimal k
  obtain ⟨_, hminus, hplus⟩ := digit_spec hc
  have hall : (decimal k).all isDigit = true :=
    List.all_eq_true.mpr fun c hc => isDigit_of_mem_decimal hc
  have hhead : (decimal k).head? ≠ some 45 ∧ (decimal k).head? ≠ some 43 := by
    rw [heq]
    exact ⟨fun h => hminus (Option.some.inj h), fun h => hplus (Option.some.inj h)⟩
  have hdigits : (if (decimal k).head? = some 45 ∨ (decimal k).head? = some 43 then
      (decimal k).tail else decimal k) = decimal k :=
    if_neg fun h => h.elim hhead.1 hhead.2
  simp only [intValueOf, hdigits, if_neg hhead.1, value_decimal]
  exact if_pos ⟨decimal_ne_nil k, hall, by omega, by omega⟩

/-! ### The report line -/

/-- A token of the report. -/
def reportToken (field : String × Nat) : List UInt8 := ascii field.1 ++ decimal field.2

/-- Keys without spaces give the tokens one after the other. -/
theorem tokens_reportFields {fields : List (String × Nat)}
    (h : ∀ field ∈ fields, (32 : UInt8) ∉ ascii field.1) {a : List UInt8}
    (ha : (32 : UInt8) ∉ a) (hne : a ≠ []) :
    tokens (a ++ fields.flatMap fun (key, v) => 32 :: (ascii key ++ decimal v)) =
      a :: fields.map reportToken := by
  induction fields generalizing a with
  | nil => rw [List.flatMap_nil, List.append_nil, tokens_of_noSpace ha hne, List.map_nil]
  | cons field fields ih =>
      have hnot : (32 : UInt8) ∉ reportToken field := by
        rw [reportToken, List.mem_append, not_or]
        exact ⟨h field List.mem_cons_self, notMem_decimal (by decide)⟩
      have hne' : reportToken field ≠ [] := by
        intro hnil
        exact decimal_ne_nil field.2 (List.append_eq_nil_iff.mp hnil).2
      rw [List.flatMap_cons, List.cons_append, tokens_cons ha hne, List.map_cons]
      exact congrArg (a :: ·) (ih (fun f hf => h f (List.mem_cons_of_mem _ hf)) hnot hne')

/-- The number behind the `=` of a token. -/
theorem afterEquals_append {key : List UInt8} (h : (61 : UInt8) ∉ key) (s : List UInt8) :
    Controller.afterEquals (key ++ 61 :: s) = s := by
  have hdrop : (key ++ 61 :: s).dropWhile (· ≠ 61) = 61 :: s := by
    rw [List.dropWhile_append_of_pos fun c hc => by
      have hne : c ≠ 61 := fun heq => h (heq ▸ hc)
      simpa using hne]
    rfl
  rw [Controller.afterEquals, if_pos (List.mem_append_right _ List.mem_cons_self), hdrop]
  rfl

variable {ρ : Type}

/-- The keys of the report, byte by byte. -/
theorem ascii_keys :
    ascii "o=" = [111, 61] ∧ ascii "p=" = [112, 61] ∧ ascii "pr=" = [112, 114, 61] ∧
      ascii "prr=" = [112, 114, 114, 61] ∧ ascii "tl=" = [116, 108, 61] ∧
      ascii "ts=" = [116, 115, 61] ∧ ascii "n=" = [110, 61] := by
  decide

/-- The number of a token. -/
theorem intValueOf_append {key : List UInt8} (hkey : (61 : UInt8) ∉ key) {k : Nat}
    (hk : k ≤ 2147483647) :
    intValueOf (Controller.afterEquals (key ++ 61 :: decimal k)) = some k := by
  rw [afterEquals_append hkey, intValueOf_decimal hk]

/-- The fields that the controller reads from the tokens of a report. -/
theorem foldlM_readToken {zero r : ρ} {inverseOf : List UInt8 → Option ρ}
    {o p pr prr tl ts n : Nat} (hr : inverseOf (decimal pr) = some r)
    (ho : o ≤ 2147483647) (hp : p ≤ 2147483647) (hprr : prr ≤ 2147483647)
    (htl : tl ≤ 2147483647) (hts : ts ≤ 2147483647) (hn : n ≤ 2147483647) :
    (ascii "G" :: [("o=", o), ("p=", p), ("pr=", pr), ("prr=", prr), ("tl=", tl), ("ts=", ts),
      ("n=", n)].map reportToken).foldlM (readToken inverseOf) ⟨0, 0, 0, 0, 0, 0, zero⟩ =
        some ⟨o, p, prr, tl, ts, n, r⟩ := by
  obtain ⟨ko, kp, kpr, kprr, ktl, kts, kn⟩ := ascii_keys
  have kG : ascii "G" = [71] := by decide
  -- Which variable a token sets, whatever its number is.
  have hread : ∀ m token, readToken inverseOf m token =
      if ([111, 61] : List UInt8).isPrefixOf token then
        (intValueOf (Controller.afterEquals token)).map fun z => { m with nodeId := z }
      else if ([112, 61] : List UInt8).isPrefixOf token then
        (intValueOf (Controller.afterEquals token)).map fun z => { m with parentId := z }
      else if ([112, 114, 61] : List UInt8).isPrefixOf token then
        (inverseOf (Controller.afterEquals token)).map fun r => { m with pktRate := r }
      else if ([112, 114, 114, 61] : List UInt8).isPrefixOf token then
        (intValueOf (Controller.afterEquals token)).map fun z => { m with prr := z }
      else if ([116, 108, 61] : List UInt8).isPrefixOf token then
        (intValueOf (Controller.afterEquals token)).map fun z => { m with tl := z }
      else if ([116, 115, 61] : List UInt8).isPrefixOf token then
        (intValueOf (Controller.afterEquals token)).map fun z => { m with ts := z }
      else if ([110, 61] : List UInt8).isPrefixOf token then
        (intValueOf (Controller.afterEquals token)).map fun z => { m with n := z }
      else some m := by
    intro m token
    simp only [readToken, Controller.startsWith, ko, kp, kpr, kprr, ktl, kts, kn]
  have ho' : intValueOf (Controller.afterEquals (111 :: 61 :: decimal o)) = some o :=
    @intValueOf_append [111] (by decide) o ho
  have hp' : intValueOf (Controller.afterEquals (112 :: 61 :: decimal p)) = some p :=
    @intValueOf_append [112] (by decide) p hp
  have hpr' : inverseOf (Controller.afterEquals (112 :: 114 :: 61 :: decimal pr)) = some r := by
    rw [← hr]
    exact congrArg inverseOf (@afterEquals_append [112, 114] (by decide) (decimal pr))
  have hprr' : intValueOf (Controller.afterEquals (112 :: 114 :: 114 :: 61 :: decimal prr)) =
      some prr :=
    @intValueOf_append [112, 114, 114] (by decide) prr hprr
  have htl' : intValueOf (Controller.afterEquals (116 :: 108 :: 61 :: decimal tl)) = some tl :=
    @intValueOf_append [116, 108] (by decide) tl htl
  have hts' : intValueOf (Controller.afterEquals (116 :: 115 :: 61 :: decimal ts)) = some ts :=
    @intValueOf_append [116, 115] (by decide) ts hts
  have hn' : intValueOf (Controller.afterEquals (110 :: 61 :: decimal n)) = some n :=
    @intValueOf_append [110] (by decide) n hn
  simp [hread, reportToken, kG, ko, kp, kpr, kprr, ktl, kts, kn, ho', hp', hpr', hprr', htl', hts',
    hn']

/-- The controller reads the configuration that the sink prints. -/
theorem processMsg_reportLine (report : GlossyReport) (cfg : Config) {zero : ρ}
    {inverseOf : List UInt8 → Option ρ} (hdouble : ∀ k : Nat, (inverseOf (decimal k)).isSome)
    (now : Int) :
    ∃ info, processMsg zero inverseOf now (reportLine report cfg) = some info ∧
      info.macConf =
        ⟨(ticksToPrint cfg.tL).toNat, (ticksToPrint cfg.tS).toNat, cfg.n.toNat⟩ := by
  obtain ⟨r, hr⟩ := Option.isSome_iff_exists.mp (hdouble report.pktRate.toNat)
  have htokens : tokens (reportLine report cfg) =
      ascii "G" :: (reportFields report cfg).map reportToken := by
    refine tokens_reportFields ?_ (by decide) (by decide)
    intro field hfield
    simp only [reportFields, List.mem_cons, List.not_mem_nil, or_false] at hfield
    have hkeys : ∀ key ∈ ["o=", "p=", "pr=", "prr=", "tl=", "ts=", "n="],
        (32 : UInt8) ∉ ascii key := by
      decide
    refine hkeys field.1 ?_
    rcases hfield with rfl | rfl | rfl | rfl | rfl | rfl | rfl <;> simp
  -- Every field of the report is a number that `Integer.valueOf` accepts.
  have hu8 : ∀ x : UInt8, x.toNat ≤ 2147483647 := by
    intro x
    have := x.toNat_lt
    omega
  have hu16 : ∀ x : UInt16, x.toNat ≤ 2147483647 := by
    intro x
    have := x.toNat_lt
    omega
  rw [processMsg, htokens, reportFields,
    foldlM_readToken hr (hu8 _) (hu8 _) (hu16 _) (hu16 _) (hu16 _) (hu8 _)]
  exact ⟨_, rfl, rfl⟩

/-! ### From the line to the report -/

/-- A field of an injected line. -/
theorem readField_decimal {k : Nat} (hk : k < 10000) (behind rest : List UInt8) :
    readField behind (decimal k ++ comma :: rest) = .ok (Int16.ofInt k, rest) := by
  have hlen : (decimal k).length ≤ 4 := @length_decimal_le 3 k (by omega)
  rw [readField_append (notMem_decimal (by decide)) (by omega), if_pos (by omega)]
  -- The bytes of the buffer behind the numeral are zeros.
  obtain ⟨z, hz⟩ : ∃ z, 10 - (decimal k).length = z + 1 :=
    ⟨9 - (decimal k).length, by omega⟩
  rw [hz, List.append_assoc, List.replicate_succ, List.cons_append]
  rw [atoi_decimal fun c hc => by
    cases hc
    decide]

/-- The parser reads the injected line. -/
theorem parseConfig_inject {tl ts n : Nat} (htl : tl < 10000) (hts : ts < 10000) (hn : n < 10000)
    (behind : List UInt8) :
    parseConfig behind (MacConfiguration.inject ⟨tl, ts, n⟩) =
      .ok ⟨Int16.ofInt tl, Int16.ofInt ts, Int16.ofInt n⟩ := by
  have htext : ∀ k : Nat, intToString k = decimal k := by
    intro k
    rw [intToString, if_neg (by omega), Int.natAbs_natCast]
  have hline : MacConfiguration.inject ⟨tl, ts, n⟩ =
      decimal tl ++ comma :: (decimal ts ++ comma :: (decimal n ++ [comma])) := by
    simp only [MacConfiguration.inject, htext, comma]
  rw [hline, parseConfig, readField_decimal htl]
  show (readField behind (decimal ts ++ comma :: (decimal n ++ [comma])) >>= _) = _
  rw [readField_decimal hts]
  show (readField behind (decimal n ++ comma :: []) >>= _) = _
  rw [readField_decimal hn]
  rfl

/-- The number of retransmissions fits into its field. -/
theorem toNat_lineN {n : Nat} (hn : n ≤ 255) :
    ((Int16.ofInt n).toUInt16.toUInt8).toNat = n := by
  have hint : (Int16.ofInt n).toUInt16.toNat = n := by
    show (BitVec.ofInt 16 n).toNat = n
    rw [BitVec.toNat_ofInt]
    omega
  rw [UInt16.toNat_toUInt8, hint]
  omega

/-- The controller reads the configuration that it has injected: the sink parses the line,
`adaptation_process` adopts what is then in `new_cfg`, and the sink prints a report. -/
theorem config_roundTrip {v : MacConfiguration} (hv : Injectable v) (behind : List UInt8)
    (m : DissMem) (cfg : Config) (report : GlossyReport) {zero : ρ}
    {inverseOf : List UInt8 → Option ρ} (hdouble : ∀ k : Nat, (inverseOf (decimal k)).isSome)
    (now : Int) :
    ∃ m', receiveLine behind m v.inject = .ok m' ∧
      ∃ info, processMsg zero inverseOf now
          (reportLine report (exec adaptMemory adaptation (0, ⟨m'.newCfg, cfg⟩)).2.currentCfg) =
            some info ∧
        info.macConf = v := by
  obtain ⟨tl, ts, n⟩ := v
  obtain ⟨⟨htl₀, htl⟩, ⟨hts₀, hts⟩, hn₀, hn⟩ := hv
  lift tl to Nat using htl₀
  lift ts to Nat using hts₀
  lift n to Nat using hn₀
  -- The three numbers fit into the 16 bits of the parser.
  have htl' : tl < 2000 := lt_of_exactTicks htl
  have hts' : ts < 2000 := lt_of_exactTicks hts
  have hn' : n ≤ 255 := Int.ofNat_le.mp hn
  have hparse := parseConfig_inject (by omega : tl < 10000) (by omega : ts < 10000)
    (by omega : n < 10000) behind
  refine ⟨_, receiveLine_of_parseConfig hparse m, ?_⟩
  rw [exec_adaptation]
  obtain ⟨info, hinfo, hconf⟩ := processMsg_reportLine report
    (Line.config ⟨Int16.ofInt tl, Int16.ofInt ts, Int16.ofInt n⟩) (@hdouble) now
  refine ⟨info, hinfo, ?_⟩
  rw [hconf]
  generalize hline : Line.mk (Int16.ofInt tl) (Int16.ofInt ts) (Int16.ofInt n) = line
  -- Each field of the report gives its number back.
  have htL : (ticksToPrint line.config.tL).toNat = tl := by
    rw [← hline]
    exact ticksToPrint_roundTicks htl'
  have htS : (ticksToPrint line.config.tS).toNat = ts := by
    rw [← hline]
    exact ticksToPrint_roundTicks hts'
  have hN : line.config.n.toNat = n := by
    rw [← hline]
    exact toNat_lineN hn'
  rw [htL, htS, hN]

/-- The tuple that the sink starts with comes back. -/
theorem config_roundTrip_start :
    ∃ m', receiveLine [] ⟨⟨0, 0, 0⟩, ⟨⟨0, 0, 0⟩, 0⟩⟩ (MacConfiguration.inject ⟨16, 100, 3⟩) =
        .ok m' ∧
      ∃ info, processMsg (0 : Rat) (fun s => some (1 / value s)) 7
          (reportLine ⟨30, 10000, 2, 1⟩
            (exec adaptMemory adaptation (0, ⟨m'.newCfg, ⟨0, 0, 0⟩⟩)).2.currentCfg) = some info ∧
        info.macConf = ⟨16, 100, 3⟩ :=
  config_roundTrip ⟨⟨by decide, by decide⟩, ⟨by decide, by decide⟩, ⟨by decide, by decide⟩⟩ [] _ _ _
    (fun _ => rfl) 7

end PTunes.Glossy
