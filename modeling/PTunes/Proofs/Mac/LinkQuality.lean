import PTunes.Mac.LinkQuality
import PTunes.Mac.Network

/-!
# `PTunes.Proofs.Mac.LinkQuality`: which MAC reports the link quality soundly

A report is sound when it is a number from 1 to 1000 and grows with the successes among the
same attempts. The report of LPP is 1000 as long as no success is counted, also after failures,
so the worst link is reported as the best. X-MAC and LPP_NEW are sound.

* `Inv.step`: no more successes than attempts are counted, and the counters stay small.
* `related_of_runs`: of two histories with the same attempts, the one with more successes keeps
  more of them, through all halvings.
* `reports_sound_iff`: X-MAC and LPP_NEW are sound, and when the report of LPP grows.
* `linkQuality_of_xmac`, `linkQuality_of_lpp`, `linkQuality_of_lppNew`: the counters of the
  three MACs have such histories, in every run of the MAC.
-/

set_option autoImplicit false

namespace PTunes.Mac

namespace LinkQuality

variable {r : PrrRule} {limit : Nat} {s t : LinkQuality}

/-! ### The counters -/

/-- More than `limit` attempts are halved, and only those. The three MACs differ in the limit and in
how they compare with it, and this is all that the invariant needs to know of a rule. -/
structure Bounded (r : PrrRule) (limit : Nat) : Prop where
  small : limit ≤ 20
  old_iff : ∀ total, r.old total = true ↔ limit < total.toNat

/-- X-MAC halves from `HANDSHAKES_RESET_PERIOD` attempts on, so at most 19 stay. -/
theorem bounded_xmac : Bounded xmacPrr 19 := by
  refine ⟨by decide, fun total => ?_⟩
  show decide (Handshakes.resetPeriod ≤ total) = true ↔ _
  rw [decide_eq_true_iff, UInt32.le_iff_toNat_le]
  exact Iff.rfl

/-- LPP compares with `<` where X-MAC has `<=`, so one attempt more stays. -/
theorem bounded_lpp : Bounded lppPrr 20 := by
  refine ⟨by decide, fun total => ?_⟩
  show decide (Lpp.handshakesResetPeriod < total) = true ↔ _
  rw [decide_eq_true_iff, UInt32.lt_iff_toNat_lt]
  exact Iff.rfl

/-- LPP_NEW halves from 10 attempts on. -/
theorem bounded_lppNew : Bounded lppNewPrr 9 := by
  refine ⟨by decide, fun total => ?_⟩
  show decide (LppNew.handshakesResetPeriod ≤ total) = true ↔ _
  rw [decide_eq_true_iff, UInt32.le_iff_toNat_le]
  exact Iff.rfl

/-- No more successes than attempts are counted, and few attempts are. The attempt under way is
counted already, and its success may still come. -/
structure Inv (limit : Nat) (s : LinkQuality) : Prop where
  small : limit ≤ 20
  succ_le : s.counters.succ.toNat + (if s.attempt = some false then 1 else 0) ≤
    s.counters.total.toNat
  total_le : s.counters.total.toNat ≤ limit + (if s.attempt = none then 0 else 1)

/-- What the invariant is for: the successes are never more than the attempts, also in the middle of
an attempt. -/
theorem Inv.le (h : Inv limit s) : s.counters.succ.toNat ≤ s.counters.total.toNat :=
  Nat.le_trans (Nat.le_add_right _ _) h.succ_le

/-- One number for all three MACs. Below it no counter and no product of the report overflows, so
the machine arithmetic can be replaced by that of the natural numbers. -/
theorem Inv.total_le_21 (h : Inv limit s) : s.counters.total.toNat ≤ 21 := by
  have hsmall := h.small
  have := h.total_le
  split at this <;> omega

/-- Counters of 0 with no attempt under way, as at the start and after a reset. -/
theorem inv_init (hsmall : limit ≤ 20) : Inv limit ⟨⟨0, 0⟩, none⟩ :=
  ⟨hsmall, Nat.le_refl _, Nat.zero_le _⟩

/-- Half of a counter. The halving of the code is a shift of the 32-bit counter. -/
theorem toNat_half (n : UInt32) : (n >>> 1).toNat = n.toNat / 2 := by
  rw [UInt32.toNat_shiftRight, show (1 : UInt32).toNat % 32 = 1 from rfl,
    Nat.shiftRight_eq_div_pow]

/-- A counter that is small is incremented, and does not overflow. -/
theorem toNat_add_one {n : UInt32} (h : n.toNat ≤ 21) : (n + 1).toNat = n.toNat + 1 := by
  rw [UInt32.toNat_add, show (1 : UInt32).toNat = 1 from rfl]
  omega

/-- A step keeps the invariant. An attempt is counted before its success, so the success that may
still come is reserved in `succ_le`. Halving both counters keeps their order, and at the end of an
attempt the total is within the limit again. -/
theorem Inv.step {e : Event} (hr : Bounded r limit) (h : Inv limit s)
    (hst : s.step r e = some t) : Inv limit t := by
  have hsmall := h.small
  have hle := h.succ_le
  have htotal := h.total_le
  cases e with
  | begins =>
      obtain ⟨hidle, ⟨⟩⟩ := Option.ite_none_right_eq_some.mp hst
      simp only [hidle, reduceCtorEq, if_false, if_true] at hle htotal
      have hadd : s.counters.attempt.total.toNat = _ := toNat_add_one (by omega)
      refine ⟨hsmall, ?_, ?_⟩
      · -- The attempt is counted before its success.
        simp only [if_true, hadd]
        show s.counters.succ.toNat + 1 ≤ _
        omega
      · simp only [reduceCtorEq, if_false, hadd]
        omega
  | succeeds =>
      obtain ⟨hunder, ⟨⟩⟩ := Option.ite_none_right_eq_some.mp hst
      simp only [hunder, reduceCtorEq, if_false, if_true] at hle htotal
      have hadd : s.counters.success.succ.toNat = _ := toNat_add_one (by omega)
      refine ⟨hsmall, ?_, ?_⟩
      · simp only [Option.some.injEq, Bool.true_eq_false, if_false, hadd]
        exact hle
      · simp only [reduceCtorEq, if_false]
        exact htotal
  | ends =>
      obtain ⟨hunder, ⟨⟩⟩ := Option.ite_none_right_eq_some.mp hst
      rw [if_neg hunder] at htotal
      have hle := h.le
      simp only [PrrRule.age]
      cases hold : r.old s.counters.total with
      | true =>
          refine ⟨hsmall, ?_, ?_⟩
          · simp only [if_true, reduceCtorEq, if_false, toNat_half]
            omega
          · simp only [if_true, toNat_half]
            omega
      | false =>
          -- Nothing is halved, so the attempt is within the limit.
          have hfew : ¬ limit < s.counters.total.toNat := by
            simp [← hr.old_iff, hold]
          refine ⟨hsmall, ?_, ?_⟩
          · simpa using hle
          · simpa using hfew
  | resetPrr =>
      obtain ⟨_, ⟨⟩⟩ := Option.ite_none_right_eq_some.mp hst
      exact inv_init hsmall

/-- So it is after every history. -/
theorem inv_of_reachable (hr : Bounded r limit) (h : (linkQuality r).Reachable s) :
    Inv limit s :=
  h.invariant (Inv limit) (inv_init hr.small) fun _ _ _ hs hst => hs.step hr hst

/-! ### The reports -/

/-- The division of the reports. The product is taken in 32 bits and the quotient in 16, and with
small counters neither wraps. -/
theorem toNat_ratio {a b : UInt32} (ha : a.toNat ≤ 22) :
    (a * 1000 / b).toUInt16.toNat = a.toNat * 1000 / b.toNat := by
  have hmul : (a * 1000).toNat = a.toNat * 1000 := by
    rw [UInt32.toNat_mul, show (1000 : UInt32).toNat = 1000 from rfl]
    omega
  have hdiv : a.toNat * 1000 / b.toNat ≤ a.toNat * 1000 := Nat.div_le_self _ _
  rw [UInt32.toNat_toUInt16, UInt32.toNat_div, hmul]
  exact Nat.mod_eq_of_lt (by omega)

/-- A ratio of counters is a number of thousandths. It is not 0 as long as one success is counted:
the total is far below 1000. -/
theorem ratio_mem {a b : Nat} (ha : a ≠ 0) (hle : a ≤ b) (hb : b ≤ 22) :
    1 ≤ a * 1000 / b ∧ a * 1000 / b ≤ 1000 := by
  have hpos : 0 < b := by omega
  constructor
  · rw [Nat.le_div_iff_mul_le hpos]
    omega
  · exact Nat.div_le_of_le_mul (by omega)

/-- What X-MAC reports, as natural numbers. Without a success it is 1, the worst report that is not
0. -/
theorem toNat_xmacGetPrr (h : Inv limit s) : (xmacGetPrr s.counters).toNat =
    if s.counters.succ.toNat = 0 then 1
    else s.counters.succ.toNat * 1000 / s.counters.total.toNat := by
  have hle := h.le
  have hsmall := h.total_le_21
  rw [xmacGetPrr]
  by_cases hzero : s.counters.succ.toNat = 0
  · rw [if_pos hzero, if_neg fun hne => hne.1 (UInt32.toNat_inj.mp hzero)]
    rfl
  · have hsucc : s.counters.succ ≠ 0 := fun h0 => hzero (congrArg UInt32.toNat h0)
    have htotal : s.counters.total ≠ 0 := fun h0 => by
      have := congrArg UInt32.toNat h0
      rw [UInt32.toNat_zero] at this
      omega
    rw [if_neg hzero, if_pos ⟨hsucc, htotal⟩, toNat_ratio (by omega)]

/-- What LPP reports, as natural numbers. Without a success it is 1000, the best report there is,
where X-MAC reports 1. -/
theorem toNat_lppGetPrr (h : Inv limit s) : (lppGetPrr s.counters).toNat =
    if s.counters.succ.toNat = 0 then 1000
    else s.counters.succ.toNat * 1000 / s.counters.total.toNat := by
  have hle := h.le
  have hsmall := h.total_le_21
  rw [lppGetPrr]
  by_cases hzero : s.counters.succ.toNat = 0
  · rw [if_pos hzero, if_neg fun hne => hne (UInt32.toNat_inj.mp hzero)]
    rfl
  · have hsucc : s.counters.succ ≠ 0 := fun h0 => hzero (congrArg UInt32.toNat h0)
    rw [if_neg hzero, if_pos hsucc, toNat_ratio (by omega)]

/-- What LPP_NEW reports, as natural numbers. It counts one attempt and one success more than there
were, so it needs no default. -/
theorem toNat_lppNewGetPrr (h : Inv limit s) : (lppNewGetPrr s.counters).toNat =
    (s.counters.succ.toNat + 1) * 1000 / (s.counters.total.toNat + 1) := by
  have hle := h.le
  have hsmall := h.total_le_21
  have hsucc : (s.counters.succ + 1).toNat = _ := toNat_add_one (by omega)
  rw [lppNewGetPrr, toNat_ratio (by omega), hsucc, toNat_add_one hsmall]

/-! ### Two histories -/

/-- The second history has the same attempts, and more of them succeed. A history is a list of
events, so the second one is the first with some `succeeds` put in. Whether such an event can occur
at its place is left to the machine. -/
inductive Outdoes : List Event → List Event → Prop
  | nil : Outdoes [] []
  | same (e : Event) {es es' : List Event} : Outdoes es es' → Outdoes (e :: es) (e :: es')
  | more {es es' : List Event} : Outdoes es es' → Outdoes es (.succeeds :: es')

/-- The same attempts are counted, and of them at least as many successes. Within an attempt the
second history may have counted its success already: then it is ahead by one. -/
structure Related (s t : LinkQuality) : Prop where
  total : s.counters.total = t.counters.total
  succ : s.counters.succ.toNat ≤ t.counters.succ.toNat
  attempt : s.attempt = t.attempt ∨ s.attempt = some false ∧ t.attempt = some true ∧
    s.counters.succ.toNat < t.counters.succ.toNat

/-- An event that both histories have. The totals stay equal, so both halve or neither does, and
half of more is not less. When the first history catches up with a success the second one was
ahead. -/
theorem Related.step {e : Event} {s' t' : LinkQuality} (ht : Inv limit t) (h : Related s t)
    (hst : s.step r e = some s') (htt : t.step r e = some t') : Related s' t' := by
  have hle := ht.le
  have hsmall := ht.total_le_21
  have hsucc := h.succ
  cases e with
  | begins =>
      obtain ⟨_, ⟨⟩⟩ := Option.ite_none_right_eq_some.mp hst
      obtain ⟨_, ⟨⟩⟩ := Option.ite_none_right_eq_some.mp htt
      exact ⟨congrArg (· + 1) h.total, h.succ, .inl rfl⟩
  | succeeds =>
      obtain ⟨hsf, ⟨⟩⟩ := Option.ite_none_right_eq_some.mp hst
      obtain ⟨htf, ⟨⟩⟩ := Option.ite_none_right_eq_some.mp htt
      have hmore := ht.succ_le
      rw [if_pos htf] at hmore
      refine ⟨h.total, ?_, .inl rfl⟩
      show (s.counters.succ + 1).toNat ≤ (t.counters.succ + 1).toNat
      rw [toNat_add_one (by omega), toNat_add_one (by omega)]
      omega
  | ends =>
      obtain ⟨_, ⟨⟩⟩ := Option.ite_none_right_eq_some.mp hst
      obtain ⟨_, ⟨⟩⟩ := Option.ite_none_right_eq_some.mp htt
      -- The totals are equal, so both histories halve or neither does.
      simp only [PrrRule.age, h.total]
      cases r.old t.counters.total with
      | true =>
          refine ⟨rfl, ?_, .inl rfl⟩
          show (s.counters.succ >>> 1).toNat ≤ (t.counters.succ >>> 1).toNat
          rw [toNat_half, toNat_half]
          omega
      | false => exact ⟨h.total, h.succ, .inl rfl⟩
  | resetPrr =>
      obtain ⟨_, ⟨⟩⟩ := Option.ite_none_right_eq_some.mp hst
      obtain ⟨_, ⟨⟩⟩ := Option.ite_none_right_eq_some.mp htt
      exact ⟨rfl, Nat.le_refl _, .inl rfl⟩

/-- A success that the first history does not have. The attempt is still open in the first one, and
from now on the second one is ahead in it. -/
theorem Related.more {t' : LinkQuality} (ht : Inv limit t) (h : Related s t)
    (htt : t.step r .succeeds = some t') : Related s t' := by
  obtain ⟨htf, ⟨⟩⟩ := Option.ite_none_right_eq_some.mp htt
  have hmore := ht.succ_le
  have hsmall := ht.total_le_21
  have hsucc := h.succ
  rw [if_pos htf] at hmore
  have hadd : (t.counters.succ + 1).toNat = _ := toNat_add_one (by omega)
  have hlt : s.counters.succ.toNat < (t.counters.succ + 1).toNat := by omega
  refine ⟨h.total, Nat.le_of_lt hlt, .inr ⟨?_, rfl, hlt⟩⟩
  cases h.attempt with
  | inl heq => exact heq.trans htf
  | inr hahead => exact hahead.1

/-- The first step of a run. Without a condition on the steps, a run of an event and a rest is one
step and a run of the rest. -/
theorem runIf_cons {e : Event} {es : List Event}
    (h : (linkQuality r).runIf (fun _ _ => True) s (e :: es) = some t) :
    ∃ u, s.step r e = some u ∧ (linkQuality r).runIf (fun _ _ => True) u es = some t := by
  simp only [Machine.runIf, if_true] at h
  split at h
  · rename_i u hu
    exact ⟨u, hu, h⟩
  · cases h

/-- Of two histories with the same attempts, the one with more successes keeps more of them, through
all halvings. This is what makes a report comparable over time: nothing is lost by counting a
success. -/
theorem related_of_runs (hr : Bounded r limit) {es es' : List Event} (ho : Outdoes es es')
    {s' t' : LinkQuality} (hs : Inv limit s) (ht : Inv limit t) (h : Related s t)
    (hrun : (linkQuality r).runIf (fun _ _ => True) s es = some s')
    (hrun' : (linkQuality r).runIf (fun _ _ => True) t es' = some t') :
    Related s' t' ∧ Inv limit s' ∧ Inv limit t' := by
  -- By induction on how the second history outdoes the first.
  induction ho generalizing s t with
  | nil =>
      cases hrun
      cases hrun'
      exact ⟨h, hs, ht⟩
  | same e _ ih =>
      obtain ⟨u, hu, hrun⟩ := runIf_cons hrun
      obtain ⟨v, hv, hrun'⟩ := runIf_cons hrun'
      exact ih (hs.step hr hu) (ht.step hr hv) (h.step ht hu hv) hrun hrun'
  | more _ ih =>
      obtain ⟨v, hv, hrun'⟩ := runIf_cons hrun'
      exact ih hs (ht.step hr hv) (h.more ht hv) hrun hrun'

/-! ### Soundness -/

/-- The reports of a MAC are sound: no more successes than attempts are counted, a report is a
number from 1 to 1000, and of two links with the same attempts the one with more successes is
reported as no worse. The last is said of the counters (`monotone`) and of the histories
(`outdoes`). -/
structure Sound (r : PrrRule) : Prop where
  counted : ∀ s, (linkQuality r).Reachable s → s.counters.succ ≤ s.counters.total
  bounded : ∀ s, (linkQuality r).Reachable s →
    1 ≤ r.getPrr s.counters ∧ r.getPrr s.counters ≤ 1000
  monotone : ∀ s t, (linkQuality r).Reachable s → (linkQuality r).Reachable t →
    s.counters.total = t.counters.total → s.counters.succ ≤ t.counters.succ →
    r.getPrr s.counters ≤ r.getPrr t.counters
  outdoes : ∀ es es' s t, Outdoes es es' → (linkQuality r).run es = some s →
    (linkQuality r).run es' = some t → r.getPrr s.counters ≤ r.getPrr t.counters

/-- No more successes than attempts are counted, as the comparison of the counters themselves. -/
theorem counted_of_bounded (hr : Bounded r limit) (h : (linkQuality r).Reachable s) :
    s.counters.succ ≤ s.counters.total :=
  UInt32.le_iff_toNat_le.mpr (inv_of_reachable hr h).le

/-- What makes a rule sound: its reports are in bounds, and they grow with the successes. The rest
is the same for every rule that halves. -/
theorem sound_of (hr : Bounded r limit)
    (hbounded : ∀ s, Inv limit s → 1 ≤ (r.getPrr s.counters).toNat ∧
      (r.getPrr s.counters).toNat ≤ 1000)
    (hmonotone : ∀ s t, Inv limit s → Inv limit t → s.counters.total = t.counters.total →
      s.counters.succ.toNat ≤ t.counters.succ.toNat →
      (r.getPrr s.counters).toNat ≤ (r.getPrr t.counters).toNat) : Sound r where
  counted := fun s h => counted_of_bounded hr h
  bounded := fun s h => hbounded s (inv_of_reachable hr h)
  monotone := fun s t hs ht htotal hsucc =>
    hmonotone s t (inv_of_reachable hr hs) (inv_of_reachable hr ht) htotal hsucc
  outdoes := fun es es' s t ho hs ht => by
    obtain ⟨h, hs, ht⟩ := related_of_runs hr ho (inv_init hr.small) (inv_init hr.small)
      ⟨rfl, Nat.le_refl _, .inl rfl⟩ hs ht
    exact hmonotone s t hs ht h.total h.succ

/-- X-MAC is sound. Its default for no success is the least report of all, so it is also no more
than the report with one. -/
theorem sound_xmac : Sound xmacPrr := by
  refine sound_of bounded_xmac (fun s h => ?_) fun s t hs ht htotal hsucc => ?_
  · have hle := h.le
    have hsmall := h.total_le_21
    show 1 ≤ (xmacGetPrr _).toNat ∧ (xmacGetPrr _).toNat ≤ 1000
    rw [toNat_xmacGetPrr h]
    split
    · decide
    · rename_i hne
      exact ratio_mem hne hle (by omega)
  · show (xmacGetPrr _).toNat ≤ (xmacGetPrr _).toNat
    rw [toNat_xmacGetPrr hs, toNat_xmacGetPrr ht, htotal]
    have hle := ht.le
    have hsmall := ht.total_le_21
    by_cases hs0 : s.counters.succ.toNat = 0
    · rw [if_pos hs0]
      split
      · exact Nat.le_refl _
      · rename_i hne
        exact (ratio_mem hne hle (by omega)).1
    · rw [if_neg hs0, if_neg (by omega)]
      exact Nat.div_le_div_right (Nat.mul_le_mul_right _ hsucc)

/-- LPP_NEW is sound. With the attempt and the success that it adds, its report is a ratio in every
case. -/
theorem sound_lppNew : Sound lppNewPrr := by
  refine sound_of bounded_lppNew (fun s h => ?_) fun s t hs ht htotal hsucc => ?_
  · have hle := h.le
    have hsmall := h.total_le_21
    show 1 ≤ (lppNewGetPrr _).toNat ∧ (lppNewGetPrr _).toNat ≤ 1000
    rw [toNat_lppNewGetPrr h]
    exact ratio_mem (Nat.succ_ne_zero _) (Nat.succ_le_succ hle) (Nat.succ_le_succ hsmall)
  · show (lppNewGetPrr _).toNat ≤ (lppNewGetPrr _).toNat
    rw [toNat_lppNewGetPrr hs, toNat_lppNewGetPrr ht, htotal]
    exact Nat.div_le_div_right (Nat.mul_le_mul_right _ (Nat.succ_le_succ hsucc))

/-- The report of LPP is in bounds. What is wrong with its default is not its size. -/
theorem lppGetPrr_mem (h : Inv limit s) :
    1 ≤ lppGetPrr s.counters ∧ lppGetPrr s.counters ≤ 1000 := by
  have hle := h.le
  have hsmall := h.total_le_21
  show 1 ≤ (lppGetPrr _).toNat ∧ (lppGetPrr _).toNat ≤ 1000
  rw [toNat_lppGetPrr h]
  split
  · decide
  · rename_i hne
    exact ratio_mem hne hle (by omega)

/-- The report of LPP grows with the successes, unless they grow from none. Then it falls from 1000,
and only a link without a failure gets 1000 again. -/
theorem lppGetPrr_le_iff (hs : Inv limit s) (ht : Inv limit t)
    (htotal : s.counters.total = t.counters.total)
    (hsucc : s.counters.succ ≤ t.counters.succ) :
    lppGetPrr s.counters ≤ lppGetPrr t.counters ↔
      (s.counters.succ = 0 → t.counters.succ = 0 ∨ t.counters.succ = t.counters.total) := by
  have hle := ht.le
  have hsmall := ht.total_le_21
  have hsucc : s.counters.succ.toNat ≤ t.counters.succ.toNat := hsucc
  rw [UInt16.le_iff_toNat_le, toNat_lppGetPrr hs, toNat_lppGetPrr ht, htotal]
  simp only [← UInt32.toNat_inj, UInt32.toNat_zero]
  by_cases hs0 : s.counters.succ.toNat = 0
  · rw [if_pos hs0]
    by_cases ht0 : t.counters.succ.toNat = 0
    · simp [ht0]
    · rw [if_neg ht0, Nat.le_div_iff_mul_le (by omega)]
      omega
  · rw [if_neg hs0, if_neg (by omega)]
    exact iff_of_true (Nat.div_le_div_right (Nat.mul_le_mul_right _ hsucc)) fun h => absurd h hs0

/-- The rule of LPP differs from the others without any attempt. -/
theorem xmacPrr_ne_lppPrr : xmacPrr ≠ lppPrr := by
  intro h
  have hget : xmacPrr.getPrr ⟨0, 0⟩ = lppPrr.getPrr ⟨0, 0⟩ := by rw [h]
  exact absurd hget (by decide)

/-- The rule of LPP differs from the others when one attempt has failed: LPP_NEW reports 500. -/
theorem lppNewPrr_ne_lppPrr : lppNewPrr ≠ lppPrr := by
  intro h
  have hget : lppNewPrr.getPrr ⟨1, 0⟩ = lppPrr.getPrr ⟨1, 0⟩ := by rw [h]
  exact absurd hget (by decide)

/-- X-MAC and LPP_NEW report soundly. -/
theorem sound_of_ne {r : PrrRule} (hr : r ∈ [xmacPrr, lppPrr, lppNewPrr]) (hne : r ≠ lppPrr) :
    Sound r := by
  simp only [List.mem_cons, List.not_mem_nil, or_false] at hr
  rcases hr with rfl | rfl | rfl
  · exact sound_xmac
  · exact absurd rfl hne
  · exact sound_lppNew

/-- After every two histories of a MAC with equally many attempts counted, the counters and the
report are in bounds. The MAC reports the link with more successes as no worse exactly when it
is not LPP, or when the successes do not grow from none. Only LPP is not sound. -/
theorem reports_sound_iff {r : PrrRule} (hr : r ∈ [xmacPrr, lppPrr, lppNewPrr])
    {s t : LinkQuality} (hs : (linkQuality r).Reachable s) (ht : (linkQuality r).Reachable t)
    (htotal : s.counters.total = t.counters.total)
    (hsucc : s.counters.succ ≤ t.counters.succ) :
    (s.counters.succ ≤ s.counters.total ∧
      1 ≤ r.getPrr s.counters ∧ r.getPrr s.counters ≤ 1000) ∧
    (r.getPrr s.counters ≤ r.getPrr t.counters ↔
      (r = lppPrr → s.counters.succ = 0 →
        t.counters.succ = 0 ∨ t.counters.succ = t.counters.total)) ∧
    (r ≠ lppPrr → Sound r) := by
  by_cases hlpp : r = lppPrr
  · subst hlpp
    have hinvs := inv_of_reachable bounded_lpp hs
    have hinvt := inv_of_reachable bounded_lpp ht
    have hiff := lppGetPrr_le_iff hinvs hinvt htotal hsucc
    refine ⟨⟨counted_of_bounded bounded_lpp hs, lppGetPrr_mem hinvs⟩, ?_, absurd rfl⟩
    exact hiff.trans ⟨fun h _ => h, fun h => h rfl⟩
  · have hsound := sound_of_ne hr hlpp
    refine ⟨⟨hsound.counted s hs, hsound.bounded s hs⟩, ?_, fun _ => hsound⟩
    exact iff_of_true (hsound.monotone s t hs ht htotal hsucc) fun h => absurd h hlpp

/-- LPP reports one success of two attempts as no worse than two of two. -/
theorem reports_sound_iff_lpp :
    (linkQuality lppPrr).Reachable ⟨⟨2, 1⟩, none⟩ ∧
      (linkQuality lppPrr).Reachable ⟨⟨2, 2⟩, none⟩ ∧
      lppPrr.getPrr ⟨2, 1⟩ ≤ lppPrr.getPrr ⟨2, 2⟩ := by
  have hs : (linkQuality lppPrr).Reachable ⟨⟨2, 1⟩, none⟩ :=
    (linkQuality lppPrr).reachable_of_run [.begins, .succeeds, .ends, .begins, .ends]
      (by decide +kernel)
  have ht : (linkQuality lppPrr).Reachable ⟨⟨2, 2⟩, none⟩ :=
    (linkQuality lppPrr).reachable_of_run
      [.begins, .succeeds, .ends, .begins, .succeeds, .ends] (by decide +kernel)
  obtain ⟨_, hiff, _⟩ := reports_sound_iff (by simp) hs ht rfl (by decide)
  exact ⟨hs, ht, hiff.mpr fun _ h => absurd h (by decide)⟩

/-- LPP reports a link on which two attempts failed as better than one on which one of two
failed. -/
theorem not_forall_sound : ¬ (Sound xmacPrr ∧ Sound lppPrr ∧ Sound lppNewPrr) := by
  intro h
  have hle := h.2.1.outdoes [.begins, .ends, .begins, .ends]
    [.begins, .succeeds, .ends, .begins, .ends] ⟨⟨2, 0⟩, none⟩ ⟨⟨2, 1⟩, none⟩
    (.same _ (.more (.same _ (.same _ (.same _ .nil))))) (by decide +kernel) (by decide +kernel)
  exact absurd hle (by decide)

end LinkQuality

/-! ### The counters in the MACs -/

/-- The counters of X-MAC. In `send_packet` an attempt is under way while it waits for the
`DATA_ACK`. The attempt of the strobes begins and ends in one step of the model. -/
def XmacNode.linkQuality (n : XmacNode) : LinkQuality :=
  ⟨n.handshakes, if n.pc = .dataWait then some false else none⟩

/-- The counters of LPP. Its attempts begin and end in one step of the model, so none is under way
in between. -/
def Lpp.linkQuality (s : Lpp) : LinkQuality := ⟨⟨s.handshakesTotal, s.handshakesSucc⟩, none⟩

/-- The counters of LPP_NEW. They are updated when the packet is removed, by the whole attempt at
once. -/
def LppNew.linkQuality (s : LppNew) : LinkQuality := ⟨⟨s.handshakesTotal, s.handshakesSucc⟩, none⟩

/-- The update of the counters in `send_packet` of X-MAC is the one of the rule. So what was shown
for the rule holds of the code. -/
theorem xmacPrr_age (h : Handshakes) : xmacPrr.age h = h.age := by
  simp [PrrRule.age, xmacPrr, Handshakes.age]

/-- The update of the counters in `send_packet_to_radio` is the one of the rule for LPP. -/
theorem Lpp.linkQuality_age (s : Lpp) :
    s.age.linkQuality = ⟨lppPrr.age s.linkQuality.counters, none⟩ := by
  simp only [Lpp.age, PrrRule.age, lppPrr, Lpp.linkQuality, decide_eq_true_eq]
  split <;> rfl

/-- The update of the counters in `remove_packet_from_buffer` is the one of the rule for LPP_NEW. -/
theorem LppNew.linkQuality_age (s : LppNew) :
    s.age.linkQuality = ⟨lppNewPrr.age s.linkQuality.counters, none⟩ := by
  simp only [LppNew.age, PrrRule.age, lppNewPrr, LppNew.linkQuality, decide_eq_true_eq]
  split <;> rfl

namespace LinkQuality

variable {r : PrrRule} {h : Handshakes}

/-- The counters start at 0. -/
theorem reachable_init : (Mac.linkQuality r).Reachable ⟨⟨0, 0⟩, none⟩ := .init

/-- The history goes on. The machine of the counters has no condition on its steps, which `trivial`
says. -/
theorem reachable_step {s t : LinkQuality} {e : Event} (hs : (Mac.linkQuality r).Reachable s)
    (hst : s.step r e = some t) : (Mac.linkQuality r).Reachable t :=
  .step hs trivial hst

/-- A whole attempt: it begins, it may succeed, and it ends, which is where the counters may be
halved. -/
theorem reachable_attempt (hs : (Mac.linkQuality r).Reachable ⟨h, none⟩) (success : Bool) :
    (Mac.linkQuality r).Reachable
      ⟨r.age ⟨h.total + 1, if success then h.succ + 1 else h.succ⟩, none⟩ := by
  have hbegins := reachable_step (e := .begins) hs rfl
  cases success with
  | false => exact reachable_step (e := .ends) hbegins rfl
  | true => exact reachable_step (e := .ends) (reachable_step (e := .succeeds) hbegins rfl) rfl

end LinkQuality

open LinkQuality (reachable_init reachable_step reachable_attempt)

/-! ### X-MAC -/

namespace XmacNetwork

/-- The counters of a node of X-MAC have a history: some sequence of attempts would have led to
them. It is the relation between the node and the machine of the counters. -/
def HasHistory (n : XmacNode) : Prop := (linkQuality xmacPrr).Reachable n.linkQuality

/-- A change that leaves the counters alone and does not enter or leave the wait for the
`DATA_ACK`. -/
theorem HasHistory.of_eq {n n' : XmacNode} (h : HasHistory n)
    (hcounters : n'.handshakes = n.handshakes) (hpc : n'.pc = .dataWait ↔ n.pc = .dataWait) :
    HasHistory n' := by
  have heq : n'.linkQuality = n.linkQuality := by
    simp only [XmacNode.linkQuality, hcounters, hpc]
  rw [HasHistory, heq]
  exact h

/-- The counters outside of the wait, where no attempt is under way. -/
theorem HasHistory.idle {n : XmacNode} (h : HasHistory n) (hpc : n.pc ≠ .dataWait) :
    (linkQuality xmacPrr).Reachable ⟨n.handshakes, none⟩ := by
  rwa [HasHistory, XmacNode.linkQuality, if_neg hpc] at h

/-- The counters in the wait, where the attempt of the data packet is under way and has not
succeeded. -/
theorem HasHistory.waiting {n : XmacNode} (h : HasHistory n) (hpc : n.pc = .dataWait) :
    (linkQuality xmacPrr).Reachable ⟨n.handshakes, some false⟩ := by
  rwa [HasHistory, XmacNode.linkQuality, if_pos hpc] at h

/-- The state of one node changes. The counters of the others are untouched. -/
theorem hasHistory_setNode {s : XmacNetwork} {node : Rime.RimeAddr} {n : XmacNode}
    (h : ∀ x, HasHistory (s.nodes x)) (hn : HasHistory n) (x : Rime.RimeAddr) :
    HasHistory ((s.setNode node n).nodes x) := by
  show HasHistory (Function.update s.nodes node n x)
  by_cases hx : x = node
  · rw [hx, Function.update_self]
    exact hn
  · rw [Function.update_of_ne hx]
    exact h x

/-- A change that leaves the counters alone, before and after which the node does not wait for a
`DATA_ACK`. -/
theorem HasHistory.of_ne {n n' : XmacNode} (h : HasHistory n)
    (hcounters : n'.handshakes = n.handshakes) (hpc : n.pc ≠ .dataWait)
    (hpc' : n'.pc ≠ .dataWait) : HasHistory n' :=
  h.of_eq hcounters ⟨fun h => absurd h hpc', fun h => absurd h hpc⟩

/-- `send` counts nothing. It gives up, or begins with the strobes. -/
theorem HasHistory.send {n : XmacNode} (h : HasHistory n) (hpc : n.pc = .idle) (clean : Bool) :
    HasHistory (n.send clean) := by
  refine h.of_ne ?_ (by simp [hpc]) ?_
  · simp only [XmacNode.send, XmacNode.sendPacket]
    split
    · rfl
    · split <;> rfl
  · simp only [XmacNode.send, XmacNode.sendPacket]
    split
    · simp [hpc]
    · split <;> simp

/-- The strobes are one attempt, which succeeds when the STROBE_ACK comes. A broadcast gets no
answer, so nothing is counted. -/
theorem HasHistory.strobesOver {n : XmacNode} (h : HasHistory n) (hpc : n.pc ≠ .dataWait)
    (gotStrobeAck : Bool) : HasHistory (n.strobesOver gotStrobeAck) := by
  rw [XmacNode.strobesOver]
  split
  · exact h.of_ne rfl hpc (by simp)
  · -- A unicast: the train of strobes was an attempt.
    have hpc' : (if gotStrobeAck then SendPc.sendData else SendPc.returned) ≠ .dataWait := by
      cases gotStrobeAck <;> simp
    have hattempt := reachable_attempt (h.idle hpc) gotStrobeAck
    rw [xmacPrr_age] at hattempt
    rw [HasHistory, XmacNode.linkQuality, if_neg hpc']
    cases gotStrobeAck <;> exact hattempt

/-- A read between two strobes ends the attempt with a success, or changes nothing. -/
theorem HasHistory.strobeRead {n : XmacNode} (h : HasHistory n) (hpc : n.pc = .strobeWait)
    (self : Rime.RimeAddr) (f : Frame) : HasHistory (n.strobeRead self f) := by
  rw [XmacNode.strobeRead]
  split
  · split
    · exact h.strobesOver (by simp [hpc]) true
    · exact h
  · exact h

/-- The data packet begins an attempt, which is under way from now on. -/
theorem HasHistory.sendData {n : XmacNode} (h : HasHistory n) (hpc : n.pc = .sendData) :
    HasHistory n.sendData :=
  reachable_step (e := .begins) (h.idle (by simp [hpc])) rfl

/-- The attempt is over without a DATA_ACK. -/
theorem HasHistory.dataWaitOver {n : XmacNode} (h : HasHistory n) (hpc : n.pc = .dataWait) :
    HasHistory n.dataWaitOver :=
  reachable_step (e := .ends) (h.waiting hpc) (by
    simp [LinkQuality.step, XmacNode.linkQuality, XmacNode.dataWaitOver, xmacPrr_age])

/-- A frame that counts as a DATA_ACK: the attempt succeeds, and is over. Any other frame leaves the
node in the wait. -/
theorem HasHistory.dataRead {n : XmacNode} (h : HasHistory n) (hpc : n.pc = .dataWait)
    (self : Rime.RimeAddr) (f : Frame) : HasHistory (n.dataRead self f) := by
  rw [XmacNode.dataRead]
  split
  · split
    · have hsucceeds := reachable_step (e := .succeeds) (h.waiting hpc) rfl
      exact reachable_step (e := .ends) hsucceeds (by
        simp [LinkQuality.step, XmacNode.linkQuality, XmacNode.dataWaitOver, xmacPrr_age])
    · exact h
  · exact h

/-- What `send` does with the outcome concerns the connection only. -/
theorem HasHistory.sendReturned {n : XmacNode} (h : HasHistory n) (hpc : n.pc = .returned) :
    HasHistory n.sendReturned := by
  refine h.of_ne ?_ (by simp [hpc]) ?_
  · rw [XmacNode.sendReturned]
    split <;> rfl
  · rw [XmacNode.sendReturned]
    split <;> simp

/-- `read_packet` does not count. It is the receiver's side, and a strobe that it answers is not an
attempt of its own. -/
theorem hasHistory_readPacket {C : XmacConf} {s : XmacNetwork} {node : Rime.RimeAddr} {f : Frame}
    (h : ∀ x, HasHistory (s.nodes x)) (x : Rime.RimeAddr) :
    HasHistory ((s.readPacket C node f).nodes x) := by
  rw [readPacket]
  split
  · split
    · exact hasHistory_setNode (n := { s.nodes node with wasTimeout := true }) h
        ((h node).of_eq rfl Iff.rfl) x
    · split
      · simp only [accept]
        split <;> exact h x
      · exact h x
  · exact h x

/-- A step extends the histories: each label of the network is an attempt of one node, a part of
one, or nothing that is counted. -/
theorem hasHistory_step {C : XmacConf} {s t : XmacNetwork} {a : XmacAction}
    (h : ∀ x, HasHistory (s.nodes x)) (hst : (machine C).step s a = some t) :
    ∀ x, HasHistory (t.nodes x) := by
  cases a with
  | relunicastSend node receiver maxRetransmissions packet =>
      obtain ⟨_, ⟨⟩⟩ := Option.ite_none_right_eq_some.mp hst
      -- What does not touch the counters keeps the history.
      exact hasHistory_setNode h ((h node).of_eq rfl Iff.rfl)
  | sendTimer node =>
      obtain ⟨⟨hpc, _⟩, ⟨⟩⟩ := Option.ite_none_right_eq_some.mp hst
      exact hasHistory_setNode h ((h node).send hpc _)
  | strobe node =>
      obtain ⟨hpc, ⟨⟩⟩ := Option.ite_none_right_eq_some.mp hst
      -- Between two ends of an attempt the attempt stays open.
      exact hasHistory_setNode h ((h node).of_ne rfl (by simp [hpc]) (by simp))
  | strobesOver node =>
      obtain ⟨hpc, ⟨⟩⟩ := Option.ite_none_right_eq_some.mp hst
      exact hasHistory_setNode h ((h node).strobesOver (by simp [hpc]) false)
  | strobeRead node k =>
      obtain ⟨⟨hpc, _⟩, hst⟩ := Option.ite_none_right_eq_some.mp hst
      obtain ⟨⟨f, air⟩, _, ⟨⟩⟩ := Option.map_eq_some_iff.mp hst
      exact hasHistory_setNode h ((h node).strobeRead hpc node f)
  | strobeWaitOver node =>
      obtain ⟨hpc, ⟨⟩⟩ := Option.ite_none_right_eq_some.mp hst
      exact hasHistory_setNode h ((h node).of_ne rfl (by simp [hpc]) (by simp))
  | sendData node =>
      obtain ⟨hpc, ⟨⟩⟩ := Option.ite_none_right_eq_some.mp hst
      exact hasHistory_setNode h ((h node).sendData hpc)
  | dataRead node k =>
      obtain ⟨hpc, hst⟩ := Option.ite_none_right_eq_some.mp hst
      obtain ⟨⟨f, air⟩, _, ⟨⟩⟩ := Option.map_eq_some_iff.mp hst
      exact hasHistory_setNode h ((h node).dataRead hpc node f)
  | dataWaitOver node =>
      obtain ⟨hpc, ⟨⟩⟩ := Option.ite_none_right_eq_some.mp hst
      exact hasHistory_setNode h ((h node).dataWaitOver hpc)
  | sendReturned node =>
      obtain ⟨hpc, ⟨⟩⟩ := Option.ite_none_right_eq_some.mp hst
      exact hasHistory_setNode h ((h node).sendReturned hpc)
  | readPacket node k =>
      obtain ⟨_, hst⟩ := Option.ite_none_right_eq_some.mp hst
      obtain ⟨⟨f, air⟩, _, ⟨⟩⟩ := Option.map_eq_some_iff.mp hst
      exact hasHistory_readPacket (s := { s with air := air }) h
  | powercycle node => cases hst; exact hasHistory_setNode h ((h node).of_eq rfl Iff.rfl)
  | turnOn node => cases hst; exact hasHistory_setNode h ((h node).of_eq rfl Iff.rfl)
  | turnOff node => cases hst; exact hasHistory_setNode h ((h node).of_eq rfl Iff.rfl)
  | lose k => cases hst; exact h

/-- The counters start at 0. -/
theorem hasHistory_init : HasHistory XmacNode.init := reachable_init (r := xmacPrr)

/-- In every run of a network, the counters of every node have a history. So the report of a node in
a network is one of those that `reports_sound_iff` speaks of. -/
theorem linkQuality_of_xmac {C : XmacConf} {s : XmacNetwork} (h : (machine C).Reachable s)
    (node : Rime.RimeAddr) : (linkQuality xmacPrr).Reachable (s.nodes node).linkQuality := by
  have hall : ∀ x, HasHistory (s.nodes x) :=
    h.invariant (fun s => ∀ x, HasHistory (s.nodes x))
      (fun _ => hasHistory_init) fun _ _ _ hs hst => hasHistory_step hs hst
  exact hall node

end XmacNetwork

/-! ### LPP -/

namespace Lpp

open Rime

/-- The callbacks of the upper layers do not count. They may send a packet at once, but that only
fills the queue. -/
theorem linkQuality_removeQueuedPacket (C : NodeConf) (r : Reaction) (s : Lpp)
    (i : Fin maxQueuedPackets) : (removeQueuedPacket C r s i).linkQuality = s.linkQuality := by
  simp only [removeQueuedPacket]
  split <;> rfl

/-- `send_packet` fills the queue or drops the packet, and counts nothing: the attempt is made when
the receiver's probe comes. -/
theorem linkQuality_sendPacket (self : RimeAddr) (s : Lpp) (pb : Packetbuf) (queuebuf : Bool) :
    (sendPacket self s pb queuebuf).2.linkQuality = s.linkQuality := by
  rw [sendPacket]
  split
  · rfl
  · split <;> rfl

/-- The loop of `read_packet` makes at most one attempt. A broadcast in the queue is sent without
one, and the first unicast ends the loop. -/
theorem reachable_probeLoop (C : NodeConf) (r : Reaction) (acked : Bool) {s : Lpp}
    (h : (Mac.linkQuality lppPrr).Reachable s.linkQuality) (l : List (Fin maxQueuedPackets))
    (sender : RimeAddr) :
    (Mac.linkQuality lppPrr).Reachable (probeLoop C r acked s sender l).linkQuality := by
  induction l generalizing sender with
  | nil => exact h
  | cons i rest ih =>
      simp only [probeLoop]
      split
      · exact ih _
      · split
        · -- A unicast waits for its DATA_ACK.
          rw [sendUnicastToRadio, linkQuality_removeQueuedPacket, linkQuality_age]
          exact reachable_attempt h acked
        · exact ih _

/-- In every run, the counters of LPP have a history. Only a probe leads to an attempt, and the loop
after it waits for one DATA_ACK at most. -/
theorem linkQuality_of_lpp {C : NodeConf} {s : Lpp} (h : (machine C).Reachable s) :
    (Mac.linkQuality lppPrr).Reachable s.linkQuality := by
  -- Only a probe counts, and the loop after it waits for one DATA_ACK at most.
  refine h.invariant (fun s => (Mac.linkQuality lppPrr).Reachable s.linkQuality) reachable_init ?_
  intro s a t hs hst
  cases a with
  | client step => cases hst; exact hs
  | sendTimer mac queuebuf callback =>
      obtain ⟨_, ⟨⟩⟩ := Option.ite_none_right_eq_some.mp hst
      simp only [send]
      split
      · exact hs
      · rw [linkQuality_sendPacket]
        exact hs
  | broadcast pb queuebuf =>
      obtain ⟨_, ⟨⟩⟩ := Option.ite_none_right_eq_some.mp hst
      rw [linkQuality_sendPacket]
      exact hs
  | removalTimer i r =>
      obtain ⟨_, ⟨⟩⟩ := Option.ite_none_right_eq_some.mp hst
      rw [linkQuality_removeQueuedPacket]
      exact hs
  | probe sender acked r =>
      cases hst
      exact reachable_probeLoop C r acked hs _ _

end Lpp

/-! ### LPP_NEW -/

namespace LppNew

open Rime

/-- The counters have a history, and only a unicast waits for its `DATA_ACK`. -/
structure HasHistory (s : LppNew) : Prop where
  history : (Mac.linkQuality lppNewPrr).Reachable s.linkQuality
  unicast : s.waiting = true → s.buffer.isBroadcast = false

variable {s : LppNew}

/-- A removal between two attempts finds few attempts, and halves nothing. So the removals by the
timer and by `off` leave the history as it is. -/
theorem linkQuality_age_idle (h : (Mac.linkQuality lppNewPrr).Reachable s.linkQuality) :
    s.age.linkQuality = s.linkQuality := by
  have hfew : s.handshakesTotal.toNat ≤ 9 :=
    (LinkQuality.inv_of_reachable LinkQuality.bounded_lppNew h).total_le
  have hold : ¬ s.handshakesTotal ≥ handshakesResetPeriod := by
    rw [ge_iff_le, UInt32.le_iff_toNat_le, show handshakesResetPeriod.toNat = 10 from rfl]
    omega
  simp only [age, linkQuality, hold, if_false]

/-- The removal updates the counters by their own rule. Outside of an attempt this changes
nothing. -/
theorem HasHistory.removePacketFromBuffer (h : HasHistory s) :
    HasHistory (removePacketFromBuffer s) where
  history := by
    simp only [LppNew.removePacketFromBuffer]
    split
    · have hold := linkQuality_age_idle
        (s := { s with buffer := { s.buffer with valid := false }, tbcctl2 := false }) h.history
      exact hold.symm ▸ h.history
    · exact h.history
  unicast := by
    simp only [LppNew.removePacketFromBuffer]
    split <;> exact h.unicast

/-- The test of `valid` before the removal, as in the timeout process and in `off`. -/
theorem HasHistory.removeIfValid (h : HasHistory s) :
    HasHistory (if s.buffer.valid then LppNew.removePacketFromBuffer s else s) := by
  split
  · exact h.removePacketFromBuffer
  · exact h

/-- A change that leaves the counters alone, and the wait. -/
theorem HasHistory.of_eq {t : LppNew} (h : HasHistory s) (hcounters : t.linkQuality = s.linkQuality)
    (hwaiting : t.waiting = s.waiting) (hbuffer : t.buffer.isBroadcast = s.buffer.isBroadcast) :
    HasHistory t :=
  ⟨hcounters ▸ h.history, hwaiting ▸ hbuffer ▸ h.unicast⟩

/-- Outside of the wait the buffer may be filled, with a broadcast as well. -/
theorem HasHistory.of_idle {t : LppNew} (h : HasHistory s)
    (hcounters : t.linkQuality = s.linkQuality) (hidle : t.waiting = false) : HasHistory t :=
  ⟨hcounters ▸ h.history, fun hwaiting => absurd (hidle.symm.trans hwaiting) Bool.false_ne_true⟩

/-- The removal of the packet does not touch the wait. -/
theorem waiting_removePacketFromBuffer (s : LppNew) :
    (LppNew.removePacketFromBuffer s).waiting = s.waiting := by
  simp only [LppNew.removePacketFromBuffer]
  split <;> rfl

/-- `send_packet` replaces the packet in the buffer. No attempt is under way then, because the call
comes from a process and not from within the wait. -/
theorem HasHistory.sendPacket (h : HasHistory s) (hidle : s.waiting = false) (self : RimeAddr)
    (pb : Packetbuf) (tbr : UInt16) : HasHistory (sendPacket self s pb tbr) := by
  simp only [LppNew.sendPacket]
  split
  · exact h.of_eq rfl rfl rfl
  · split
    · exact h
    · split
      · exact h.removePacketFromBuffer.of_idle rfl
          ((waiting_removePacketFromBuffer s).trans hidle)
      · exact h.of_idle rfl hidle

/-- The packet of an upper layer, with the request of a completion. -/
theorem HasHistory.hand (h : HasHistory s) (hidle : s.waiting = false) (self : RimeAddr)
    (pb : Packetbuf) (tbr : UInt16) : HasHistory (hand self s pb tbr) := by
  rw [LppNew.hand]
  split
  · exact h.sendPacket hidle self pb tbr
  · exact (h.of_eq (t := request s) rfl rfl rfl).sendPacket hidle self pb tbr

/-- A probe of the receiver begins the wait for the DATA_ACK when the packet is a unicast. The
counters are updated only when the wait is over. -/
theorem HasHistory.readPacket (h : HasHistory s) (self : RimeAddr) (f : Frame) (now : UInt16) :
    HasHistory (readPacket self s f now) := by
  rw [LppNew.readPacket]
  split
  · exact h
  · split
    · split
      · simp only [sendDataPacket]
        split
        · exact h.of_eq rfl rfl rfl
        · rename_i hunicast
          exact ⟨h.history, fun _ => by simpa using hunicast⟩
      · exact h
    · split
      · exact h.of_eq rfl rfl rfl
      · exact h
    · exact h

/-- The attempt is over, and the removal of the packet updates the counters by the whole attempt. -/
theorem HasHistory.dataWaitOver (h : HasHistory s) (hwaiting : s.waiting = true) :
    HasHistory (dataWaitOver s) := by
  have hattempt := reachable_attempt (h := ⟨s.handshakesTotal, s.handshakesSucc⟩) h.history
    s.buffer.gotDataAck
  have hunicast := h.unicast hwaiting
  constructor
  · simp only [LppNew.dataWaitOver, LppNew.removePacketFromBuffer, hunicast, Bool.not_false,
      if_true]
    show (Mac.linkQuality lppNewPrr).Reachable (LppNew.age _).linkQuality
    rw [linkQuality_age]
    exact hattempt
  · intro hw
    rw [LppNew.dataWaitOver, waiting_removePacketFromBuffer] at hw
    cases hw

/-- In every run, the counters of LPP_NEW have a history. -/
theorem linkQuality_of_lppNew {self : RimeAddr} {config : Config}
    (h : (machine self config).Reachable s) :
    (Mac.linkQuality lppNewPrr).Reachable s.linkQuality := by
  -- By induction on the steps of the run.
  have hinv : HasHistory s := by
    refine h.invariant HasHistory ⟨reachable_init, fun _ => rfl⟩ ?_
    intro s a t hs hst
    cases a with
    | sendPacket pb tbr =>
        obtain ⟨hidle, ⟨⟩⟩ := Option.ite_none_right_eq_some.mp hst
        simp only [Bool.and_eq_true, Bool.not_eq_true'] at hidle
        exact hs.hand hidle.1 self pb tbr
    | readPacket f now =>
        obtain ⟨_, ⟨⟩⟩ := Option.ite_none_right_eq_some.mp hst
        exact hs.readPacket self f now
    | dataAckRead f =>
        obtain ⟨_, ⟨⟩⟩ := Option.ite_none_right_eq_some.mp hst
        rw [dataAckRead]
        split
        · exact hs.of_eq rfl rfl rfl
        · exact hs
    | dataWaitOver =>
        obtain ⟨hwaiting, ⟨⟩⟩ := Option.ite_none_right_eq_some.mp hst
        exact hs.dataWaitOver hwaiting
    | timerInterrupt =>
        obtain ⟨_, ⟨⟩⟩ := Option.ite_none_right_eq_some.mp hst
        exact hs.of_eq rfl rfl rfl
    | sendTimeoutProcess =>
        obtain ⟨_, ⟨⟩⟩ := Option.ite_none_right_eq_some.mp hst
        -- The end of an attempt without an acknowledgement is a part of the history.
        exact (hs.of_eq (t := { s with polled := false }) rfl rfl rfl).removeIfValid
    | macOn => cases hst; exact hs.of_eq rfl rfl rfl
    | macOff =>
        cases hst
        exact (hs.of_eq (t := { s with tbcctl2 := false, isOn := false }) rfl rfl
          rfl).removeIfValid
    | setLppNewConfig config =>
        obtain ⟨_, ⟨⟩⟩ := Option.ite_none_right_eq_some.mp hst
        exact ((hs.of_eq (t := { s with tbcctl2 := false, isOn := false }) rfl rfl
          rfl).removeIfValid).of_eq rfl rfl rfl
  exact hinv.history

end LppNew

end PTunes.Mac
