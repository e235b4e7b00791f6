import PTunes.Mac.RadioFlag
import Mathlib.Tactic.Common

/-!
# `PTunes.Proofs.Mac.RadioFlag`: when `radio_is_on` tells the truth

While X-MAC is on and does not send, `radio_is_on` should say whether the driver is switched on.
`turn_off` switches the driver and leaves the flag alone, and `turn_on` believes the flag.

* `faithful_iff`: the flag is right after a step when X-MAC was turned on with the flag that
  agrees with the last `turn_off`, and when a send did not end with a flag that hides a radio
  that is on. The end of a send repairs the other case, because `off` then has an effect.
* `faithful_of_reachableIf`: the flag is right in every run of such steps.
* `not_forall_faithful`: the radio is turned off while it listens, as `glossy_interface.h` does
  it, and X-MAC is turned on again.
-/

set_option autoImplicit false

namespace PTunes.Mac.RadioFlag

/-- The flag tells the truth, so `on` and `off` have their effect. -/
structure Faithful (s : RadioFlag) : Prop where
  flag : s.xmacIsOn = true → s.send = .idle → s.radioIsOn = s.receiveOn
  on : s.xmacIsOn = true → s.send = .idle → s.on.receiveOn = true
  off : s.xmacIsOn = true → s.send = .idle → s.off.receiveOn = false

/-- A send does not end with X-MAC on, `radio_is_on` 0 and the driver switched on. -/
def EndsOff (s : RadioFlag) : Prop :=
  s.xmacIsOn = true → s.radioIsOn = false → s.receiveOn = false

/-- Outside of a send, X-MAC is turned on with a flag that agrees with the argument of the last
`turn_off`, which is 0 in `set_xmac_config`. -/
def Agrees (s : RadioFlag) : Action → Prop
  | .turnOn => s.xmacIsOn = false → s.send = .idle → s.radioIsOn = s.keepRadioOn
  | .setXmacConfig => s.send = .idle → s.radioIsOn = false
  | .strobed gotStrobeAck _ => (gotStrobeAck = false ∨ s.send = .strobing true) → s.EndsOff
  | .dataSent => s.EndsOff
  | .on | .off | .turnOff _ | .sendPacket _ | .readPacket _ => True

instance (s : RadioFlag) : Decidable s.EndsOff := inferInstanceAs (Decidable (_ → _ → _))

instance (s : RadioFlag) : (a : Action) → Decidable (s.Agrees a)
  | .turnOn => inferInstanceAs (Decidable (_ → _ → _))
  | .setXmacConfig => inferInstanceAs (Decidable (_ → _))
  | .strobed gotStrobeAck _ =>
    inferInstanceAs (Decidable ((gotStrobeAck = false ∨ s.send = .strobing true) → s.EndsOff))
  | .dataSent => inferInstanceAs (Decidable s.EndsOff)
  | .on | .off | .turnOff _ | .sendPacket _ | .readPacket _ => inferInstanceAs (Decidable True)

/-- What holds in every run: the flag tells the truth, and while X-MAC is off the driver is as
the last `turn_off` left it. -/
structure Inv (s : RadioFlag) : Prop where
  flag : s.xmacIsOn = true → s.send = .idle → s.radioIsOn = s.receiveOn
  kept : s.xmacIsOn = false → s.receiveOn = s.keepRadioOn

variable {s t : RadioFlag}

/-! ### `on` and `off` -/

/-- While X-MAC is off, `on` does nothing. -/
theorem on_of_off (hoff : s.xmacIsOn = false) : s.on = s :=
  if_neg fun h => absurd (hoff.symm.trans h.1) Bool.false_ne_true

/-- While X-MAC is off, `off` does nothing. -/
theorem off_of_off (hoff : s.xmacIsOn = false) : s.off = s :=
  if_neg fun h => absurd (hoff.symm.trans h.1) Bool.false_ne_true

/-- `on` is about the radio, not about X-MAC. -/
@[simp] theorem on_xmacIsOn (s : RadioFlag) : s.on.xmacIsOn = s.xmacIsOn := by
  rw [on]
  split <;> rfl

/-- So is `off`. -/
@[simp] theorem off_xmacIsOn (s : RadioFlag) : s.off.xmacIsOn = s.xmacIsOn := by
  rw [off]
  split <;> rfl

/-- `on` leaves a send where it is. -/
@[simp] theorem on_send (s : RadioFlag) : s.on.send = s.send := by
  rw [on]
  split <;> rfl

/-- `off` leaves a send where it is. -/
@[simp] theorem off_send (s : RadioFlag) : s.off.send = s.send := by
  rw [off]
  split <;> rfl

/-- With a flag that tells the truth, `on` switches the driver on. -/
theorem on_of_flag (hon : s.xmacIsOn = true) (hflag : s.radioIsOn = s.receiveOn) :
    s.on.radioIsOn = true ∧ s.on.receiveOn = true := by
  cases hr : s.radioIsOn with
  | false =>
      rw [on, if_pos ⟨hon, hr⟩]
      exact ⟨rfl, rfl⟩
  | true =>
      rw [on, if_neg (by simp [hr])]
      exact ⟨hr, hflag ▸ hr⟩

/-- `off` clears the flag, and it switches the driver off unless the flag hid it. -/
theorem off_of_on (hon : s.xmacIsOn = true) :
    s.off.radioIsOn = false ∧
      (s.off.receiveOn = false ↔ (s.radioIsOn = false → s.receiveOn = false)) := by
  cases hr : s.radioIsOn with
  | true =>
      rw [off, if_pos ⟨hon, hr⟩]
      exact ⟨rfl, fun _ h => absurd h nofun, fun _ => rfl⟩
  | false =>
      rw [off, if_neg (by simp [hr])]
      exact ⟨hr, fun h _ => h, fun h => h rfl⟩

/-- What is said of the flag is said of `on` and `off`. -/
theorem faithful_iff_flag :
    s.Faithful ↔ (s.xmacIsOn = true → s.send = .idle → s.radioIsOn = s.receiveOn) := by
  refine ⟨Faithful.flag, fun h => ⟨h, fun hon hidle => ?_, fun hon hidle => ?_⟩⟩
  · exact (on_of_flag hon (h hon hidle)).2
  · exact (off_of_on hon).2.mpr fun hr => (h hon hidle).symm.trans hr

/-! ### Steps -/

/-- `read_packet` calls `on`, `off` or neither. -/
theorem readPacket_cases (s : RadioFlag) (r : Reading) :
    s.readPacket r = s ∨ s.readPacket r = s.on ∨ s.readPacket r = s.off := by
  cases r with
  | strobeForUs counts => cases counts <;> simp [readPacket]
  | strobeForAll => exact .inr (.inl rfl)
  | data forUs => cases forUs <;> simp [readPacket]
  | other => exact .inl rfl

/-- The strobes end only while `send_packet` waits for them. -/
theorem step_strobed {gotStrobeAck reliable : Bool}
    (hst : s.step (.strobed gotStrobeAck reliable) = some t) :
    ∃ isBroadcast, s.send = .strobing isBroadcast ∧
      t = s.strobed isBroadcast gotStrobeAck reliable := by
  cases hsend : s.send with
  | idle => simp [step, hsend] at hst
  | waitingForDataAck => simp [step, hsend] at hst
  | strobing isBroadcast =>
      simp only [step, hsend, Option.some_inj] at hst
      exact ⟨isBroadcast, rfl, hst.symm⟩

/-- While X-MAC is off, `on` and `off` leave the driver alone. -/
theorem Inv.kept_on (h : s.Inv) (hoff : s.on.xmacIsOn = false) :
    s.on.receiveOn = s.on.keepRadioOn := by
  rw [on_xmacIsOn] at hoff
  rw [on_of_off hoff]
  exact h.kept hoff

/-- `off` leaves the driver as the last `turn_off` did. -/
theorem Inv.kept_off (h : s.Inv) (hoff : s.off.xmacIsOn = false) :
    s.off.receiveOn = s.off.keepRadioOn := by
  rw [off_xmacIsOn] at hoff
  rw [off_of_off hoff]
  exact h.kept hoff

/-- `on` keeps the invariant: the flag and the driver change together. -/
theorem Inv.on (h : s.Inv) : s.on.Inv where
  flag := fun hon hidle => by
    rw [on_xmacIsOn] at hon
    rw [on_send] at hidle
    have := on_of_flag hon (h.flag hon hidle)
    rw [this.1, this.2]
  kept := h.kept_on

/-- `off` keeps it, because the flag was right before. -/
theorem Inv.off (h : s.Inv) : s.off.Inv where
  flag := fun hon hidle => by
    rw [off_xmacIsOn] at hon
    rw [off_send] at hidle
    have hoff := off_of_on hon
    rw [hoff.1, hoff.2.mpr fun hr => (h.flag hon hidle).symm.trans hr]
  kept := h.kept_off

/-- The end of a send: the flag is right when the driver is not left on behind it. -/
theorem flag_off_iff (hidle : t.send = .idle) (hflag : t.radioIsOn = s.off.radioIsOn)
    (hdriver : t.receiveOn = s.off.receiveOn) (hxmac : t.xmacIsOn = s.xmacIsOn) :
    (t.xmacIsOn = true → t.send = .idle → t.radioIsOn = t.receiveOn) ↔ s.EndsOff := by
  rw [hxmac, hflag, hdriver]
  refine ⟨fun h hon => ?_, fun h hon _ => ?_⟩
  · have hoff := off_of_on hon
    exact hoff.2.mp ((h hon hidle).symm.trans hoff.1)
  · have hoff := off_of_on hon
    exact hoff.1.trans (hoff.2.mpr (h hon)).symm

/-- The flag is right after a step when the step agrees with it. -/
theorem Inv.flag_step_iff {a : Action} (h : s.Inv) (hst : s.step a = some t) :
    (t.xmacIsOn = true → t.send = .idle → t.radioIsOn = t.receiveOn) ↔ s.Agrees a := by
  cases a with
  | on =>
      cases hst
      exact iff_of_true h.on.flag trivial
  | off =>
      cases hst
      exact iff_of_true h.off.flag trivial
  | turnOn =>
      cases hst
      -- X-MAC was on and the flag was right, or the driver is as `turn_off` left it.
      cases hon : s.xmacIsOn with
      | true =>
          exact iff_of_true (fun _ => h.flag hon) fun hoff => absurd (hon.symm.trans hoff) nofun
      | false =>
          show (true = true → s.send = .idle → s.radioIsOn = s.receiveOn) ↔
            (s.xmacIsOn = false → s.send = .idle → s.radioIsOn = s.keepRadioOn)
          rw [h.kept hon]
          exact ⟨fun hf _ => hf rfl, fun hf _ => hf hon⟩
  | turnOff k =>
      cases hst
      refine iff_of_true (fun hon => absurd hon ?_) trivial
      cases k <;> exact Bool.false_ne_true
  | setXmacConfig =>
      cases hst
      exact ⟨fun hf hidle => hf rfl hidle, fun hf _ hidle => hf hidle⟩
  | sendPacket isBroadcast =>
      obtain ⟨hidle, ⟨⟩⟩ := Option.ite_none_right_eq_some.mp hst
      refine iff_of_true (fun hon hidle' => ?_) trivial
      rw [sendPacket] at hon hidle' ⊢
      split at hon
      · rename_i hoff
        exact absurd (hoff.symm.trans hon) nofun
      · rename_i hne
        rw [if_neg hne] at hidle'
        cases hidle'
  | strobed gotStrobeAck reliable =>
      obtain ⟨isBroadcast, hsend, rfl⟩ := step_strobed hst
      cases hack : !isBroadcast && gotStrobeAck with
      | true =>
          -- The data is sent next.
          refine iff_of_true (fun _ hidle => ?_) fun hends => ?_
          · simp [strobed, hack] at hidle
          · simp only [Bool.and_eq_true, Bool.not_eq_true'] at hack
            simp [hack, hsend] at hends
      | false =>
          have hends : gotStrobeAck = false ∨ s.send = .strobing true := by
            rw [hsend]
            cases isBroadcast with
            | true => exact .inr rfl
            | false => exact .inl (by simpa using hack)
          have heq : s.strobed isBroadcast gotStrobeAck reliable = s.dataSent := by
            simp [strobed, dataSent, hack]
          rw [heq]
          exact (flag_off_iff (t := s.dataSent) rfl rfl rfl (off_xmacIsOn s)).trans
            ⟨fun h _ => h, fun h => h hends⟩
  | dataSent =>
      obtain ⟨_, ⟨⟩⟩ := Option.ite_none_right_eq_some.mp hst
      exact flag_off_iff rfl rfl rfl (off_xmacIsOn s)
  | readPacket r =>
      cases hst
      refine iff_of_true ?_ trivial
      rcases s.readPacket_cases r with heq | heq | heq <;> rw [heq]
      · exact h.flag
      · exact h.on.flag
      · exact h.off.flag

/-- While X-MAC is off, a step leaves the driver as the last `turn_off` left it. -/
theorem Inv.kept_step {a : Action} (h : s.Inv) (hst : s.step a = some t) :
    t.xmacIsOn = false → t.receiveOn = t.keepRadioOn := by
  cases a with
  | on => cases hst; exact h.kept_on
  | off => cases hst; exact h.kept_off
  | turnOn => cases hst; exact fun hoff => absurd hoff nofun
  | turnOff k => cases hst; cases k <;> exact fun _ => rfl
  | setXmacConfig => cases hst; exact fun hoff => absurd hoff nofun
  | sendPacket isBroadcast =>
      obtain ⟨_, ⟨⟩⟩ := Option.ite_none_right_eq_some.mp hst
      intro hoff
      rw [sendPacket] at hoff ⊢
      split
      · exact h.kept ‹_›
      · rename_i hon
        rw [if_neg hon] at hoff
        cases isBroadcast <;> simp [hon] at hoff
  | strobed gotStrobeAck reliable =>
      obtain ⟨isBroadcast, _, rfl⟩ := step_strobed hst
      simp only [strobed]
      split
      · exact h.kept_on
      · exact h.kept_off
  | dataSent =>
      obtain ⟨_, ⟨⟩⟩ := Option.ite_none_right_eq_some.mp hst
      exact h.kept_off
  | readPacket r =>
      cases hst
      rcases s.readPacket_cases r with heq | heq | heq <;> rw [heq]
      · exact h.kept
      · exact h.kept_on
      · exact h.kept_off

/-- A step that agrees with the driver keeps the invariant. -/
theorem Inv.step {a : Action} (h : s.Inv) (hok : s.Agrees a) (hst : s.step a = some t) :
    t.Inv :=
  ⟨(h.flag_step_iff hst).mpr hok, h.kept_step hst⟩

/-- `xmac_init` leaves X-MAC on, and the flag and the driver off. -/
theorem inv_xmacInit : xmacInit.Inv := ⟨fun _ _ => rfl, fun _ => rfl⟩

/-! ### Runs -/

/-- The invariant of the runs whose steps agree with the flag. -/
theorem inv_of_reachableIf (h : radioFlag.ReachableIf Agrees s) : s.Inv :=
  h.invariant Inv inv_xmacInit fun _ _ _ hs hok hst => hs.step hok hst

/-- After such a run, the flag tells the truth after one more step when the step agrees with
it. -/
theorem faithful_iff {a : Action} (h : radioFlag.ReachableIf Agrees s)
    (hst : s.step a = some t) : t.Faithful ↔ s.Agrees a :=
  faithful_iff_flag.trans ((inv_of_reachableIf h).flag_step_iff hst)

/-- The flag tells the truth in every run whose steps agree with it. -/
theorem faithful_of_reachableIf (h : radioFlag.ReachableIf Agrees s) : s.Faithful :=
  faithful_iff_flag.mpr (inv_of_reachableIf h).flag

/-- X-MAC is turned off with the radio kept on while the radio is on, and turned on again. Then
it sends a unicast. -/
theorem faithful_of_reachableIf_kept :
    ∃ s, radioFlag.ReachableIf Agrees s ∧ s.receiveOn = true ∧ s.Faithful := by
  have hend : (radioFlag.runIf Agrees radioFlag.init
      [.on, .turnOff true, .turnOn, .sendPacket false, .strobed true false, .dataSent,
        .on]).map receiveOn = some true := by
    decide +kernel
  obtain ⟨s, hs, hon⟩ := Machine.exists_reachableIf_of_runIf (M := radioFlag) hend
  exact ⟨s, hs, hon, faithful_of_reachableIf hs⟩

/-- The radio is turned off while it listens. X-MAC is turned on again, and `on` has no
effect. -/
theorem not_forall_faithful : ¬ ∀ s, radioFlag.Reachable s → s.Faithful := by
  intro h
  have hend : (radioFlag.run [.on, .turnOff false, .turnOn]).map
      (fun s => (s.xmacIsOn, s.send, s.radioIsOn, s.receiveOn)) =
        some (true, .idle, true, false) := by
    decide +kernel
  obtain ⟨s, hs, hf⟩ := Machine.exists_reachable_of_run hend
  simp only [Prod.mk.injEq] at hf
  obtain ⟨hon, hidle, hradio, hdriver⟩ := hf
  exact absurd (hradio.symm.trans (((h s hs).flag hon hidle).trans hdriver)) nofun

end PTunes.Mac.RadioFlag
