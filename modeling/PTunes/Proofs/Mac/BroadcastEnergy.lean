import PTunes.Mac.RadioEnergy
import PTunes.Proofs.Mac.XmacWakeUp

/-!
# `PTunes.Proofs.Mac.BroadcastEnergy`: a broadcast without its strobes

After the strobes of a broadcast, `send_packet` takes their time out of LISTEN and TRANSMIT and
moves it to LPM, less one `on_time` that stays in LISTEN. The totals are in units of
`ENERGEST_DIVIDER` ticks, but `on_time` is in ticks, and it is not divided.

* `saved_of_reachable`: the strobes leave LPM and the saved values alone.
* `not_excluded`: in every broadcast of every configuration of the optimizer LISTEN grows by
  four times too much. TRANSMIT and the sum of the totals are right.
* `lpm_le_excludeEnd_iff`: when LPM does not decrease.
-/

set_option autoImplicit false

namespace PTunes.Mac

open Controller (MacConfiguration)

/-! ### What the radio leaves alone -/

namespace RadioEnergy

/-- The variables of `send_packet` that are in use during the strobes of a broadcast. -/
def saved (s : RadioEnergy) : Bool × Saved × Saved :=
  (s.broadcasting, s.energestListen, s.energestTransmit)

variable {s t : RadioEnergy}

/-- The driver keeps the saved values when it turns the radio on. -/
@[simp] theorem saved_driverOn : s.driverOn.saved = s.saved := rfl

/-- It keeps them when it turns the radio off. -/
@[simp] theorem saved_driverOff : s.driverOff.saved = s.saved := rfl

/-- `RELEASE_LOCK` makes up for the calls that were put off, and these are calls of the driver. -/
@[simp] theorem saved_releaseLock : s.releaseLock.saved = s.saved := by
  simp only [releaseLock]
  split <;> split <;> rfl

/-- `cc2420_off` is put off or carried out. The saved values stay in both cases. -/
@[simp] theorem saved_cc2420Off : s.cc2420Off.saved = s.saved := by
  simp only [cc2420Off]
  split
  · rfl
  · split <;> rfl

/-- So does `cc2420_on`. -/
@[simp] theorem saved_cc2420On : s.cc2420On.saved = s.saved := by
  simp only [cc2420On]
  split
  · rfl
  · split <;> rfl

/-- At the end of a frame LISTEN is opened or closed and the lock is released. The saved values
stay. -/
@[simp] theorem saved_txEnd : s.txEnd.saved = s.saved := by
  simp only [txEnd, saved_releaseLock]
  split <;> rfl

/-- X-MAC turns the radio on through the driver. -/
@[simp] theorem saved_on : s.on.saved = s.saved := by
  rw [on]
  split
  · exact saved_cc2420On
  · rfl

/-- It turns the radio off through the driver. -/
@[simp] theorem saved_off : s.off.saved = s.saved := by
  rw [off]
  split
  · exact saved_cc2420Off
  · rfl

/-- `turn_off` ends with `cc2420_on` or `cc2420_off`, by its argument. -/
@[simp] theorem saved_turnOff (k : Bool) : (s.turnOff k).saved = s.saved := by
  simp only [turnOff]
  split
  · exact saved_cc2420On
  · exact saved_cc2420Off

/-- Time passes for the accounts, not for the saved values. -/
@[simp] theorem saved_tick : s.tick.saved = s.saved := by
  simp only [tick]
  split <;> rfl

/-- During the strobes of a broadcast a step of the radio leaves these variables alone. -/
theorem saved_step {a : Action} (hb : s.broadcasting = true)
    (ha : ∀ onTime, a ≠ .broadcastEnd onTime) (h : s.step a = some t) : t.saved = s.saved := by
  cases a with
  | tick =>
      obtain ⟨_, ⟨⟩⟩ := Option.ite_none_right_eq_some.mp h
      exact saved_tick
  | flush => cases h; rfl
  | typeTime => cases h; rfl
  | on => cases h; exact saved_on
  | off => cases h; exact saved_off
  | turnOn => cases h; rfl
  | turnOff k => cases h; exact saved_turnOff k
  | send =>
      obtain ⟨_, ⟨⟩⟩ := Option.ite_none_right_eq_some.mp h
      rfl
  | txStart =>
      obtain ⟨_, ⟨⟩⟩ := Option.ite_none_right_eq_some.mp h
      rfl
  | txEnd =>
      obtain ⟨_, ⟨⟩⟩ := Option.ite_none_right_eq_some.mp h
      exact saved_txEnd
  | txFailed =>
      obtain ⟨_, ⟨⟩⟩ := Option.ite_none_right_eq_some.mp h
      exact saved_releaseLock
  | read =>
      obtain ⟨_, ⟨⟩⟩ := Option.ite_none_right_eq_some.mp h
      rfl
  | readEnd =>
      obtain ⟨_, ⟨⟩⟩ := Option.ite_none_right_eq_some.mp h
      exact saved_releaseLock
  | broadcastBegin =>
      -- A process sends one packet at a time.
      obtain ⟨⟨_, hnone⟩, _⟩ := Option.ite_none_right_eq_some.mp h
      exact absurd (hb.symm.trans hnone) nofun
  | broadcastEnd onTime => exact absurd rfl (ha onTime)

end RadioEnergy

namespace StrobePhase

/-! ### The strobes -/

/-- The values that `send_packet` keeps during the strobes of the broadcast that began in
`before`. -/
structure Saves (before s : StrobePhase) : Prop where
  saved : s.radio.saved = before.excludeBegin.radio.saved
  lpm : s.lpm = before.lpm

/-- The strobes leave LPM and the saved values alone. -/
theorem saves_of_reachable {before s : StrobePhase} (h : (strobePhase before).Reachable s) :
    Saves before s := by
  refine h.invariant (Saves before) ⟨rfl, rfl⟩ ?_
  intro s a t hs hst
  have hb : s.radio.broadcasting = true := congrArg Prod.fst hs.saved
  have hend : ∀ onTime, a ≠ .broadcastEnd onTime := by
    rintro onTime rfl
    cases hst
  have hradio : (s.radio.step a).map (fun radio => { s with radio := radio }) = some t := by
    cases a with
    | broadcastEnd onTime => exact absurd rfl (hend onTime)
    | _ => exact hst
  obtain ⟨radio, hr, rfl⟩ := Option.map_eq_some_iff.mp hradio
  exact ⟨(RadioEnergy.saved_step hb hend hr).trans hs.saved, hs.lpm⟩

/-! ### The correction -/

/-- The accounts when the strobes of a broadcast, which began in `before` and ended in `after`,
count as listening for `on_time`. -/
structure Excluded (before after : StrobePhase) (onTime : UInt16) : Prop where
  transmit :
    (after.excludeEnd onTime).radio.transmit.total = before.typeTime.radio.transmit.total
  listen :
    (after.excludeEnd onTime).radio.listen.total =
      before.typeTime.radio.listen.total + (onTime / energestDivider).toUInt32
  lpm : before.lpm ≤ (after.excludeEnd onTime).lpm
  sum :
    (after.excludeEnd onTime).lpm + (after.excludeEnd onTime).radio.listen.total +
        (after.excludeEnd onTime).radio.transmit.total =
      after.typeTime.lpm + after.typeTime.radio.listen.total +
        after.typeTime.radio.transmit.total

variable {before after : StrobePhase} {onTime : UInt16}

/-- The end of the broadcast sets TRANSMIT back to its value from before the strobes. -/
theorem transmit_excludeEnd (h : Saves before after) :
    (after.excludeEnd onTime).radio.transmit.total = before.typeTime.radio.transmit.total :=
  congrArg (fun v : Bool × Saved × Saved => v.2.2.total) h.saved

/-- It sets LISTEN to the value from before and adds `on_time`, which is in ticks, as if it were in
units of the account. -/
theorem listen_excludeEnd (h : Saves before after) :
    (after.excludeEnd onTime).radio.listen.total =
      before.typeTime.radio.listen.total + onTime.toUInt32 :=
  congrArg (fun v : Bool × Saved × Saved => v.2.1.total + onTime.toUInt32) h.saved

/-- What is taken out of LISTEN and TRANSMIT is added to LPM. -/
theorem sum_excludeEnd (s : StrobePhase) (onTime : UInt16) :
    (s.excludeEnd onTime).lpm + (s.excludeEnd onTime).radio.listen.total +
        (s.excludeEnd onTime).radio.transmit.total =
      s.typeTime.lpm + s.typeTime.radio.listen.total + s.typeTime.radio.transmit.total := by
  show s.lpm + (s.radio.typeTime.listen.total - s.radio.energestListen.total) +
      (s.radio.typeTime.transmit.total - s.radio.energestTransmit.total) - onTime.toUInt32 +
        (s.radio.energestListen.total + onTime.toUInt32) + s.radio.energestTransmit.total =
    s.lpm + s.radio.typeTime.listen.total + s.radio.typeTime.transmit.total
  grind

/-- A configuration of the optimizer listens for some ticks. -/
theorem onTime_div_ne {v : MacConfiguration} (h : Optimizer.Xmac.createVariables v = true) :
    (dutyCycleOf v).onTime / energestDivider ≠ (dutyCycleOf v).onTime := by
  have hpos := (valid_of_createVariables h).1
  intro heq
  have := congrArg UInt16.toNat heq
  rw [UInt16.toNat_div, show energestDivider.toNat = 4 from rfl] at this
  omega

/-- The strobes do not count as listening for `on_time`, because it is not divided. -/
theorem not_excluded_of_saves (h : Saves before after)
    (honTime : onTime / energestDivider ≠ onTime) : ¬ Excluded before after onTime := by
  intro hex
  -- LISTEN has grown by `on_time`, and it should by a quarter of it.
  have hlisten := (listen_excludeEnd h).symm.trans hex.listen
  have hunits := congrArg UInt32.toNat ((UInt32.add_right_inj _).mp hlisten)
  rw [UInt16.toNat_toUInt32, UInt16.toNat_toUInt32, UInt16.toNat_inj] at hunits
  exact honTime hunits.symm

/-- After the strobes of a broadcast LISTEN has grown by four times too much, whatever they
were. TRANSMIT has its value from before, and the sum of the totals is right. -/
theorem not_excluded {v : MacConfiguration} (hv : Optimizer.Xmac.createVariables v = true)
    (h : (strobePhase before).Reachable after) :
    ¬ Excluded before after (dutyCycleOf v).onTime ∧
    (after.excludeEnd (dutyCycleOf v).onTime).radio.listen.total =
      before.typeTime.radio.listen.total + (dutyCycleOf v).onTime.toUInt32 ∧
    (after.excludeEnd (dutyCycleOf v).onTime).radio.transmit.total =
      before.typeTime.radio.transmit.total ∧
    (after.excludeEnd (dutyCycleOf v).onTime).lpm +
        (after.excludeEnd (dutyCycleOf v).onTime).radio.listen.total +
        (after.excludeEnd (dutyCycleOf v).onTime).radio.transmit.total =
      after.typeTime.lpm + after.typeTime.radio.listen.total +
        after.typeTime.radio.transmit.total := by
  have hsaves := saves_of_reachable h
  exact ⟨not_excluded_of_saves hsaves (onTime_div_ne hv), listen_excludeEnd hsaves,
    transmit_excludeEnd hsaves, sum_excludeEnd _ _⟩

/-- A radio that is off, with 1000 units in LPM. -/
def asleep : StrobePhase := ⟨.init 0, 1000⟩

/-- A strobe of 8 ticks. -/
def strobe : List RadioEnergy.Action :=
  [.send, .txStart] ++ List.replicate 8 RadioEnergy.Action.tick ++ [.txEnd]

/-- The strobes of a broadcast. -/
theorem exists_strobes :
    ∃ after, (strobePhase asleep).Reachable after ∧ after.radio.transmit.total = 4 := by
  have hend : ((strobePhase asleep).run (strobe ++ strobe)).map
      (fun s => s.radio.transmit.total) = some 4 := by
    decide +kernel
  exact Machine.exists_reachable_of_run hend

/-- Two strobes with `Tl = 6`, `Ts = 20`. -/
theorem not_excluded_strobes :
    ∃ after, (strobePhase asleep).Reachable after ∧
      ¬ Excluded asleep after (dutyCycleOf ⟨6, 20, 0⟩).onTime := by
  obtain ⟨after, h, _⟩ := exists_strobes
  exact ⟨after, h, (not_excluded (v := ⟨6, 20, 0⟩) (by decide +kernel) h).1⟩

/-- The strobes of a broadcast do not always count as listening for `on_time`. -/
theorem not_forall_excluded :
    ¬ ∀ (v : MacConfiguration) (before after : StrobePhase),
      Optimizer.Xmac.createVariables v = true → (strobePhase before).Reachable after →
      Excluded before after (dutyCycleOf v).onTime := by
  intro hall
  obtain ⟨after, h, _⟩ := exists_strobes
  exact not_excluded_of_saves (saves_of_reachable h)
    (onTime_div_ne (v := ⟨6, 20, 0⟩) (by decide +kernel))
    (hall ⟨6, 20, 0⟩ asleep after (by decide +kernel) h)

/-- LPM does not decrease when the strobes took at least `on_time` units, or when so few units
were counted in LPM before that the subtraction goes below 0 and wraps. -/
theorem lpm_le_excludeEnd_iff (s : StrobePhase) (onTime : UInt16) :
    s.lpm ≤ (s.excludeEnd onTime).lpm ↔
      if onTime.toNat ≤ (s.diffListen + s.diffTransmit).toNat then
        s.lpm.toNat + ((s.diffListen + s.diffTransmit).toNat - onTime.toNat) < 2 ^ 32
      else s.lpm.toNat + (s.diffListen + s.diffTransmit).toNat < onTime.toNat := by
  show s.lpm ≤ s.lpm + s.diffListen + s.diffTransmit - onTime.toUInt32 ↔ _
  rw [UInt32.add_assoc]
  generalize s.diffListen + s.diffTransmit = d
  have hd := d.toNat_lt
  have hlpm := s.lpm.toNat_lt
  have hon := onTime.toNat_lt
  rw [UInt32.le_iff_toNat_le, UInt32.toNat_sub, UInt32.toNat_add, UInt16.toNat_toUInt32]
  split_ifs <;> omega

end StrobePhase

end PTunes.Mac
