import PTunes.Mac.RadioEnergy

/-!
# `PTunes.Proofs.Mac.RadioEnergy`: the radio accounts measure the radio

LISTEN should measure the time during which the radio is on and does not transmit, and
TRANSMIT the time during which it transmits.

A broadcast is excluded on purpose: whatever its strobes take, it counts as
`xmac_config.on_time` units of LISTEN. And the end of `cc2420_send` calls `off` when the
receiver is off. `off` closes the LISTEN account, which is closed already, so the time since it
was opened is added again. `read_packet` sends every `DATA_ACK` in this way.

* `Inv.step`: a step keeps the invariant when no frame starts with the receiver off.
* `measured_of_reachableIf`: in every such run the accounts measure the radio outside of
  broadcasts.
* `not_measured`: a broadcast, and a `DATA_ACK`.
-/

set_option autoImplicit false

namespace PTunes.Mac.RadioEnergy

/-- The accounts measure the radio, when a broadcast counts as `on_time` units of LISTEN. -/
structure Measured (s : RadioEnergy) : Prop where
  listen : s.listen.Measures s.now (s.listenTicks + 4 * s.broadcastUnits)
  transmit : s.transmit.Measures s.now s.transmitTicks
  elapsed :
    4 * (s.listen.total.toNat + s.transmit.total.toNat) +
        (s.listen.openTime s.now + s.transmit.openTime s.now) + s.start ≤
      s.now + 4 * s.broadcastUnits

/-- The accounts measure the radio at all times. -/
structure MeasuredAll (s : RadioEnergy) : Prop where
  listen : s.listen.Measures s.now (s.listenTicks + s.broadcastListenTicks)
  transmit : s.transmit.Measures s.now (s.transmitTicks + s.broadcastTransmitTicks)
  elapsed :
    4 * (s.listen.total.toNat + s.transmit.total.toNat) +
        (s.listen.openTime s.now + s.transmit.openTime s.now) + s.start ≤ s.now

/-! ### The condition -/

/-- No frame starts while the receiver is off, except in a broadcast. -/
def ReceiverOn (s : RadioEnergy) : Action → Prop
  | .txStart => s.broadcasting = false → s.receiveOn = true
  | _ => True

instance (s : RadioEnergy) : (a : Action) → Decidable (s.ReceiverOn a)
  | .txStart => inferInstanceAs (Decidable (_ → _))
  | .tick | .flush | .typeTime | .on | .off | .turnOn | .turnOff _ | .send | .txEnd | .txFailed
  | .read | .readEnd | .broadcastBegin | .broadcastEnd _ => inferInstanceAs (Decidable True)

/-! ### An account around broadcasts -/

/-- Outside of broadcasts the account measures `ticks`. In a broadcast the saved value does. -/
structure Counts (a : Account) (broadcasting : Bool) (saved : Saved) (now ticks : Nat) :
    Prop where
  ok : a.Ok now
  measures : broadcasting = false → a.Measures now ticks
  saved : broadcasting = true →
    saved.total = UInt32.ofNat saved.units ∧ 4 * saved.units ≤ ticks ∧
      ticks ≤ 4 * saved.units + 3 * a.cuts

section
variable {a : Account} {b : Bool} {saved : Saved} {now ticks : Nat}

/-- A tick is measured outside of broadcasts, when the account is open. -/
theorem Counts.tick (h : Counts a b saved now ticks) :
    Counts a b saved (now + 1) (ticks + if b then 0 else if a.mode then 1 else 0) where
  ok := h.ok.tick
  measures := fun hb => by
    have := (h.measures hb).tick
    simpa [hb] using this
  saved := fun hb => by
    simpa [hb] using h.saved hb

/-- Opening an account counts nothing. -/
theorem Counts.on (h : Counts a b saved now ticks) (hmode : a.mode = false) :
    Counts (a.on now) b saved now ticks :=
  ⟨h.ok.on, fun hb => (h.measures hb).on hmode, h.saved⟩

/-- Closing an account. In a broadcast it may be closed already. -/
theorem Counts.off (h : Counts a b saved now ticks)
    (hmode : b = false → a.mode = true ∧ now < a.since + 65536) :
    Counts (a.off now) b saved now ticks where
  ok := h.ok.off
  measures := fun hb => (h.measures hb).off (hmode hb).1 (hmode hb).2
  saved := fun hb => by
    have hsaved := h.saved hb
    refine ⟨hsaved.1, hsaved.2.1, ?_⟩
    show ticks ≤ 4 * saved.units + 3 * (a.cuts + 1)
    omega

/-- `energest_type_time` divides at most once, and only then can it cut something off. -/
theorem cuts_le_sample (a : Account) (now : Nat) : a.cuts ≤ (a.sample now).cuts := by
  rw [Account.sample]
  split
  · exact Nat.le_succ _
  · exact Nat.le_refl _

/-- `energest_type_time` counts what the account was open for, if that is less than a round of the
clock. -/
theorem Counts.sample (h : Counts a b saved now ticks)
    (hshort : a.mode = true → now < a.since + 65536) :
    Counts (a.sample now) b saved now ticks where
  ok := h.ok.sample
  measures := fun hb => (h.measures hb).sample hshort
  saved := fun hb => by
    have hsaved := h.saved hb
    have hcuts := cuts_le_sample a now
    exact ⟨hsaved.1, hsaved.2.1, by omega⟩

/-- An account that is up to date has no open time. -/
theorem openTime_sample (a : Account) (now : Nat) : (a.sample now).openTime now = 0 := by
  rw [Account.openTime, Account.mode_sample, Account.sample]
  cases hm : a.mode with
  | true => simp
  | false => simp

/-- The account is saved at the start of a broadcast. -/
theorem Counts.save (h : Counts a false saved now ticks)
    (hshort : a.mode = true → now < a.since + 65536) :
    Counts (a.sample now) true ⟨(a.sample now).total, (a.sample now).units⟩ now ticks where
  ok := h.ok.sample
  measures := fun hb => nomatch hb
  saved := fun _ => by
    have hsample := (h.measures rfl).sample hshort
    have hle := hsample.le
    have hge := hsample.ge
    rw [Account.spent, openTime_sample] at hle hge
    exact ⟨hsample.ok.total, hle, hge⟩

/-- The account is set at the end of a broadcast to the saved value and `x` units more. -/
theorem Counts.restore (h : Counts a true saved now ticks) (x : UInt16) (saved' : Saved) :
    Counts ((a.sample now).set (saved.total + x.toUInt32) (saved.units + x.toNat)) false saved'
      now (ticks + 4 * x.toNat) := by
  have hsaved := h.saved rfl
  have hok := h.ok.sample
  have hok' : ((a.sample now).set (saved.total + x.toUInt32) (saved.units + x.toNat)).Ok now :=
    ⟨hok.current, hok.since_le, by
      show saved.total + x.toUInt32 = UInt32.ofNat (saved.units + x.toNat)
      rw [hsaved.1, UInt32.ofNat_add]
      congr 1
      rw [← UInt32.toNat_inj, UInt16.toNat_toUInt32, UInt32.toNat_ofNat']
      have := x.toNat_lt
      omega⟩
  have hspent : ((a.sample now).set (saved.total + x.toUInt32)
      (saved.units + x.toNat)).spent now = 4 * (saved.units + x.toNat) := by
    show 4 * (saved.units + x.toNat) + (a.sample now).openTime now = _
    rw [openTime_sample]
    rfl
  have hcuts := cuts_le_sample a now
  refine ⟨hok', fun _ => ⟨hok', ?_, ?_⟩, fun hb => nomatch hb⟩
  · rw [hspent]
    omega
  · rw [hspent]
    show ticks + 4 * x.toNat ≤ 4 * (saved.units + x.toNat) + 3 * (a.sample now).cuts
    omega

end

/-! ### The invariant -/

/-- The accounts and the hardware. The account that is open says what the hardware does, and it
was opened after the last `energest_flush`. -/
structure Powered (s : RadioEnergy) : Prop where
  flush_lt : s.now < s.lastFlush + 65536
  flush_le : s.lastFlush ≤ s.now
  listenMode : s.listen.mode = decide (s.hardware = .rx)
  transmitMode : s.transmit.mode = decide (s.hardware = .tx)
  listenSince : s.listen.mode = true → s.lastFlush ≤ s.listen.since
  transmitSince : s.transmit.mode = true → s.lastFlush ≤ s.transmit.since
  listen : Counts s.listen s.broadcasting s.energestListen s.now
    (s.listenTicks + 4 * s.broadcastUnits)
  transmit : Counts s.transmit s.broadcasting s.energestTransmit s.now s.transmitTicks
  ticks_le : s.listenTicks + s.transmitTicks + s.start ≤ s.now

/-- The flags of the driver. -/
structure Flags (s : RadioEnergy) : Prop where
  hardware : s.hardware =
    if s.driver = .transmitting then .tx else if s.receiveOn then .rx else .off
  locked : s.locked = decide (s.driver ≠ .idle)
  lockOn : s.lockOn = true → s.locked = true ∧ s.receiveOn = false
  lockOff : s.lockOff = true → s.locked = true ∧ s.receiveOn = true
  receiveOn : s.driver = .transmitting → s.broadcasting = false → s.receiveOn = true

/-- The invariant. -/
structure Inv (s : RadioEnergy) : Prop where
  powered : s.Powered
  flags : s.Flags

variable {s : RadioEnergy}

/-- The flags are no part of it. -/
theorem Powered.flags (h : s.Powered) (xmacIsOn radioIsOn locked lockOn lockOff : Bool)
    (driver : Driver) :
    Powered { s with
      xmacIsOn := xmacIsOn
      radioIsOn := radioIsOn
      locked := locked
      lockOn := lockOn
      lockOff := lockOff
      driver := driver } :=
  ⟨h.flush_lt, h.flush_le, h.listenMode, h.transmitMode, h.listenSince, h.transmitSince,
    h.listen, h.transmit, h.ticks_le⟩

/-- An open account was opened less than a round of the clock ago. -/
theorem Powered.listen_short (h : s.Powered) (hmode : s.listen.mode = true) :
    s.now < s.listen.since + 65536 := by
  have := h.listenSince hmode
  have := h.flush_lt
  omega

/-- The same for TRANSMIT. -/
theorem Powered.transmit_short (h : s.Powered) (hmode : s.transmit.mode = true) :
    s.now < s.transmit.since + 65536 := by
  have := h.transmitSince hmode
  have := h.flush_lt
  omega

/-- The driver turns the radio on. -/
theorem Powered.driverOn (h : s.Powered) (hoff : s.hardware = .off) : s.driverOn.Powered := by
  have hlisten : s.listen.mode = false := by rw [h.listenMode, hoff]; rfl
  have htransmit : s.transmit.mode = false := by rw [h.transmitMode, hoff]; rfl
  exact {
    flush_lt := h.flush_lt
    flush_le := h.flush_le
    listenMode := rfl
    transmitMode := htransmit
    listenSince := fun _ => h.flush_le
    transmitSince := h.transmitSince
    listen := h.listen.on hlisten
    transmit := h.transmit
    ticks_le := h.ticks_le }

/-- The driver turns the radio off. -/
theorem Powered.driverOff (h : s.Powered) (hon : s.hardware = .rx) : s.driverOff.Powered := by
  have hlisten : s.listen.mode = true := by rw [h.listenMode, hon]; rfl
  have htransmit : s.transmit.mode = false := by rw [h.transmitMode, hon]; rfl
  exact {
    flush_lt := h.flush_lt
    flush_le := h.flush_le
    listenMode := rfl
    transmitMode := htransmit
    listenSince := fun hm => nomatch hm
    transmitSince := h.transmitSince
    listen := h.listen.off fun _ => ⟨hlisten, h.listen_short hlisten⟩
    transmit := h.transmit
    ticks_le := h.ticks_le }

/-- `energest_type_time` of both accounts. -/
theorem Powered.typeTime (h : s.Powered) : s.typeTime.Powered where
  flush_lt := h.flush_lt
  flush_le := h.flush_le
  listenMode := (Account.mode_sample _ _).trans h.listenMode
  transmitMode := (Account.mode_sample _ _).trans h.transmitMode
  listenSince := fun hm => (Account.le_since_sample hm h.flush_le)
  transmitSince := fun hm => (Account.le_since_sample hm h.flush_le)
  listen := h.listen.sample h.listen_short
  transmit := h.transmit.sample h.transmit_short
  ticks_le := h.ticks_le

/-- A tick. -/
theorem Powered.tick (h : s.Powered) (hflush : s.now + 1 < s.lastFlush + 65536) :
    s.tick.Powered := by
  have hlisten := h.listen.tick
  have htransmit := h.transmit.tick
  rw [h.listenMode] at hlisten
  rw [h.transmitMode] at htransmit
  have hle := h.ticks_le
  rw [RadioEnergy.tick]
  cases hb : s.broadcasting with
  | true =>
      simp only [hb, if_true, Nat.add_zero] at hlisten htransmit ⊢
      exact {
        flush_lt := hflush
        flush_le := Nat.le_succ_of_le h.flush_le
        listenMode := h.listenMode
        transmitMode := h.transmitMode
        listenSince := h.listenSince
        transmitSince := h.transmitSince
        listen := hlisten
        transmit := htransmit
        ticks_le := Nat.le_succ_of_le hle }
  | false =>
      simp only [hb, Bool.false_eq_true, if_false, decide_eq_true_eq] at hlisten htransmit ⊢
      exact {
        flush_lt := hflush
        flush_le := Nat.le_succ_of_le h.flush_le
        listenMode := h.listenMode
        transmitMode := h.transmitMode
        listenSince := h.listenSince
        transmitSince := h.transmitSince
        listen := by
          have heq : s.listenTicks + 4 * s.broadcastUnits + (if s.hardware = .rx then 1 else 0) =
              s.listenTicks + (if s.hardware = .rx then 1 else 0) + 4 * s.broadcastUnits := by
            omega
          exact heq ▸ hlisten
        transmit := htransmit
        ticks_le := by
          -- The hardware does one thing at a time.
          show s.listenTicks + (if s.hardware = .rx then 1 else 0) +
            (s.transmitTicks + if s.hardware = .tx then 1 else 0) + s.start ≤ s.now + 1
          cases s.hardware with
          | off | rx | tx =>
              simp
              omega }

/-! ### The operations -/

/-- Outside its locked parts, the driver has nothing to make up for. -/
theorem Flags.idle (h : s.Flags) (hidle : s.driver = .idle) :
    s.locked = false ∧ s.lockOn = false ∧ s.lockOff = false := by
  have hlocked : s.locked = false := by rw [h.locked, hidle]; rfl
  refine ⟨hlocked, ?_, ?_⟩
  · cases hl : s.lockOn with
    | false => rfl
    | true => exact absurd (hlocked.symm.trans (h.lockOn hl).1) Bool.false_ne_true
  · cases hl : s.lockOff with
    | false => rfl
    | true => exact absurd (hlocked.symm.trans (h.lockOff hl).1) Bool.false_ne_true

/-- Outside its locked parts, a driver with nothing to make up for only has to have the hardware
follow `receive_on`. -/
theorem flags_of_idle (hidle : s.driver = .idle) (hlocked : s.locked = false)
    (hlon : s.lockOn = false) (hloff : s.lockOff = false)
    (hhardware : s.hardware = if s.receiveOn then .rx else .off) : s.Flags where
  hardware := by
    rw [hidle]
    exact hhardware
  locked := by
    rw [hlocked, hidle]
    rfl
  lockOn h := absurd (hlon.symm.trans h) Bool.false_ne_true
  lockOff h := absurd (hloff.symm.trans h) Bool.false_ne_true
  receiveOn h := nomatch hidle.symm.trans h

/-- `RELEASE_LOCK`, when the driver is out of its locked part: at most one of the two calls has
been put off, and the receiver is still as that call found it. -/
theorem inv_releaseLock (hp : s.Powered) (hidle : s.driver = .idle)
    (hhardware : s.hardware = if s.receiveOn then .rx else .off)
    (hon : s.lockOn = true → s.receiveOn = false)
    (hoff : s.lockOff = true → s.receiveOn = true) : s.releaseLock.Inv := by
  cases hlon : s.lockOn with
  | true =>
      have hreceive := hon hlon
      -- The receiver cannot be both on and off, so the other call was not put off.
      have hloff : s.lockOff = false := by
        cases hl : s.lockOff with
        | false => rfl
        | true => exact absurd (hreceive.symm.trans (hoff hl)) Bool.false_ne_true
      have heq : s.releaseLock = { s.driverOn with lockOn := false, locked := false } := by
        simp only [releaseLock, driverOn, hlon, hloff, if_true, Bool.false_eq_true, if_false]
      have hp' := hp.driverOn (hhardware.trans (by rw [hreceive]; rfl))
      rw [heq]
      exact {
        powered := hp'.flags _ _ _ _ _ _
        flags := flags_of_idle hidle rfl rfl hloff rfl }
  | false =>
      cases hloff : s.lockOff with
      | true =>
          have hreceive := hoff hloff
          have heq : s.releaseLock = { s.driverOff with lockOff := false, locked := false } := by
            simp only [releaseLock, hlon, Bool.false_eq_true, if_false, hloff, if_true]
          have hp' := hp.driverOff (hhardware.trans (by rw [hreceive]; rfl))
          rw [heq]
          exact {
            powered := hp'.flags _ _ _ _ _ _
            flags := flags_of_idle hidle rfl hlon rfl rfl }
      | false =>
          have heq : s.releaseLock = { s with locked := false } := by
            simp only [releaseLock, hlon, Bool.false_eq_true, if_false, hloff]
          rw [heq]
          exact {
            powered := hp.flags _ _ _ _ _ _
            flags := flags_of_idle hidle rfl hlon hloff hhardware }

/-- The flags of X-MAC are no part of the invariant. -/
theorem Inv.xmacFlags (h : s.Inv) (xmacIsOn radioIsOn : Bool) :
    Inv { s with xmacIsOn := xmacIsOn, radioIsOn := radioIsOn } where
  powered := h.powered.flags _ _ _ _ _ _
  flags := ⟨h.flags.hardware, h.flags.locked, h.flags.lockOn, h.flags.lockOff,
    h.flags.receiveOn⟩

/-- Outside its locked parts, the hardware follows `receive_on`. -/
theorem Flags.hardware_idle (h : s.Flags) (hidle : s.driver = .idle) :
    s.hardware = if s.receiveOn then .rx else .off := by
  rw [h.hardware, hidle]
  rfl

/-- The lock is held in the locked parts of the driver, so without it the driver is idle. -/
theorem idle_of_unlocked (h : s.Flags) (hlocked : s.locked = false) : s.driver = .idle := by
  have := h.locked
  rw [hlocked] at this
  simpa using this.symm

/-- `cc2420_off` closes LISTEN, or leaves a note for `RELEASE_LOCK`. -/
theorem Inv.cc2420Off (h : s.Inv) : s.cc2420Off.Inv := by
  by_cases hreceive : s.receiveOn = false
  · rw [RadioEnergy.cc2420Off, if_pos hreceive]
    exact h
  have hon : s.receiveOn = true := Bool.not_eq_false _ ▸ hreceive
  by_cases hlocked : s.locked = true
  · -- The call is put off.
    rw [RadioEnergy.cc2420Off, if_neg hreceive, if_pos hlocked]
    exact {
      powered := h.powered.flags _ _ _ _ _ _
      flags := {
        hardware := h.flags.hardware
        locked := h.flags.locked
        lockOn := h.flags.lockOn
        lockOff := fun _ => ⟨hlocked, hon⟩
        receiveOn := fun _ _ => hon } }
  · rw [RadioEnergy.cc2420Off, if_neg hreceive, if_neg hlocked]
    have hidle := idle_of_unlocked h.flags (Bool.not_eq_true _ ▸ hlocked)
    have hhardware := h.flags.hardware_idle hidle
    have hnone := h.flags.idle hidle
    exact {
      powered := h.powered.driverOff (by rw [hhardware, hon]; rfl)
      flags := flags_of_idle hidle hnone.1 hnone.2.1 hnone.2.2 rfl }

/-- `cc2420_on` opens LISTEN, or leaves a note for `RELEASE_LOCK`. -/
theorem Inv.cc2420On (h : s.Inv) : s.cc2420On.Inv := by
  by_cases hon : s.receiveOn = true
  · rw [RadioEnergy.cc2420On, if_pos hon]
    exact h
  have hreceive : s.receiveOn = false := Bool.not_eq_true _ ▸ hon
  by_cases hlocked : s.locked = true
  · -- The call is put off.
    rw [RadioEnergy.cc2420On, if_neg hon, if_pos hlocked]
    exact {
      powered := h.powered.flags _ _ _ _ _ _
      flags := {
        hardware := h.flags.hardware
        locked := h.flags.locked
        lockOn := fun _ => ⟨hlocked, hreceive⟩
        lockOff := h.flags.lockOff
        receiveOn := h.flags.receiveOn } }
  · rw [RadioEnergy.cc2420On, if_neg hon, if_neg hlocked]
    have hidle := idle_of_unlocked h.flags (Bool.not_eq_true _ ▸ hlocked)
    have hhardware := h.flags.hardware_idle hidle
    have hnone := h.flags.idle hidle
    exact {
      powered := h.powered.driverOn (by rw [hhardware, hreceive]; rfl)
      flags := flags_of_idle hidle hnone.1 hnone.2.1 hnone.2.2 rfl }

/-- X-MAC turns the radio on when its flag says that it is off. -/
theorem Inv.on (h : s.Inv) : s.on.Inv := by
  rw [RadioEnergy.on]
  split
  · exact (h.xmacFlags s.xmacIsOn true).cc2420On
  · exact h

/-- X-MAC turns the radio off when its flag says that it is on. -/
theorem Inv.off (h : s.Inv) : s.off.Inv := by
  rw [RadioEnergy.off]
  split
  · exact (h.xmacFlags s.xmacIsOn false).cc2420Off
  · exact h

/-- `turn_off` calls the driver, whatever the flag says. -/
theorem Inv.turnOff (h : s.Inv) (keepRadioOn : Bool) : (s.turnOff keepRadioOn).Inv := by
  cases keepRadioOn with
  | true => exact (h.xmacFlags false s.radioIsOn).cc2420On
  | false => exact (h.xmacFlags false s.radioIsOn).cc2420Off

/-- `GET_LOCK`: a locked part of the driver begins, before a frame starts. -/
theorem Inv.lock (h : s.Inv) {driver : Driver} (hidle : s.driver = .idle)
    (hbusy : driver ≠ .idle) (htx : driver ≠ .transmitting) :
    Inv { s with locked := true, driver := driver } := by
  have hhardware := h.flags.hardware_idle hidle
  have hnone := h.flags.idle hidle
  exact {
    powered := h.powered.flags _ _ _ _ _ _
    flags := {
      hardware := by
        show s.hardware = if driver = .transmitting then .tx else
          if s.receiveOn then .rx else .off
        rw [if_neg htx]
        exact hhardware
      locked := by simp [hbusy]
      lockOn := fun hl => absurd (hnone.2.1.symm.trans hl) Bool.false_ne_true
      lockOff := fun hl => absurd (hnone.2.2.symm.trans hl) Bool.false_ne_true
      receiveOn := fun hd => absurd hd htx } }

/-- A locked part without a frame ends. -/
theorem Inv.unlock (h : s.Inv) (htx : s.driver ≠ .transmitting) :
    ({ s with driver := .idle } : RadioEnergy).releaseLock.Inv := by
  have hhardware := h.flags.hardware
  rw [if_neg htx] at hhardware
  exact inv_releaseLock (h.powered.flags s.xmacIsOn s.radioIsOn s.locked s.lockOn s.lockOff .idle)
    rfl hhardware (fun hl => (h.flags.lockOn hl).2) (fun hl => (h.flags.lockOff hl).2)

/-- A frame starts. -/
theorem Inv.txStart (h : s.Inv) (hsending : s.driver = .sending)
    (hreceive : s.broadcasting = false → s.receiveOn = true) : s.txStart.Inv := by
  have hp := h.powered
  have hhardware : s.hardware = if s.receiveOn then .rx else .off := by
    rw [h.flags.hardware, hsending]
    rfl
  have hlisten : s.listen.mode = s.receiveOn := by
    rw [hp.listenMode, hhardware]
    cases s.receiveOn <;> rfl
  have htransmit : s.transmit.mode = false := by
    rw [hp.transmitMode, hhardware]
    cases s.receiveOn <;> rfl
  have hflags : s.txStart.Flags := {
    hardware := rfl
    locked := by
      show s.locked = true
      rw [h.flags.locked, hsending]
      rfl
    lockOn := h.flags.lockOn
    lockOff := h.flags.lockOff
    receiveOn := fun _ hb => hreceive hb }
  refine ⟨?_, hflags⟩
  cases hr : s.receiveOn with
  | true =>
      rw [hr] at hlisten
      -- The LISTEN account is closed when the receiver was on.
      have heq : s.txStart = { s with
          listen := s.listen.off s.now
          transmit := s.transmit.on s.now
          hardware := .tx
          driver := .transmitting } := by
        simp only [RadioEnergy.txStart, hr, if_true]
      rw [heq]
      exact {
        flush_lt := hp.flush_lt
        flush_le := hp.flush_le
        listenMode := rfl
        transmitMode := rfl
        listenSince := fun hm => nomatch hm
        transmitSince := fun _ => hp.flush_le
        listen := hp.listen.off fun _ => ⟨hlisten, hp.listen_short hlisten⟩
        transmit := hp.transmit.on htransmit
        ticks_le := hp.ticks_le }
  | false =>
      rw [hr] at hlisten
      -- With the receiver off only the TRANSMIT account changes.
      have heq : s.txStart = { s with
          transmit := s.transmit.on s.now
          hardware := .tx
          driver := .transmitting } := by
        simp only [RadioEnergy.txStart, hr, Bool.false_eq_true, if_false]
      rw [heq]
      exact {
        flush_lt := hp.flush_lt
        flush_le := hp.flush_le
        listenMode := hlisten
        transmitMode := rfl
        listenSince := fun hm => absurd (hlisten.symm.trans hm) Bool.false_ne_true
        transmitSince := fun _ => hp.flush_le
        listen := hp.listen
        transmit := hp.transmit.on htransmit
        ticks_le := hp.ticks_le }

/-- A frame ends. With the receiver off, this is a broadcast, and the LISTEN account that is
closed twice will be replaced. -/
theorem Inv.txEnd (h : s.Inv) (htx : s.driver = .transmitting) : s.txEnd.Inv := by
  have hp := h.powered
  have hhardware : s.hardware = .tx := by
    rw [h.flags.hardware, htx]
    rfl
  have hlisten : s.listen.mode = false := by rw [hp.listenMode, hhardware]; rfl
  have htransmit : s.transmit.mode = true := by rw [hp.transmitMode, hhardware]; rfl
  have hclosed := hp.transmit.off fun _ => ⟨htransmit, hp.transmit_short htransmit⟩
  cases hr : s.receiveOn with
  | true =>
      have heq : s.txEnd = releaseLock { s with
          transmit := s.transmit.off s.now
          hardware := .rx
          driver := .idle
          listen := s.listen.on s.now } := by
        simp only [RadioEnergy.txEnd, hr, if_true]
      have hp' : Powered { s with
          transmit := s.transmit.off s.now
          hardware := .rx
          driver := .idle
          listen := s.listen.on s.now } := {
        flush_lt := hp.flush_lt
        flush_le := hp.flush_le
        listenMode := rfl
        transmitMode := rfl
        listenSince := fun _ => hp.flush_le
        transmitSince := fun hm => nomatch hm
        listen := hp.listen.on hlisten
        transmit := hclosed
        ticks_le := hp.ticks_le }
      rw [heq]
      exact inv_releaseLock hp' rfl (by rw [hr]; rfl) (fun hl => (h.flags.lockOn hl).2)
        (fun hl => (h.flags.lockOff hl).2)
  | false =>
      have hbroadcast : s.broadcasting = true := by
        cases hb : s.broadcasting with
        | true => rfl
        | false => exact absurd (hr.symm.trans (h.flags.receiveOn htx hb)) Bool.false_ne_true
      have heq : s.txEnd = releaseLock { s with
          transmit := s.transmit.off s.now
          hardware := .off
          driver := .idle
          receiveOn := false
          listen := s.listen.off s.now } := by
        simp only [RadioEnergy.txEnd, driverOff, hr, Bool.false_eq_true, if_false]
      have hp' : Powered { s with
          transmit := s.transmit.off s.now
          hardware := .off
          driver := .idle
          receiveOn := false
          listen := s.listen.off s.now } := {
        flush_lt := hp.flush_lt
        flush_le := hp.flush_le
        listenMode := rfl
        transmitMode := rfl
        listenSince := fun hm => nomatch hm
        transmitSince := fun hm => nomatch hm
        listen := hp.listen.off fun hb => absurd (hb.symm.trans hbroadcast) Bool.false_ne_true
        transmit := hclosed
        ticks_le := hp.ticks_le }
      rw [heq]
      exact inv_releaseLock hp' rfl rfl (fun _ => rfl) (fun hl => by
        have := (h.flags.lockOff hl).2
        rw [hr] at this
        exact nomatch this)

/-- The strobes of a broadcast begin. -/
theorem Inv.broadcastBegin (h : s.Inv) (hidle : s.driver = .idle)
    (hb : s.broadcasting = false) : s.broadcastBegin.Inv := by
  have hp := h.powered
  have ht := hp.typeTime
  have hlisten := hp.listen
  have htransmit := hp.transmit
  rw [hb] at hlisten htransmit
  exact {
    powered := {
      flush_lt := hp.flush_lt
      flush_le := hp.flush_le
      listenMode := ht.listenMode
      transmitMode := ht.transmitMode
      listenSince := ht.listenSince
      transmitSince := ht.transmitSince
      listen := hlisten.save hp.listen_short
      transmit := htransmit.save hp.transmit_short
      ticks_le := hp.ticks_le }
    flags := ⟨h.flags.hardware, h.flags.locked, h.flags.lockOn, h.flags.lockOff, fun hd => by
      have : s.driver = .transmitting := hd
      rw [hidle] at this
      exact nomatch this⟩ }

/-- The strobes of a broadcast are over, and the accounts are replaced. -/
theorem Inv.broadcastEnd (h : s.Inv) (hidle : s.driver = .idle) (hb : s.broadcasting = true)
    (onTime : UInt16) : (s.broadcastEnd onTime).Inv := by
  have hp := h.powered
  have ht := hp.typeTime
  have hlisten := hp.listen
  have htransmit := hp.transmit
  rw [hb] at hlisten htransmit
  have hlisten' := hlisten.restore onTime s.energestListen
  have htransmit' := htransmit.restore 0 s.energestTransmit
  exact {
    powered := {
      flush_lt := hp.flush_lt
      flush_le := hp.flush_le
      listenMode := ht.listenMode
      transmitMode := ht.transmitMode
      listenSince := ht.listenSince
      transmitSince := ht.transmitSince
      listen := by
        have heq : s.listenTicks + 4 * (s.broadcastUnits + onTime.toNat) =
            s.listenTicks + 4 * s.broadcastUnits + 4 * onTime.toNat := by
          omega
        show Counts _ false s.energestListen s.now
          (s.listenTicks + 4 * (s.broadcastUnits + onTime.toNat))
        rw [heq]
        exact hlisten'
      transmit := by
        have hzero : s.energestTransmit.total + (0 : UInt16).toUInt32 =
            s.energestTransmit.total := UInt32.add_zero _
        rw [hzero] at htransmit'
        exact htransmit'
      ticks_le := hp.ticks_le }
    flags := ⟨h.flags.hardware, h.flags.locked, h.flags.lockOn, h.flags.lockOff, fun hd => by
      have : s.driver = .transmitting := hd
      rw [hidle] at this
      exact nomatch this⟩ }

/-! ### Steps and runs -/

/-- `energest_init`. -/
theorem inv_init (now : Nat) : (init now).Inv where
  powered := {
    flush_lt := Nat.lt_add_of_pos_right (by omega)
    flush_le := Nat.le_refl now
    listenMode := rfl
    transmitMode := rfl
    listenSince := fun h => nomatch h
    transmitSince := fun h => nomatch h
    listen := ⟨Account.ok_init, fun _ => Account.measures_init, fun h => nomatch h⟩
    transmit := ⟨Account.ok_init, fun _ => Account.measures_init, fun h => nomatch h⟩
    ticks_le := by
      show 0 + 0 + now ≤ now
      omega }
  flags := {
    hardware := rfl
    locked := rfl
    lockOn := fun h => nomatch h
    lockOff := fun h => nomatch h
    receiveOn := fun h => nomatch h }

/-- What leaves the flags and the hardware alone. -/
theorem Inv.of_flags {u : RadioEnergy} (h : s.Inv) (hu : u.Powered)
    (hhardware : u.hardware = s.hardware) (hdriver : u.driver = s.driver)
    (hreceive : u.receiveOn = s.receiveOn) (hlocked : u.locked = s.locked)
    (hlockOn : u.lockOn = s.lockOn) (hlockOff : u.lockOff = s.lockOff)
    (hb : u.broadcasting = s.broadcasting) : u.Inv where
  powered := hu
  flags := {
    hardware := by
      rw [hhardware, hdriver, hreceive]
      exact h.flags.hardware
    locked := by
      rw [hlocked, hdriver]
      exact h.flags.locked
    lockOn := by
      rw [hlockOn, hlocked, hreceive]
      exact h.flags.lockOn
    lockOff := by
      rw [hlockOff, hlocked, hreceive]
      exact h.flags.lockOff
    receiveOn := by
      rw [hdriver, hb, hreceive]
      exact h.flags.receiveOn }

/-- A step keeps the invariant when no frame starts with the receiver off. -/
theorem Inv.step {t : RadioEnergy} {a : Action} (h : s.Inv) (hok : s.ReceiverOn a)
    (hst : s.step a = some t) : t.Inv := by
  cases a with
  | tick =>
      obtain ⟨hflush, ⟨⟩⟩ := Option.ite_none_right_eq_some.mp hst
      have ht := h.powered.tick hflush
      by_cases hb : s.broadcasting = true
      · rw [RadioEnergy.tick, if_pos hb] at ht ⊢
        exact h.of_flags ht rfl rfl rfl rfl rfl rfl rfl
      · rw [RadioEnergy.tick, if_neg hb] at ht ⊢
        exact h.of_flags ht rfl rfl rfl rfl rfl rfl rfl
  | flush =>
      cases hst
      have ht := h.powered.typeTime
      refine h.of_flags ?_ rfl rfl rfl rfl rfl rfl rfl
      exact {
        flush_lt := Nat.lt_add_of_pos_right (by omega)
        flush_le := Nat.le_refl s.now
        listenMode := ht.listenMode
        transmitMode := ht.transmitMode
        listenSince := fun hm => Account.le_since_sample hm (Nat.le_refl _)
        transmitSince := fun hm => Account.le_since_sample hm (Nat.le_refl _)
        listen := ht.listen
        transmit := ht.transmit
        ticks_le := ht.ticks_le }
  | typeTime =>
      cases hst
      exact h.of_flags h.powered.typeTime rfl rfl rfl rfl rfl rfl rfl
  | on =>
      cases hst
      exact h.on
  | off =>
      cases hst
      exact h.off
  | turnOn =>
      cases hst
      exact h.xmacFlags true s.radioIsOn
  | turnOff keepRadioOn =>
      cases hst
      exact h.turnOff keepRadioOn
  | send =>
      obtain ⟨hidle, ⟨⟩⟩ := Option.ite_none_right_eq_some.mp hst
      exact h.lock hidle (by decide) (by decide)
  | txStart =>
      obtain ⟨hsending, ⟨⟩⟩ := Option.ite_none_right_eq_some.mp hst
      exact h.txStart hsending hok
  | txEnd =>
      obtain ⟨htx, ⟨⟩⟩ := Option.ite_none_right_eq_some.mp hst
      exact h.txEnd htx
  | txFailed =>
      obtain ⟨hsending, ⟨⟩⟩ := Option.ite_none_right_eq_some.mp hst
      exact h.unlock (by rw [hsending]; decide)
  | read =>
      obtain ⟨hidle, ⟨⟩⟩ := Option.ite_none_right_eq_some.mp hst
      exact h.lock hidle (by decide) (by decide)
  | readEnd =>
      obtain ⟨hreading, ⟨⟩⟩ := Option.ite_none_right_eq_some.mp hst
      exact h.unlock (by rw [hreading]; decide)
  | broadcastBegin =>
      obtain ⟨⟨hidle, hb⟩, ⟨⟩⟩ := Option.ite_none_right_eq_some.mp hst
      exact h.broadcastBegin hidle hb
  | broadcastEnd onTime =>
      obtain ⟨⟨hidle, hb⟩, ⟨⟩⟩ := Option.ite_none_right_eq_some.mp hst
      exact h.broadcastEnd hidle hb onTime

/-- Outside of broadcasts, the accounts measure the radio. -/
theorem Inv.measured (h : s.Inv) (hb : s.broadcasting = false) : s.Measured := by
  have hlisten := h.powered.listen.measures hb
  have htransmit := h.powered.transmit.measures hb
  refine ⟨hlisten, htransmit, ?_⟩
  have hle := h.powered.ticks_le
  have hlistenTotal := Account.total_le hlisten.ok
  have htransmitTotal := Account.total_le htransmit.ok
  have hlistenLe := hlisten.le
  have htransmitLe := htransmit.le
  rw [Account.spent] at hlistenLe htransmitLe
  omega

/-- In every run in which no frame starts while the receiver is off, except in broadcasts, the
accounts measure the radio outside of broadcasts, and a broadcast counts as `on_time` units. -/
theorem measured_of_reachableIf (now : Nat) (s : RadioEnergy) (hb : s.broadcasting = false)
    (h : (radioEnergy now).ReachableIf ReceiverOn s) : s.Measured := by
  have hinv : s.Inv :=
    h.invariant Inv (inv_init now) fun _ _ _ hs hok hst => hs.step hok hst
  exact hinv.measured hb

/-- A duty cycle, and a broadcast of 99 ticks with an on time of 33 ticks: one frame of 30 ticks
and a pause. -/
def broadcastRun : List Action :=
  Action.on :: List.replicate 8 Action.tick ++
    Action.off :: Action.broadcastBegin :: Action.send :: Action.txStart ::
    List.replicate 30 Action.tick ++
    Action.txEnd :: List.replicate 69 Action.tick ++ [Action.broadcastEnd 33]

/-- The receiver is on for 8 ticks. Then a frame has been read, `read_packet` turns the radio off
and sends a `DATA_ACK` of 4 ticks. -/
def dataAckRun : List Action :=
  Action.on :: List.replicate 8 Action.tick ++
    Action.read :: Action.readEnd :: Action.off :: Action.tick :: Action.send :: Action.txStart ::
    List.replicate 4 Action.tick ++ [Action.txEnd]

/-- After a duty cycle and a broadcast the accounts are right. -/
theorem measured_of_reachableIf_broadcast :
    ∃ s, (radioEnergy 0).runIf ReceiverOn (.init 0) broadcastRun = some s ∧ s.Measured := by
  obtain ⟨s, hs⟩ : ∃ s, (radioEnergy 0).runIf ReceiverOn (.init 0) broadcastRun = some s :=
    Option.isSome_iff_exists.mp (by decide +kernel)
  have hb : ((radioEnergy 0).runIf ReceiverOn (.init 0) broadcastRun).map (·.broadcasting) =
      some false := by
    decide +kernel
  rw [hs] at hb
  exact ⟨s, hs, measured_of_reachableIf 0 s (Option.some.inj hb)
    (Machine.reachableIf_of_runIf ReceiverOn _ hs)⟩

/-- No broadcast begins. -/
def NoBroadcast (_ : RadioEnergy) (a : Action) : Prop := a ≠ .broadcastBegin

instance (s : RadioEnergy) (a : Action) : Decidable (s.NoBroadcast a) :=
  inferInstanceAs (Decidable (_ ≠ _))

/-- After a broadcast, TRANSMIT does not hold its frames and LISTEN holds 4 times the on time.
Without a broadcast, a `DATA_ACK` adds the 8 ticks to LISTEN again, and the ticks since. -/
theorem not_measured :
    (¬ ∀ (now : Nat) (s : RadioEnergy), (radioEnergy now).ReachableIf ReceiverOn s →
      s.MeasuredAll) ∧
    ¬ ∀ (now : Nat) (s : RadioEnergy), (radioEnergy now).ReachableIf NoBroadcast s →
      s.MeasuredAll := by
  constructor
  · intro h
    have hend : ((radioEnergy 0).runIf ReceiverOn (.init 0) broadcastRun).map
        (fun s => (s.listen.spent s.now, s.listenTicks + s.broadcastListenTicks)) =
          some (140, 8) := by
      decide +kernel
    obtain ⟨s, hreach, hs⟩ := Machine.exists_reachableIf_of_runIf hend
    simp only [Prod.mk.injEq] at hs
    have hle := (h 0 s hreach).listen.le
    omega
  · intro h
    have hend : ((radioEnergy 0).runIf NoBroadcast (.init 0) dataAckRun).map
        (fun s => (s.listen.spent s.now, s.listenTicks + s.broadcastListenTicks)) =
          some (20, 8) := by
      decide +kernel
    obtain ⟨s, hreach, hs⟩ := Machine.exists_reachableIf_of_runIf hend
    simp only [Prod.mk.injEq] at hs
    have hle := (h 0 s hreach).listen.le
    omega

end PTunes.Mac.RadioEnergy
