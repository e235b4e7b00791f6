import Mathlib.Init
import PTunes.Glossy.SlotLength
import PTunes.Lib.Tally
import PTunes.Proofs.Glossy.FloodData

/-!
# `PTunes.Proofs.Glossy.SlotLength`: the estimate stays within its samples

The window of `glossy_estimate_slot_lengths` is a tally: it is halved when it holds 64 samples, an
even number, so its sum stays that of `win_cnt` samples up to one tick (`Window.add`). The
published slot length is the mean of a full window, or the first sample.

* `within_foldl`: after every sequence of samples, `T_slot_h` is between the least and the greatest
  one, up to one tick, and the sum has room for another sample.
* `estimate_within`: the variables of a node are those after its sequence of measured slot lengths,
  in every run of floods.
-/

set_option autoImplicit false

namespace PTunes.Glossy

open Tally Flood

/-- The estimate stays within the samples. -/
structure SlotWindow.Within (w : SlotWindow) (samples : List UInt16) : Prop where
  /-- `T_slot_h` is at least the least sample, but for one tick. -/
  lower : ∀ lo ∈ (samples.map UInt16.toNat).min?, lo ≤ w.tSlotH.toNat + 1
  upper : ∀ hi ∈ (samples.map UInt16.toNat).max?, w.tSlotH.toNat ≤ hi
  sum_le : ∀ hi ∈ (samples.map UInt16.toNat).max?, w.tSlotHSum.toNat ≤ w.winCnt.toNat * hi
  /-- The sum has room for every further sample. -/
  no_overflow : ∀ x : UInt16, (w.tSlotHSum + x.toUInt32).toNat = w.tSlotHSum.toNat + x.toNat

/-! ### The window -/

/-- The window holds samples between `lo` and `hi`. -/
structure SlotWindow.Inv (lo hi : Nat) (w : SlotWindow) : Prop where
  tally : Between lo hi w.tSlotHSum.toNat w.winCnt.toNat
  lt : w.winCnt.toNat < glossySyncWindow
  published : w.winCnt ≠ 0 → lo ≤ w.tSlotH.toNat + 1 ∧ w.tSlotH.toNat ≤ hi

namespace SlotWindow

variable {lo hi : Nat} {w : SlotWindow} {x : UInt16}

/-- An empty window has no sample, so any bounds are right. -/
theorem inv_zero (lo hi : Nat) : zero.Inv lo hi where
  tally := Between.zero lo hi
  lt := by decide
  published h := absurd rfl h

/-- A window that is not full has room in the sum. -/
theorem Inv.toNat_sum (h : w.Inv lo hi) (hhi : hi ≤ 65535) (x : UInt16) :
    (w.tSlotHSum + x.toUInt32).toNat = w.tSlotHSum.toNat + x.toNat := by
  have hsum : w.tSlotHSum.toNat ≤ 64 * 65535 :=
    Nat.le_trans h.tally.upper (Nat.mul_le_mul (Nat.le_of_lt h.lt) hhi)
  have hx : x.toNat < 65536 := x.toNat_lt
  rw [UInt32.toNat_add, UInt16.toNat_toUInt32]
  omega

/-- The count of a window is small, so it does not wrap when a sample is added. -/
theorem Inv.toNat_winCnt (h : w.Inv lo hi) : (w.winCnt + 1).toNat = w.winCnt.toNat + 1 := by
  have hlt : w.winCnt.toNat < 64 := h.lt
  rw [UInt8.toNat_add, UInt8.toNat_one]
  omega

/-- One more sample. -/
theorem Inv.add (h : w.Inv lo hi) (hhi : hi ≤ 65535) (hlo : lo ≤ x.toNat) (hx : x.toNat ≤ hi) :
    (w.add x).Inv lo hi := by
  have hsum := h.toNat_sum hhi x
  have hwin := h.toNat_winCnt
  have htally := h.tally.add hlo hx
  rw [SlotWindow.add]
  split
  · next hfull =>
      -- The window is full: the mean is published, and the tally is halved.
      rw [hwin] at hfull
      rw [hfull] at htally
      have hmean : lo ≤ (w.tSlotHSum.toNat + x.toNat) / 64 + 1 ∧
          (w.tSlotHSum.toNat + x.toNat) / 64 ≤ hi := htally.mean (by decide)
      have hpublished : ((w.tSlotHSum + x.toUInt32) / 64).toUInt16.toNat =
          (w.tSlotHSum.toNat + x.toNat) / 64 := by
        rw [UInt32.toNat_toUInt16, UInt32.toNat_div, hsum]
        exact Nat.mod_eq_of_lt (Nat.lt_succ_of_le (Nat.le_trans hmean.2 hhi))
      have hhalf : ((w.winCnt + 1) / 2).toNat = 32 := by
        rw [UInt8.toNat_div, hwin, hfull]
        rfl
      refine ⟨?_, ?_, fun _ => ?_⟩
      · rw [hhalf, UInt32.toNat_div, hsum]
        exact (show Between lo hi (w.tSlotHSum.toNat + x.toNat) (2 * 32) from htally).halve
      · rw [hhalf]
        decide
      · rw [hpublished]
        exact hmean
  · next hfull =>
      rw [hwin] at hfull
      refine ⟨?_, ?_, fun _ => ?_⟩
      · rw [hsum, hwin]
        exact htally
      · rw [hwin]
        exact Nat.lt_of_le_of_ne h.lt hfull
      · by_cases hfirst : w.winCnt + 1 = 1
        · rw [if_pos hfirst]
          exact ⟨Nat.le_succ_of_le hlo, hx⟩
        · -- Some sample was published before.
          rw [if_neg hfirst]
          exact h.published fun hzero => hfirst (by rw [hzero]; rfl)

/-- The window after a sequence of samples. -/
theorem inv_foldl (hhi : hi ≤ 65535) {samples : List UInt16}
    (h : ∀ x ∈ samples, lo ≤ x.toNat ∧ x.toNat ≤ hi) (hw : w.Inv lo hi) :
    (samples.foldl SlotWindow.add w).Inv lo hi := by
  induction samples generalizing w with
  | nil => exact hw
  | cons x samples ih =>
      have hx := h x List.mem_cons_self
      exact ih (fun y hy => h y (List.mem_cons_of_mem x hy)) (hw.add hhi hx.1 hx.2)

/-- A sample is counted, and halving leaves some. -/
theorem Inv.winCnt_ne_zero (h : w.Inv lo hi) : (w.add x).winCnt ≠ 0 := by
  have hwin := h.toNat_winCnt
  have hne : ∀ n : UInt8, 0 < n.toNat → n ≠ 0 := by
    rintro n hn rfl
    exact absurd hn (by decide)
  rw [SlotWindow.add]
  split
  · next hfull =>
      apply hne
      rw [UInt8.toNat_div, hfull]
      decide
  · apply hne
    rw [hwin]
    exact Nat.succ_pos _

/-- What holds of every window over samples between two bounds. -/
theorem inv_of_samples {samples : List UInt16} (hhi : hi ≤ 65535)
    (h : ∀ x ∈ samples, lo ≤ x.toNat ∧ x.toNat ≤ hi) :
    (samples.foldl SlotWindow.add zero).Inv lo hi ∧
      (samples ≠ [] → (samples.foldl SlotWindow.add zero).winCnt ≠ 0) := by
  refine ⟨inv_foldl hhi h (inv_zero lo hi), fun hne => ?_⟩
  obtain ⟨front, x, rfl⟩ := List.eq_nil_or_concat samples |>.resolve_left hne
  rw [List.concat_eq_append, List.foldl_append]
  refine (inv_foldl hhi (fun y hy => h y ?_) (inv_zero lo hi)).winCnt_ne_zero
  rw [List.concat_eq_append]
  exact List.mem_append_left _ hy

/-- After every sequence of samples the estimate stays within them. -/
theorem within_foldl (samples : List UInt16) :
    (samples.foldl SlotWindow.add zero).Within samples := by
  -- A bound of the samples that is one of them.
  have hbounds : ∀ lo ∈ (samples.map UInt16.toNat).min?, ∀ hi ∈ (samples.map UInt16.toNat).max?,
      hi ≤ 65535 ∧ samples ≠ [] ∧ ∀ x ∈ samples, lo ≤ x.toNat ∧ x.toNat ≤ hi := by
    intro lo hlo hi hhi
    obtain ⟨hmem, hle⟩ := List.max?_eq_some_iff.mp hhi
    obtain ⟨_, hge⟩ := List.min?_eq_some_iff.mp hlo
    obtain ⟨y, hy, rfl⟩ := List.mem_map.mp hmem
    have hy16 := y.toNat_lt
    refine ⟨by omega, List.ne_nil_of_mem hy, fun x hx => ?_⟩
    have hx' := List.mem_map_of_mem (f := UInt16.toNat) hx
    exact ⟨hge _ hx', hle _ hx'⟩
  have hfit : (samples.foldl add zero).Inv 0 65535 := by
    refine (inv_of_samples (Nat.le_refl _) fun y _ => ?_).1
    have hy16 := y.toNat_lt
    omega
  rcases samples.eq_nil_or_concat with rfl | ⟨front, x, heq⟩
  · exact ⟨by simp, by simp, by simp, hfit.toNat_sum (Nat.le_refl _)⟩
  · have hne : samples.map UInt16.toNat ≠ [] := by simp [heq]
    obtain ⟨lo, hlo⟩ := Option.isSome_iff_exists.mp (List.isSome_min?_of_ne_nil hne)
    obtain ⟨hi, hhi⟩ := Option.isSome_iff_exists.mp (List.isSome_max?_of_ne_nil hne)
    obtain ⟨hle, hsome, hall⟩ := hbounds lo hlo hi hhi
    obtain ⟨hinv, hcount⟩ := inv_of_samples hle hall
    have hpublished := hinv.published (hcount hsome)
    refine ⟨fun lo' h => ?_, fun hi' h => ?_, fun hi' h => ?_,
      hfit.toNat_sum (Nat.le_refl _)⟩
    · obtain rfl := Option.mem_unique hlo h
      exact hpublished.1
    · obtain rfl := Option.mem_unique hhi h
      exact hpublished.2
    · obtain rfl := Option.mem_unique hhi h
      exact hinv.tally.upper

end SlotWindow

/-! ### The floods -/

/-- The function adds the slot length that it measures. -/
theorem window_glossyEstimateSlotLengths (s : Flood) (tRxStopTmp : UInt16) :
    (s.glossyEstimateSlotLengths tRxStopTmp).window =
      (s.slotLength tRxStopTmp).toList.foldl SlotWindow.add s.window := by
  rw [glossyEstimateSlotLengths, slotLength]
  split
  · simp only [Option.toList_some, List.foldl_cons, List.foldl_nil, SlotWindow.add, window]
    split <;> rfl
  · rfl

/-- The end of a reception. -/
theorem window_glossyEndRx (C : FloodConf) (s : Flood) (i : Interrupt) :
    (s.glossyEndRx C i).window =
      (if i.crcOk && (C.sync && (countPacket C s i.fifo).packet.slot < 200) then
        (countPacket C s i.fifo).slotLength i.tbccr1 else none).toList.foldl
          SlotWindow.add s.window := by
  rw [glossyEndRx]
  cases i.crcOk with
  | false => rfl
  | true =>
      rw [if_pos rfl, Bool.true_and]
      -- What follows the estimate does not change its variables.
      show (if C.sync && (countPacket C s i.fifo).packet.slot < 200 then
        (countPacket C s i.fifo).glossyEstimateSlotLengths i.tbccr1
          else countPacket C s i.fifo).window = _
      split
      · exact window_glossyEstimateSlotLengths _ _
      · rfl

/-- An interrupt adds the slot length that it measures. -/
theorem window_timerb1Interrupt (C : FloodConf) (s : Flood) (i : Interrupt) :
    (s.timerb1Interrupt C i).window = (s.measures C i).toList.foldl SlotWindow.add s.window := by
  rw [timerb1Interrupt, measures]
  cases dispatch s i with
  | endRx => exact window_glossyEndRx C s i
  | beginRx =>
      simp only [glossyBeginRx]
      split <;> rfl
  | beginTx =>
      simp only [glossyBeginTx]
      split <;> rfl
  | initiatorTimeout =>
      simp only [initiatorTimeout]
      split <;> rfl
  | endTx | afterAbort | flush | notGlossy => rfl

/-- A step of a flood adds the slot length that it measures. -/
theorem window_floodStep {C : FloodConf} {start : Flood} {r r' : FloodRun} {a : FloodAction}
    (hst : (floodMachine C start).step r a = some r') :
    r'.flood.window = (r.measures C a).toList.foldl SlotWindow.add r.flood.window := by
  cases a with
  | interrupt i =>
      obtain ⟨_, ⟨⟩⟩ := Option.ite_none_right_eq_some.mp hst
      exact window_timerb1Interrupt C r.flood i
  | rxTimeout =>
      cases hst
      rfl
  | stop =>
      cases hst
      rfl

/-- The variables of a node are those after the slot lengths that it has measured. -/
theorem window_of_reachable {C : FloodConf} {memory : Flood} {n : SlotNode}
    (h : (slotMachine C memory).Reachable n) :
    n.run.flood.window = n.lengths.foldl SlotWindow.add .zero := by
  refine h.invariant (fun n => n.run.flood.window = n.lengths.foldl SlotWindow.add .zero) rfl ?_
  intro n a n' hn hst
  cases a with
  | start C data memory now =>
      cases hst
      exact hn
  | flood a =>
      obtain ⟨r, hr, rfl⟩ := Option.map_eq_some_iff.mp hst
      show r.flood.window = (n.lengths ++ (n.run.measures n.conf a).toList).foldl _ _
      rw [window_floodStep hr, hn, List.foldl_append]

/-- After every sequence of samples, the published slot length is between the least and the
greatest sample, up to one tick, and the sum is at most `win_cnt` times the greatest one, so it
does not overflow. In every run of floods, the variables of a node are those after the sequence
of slot lengths that it has measured since start-up. -/
theorem estimate_within :
    (∀ samples : List UInt16, (samples.foldl SlotWindow.add .zero).Within samples) ∧
    ∀ (C : FloodConf) (memory : Flood) (n : SlotNode), (slotMachine C memory).Reachable n →
      n.run.flood.window = n.lengths.foldl SlotWindow.add .zero ∧
      n.run.flood.window.Within n.lengths := by
  refine ⟨SlotWindow.within_foldl, fun C memory n h => ?_⟩
  rw [window_of_reachable h]
  exact ⟨rfl, SlotWindow.within_foldl n.lengths⟩

/-- An interrupt at an edge of SFD, while a packet with the slot `slot` is in the RXFIFO. -/
def slotEdge (sfd : Bool) (tbccr1 : UInt16) (slot : UInt8) : Interrupt where
  sinceSfd := 21
  sfd := sfd
  tbiv := .tbccr1
  tbccr1 := tbccr1
  now := 0
  fifoTimeout := false
  fifo := ⟨5, glossyHeader, [7], slot⟩
  crcOk := true
  capH := 0
  capL := 0

/-- A receiver relays a packet and receives it again. Both slots together have 4000 ticks. -/
theorem estimate_within_relay :
    ∃ n, (slotMachine ⟨false, true, 3, 1⟩ zeroFlood).Reachable n ∧ n.lengths = [2000] ∧
      n.run.flood.window = ⟨2000, 2000, 1⟩ ∧ n.run.flood.window.Within [2000] := by
  have hend : ((slotMachine ⟨false, true, 3, 1⟩ zeroFlood).run
      [.start ⟨false, true, 3, 1⟩ [0] ⟨0, 0, [], 0⟩ 0,
        .flood (.interrupt (slotEdge true 1000 0)), .flood (.interrupt (slotEdge false 2900 0)),
        .flood (.interrupt (slotEdge true 3000 0)), .flood (.interrupt (slotEdge false 4900 0)),
        .flood (.interrupt (slotEdge true 5000 2)),
        .flood (.interrupt (slotEdge false 6900 2))]).map (·.lengths) = some [2000] := by
    decide +kernel
  obtain ⟨n, hn, hlengths⟩ := Machine.exists_reachable_of_run hend
  obtain ⟨hwindow, hwithin⟩ := estimate_within.2 _ _ n hn
  rw [hlengths] at hwindow hwithin
  exact ⟨n, hn, hlengths, hwindow, hwithin⟩

end PTunes.Glossy
