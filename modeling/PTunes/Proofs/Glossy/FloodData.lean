import PTunes.Glossy.Flood

/-!
# `PTunes.Proofs.Glossy.FloodData`: what a reception says about the data

`glossy_end_rx` counts a packet, and `glossy_begin_tx` copies the data of the first one to the
caller's buffer when its relay begins. When something comes in between, the buffer keeps its
old contents for the rest of the flood, and `glossy_stop` still returns the count
(`not_forall_holdsReceived`). In the floods where the relay of the first packet begins before
anything else happens, a count that is not zero means that the buffer holds a packet of this
flood (`holdsReceived_of_reachableIf`).

The invariant `ReceiverInv`: the buffer holds a packet once the count is not zero, unless the
first packet has just been received.
-/

set_option autoImplicit false

namespace PTunes.Glossy

open Flood

/-- When `glossy_stop` has returned a count that is not zero, the caller's buffer holds the
payload of a packet whose CRC was right. -/
def HoldsReceived (r : FloodRun) : Prop :=
  ∀ rxCnt, r.stopped = some rxCnt → 0 < rxCnt → r.flood.data ∈ r.flood.received

/-- The first packet has just been received. -/
def Flood.atFirst (s : Flood) : Bool := s.status == .received && s.rxCnt == 1

/-- Right after the first packet comes the rising edge of SFD, the beginning of its relay. -/
def RelaysFirst (r : FloodRun) : FloodAction → Prop
  | .interrupt i => r.flood.atFirst = true → i.sfd = true
  | .stop => r.flood.atFirst = false
  | .rxTimeout => True

instance (r : FloodRun) (a : FloodAction) : Decidable (RelaysFirst r a) :=
  match a with
  | .interrupt _ => inferInstanceAs (Decidable (_ → _))
  | .stop => inferInstanceAs (Decidable (_ = _))
  | .rxTimeout => inferInstanceAs (Decidable True)

/-! ### The invariant -/

/-- The invariant of a receiver. -/
structure ReceiverInv (C : FloodConf) (s : Flood) : Prop where
  timeout : s.tbcctl4 = false
  left : s.status ≠ .off → s.txCnt.toNat < C.txMax.toNat
  packet : s.status = .received → s.packet.data ∈ s.received
  data : s.rxCnt ≠ 0 → s.atFirst = false → s.data ∈ s.received

/-- A receiver after `glossy_start`: it has received nothing, and its first packet will be relayed
since `txMax` is not 0. -/
theorem receiverInv_start {C : FloodConf} (hC : C.initiator = false) (hmax : C.txMax ≠ 0)
    (before : Flood) (data : List UInt8) (memory : Packet) (now : UInt16) :
    ReceiverInv C (before.glossyStart C data memory now) where
  timeout := hC
  left _ := by
    have hne : C.txMax.toNat ≠ 0 := fun h => hmax (UInt8.toNat_inj.mp h)
    show 0 < C.txMax.toNat
    omega
  packet h := by simp [glossyStart, hC] at h
  data h := absurd rfl h

/-- The invariant in a status in which nothing is relayed. -/
theorem ReceiverInv.of_status {C : FloodConf} {s t : Flood} (h : ReceiverInv C s)
    (hfirst : s.atFirst = false) (hdata : t.data = s.data) (hreceived : t.received = s.received)
    (hrx : t.rxCnt = s.rxCnt) (htimeout : t.tbcctl4 = s.tbcctl4) (hstatus : t.status ≠ .received)
    (hleft : t.status ≠ .off → t.txCnt.toNat < C.txMax.toNat) : ReceiverInv C t where
  timeout := by rw [htimeout, h.timeout]
  left := hleft
  packet hr := absurd hr hstatus
  data hne _ := by
    rw [hdata, hreceived]
    rw [hrx] at hne
    exact h.data hne hfirst

/-- The first packet is not just received in another status. -/
theorem atFirst_of_status {s : Flood} (h : s.status ≠ .received) : s.atFirst = false := by
  simp [atFirst, h]

/-! ### The handlers -/

/-- What each decision of `timerb1_interrupt` says about the status and the SFD pin. -/
theorem dispatch_spec (s : Flood) (i : Interrupt) :
    match dispatch s i with
    | .endRx => s.status = .receiving
    | .beginRx => s.status = .waiting
    | .beginTx => s.status = .received
    | .endTx => s.status = .transmitting
    | .afterAbort => s.status = .aborted
    | .initiatorTimeout => s.status = .waiting ∧ i.tbiv = .tbccr4
    | .flush => s.status ≠ .off ∧ (s.status = .received → i.sfd = false)
    | .notGlossy => s.status = .off := by
  cases hstatus : s.status <;> cases hsfd : i.sfd <;> simp only [dispatch, hstatus, hsfd]
  case receiving.false => by_cases h : tIrq i ≤ 8 <;> simp [h]
  case waiting.false => by_cases h : i.tbiv = .tbccr4 <;> simp [h]
  all_goals simp

/-- `glossy_estimate_slot_lengths` touches its own estimate alone. -/
theorem glossyEstimateSlotLengths_eq (s : Flood) (tRxStopTmp : UInt16) :
    ∃ tSlotH tSlotHSum winCnt, glossyEstimateSlotLengths s tRxStopTmp =
      { s with tSlotH := tSlotH, tSlotHSum := tSlotHSum, winCnt := winCnt } := by
  simp only [glossyEstimateSlotLengths]
  split
  · split <;> exact ⟨_, _, _, rfl⟩
  · exact ⟨_, _, _, rfl⟩

/-- `glossy_end_rx` of a packet whose CRC is right. -/
theorem glossyEndRx_ok (C : FloodConf) (s : Flood) {i : Interrupt} (hcrc : i.crcOk = true) :
    ∃ tSlotH tSlotHSum winCnt, glossyEndRx C s i =
      { countPacket C s i.fifo with
        tSlotH := tSlotH
        tSlotHSum := tSlotHSum
        winCnt := winCnt
        tRxStop := i.tbccr1
        tbcctl4 := if C.initiator then false else s.tbcctl4 } := by
  simp only [glossyEndRx, hcrc, if_true]
  split
  · obtain ⟨tSlotH, tSlotHSum, winCnt, heq⟩ :=
      glossyEstimateSlotLengths_eq (countPacket C s i.fifo) i.tbccr1
    rw [heq]
    exact ⟨tSlotH, tSlotHSum, winCnt, rfl⟩
  · exact ⟨_, _, _, rfl⟩

/-- `glossy_begin_tx`, apart from the reference point. -/
theorem glossyBeginTx_eq (C : FloodConf) (s : Flood) (i : Interrupt) :
    ∃ tRefL tOffsetH slot tRefLUpdated, glossyBeginTx C s i =
      { startTx C s i.tbccr1 with
        tRefL := tRefL, tOffsetH := tOffsetH, slot := slot, tRefLUpdated := tRefLUpdated } := by
  simp only [glossyBeginTx]
  split <;> exact ⟨_, _, _, _, rfl⟩

/-- `radio_abort_rx` leaves a status apart from `RECEIVING` as it is. -/
theorem radioAbortRx_of_ne {s : Flood} (h : s.status ≠ .receiving) :
    radioAbortRx s = { s with tacctl2 := false } := by
  simp only [radioAbortRx, if_neg h]

/-- `radio_abort_rx`. -/
theorem ReceiverInv.radioAbortRx {C : FloodConf} {s : Flood} (h : ReceiverInv C s) :
    ReceiverInv C (radioAbortRx s) := by
  by_cases hstatus : s.status = .receiving
  · have hleft := h.left (by rw [hstatus]; decide)
    exact h.of_status (atFirst_of_status (by rw [hstatus]; decide)) rfl rfl rfl rfl
      (by simp [Flood.radioAbortRx, hstatus]) fun _ => hleft
  · rw [radioAbortRx_of_ne hstatus]
    exact ⟨h.timeout, h.left, h.packet, h.data⟩

/-- `glossy_begin_rx`. -/
theorem ReceiverInv.beginRx {C : FloodConf} {s : Flood} (h : ReceiverInv C s)
    (hstatus : s.status = .waiting) (i : Interrupt) : ReceiverInv C (glossyBeginRx C s i) := by
  have hfirst : s.atFirst = false := atFirst_of_status (by rw [hstatus]; decide)
  have hleft := h.left (by rw [hstatus]; decide)
  simp only [glossyBeginRx]
  split
  · exact h.of_status hfirst rfl rfl rfl rfl (by simp [Flood.radioAbortRx]) fun _ => hleft
  · exact h.of_status hfirst rfl rfl rfl rfl (fun heq => nomatch heq) fun _ => hleft

/-- `glossy_end_rx`. The first packet waits for its relay, and a later one finds a packet in
the buffer. -/
theorem ReceiverInv.endRx {C : FloodConf} (hC : C.initiator = false) {s : Flood}
    (h : ReceiverInv C s) (hstatus : s.status = .receiving) (i : Interrupt) :
    ReceiverInv C (glossyEndRx C s i) := by
  have hfirst : s.atFirst = false := atFirst_of_status (by rw [hstatus]; decide)
  have hleft := h.left (by rw [hstatus]; decide)
  cases hcrc : i.crcOk with
  | false =>
      simp only [glossyEndRx, hcrc]
      exact h.of_status hfirst rfl rfl rfl rfl (fun heq => nomatch heq) fun _ => hleft
  | true =>
      obtain ⟨tSlotH, tSlotHSum, winCnt, heq⟩ := glossyEndRx_ok C s hcrc
      rw [heq]
      have hne : s.txCnt ≠ C.txMax := fun heq => by
        rw [heq] at hleft
        omega
      constructor
      case timeout => simp [hC, h.timeout]
      case left => exact fun _ => hleft
      case packet =>
        intro _
        simp [countPacket]
      case data =>
        intro hcount hlater
        simp only [atFirst, countPacket, if_neg hne] at hlater
        -- It is not the first packet, so the count was not zero before.
        have hone : s.rxCnt + 1 ≠ 1 := by simpa using hlater
        have hzero : s.rxCnt ≠ 0 := fun h0 => hone (by rw [h0]; rfl)
        exact List.mem_append_left _ (h.data hzero hfirst)

/-- `glossy_begin_tx`: the first packet goes to the caller. -/
theorem ReceiverInv.beginTx {C : FloodConf} (hC : C.initiator = false) {s : Flood}
    (h : ReceiverInv C s) (hstatus : s.status = .received) (i : Interrupt) :
    ReceiverInv C (glossyBeginTx C s i) := by
  have hleft := h.left (by rw [hstatus]; decide)
  obtain ⟨tRefL, tOffsetH, slot, tRefLUpdated, heq⟩ := glossyBeginTx_eq C s i
  rw [heq]
  constructor
  case timeout => exact h.timeout
  case left => exact fun _ => hleft
  case packet => exact fun heq => nomatch heq
  case data =>
    intro hcount _
    by_cases hone : s.rxCnt = 1
    · simpa [startTx, hC, hone] using h.packet hstatus
    · have hlater : s.atFirst = false := by simp [atFirst, hone]
      simpa [startTx, hone] using h.data hcount hlater

/-- `glossy_end_tx`: Glossy is off after the last transmission. -/
theorem ReceiverInv.endTx {C : FloodConf} (hC : C.initiator = false) {s : Flood}
    (h : ReceiverInv C s) (hstatus : s.status = .transmitting) (i : Interrupt) :
    ReceiverInv C (glossyEndTx C s i) := by
  have hfirst : s.atFirst = false := atFirst_of_status (by rw [hstatus]; decide)
  have hleft := h.left (by rw [hstatus]; decide)
  have hmax : 0 < C.txMax.toNat := by omega
  refine @ReceiverInv.of_status C s (glossyEndTx C s i) h hfirst rfl rfl rfl rfl ?_ ?_
  · show (if _ then FloodStatus.off else .waiting) ≠ .received
    split <;> decide
  · intro hon
    have hnext : s.txCnt + 1 ≠ C.txMax := by
      intro heq
      apply hon
      show (if _ then FloodStatus.off else .waiting) = .off
      rw [if_pos ⟨heq, .inr (by rw [hC]; exact hmax)⟩]
    have hne : (s.txCnt + 1).toNat ≠ C.txMax.toNat := fun heq => hnext (UInt8.toNat_inj.mp heq)
    have hlt := C.txMax.toNat_lt
    show (s.txCnt + 1).toNat < C.txMax.toNat
    rw [UInt8.toNat_add, show (1 : UInt8).toNat = 1 from rfl] at hne ⊢
    omega

/-- The handler keeps the invariant when nothing comes between the first packet and its
relay. -/
theorem ReceiverInv.timerb1Interrupt {C : FloodConf} (hC : C.initiator = false) {s : Flood}
    (h : ReceiverInv C s) {i : Interrupt} (hmay : s.mayInterrupt i = true)
    (hrelay : s.atFirst = true → i.sfd = true) : ReceiverInv C (timerb1Interrupt C s i) := by
  have hspec := dispatch_spec s i
  unfold Flood.timerb1Interrupt
  cases hevent : dispatch s i with
  | endRx =>
      rw [hevent] at hspec
      exact h.endRx hC hspec i
  | beginRx =>
      rw [hevent] at hspec
      exact h.beginRx hspec i
  | beginTx =>
      rw [hevent] at hspec
      exact h.beginTx hC hspec i
  | endTx =>
      rw [hevent] at hspec
      exact h.endTx hC hspec i
  | initiatorTimeout =>
      -- A receiver has no initiator timeout.
      rw [hevent] at hspec
      simp [mayInterrupt, hspec.2, h.timeout] at hmay
  | afterAbort =>
      rw [hevent] at hspec
      have hleft := h.left (by rw [hspec]; decide)
      exact h.of_status (atFirst_of_status (by rw [hspec]; decide)) rfl rfl rfl rfl
        (fun heq => nomatch heq) fun _ => hleft
  | flush =>
      rw [hevent] at hspec
      have hleft := h.left hspec.1
      have hfirst : s.atFirst = false := by
        cases hat : s.atFirst with
        | false => rfl
        | true =>
            have hstatus : s.status = .received := by
              simp only [atFirst, Bool.and_eq_true, beq_iff_eq] at hat
              exact hat.1
            rw [hspec.2 hstatus] at hrelay
            exact Bool.noConfusion (hrelay hat)
      exact h.of_status hfirst rfl rfl rfl rfl (fun heq => nomatch heq) fun _ => hleft
  | notGlossy => exact h

/-! ### The main result -/

/-- The invariant of a run. After `glossy_stop` the count stays, and Glossy is off. -/
structure FloodRunInv (C : FloodConf) (r : FloodRun) : Prop where
  flood : ReceiverInv C r.flood
  stopped : ∀ rxCnt, r.stopped = some rxCnt → r.flood.rxCnt = rxCnt ∧ r.flood.status = .off

/-- What the invariant is for. -/
theorem FloodRunInv.holdsReceived {C : FloodConf} {r : FloodRun} (h : FloodRunInv C r) :
    HoldsReceived r := by
  intro rxCnt hstopped hpos
  obtain ⟨hcount, hstatus⟩ := h.stopped rxCnt hstopped
  have hne : r.flood.rxCnt ≠ 0 := by
    rw [hcount]
    rintro rfl
    exact absurd hpos (by decide)
  exact h.flood.data hne (atFirst_of_status (by rw [hstatus]; decide))

/-- A step in which nothing comes between the first packet and its relay keeps the
invariant. -/
theorem FloodRunInv.step {C : FloodConf} {start : Flood} (hC : C.initiator = false)
    {r t : FloodRun} {a : FloodAction} (h : FloodRunInv C r) (hrelay : RelaysFirst r a)
    (hst : (floodMachine C start).step r a = some t) : FloodRunInv C t := by
  cases a with
  | interrupt i =>
      obtain ⟨hmay, ⟨⟩⟩ := Option.ite_none_right_eq_some.mp hst
      refine ⟨h.flood.timerb1Interrupt hC hmay hrelay, fun rxCnt hstopped => ?_⟩
      obtain ⟨hcount, hstatus⟩ := h.stopped rxCnt hstopped
      -- The interrupts of a flood that is over belong to the MAC.
      have hover : timerb1Interrupt C r.flood i = r.flood := by
        simp only [timerb1Interrupt, dispatch, hstatus]
      show (timerb1Interrupt C r.flood i).rxCnt = rxCnt ∧ _
      rw [hover]
      exact ⟨hcount, hstatus⟩
  | rxTimeout =>
      cases hst
      refine ⟨h.flood.radioAbortRx, fun rxCnt hstopped => ?_⟩
      obtain ⟨hcount, hstatus⟩ := h.stopped rxCnt hstopped
      rw [radioAbortRx_of_ne (by rw [hstatus]; decide)]
      exact ⟨hcount, hstatus⟩
  | stop =>
      cases hst
      refine ⟨?_, fun rxCnt hstopped => ⟨Option.some.inj hstopped, rfl⟩⟩
      exact ⟨rfl, fun hon => absurd rfl hon, (fun hreceived => nomatch hreceived),
        fun hne _ => h.flood.data hne hrelay⟩

/-- In the floods at a receiver in which the relay of the first packet begins before anything
else happens, a count that is not zero means that the caller has a packet of this flood. -/
theorem holdsReceived_of_reachableIf {C : FloodConf} (hC : C.initiator = false)
    (hmax : C.txMax ≠ 0) {before : Flood} {data : List UInt8} {memory : Packet} {now : UInt16}
    {r : FloodRun}
    (h : (floodMachine C (before.glossyStart C data memory now)).ReachableIf RelaysFirst r) :
    HoldsReceived r := by
  refine (Machine.ReachableIf.invariant (FloodRunInv C) ?_ ?_ h).holdsReceived
  · exact ⟨receiverInv_start hC hmax before data memory now, fun rxCnt h => nomatch h⟩
  · exact fun r a t hr ha hst => hr.step hC ha hst

/-! ### A flood that ends too early -/

/-- A flood of reports at a receiver: three transmissions, and six bytes of data. -/
def reportConf : FloodConf := ⟨false, false, 3, 6⟩

/-- Variables of zeroed memory. -/
def zeroFlood : Flood where
  status := .off
  data := []
  packet := ⟨0, 0, [], 0⟩
  rxCnt := 0
  txCnt := 0
  txSlotLast := 0
  tbcctl4 := false
  tacctl2 := false
  tRxStart := 0
  tRxStop := 0
  tTxStart := 0
  tTxStop := 0
  tFirstRx := 0
  timeToFirstRx := 0
  tSlotH := 0
  tSlotHSum := 0
  winCnt := 0
  tRefL := 0
  tOffsetH := 0
  slot := 0
  tRefLUpdated := false
  received := []

/-- A receiver whose buffer holds an old report. -/
def reportStart : Flood :=
  zeroFlood.glossyStart reportConf [9, 9, 9, 9, 9, 9] ⟨0, 0, [], 0⟩ 100

/-- An interrupt at an edge of SFD while a report is in the RXFIFO. -/
def reportEdge (sfd : Bool) : Interrupt where
  sinceSfd := 21
  sfd := sfd
  tbiv := .tbccr1
  tbccr1 := 1000
  now := 120
  fifoTimeout := false
  fifo := ⟨9, glossyHeader, [1, 2, 3, 4, 5, 6], 0⟩
  crcOk := true
  capH := 0
  capL := 0

/-- A report is received and relayed, and the flood ends after that. -/
theorem holdsReceived_of_reachableIf_sample :
    ∃ r, (floodMachine reportConf reportStart).ReachableIf RelaysFirst r ∧ HoldsReceived r ∧
      r.stopped = some 1 ∧ r.flood.data = [1, 2, 3, 4, 5, 6] := by
  let run : List FloodAction :=
    [.interrupt (reportEdge true), .interrupt (reportEdge false), .interrupt (reportEdge true),
      .interrupt (reportEdge false), .stop]
  have hend : ((floodMachine reportConf reportStart).runIf RelaysFirst
      ⟨reportStart, none⟩ run).map (fun r => (r.stopped, r.flood.data)) =
      some (some 1, [1, 2, 3, 4, 5, 6]) := by decide
  obtain ⟨r, hreach, hr⟩ := Machine.exists_reachableIf_of_runIf hend
  simp only [Prod.mk.injEq] at hr
  exact ⟨r, hreach, holdsReceived_of_reachableIf rfl (by decide) hreach, hr.1, hr.2⟩

/-- `glossy_stop` comes after the end of the first reception and before its relay: it returns
1, and the buffer holds the old report. -/
theorem not_forall_holdsReceived :
    ¬ ∀ (C : FloodConf) (before : Flood) (data : List UInt8) (memory : Packet) (now : UInt16)
      (r : FloodRun), C.initiator = false → C.txMax ≠ 0 →
      (floodMachine C (before.glossyStart C data memory now)).Reachable r → HoldsReceived r := by
  intro hall
  let run : List FloodAction :=
    [.interrupt (reportEdge true), .interrupt (reportEdge false), .stop]
  have hend : ((floodMachine reportConf reportStart).run run).map
      (fun r => (r.stopped, decide (r.flood.data ∈ r.flood.received))) =
      some (some 1, false) := by decide
  obtain ⟨r, hreach, hr⟩ := Machine.exists_reachable_of_run hend
  simp only [Prod.mk.injEq, decide_eq_false_iff_not] at hr
  exact hr.2 (hall reportConf zeroFlood _ _ _ r rfl (by decide) hreach 1 hr.1 (by decide))

end PTunes.Glossy
