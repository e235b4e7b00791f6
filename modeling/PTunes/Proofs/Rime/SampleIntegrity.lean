import PTunes.Rime.FtspNode

/-!
# `PTunes.Proofs.Rime.SampleIntegrity`: samples of the clock

`process_msg` writes what is in `msg_rcv` (`processMsg_spec`). The record is that of one received
beacon when two things hold. No other beacon was handed to `ftsp_recv` in between, since its copy
into the record does not wait for `STATE_PROCESSING`. And no interrupt came between the one of
the beacon and its `ftsp_recv`, since `ftsp_arrival_time` is that of the last interrupt.

* `sampleIntegrity`: in every run in which this is so, every entry and the root and the sequence
  number that come with it are those of one received beacon.
* `not_forall_sampleIntegrity`: a second beacon arrives while the first one waits for the timer.
  The entry gets the arrival time of the first and the global time of the second.
-/

set_option autoImplicit false

namespace PTunes.Rime

variable {φ : Type} (C : FtspConf)

namespace Ftsp

/-- The sending process leaves the record and its flag. -/
theorem sendReady_frame (sent : Bool) (s : Ftsp φ) :
    (s.sendReady C sent).msgRcv = s.msgRcv ∧ (s.sendReady C sent).processing = s.processing := by
  simp only [sendReady]
  split_ifs <;> exact ⟨rfl, rfl⟩

/-- A beacon with a time fills the record while the flag is clear. -/
theorem ftspRecv_taken (arrivalTime : UInt32) {b : FtspBeacon} {s : Ftsp φ} {g : UInt32}
    (hg : b.globalTime = some g) (hclear : s.processing = false) :
    ftspRecv arrivalTime b s =
      ({ s with
          msgRcv := ⟨b.rootId, b.nodeId, g, arrivalTime, b.epacketId⟩
          processing := true }, true) := by
  simp [ftspRecv, copyto, hg, hclear]

/-- Any other beacon posts nothing, and leaves the flag. -/
theorem ftspRecv_ignored (arrivalTime : UInt32) {b : FtspBeacon} {s : Ftsp φ}
    (h : b.globalTime = none ∨ s.processing = true) :
    (ftspRecv arrivalTime b s).2 = false ∧
      (ftspRecv arrivalTime b s).1.processing = s.processing := by
  rcases h with h | h <;> simp [ftspRecv, h]

section

variable [SkewFloat φ]

/-- So does `msg_send`. -/
theorem msgSend_frame (now : UInt32) (s : Ftsp φ) :
    (s.msgSend C now).1.msgRcv = s.msgRcv ∧ (s.msgSend C now).1.processing = s.processing := by
  simp only [msgSend]
  split_ifs <;> exact ⟨rfl, rfl⟩

/-! ### What `process_msg` keeps and writes -/

/-- The count of errors leaves the record and what belongs to the root. -/
theorem noteError_frame (s : Ftsp φ) :
    (s.noteError C).msgRcv = s.msgRcv ∧ (s.noteError C).msg = s.msg ∧
      (s.noteError C).seqNum = s.seqNum := by
  simp only [noteError, clearTable]
  split_ifs <;> exact ⟨rfl, rfl, rfl⟩

/-- The regression writes neither the table nor what belongs to the root. -/
theorem calculateConversion_frame (s : Ftsp φ) :
    s.calculateConversion.table = s.table ∧ s.calculateConversion.msg = s.msg ∧
      s.calculateConversion.seqNum = s.seqNum := by
  unfold calculateConversion
  split <;> exact ⟨rfl, rfl, rfl⟩

/-- The entry that a record gives. -/
def itemOf (r : FtspMessageRcv) : TableItem :=
  ⟨.full, r.localTime, (r.globalTime - r.localTime).toInt32⟩

/-- The new entry is that of the record. -/
theorem addNewEntry_table (s : Ftsp φ) :
    (s.addNewEntry C).1.table[(s.addNewEntry C).2] = itemOf s.msgRcv := by
  simp [addNewEntry, itemOf, noteError_frame]

/-- A beacon that is new is written, with the root and the sequence number of the node. -/
theorem acceptMsg_spec (s : Ftsp φ) :
    ∃ i, (acceptMsg C s).2 = some i ∧
      FtspNode.recordOf (acceptMsg C s).1 i = ⟨s.msg.rootId, s.seqNum, itemOf s.msgRcv⟩ := by
  -- The counter of beats is set or not, which the entry does not see.
  generalize ht : (if s.msg.rootId < C.nodeId then { s with heartBeats := 0 } else s) = t
  have hmsg : t.msg = s.msg ∧ t.seqNum = s.seqNum ∧ t.msgRcv = s.msgRcv := by
    rw [← ht]
    split_ifs <;> exact ⟨rfl, rfl, rfl⟩
  have hframe := calculateConversion_frame (t.addNewEntry C).1
  have hrecord : ∀ (x : Ftsp φ) (i : Fin 8),
      FtspNode.recordOf x i = ⟨x.msg.rootId, x.seqNum, x.table[i]⟩ := fun _ _ => rfl
  refine ⟨(t.addNewEntry C).2, by rw [acceptMsg, ht], ?_⟩
  rw [acceptMsg, ht, hrecord]
  simp only [hframe, addNewEntry_table, hmsg]
  simp [addNewEntry, noteError_frame, hmsg]

/-- The flag is clear when `process_msg` is done. -/
theorem processMsg_processing (s : Ftsp φ) : (s.processMsg C).1.processing = false := by
  unfold processMsg
  split_ifs <;> rfl

/-- What `process_msg` writes is what is in the record. -/
theorem processMsg_spec {s : Ftsp φ} {i : Fin 8} (h : (s.processMsg C).2 = some i) :
    FtspNode.recordOf (s.processMsg C).1 i =
      ⟨s.msgRcv.rootId, s.msgRcv.seqNum, itemOf s.msgRcv⟩ := by
  unfold processMsg at h ⊢
  split_ifs at h ⊢ with hlt heq
  · -- A smaller root: it is taken over from the record.
    obtain ⟨j, hj, hrec⟩ := acceptMsg_spec C
      { s with msg := { s.msg with rootId := s.msgRcv.rootId }, seqNum := s.msgRcv.seqNum }
    cases hj.symm.trans h
    exact hrec
  · -- The root of the node, which is the one of the record.
    obtain ⟨j, hj, hrec⟩ := acceptMsg_spec C { s with seqNum := s.msgRcv.seqNum }
    cases hj.symm.trans h
    rw [hrec, heq.1]

end

end Ftsp

namespace FtspNode

/-! ### The invariant -/

/-- The record holds a beacon. -/
def Holds (r : FtspMessageRcv) (m : FtspSample) : Prop :=
  r.rootId = m.rootId ∧ r.seqNum = m.seqNum ∧ r.globalTime = m.globalTime ∧
    r.localTime = m.localTime

/-- What `process_msg` writes from a record that holds a beacon is of that beacon. -/
theorem Holds.pairs {r : FtspMessageRcv} {m : FtspSample} (h : Holds r m) :
    Pairs ⟨r.rootId, r.seqNum, Ftsp.itemOf r⟩ m := by
  obtain ⟨hroot, hseq, hglobal, hlocal⟩ := h
  exact ⟨hroot, hseq, hlocal, by rw [Ftsp.itemOf, hglobal, hlocal]⟩

/-- The number of records that wait for `process_msg`. -/
def waiting (s : FtspNode φ) : Nat := s.msgReady + if s.msgProcess = .delay then 1 else 0

/-- A record is awaited exactly when their number is not 0. -/
theorem awaited_iff {s : FtspNode φ} : s.awaited = true ↔ 0 < s.waiting := by
  cases hp : s.msgProcess <;> simp [awaited, waiting, hp]

/-- When none is awaited, no event is in the queue and the process does not wait for its timer. -/
theorem ready_of_not_awaited {s : FtspNode φ} (h : s.awaited = false) :
    s.msgReady = 0 ∧ s.msgProcess = .ready := by
  cases hp : s.msgProcess <;> simp [awaited, hp] at h ⊢
  exact h

/-- The invariant of the guarded runs. -/
structure Inv (s : FtspNode φ) : Prop where
  /-- At most one record waits, and only while the flag is set. -/
  one : s.waiting ≤ if s.ftsp.processing then 1 else 0
  /-- `ftsp_arrival_time` is of the last interrupt. -/
  stamps : ∀ a ∈ s.rxfifo, a.stamp.Valid s.arrivalTime
  buffered : ∀ a ∈ s.packetbuf, a.stamp.Valid s.arrivalTime
  /-- A record that waits holds a received beacon. -/
  holds : s.awaited = true → ∃ m ∈ s.received, Holds s.ftsp.msgRcv m
  integrity : s.SampleIntegrity

/-- An interrupt leaves the stamps of all earlier frames valid. -/
theorem Inv.fire {s : FtspNode φ} (h : Inv s) (now : UInt32) :
    Inv { s with arrivalTime := s.arrivalTime.fire now } where
  one := h.one
  stamps a ha := (h.stamps a ha).fire now
  buffered a ha := (h.buffered a ha).fire now
  holds := h.holds
  integrity := h.integrity

/-- A frame comes behind those in the RXFIFO. -/
theorem Inv.enqueue {s : FtspNode φ} (h : Inv s) {a : Arrival} (ha : a.stamp.Valid s.arrivalTime) :
    Inv { s with rxfifo := s.rxfifo ++ [a] } where
  one := h.one
  stamps b hb := by
    rcases List.mem_append.mp hb with hb | hb
    · exact h.stamps b hb
    · rw [List.mem_singleton.mp hb]
      exact ha
  buffered := h.buffered
  holds := h.holds
  integrity := h.integrity

/-- A frame arrives, and the interrupt notes its time. -/
theorem Inv.arrive {s : FtspNode φ} (h : Inv s) (f : RadioFrame) (now : UInt32) :
    Inv (s.arrive f now) := (h.fire now).enqueue (Stamp.valid_ofFire s.arrivalTime now)

/-- A frame arrives while FIFOP is high, so there is no interrupt for it. -/
theorem Inv.arriveUnseen {s : FtspNode φ} (h : Inv s) (f : RadioFrame) (now : UInt32) :
    Inv (s.arriveUnseen f now) := h.enqueue (Stamp.valid_none now s.arrivalTime)

/-- Frames leave the RXFIFO, and the packet buffer gets one of them or none. -/
theorem Inv.dequeue {s : FtspNode φ} (h : Inv s) {l : List Arrival} (hl : ∀ a ∈ l, a ∈ s.rxfifo)
    {p : Option Arrival} (hp : ∀ a ∈ p, a ∈ s.rxfifo ∨ a ∈ s.packetbuf) :
    Inv { s with rxfifo := l, packetbuf := p } where
  one := h.one
  stamps a ha := h.stamps a (hl a ha)
  buffered a ha := (hp a ha).elim (h.stamps a) (h.buffered a)
  holds := h.holds
  integrity := h.integrity

/-- What the sending side does to the node is not seen here. -/
theorem Inv.sending {s : FtspNode φ} (h : Inv s) {t : Ftsp φ} {n : Nat}
    (ht : t.msgRcv = s.ftsp.msgRcv ∧ t.processing = s.ftsp.processing) :
    Inv { s with ftsp := t, sendReady := n } where
  one := by
    simp only [ht]
    exact h.one
  stamps := h.stamps
  buffered := h.buffered
  holds := by
    simp only [ht]
    exact h.holds
  integrity := h.integrity

/-- A beacon that is handed to `ftsp_recv` while no record waits. Its record is taken if the flag
is clear, and then it holds the beacon. -/
theorem Inv.recv {s : FtspNode φ} (h : Inv s) {b : FtspBeacon} {st : Stamp UInt32} (room : Bool)
    (hst : st.Valid s.arrivalTime) (hidle : s.awaited = false)
    (hcur : b.globalTime = none ∨ s.ftsp.processing = true ∨ st.Current s.arrivalTime) :
    Inv (s.recv b st room) := by
  have hready := ready_of_not_awaited hidle
  have hint : (s.recv b st room).SampleIntegrity := by
    intro w hw
    obtain ⟨m, hm, hpairs⟩ := h.integrity w hw
    exact ⟨m, List.mem_append_left _ hm, hpairs⟩
  by_cases htaken : b.globalTime = none ∨ s.ftsp.processing = true
  · -- The record may change, but nothing waits for it.
    have hwait : (s.recv b st room).waiting = 0 := by
      simp [FtspNode.recv, (Ftsp.ftspRecv_ignored s.arrivalTime.value htaken).1, waiting,
        postEvent, hready]
    refine ⟨by rw [hwait]; exact Nat.zero_le _, h.stamps, h.buffered, fun hawait => ?_, hint⟩
    have := awaited_iff.mp hawait
    omega
  · obtain ⟨hsome, hclear⟩ := not_or.mp htaken
    obtain ⟨g, hg⟩ := Option.ne_none_iff_exists'.mp hsome
    have hclear : s.ftsp.processing = false := Bool.eq_false_iff.mpr hclear
    -- The register still holds the arrival time of this beacon.
    have htime : s.arrivalTime.value = st.value :=
      hst.value_eq ((hcur.resolve_left hsome).resolve_left (Bool.eq_false_iff.mp hclear))
    have htake := Ftsp.ftspRecv_taken s.arrivalTime.value hg hclear
    refine ⟨?_, h.stamps, h.buffered, fun _ => ⟨⟨b.rootId, b.epacketId, g, st.value⟩, ?_, ?_⟩,
      hint⟩
    · cases room <;> simp [FtspNode.recv, htake, waiting, postEvent, hready]
    · exact List.mem_append_right _ (by simp [sampleOf, hg])
    · simp only [FtspNode.recv, htake]
      exact ⟨rfl, rfl, rfl, htime⟩

/-- The event becomes the wait for the timer. -/
theorem Inv.msgReady {s : FtspNode φ} (h : Inv s) (hpos : 0 < s.msgReady) :
    Inv { s with msgReady := s.msgReady - 1, msgProcess := .delay } where
  one := by
    have hone := h.one
    simp only [waiting] at hone ⊢
    split_ifs at hone ⊢ <;> simp_all
  stamps := h.stamps
  buffered := h.buffered
  holds _ := h.holds (by simp [awaited, hpos])
  integrity := h.integrity

variable [SkewFloat φ] {C}

/-- What `process_msg` writes is of the beacon that the record holds. -/
theorem Inv.processMsg {s : FtspNode φ} (h : Inv s) (hdelay : s.msgProcess = .delay) :
    Inv (s.processMsg C) := by
  have hone := h.one
  obtain ⟨m, hm, hholds⟩ := h.holds (by simp [awaited, hdelay])
  -- The record that is processed is the only one, so none is left afterwards.
  have hready : s.msgReady = 0 := by
    simp only [waiting, hdelay, if_true] at hone
    split_ifs at hone <;> omega
  refine ⟨?_, h.stamps, h.buffered, fun hawait => ?_, ?_⟩
  · simp [FtspNode.processMsg, waiting, hready]
  · simp [FtspNode.processMsg, awaited, hready] at hawait
  · intro w hw
    rcases List.mem_append.mp hw with hw | hw
    · exact h.integrity w hw
    · obtain ⟨i, hi, rfl⟩ := Option.map_eq_some_iff.mp (Option.mem_toList.mp hw)
      refine ⟨m, hm, ?_⟩
      rw [Ftsp.processMsg_spec C hi]
      exact hholds.pairs

/-- Nothing has been received at first. -/
theorem inv_boot : Inv (boot C : FtspNode φ) where
  one := Nat.zero_le _
  stamps := nofun
  buffered := nofun
  holds := nofun
  integrity := nofun

/-- The step lemma of the guarded runs. -/
theorem inv_step {s t : FtspNode φ} {a : FtspAction} (h : Inv s) (hok : s.beaconsApart a = true)
    (hst : (machine C).step s a = some t) : Inv t := by
  cases a with
  | arrive f now edge =>
      cases hst
      -- FIFOP rises for the first frame of the RXFIFO, and perhaps for later ones.
      split
      · exact h.arrive f now
      · exact h.arriveUnseen f now
  | fifop now =>
      simp only [machine] at hst
      split at hst
      · cases hst
      · cases hst
        exact h.fire now
  | read ok =>
      simp only [machine] at hst
      split at hst
      · rename_i a rest hfifo hbuf
        cases hst
        refine h.dequeue (fun b hb => ?_) fun b hb => ?_
        · rw [hfifo]
          exact List.mem_cons_of_mem a hb
        · cases ok <;> simp at hb
          rw [hfifo, ← hb]
          exact .inl List.mem_cons_self
      · cases hst
  | flushrx =>
      cases hst
      exact h.dequeue (fun _ ha => absurd ha List.not_mem_nil) fun _ ha => .inr ha
  | received room =>
      simp only [machine] at hst
      split at hst
      · rename_i b st hbuf
        cases hst
        simp only [beaconsApart, hbuf, Bool.and_eq_true, Bool.or_eq_true, decide_eq_true_eq,
          Option.isNone_iff_eq_none, Bool.not_eq_true', or_assoc] at hok
        have hvalid := h.buffered ⟨.ftsp b, st⟩ (by rw [hbuf]; rfl)
        have hrecv := h.recv room hvalid hok.1 hok.2
        -- The packet buffer is free again.
        exact hrecv.dequeue (fun _ ha => ha) fun _ ha => nomatch ha
      · cases hst
        exact h.dequeue (fun _ ha => ha) fun _ ha => nomatch ha
      · cases hst
  | msgReady =>
      simp only [machine] at hst
      split at hst
      · rename_i hguard
        cases hst
        exact h.msgReady hguard.2
      · cases hst
  | expired =>
      simp only [machine] at hst
      split at hst
      · rename_i hguard
        cases hst
        exact h.processMsg hguard.2
      · cases hst
  | msgSend now room =>
      simp only [machine] at hst
      split at hst
      · cases hst
        exact h.sending (Ftsp.msgSend_frame C now s.ftsp)
      · cases hst
  | sendReady sent =>
      simp only [machine] at hst
      split at hst
      · cases hst
        exact h.sending (Ftsp.sendReady_frame C sent s.ftsp)
      · cases hst

/-! ### The result -/

/-- In every run in which the beacons are apart, all that `process_msg` writes is of one received
beacon each. -/
theorem sampleIntegrity (C : FtspConf) {s : FtspNode φ}
    (h : (machine C).ReachableIf (fun s a => s.beaconsApart a = true) s) : s.SampleIntegrity :=
  (h.invariant Inv inv_boot fun _ _ _ => inv_step).integrity

/-- Rational numbers for the slope: numerator and denominator, rounded towards zero. -/
structure Slope where
  num : Int64
  den : Int64

instance : SkewFloat Slope where
  zero := ⟨0, 1⟩
  ratio := Slope.mk
  scale r t := (r.num * t.toInt64 / r.den).toInt32

/-- A node that is not the sink. -/
def sampleFtspConf : FtspConf := ⟨2, 1⟩

/-- A beacon of the sink. -/
def sampleBeacon (seq : UInt8) (time : UInt32) : RadioFrame := .ftsp ⟨1, 1, seq, some time⟩

/-- Two beacons, each of which is processed before the next one arrives. -/
def sampleBeacons : List FtspAction :=
  [.arrive (sampleBeacon 1 1000) 100 false, .read true, .received true, .msgReady, .expired,
    .arrive (sampleBeacon 2 2000) 1100 false, .read true, .received true, .msgReady, .expired]

/-- The two beacons give two entries. -/
theorem sampleIntegrity_sample :
    ∃ s : FtspNode Slope, s.written =
        [⟨1, 1, ⟨.full, 100, 900⟩⟩, ⟨1, 2, ⟨.full, 1100, 900⟩⟩] ∧ s.SampleIntegrity := by
  have hend : ((machine sampleFtspConf).runIf (fun s a => s.beaconsApart a = true)
      (boot sampleFtspConf : FtspNode Slope) sampleBeacons).map FtspNode.written =
        some [⟨1, 1, ⟨.full, 100, 900⟩⟩, ⟨1, 2, ⟨.full, 1100, 900⟩⟩] := by decide +kernel
  obtain ⟨s, hs, hwritten⟩ :=
    Machine.exists_reachableIf_of_runIf (M := machine sampleFtspConf) hend
  exact ⟨s, hwritten, sampleIntegrity sampleFtspConf hs⟩

/-- The second beacon arrives while the first one waits for the timer. The entry pairs the
arrival time 100 of the first with the global time 2000 of the second. -/
theorem not_forall_sampleIntegrity :
    ¬ ∀ s : FtspNode Slope, (machine sampleFtspConf).Reachable s → s.SampleIntegrity := by
  have hend : ((machine sampleFtspConf).run
      [.arrive (sampleBeacon 1 1000) 100 false, .read true, .received true, .msgReady,
        .arrive (sampleBeacon 2 2000) 1100 false, .read true, .received true, .expired]).map
      (fun s : FtspNode Slope => (s.written, s.received)) =
        some ([⟨1, 1, ⟨.full, 100, 1900⟩⟩], [⟨1, 1, 1000, 100⟩, ⟨1, 2, 2000, 1100⟩]) := by
    decide +kernel
  intro hall
  obtain ⟨s, hs, hend⟩ :=
    Machine.exists_reachable_of_run (M := machine sampleFtspConf) hend
  obtain ⟨hwritten, hreceived⟩ := Prod.mk.inj hend
  have hint := hall s hs
  rw [SampleIntegrity, hwritten, hreceived] at hint
  revert hint
  decide

end FtspNode

end PTunes.Rime
