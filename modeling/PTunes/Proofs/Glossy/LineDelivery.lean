import PTunes.Glossy.LineDelivery
import Mathlib.Data.List.Induction

/-!
# `PTunes.Proofs.Glossy.LineDelivery`: which lines reach the parser

`serial-line.h` says that the line event is posted when an entire line has been received, with
a pointer to this line. The code does not keep to it. While `buffer` is full, bytes are
ignored one by one, so when it becomes free in the middle of a line, the rest of the line is
taken for a line. The event does not carry the line. When `appbuffer` is overwritten before
the event is handled, the next line is parsed twice. And a full event queue loses the line.

* `Lines`: the lines that have been parsed or are on their way, without the buffers.
* `Inv.step`: a step keeps the invariant when none of the three happens.
* `delivers_of_reachableIf`: in every such run, complete lines are parsed, in order and once,
  and a line that was written while no other one was in process is not lost.
* `not_delivers`: both faults of the buffers.
-/

set_option autoImplicit false

namespace PTunes.Glossy

open PTunes.Core (EventQueue processConfNumevents)

/-! ### Positions in a list -/

/-- Elements that are taken at growing positions are a sublist. -/
theorem sublist_of_positions {α : Type} {l : List α} {ps : List (Nat × α)}
    (hordered : (ps.map Prod.fst).Pairwise (· < ·)) (hget : ∀ p ∈ ps, l[p.1]? = some p.2) :
    (ps.map Prod.snd).Sublist l := by
  -- The elements before position `n` come from the first `n` elements.
  have htake : ∀ n, (∀ p ∈ ps, p.1 < n) → (ps.map Prod.snd).Sublist (l.take n) := by
    induction ps using List.reverseRecOn with
    | nil => exact fun n _ => List.nil_sublist _
    | append_singleton ps p ih =>
        intro n hn
        rw [List.map_append, List.pairwise_append] at hordered
        obtain ⟨hps, _, hbefore⟩ := hordered
        have hlast : l[p.1]? = some p.2 := hget p (by simp)
        have hlt : p.1 < n := hn p (by simp)
        have hfirst : (ps.map Prod.snd).Sublist (l.take p.1) :=
          ih hps (fun q hq => hget q (List.mem_append_left _ hq)) p.1 fun q hq =>
            hbefore q.1 (List.mem_map_of_mem hq) p.1 (by simp)
        have hnext : l.take (p.1 + 1) = l.take p.1 ++ [p.2] := by
          rw [List.take_add_one, hlast]
          rfl
        have hmap : ((ps ++ [p]).map Prod.snd).Sublist (l.take (p.1 + 1)) := by
          rw [List.map_append, hnext]
          exact hfirst.append (List.Sublist.refl _)
        exact hmap.trans (List.take_sublist_take_left hlt)
  obtain ⟨n, hn⟩ : ∃ n, ∀ p ∈ ps, p.1 < n := by
    refine ⟨l.length, fun p hp => ?_⟩
    exact (List.getElem?_eq_some_iff.mp (hget p hp)).1
  exact (htake n hn).trans (List.take_sublist n l)

/-! ### C strings -/

/-- What comes behind the NUL does not belong to the string. -/
theorem cString_append {l : List UInt8} (h : (0 : UInt8) ∈ l) (rest : List UInt8) :
    cString (l ++ rest) = cString l := by
  induction l with
  | nil => exact nomatch h
  | cons c l ih =>
      by_cases hc : c = 0
      · simp [cString, hc]
      · have hl : (0 : UInt8) ∈ l := (List.mem_cons.mp h).resolve_left fun heq => hc heq.symm
        simp only [cString, List.cons_append] at ih ⊢
        rw [List.takeWhile_cons, List.takeWhile_cons, ih hl]

/-- The NUL does not belong to the string either. -/
theorem cString_concat (l : List UInt8) : cString (l ++ [0]) = cString l := by
  induction l with
  | nil => rfl
  | cons c l ih =>
      simp only [cString, List.cons_append] at ih ⊢
      rw [List.takeWhile_cons, List.takeWhile_cons, ih]

/-! ### The lines on their way -/

/-- What `dissemination_process` should parse of a line. -/
def WrittenLine.text (line : WrittenLine) : List UInt8 := cString line.bytes

/-- The lines that have been parsed, and those in the two buffers, with their positions among
the written lines. -/
structure Lines (parsed app buf : List (Nat × List UInt8)) (written : List WrittenLine)
    (paused : Bool) : Prop where
  ordered : ((parsed ++ app ++ buf).map Prod.fst).Pairwise (· < ·)
  complete : ∀ p ∈ parsed ++ app ++ buf, ∃ line, written[p.1]? = some line ∧ p.2 = line.text
  covered : ∀ i line, written[i]? = some line → line.undisturbed = true →
    ∃ t, (i, t) ∈ parsed ++ app ++ buf
  /-- A line that was written while no other one was in process is the next one. -/
  next : ∀ p line, p ∈ app ++ buf → written[p.1]? = some line → line.undisturbed = true →
    (app ++ buf).head? = some p ∧ paused = false

namespace Lines

variable {parsed app buf : List (Nat × List UInt8)} {written : List WrittenLine} {paused : Bool}

/-- Positions are those of written lines. -/
theorem lt_length (h : Lines parsed app buf written paused) {p : Nat × List UInt8}
    (hp : p ∈ parsed ++ app ++ buf) : p.1 < written.length := by
  obtain ⟨line, hline, _⟩ := h.complete p hp
  exact (List.getElem?_eq_some_iff.mp hline).1

/-- A line is written and lost, while another one is in process. -/
theorem write (h : Lines parsed app buf written paused) {line : WrittenLine}
    (hline : line.undisturbed = false) :
    Lines parsed app buf (written ++ [line]) paused := by
  have hold : ∀ (i : Nat) (line' : WrittenLine), (written ++ [line])[i]? = some line' →
      line'.undisturbed = true →
      written[i]? = some line' := by
    intro i line' hi hundisturbed
    rw [List.getElem?_append] at hi
    split at hi
    · exact hi
    · have hmem : line' ∈ [line] := List.mem_of_getElem? hi
      rw [List.mem_singleton.mp hmem, hline] at hundisturbed
      exact nomatch hundisturbed
  refine ⟨h.ordered, fun p hp => ?_, fun i line' hi hundisturbed => ?_,
    fun p line' hp hi hundisturbed => ?_⟩
  · obtain ⟨line', hi, htext⟩ := h.complete p hp
    exact ⟨line', List.getElem?_append_left (h.lt_length hp) ▸ hi, htext⟩
  · exact h.covered i line' (hold i line' hi hundisturbed) hundisturbed
  · exact h.next p line' hp (hold p.1 line' hi hundisturbed) hundisturbed

/-- A line is written and stored in the free buffer. -/
theorem store (h : Lines parsed app [] written paused) {line : WrittenLine}
    (hline : line.undisturbed = true → app = [] ∧ paused = false) :
    Lines parsed app [(written.length, line.text)] (written ++ [line]) paused := by
  have hlast : (written ++ [line])[written.length]? = some line := by simp
  have hold : ∀ (i : Nat) (line' : WrittenLine), (written ++ [line])[i]? = some line' →
      i ≠ written.length → written[i]? = some line' := by
    intro i line' hi hne
    have hlt := (List.getElem?_eq_some_iff.mp hi).1
    rw [List.length_append, List.length_singleton] at hlt
    rwa [List.getElem?_append_left (by omega)] at hi
  refine ⟨?_, fun p hp => ?_, fun i line' hi hundisturbed => ?_,
    fun p line' hp hi hundisturbed => ?_⟩
  · rw [List.map_append, List.pairwise_append]
    have hordered := h.ordered
    rw [List.append_nil] at hordered
    -- The new line has the largest number.
    refine ⟨hordered, List.pairwise_singleton _ _, fun i hi j hj => ?_⟩
    obtain ⟨p, hp, rfl⟩ := List.mem_map.mp hi
    rw [List.mem_singleton.mp hj]
    exact h.lt_length (List.mem_append_left _ hp)
  · rcases List.mem_append.mp hp with hp | hp
    · have hp' := List.mem_append_left [] hp
      obtain ⟨line', hi, htext⟩ := h.complete p hp'
      exact ⟨line', List.getElem?_append_left (h.lt_length hp') ▸ hi, htext⟩
    · rw [List.mem_singleton.mp hp]
      exact ⟨line, hlast, rfl⟩
  · by_cases hi' : i = written.length
    · exact ⟨line.text, by simp [hi']⟩
    · obtain ⟨t, ht⟩ := h.covered i line' (hold i line' hi hi') hundisturbed
      rw [List.append_nil] at ht
      exact ⟨t, List.mem_append_left _ ht⟩
  · rcases List.mem_append.mp hp with hp | hp
    · have hlt := h.lt_length (p := p) (by simp [hp])
      -- An older line keeps its place in front of the new one.
      obtain ⟨hhead, hpaused⟩ := h.next p line' (List.mem_append_left _ hp)
        (hold p.1 line' hi (Nat.ne_of_lt hlt)) hundisturbed
      rw [List.append_nil] at hhead
      rw [List.head?_append, hhead]
      exact ⟨rfl, hpaused⟩
    · rw [List.mem_singleton.mp hp] at hi ⊢
      rw [hlast] at hi
      cases hi
      -- When it was written undisturbed, there was no line before it.
      obtain ⟨hnil, hpaused⟩ := hline hundisturbed
      rw [hnil]
      exact ⟨rfl, hpaused⟩

/-- A line is copied to the other buffer. -/
theorem copy (h : Lines parsed [] buf written paused) : Lines parsed buf [] written paused := by
  obtain ⟨hordered, hcomplete, hcovered, hnext⟩ := h
  simp only [List.append_nil, List.nil_append] at hordered hcomplete hcovered hnext
  constructor <;> simpa only [List.append_nil]

/-- A line is parsed. -/
theorem parse {p : Nat × List UInt8} (h : Lines parsed [p] buf written paused) (paused' : Bool) :
    Lines (parsed ++ [p]) [] buf written paused' := by
  obtain ⟨hordered, hcomplete, hcovered, hnext⟩ := h
  refine ⟨by simpa using hordered, by simpa using hcomplete, by simpa using hcovered,
    fun q line hq hi hundisturbed => ?_⟩
  -- A line behind another one has not been written in peace.
  rw [List.nil_append] at hq
  obtain ⟨hhead, _⟩ := hnext q line (List.mem_append_right _ hq) hi hundisturbed
  rw [List.map_append, List.pairwise_append] at hordered
  have hlt := hordered.2.2 p.1 (by simp) q.1 (List.mem_map_of_mem hq)
  have heq : p = q := Option.some.inj hhead
  rw [heq] at hlt
  exact absurd hlt (Nat.lt_irrefl _)

/-- In the pause a line may be lost, and the pause may end. -/
theorem pause {app' : List (Nat × List UInt8)} (h : Lines parsed app buf written true)
    (happ : app'.Sublist app) (paused' : Bool) : Lines parsed app' buf written paused' := by
  have hsub : (parsed ++ app' ++ buf).Sublist (parsed ++ app ++ buf) :=
    ((List.Sublist.refl _).append happ).append (List.Sublist.refl _)
  have hnone : ∀ p line, p ∈ app ++ buf → written[p.1]? = some line →
      line.undisturbed ≠ true := by
    intro p line hp hi hundisturbed
    exact absurd (h.next p line hp hi hundisturbed).2 (by decide)
  refine ⟨h.ordered.sublist (hsub.map _), fun p hp => h.complete p (hsub.subset hp),
    fun i line hi hundisturbed => ?_, fun p line hp hi hundisturbed => ?_⟩
  · obtain ⟨t, ht⟩ := h.covered i line hi hundisturbed
    rw [List.append_assoc, List.mem_append] at ht
    rcases ht with ht | ht
    · exact ⟨t, by simp [ht]⟩
    · exact absurd hundisturbed (hnone (i, t) line ht hi)
  · exact absurd hundisturbed
      (hnone p line ((happ.append (List.Sublist.refl _)).subset hp) hi)

end Lines

namespace LineDelivery

/-! ### The condition -/

/-- Lines have fewer than 80 characters. -/
def ShortLines (s : LineDelivery) : Action → Prop
  | .uart c => c = carriageReturn ∨ c = lineFeed ∨ s.current.length < bufSize - 1
  | _ => True

/-- Lines are short, and `serial_line_process` keeps up: a line is copied when the one before
has been handled, the queue has a free place for its event, and `buffer` becomes free between
two lines. -/
def KeepsUp (s : LineDelivery) : Action → Prop
  | .uart c => s.ShortLines (.uart c)
  | .serialLine =>
    (s.serialPc = .called → s.bufferFull = true → s.lineEvents = 0) ∧
      (s.serialPc = .copied → s.events.nevents < processConfNumevents) ∧
      (s.serialPc = .rewound → s.current = [])
  | _ => True

instance (s : LineDelivery) : (a : Action) → Decidable (s.ShortLines a)
  | .uart _ => inferInstanceAs (Decidable (_ ∨ _ ∨ _))
  | .glossy _ | .poll | .wake | .serialLine | .post _ | .doEvent | .disseminate | .synch _ =>
    inferInstanceAs (Decidable True)

instance (s : LineDelivery) : (a : Action) → Decidable (s.KeepsUp a)
  | .uart c => inferInstanceAs (Decidable (s.ShortLines (.uart c)))
  | .serialLine => inferInstanceAs (Decidable (_ ∧ _ ∧ _))
  | .glossy _ | .poll | .wake | .post _ | .doEvent | .disseminate | .synch _ =>
    inferInstanceAs (Decidable True)

/-- What the lines should do: those that are parsed are complete lines, in order and each at
most once, and a line that was written while no other one was in process has been parsed, or is
on its way unaltered: in `buffer`, of which `serial_line_process` has been told, or in
`appbuffer`, with an event for it. -/
structure Delivers (s : LineDelivery) : Prop where
  subsequence : (s.parsed.map Prod.snd).Sublist (s.written.map WrittenLine.text)
  lines : Lines s.parsed s.inApp s.inBuf s.written s.paused
  polled : s.bufferFull = true → s.serialPc = .yield → s.needsPoll = true

/-! ### The invariant -/

/-- The buffers and the queue. -/
structure Buffers (s : LineDelivery) : Prop where
  current : s.bufferFull = false → s.buffer = s.current
  terminated : s.bufferFull = true → s.serialPc = .yield ∨ s.serialPc = .called →
    (0 : UInt8) ∈ s.buffer
  full : s.serialPc ≠ .yield → s.serialPc ≠ .called → s.bufferFull = true
  rewound : s.serialPc = .rewound → s.buffer = []
  single : s.lineEvents ≤ 1
  copied : s.serialPc = .copied → s.lineEvents = 0
  broadcast : ∀ e ∈ s.events.contents, e.ev = .serialLine → e.p = .broadcast
  polled : s.bufferFull = true → s.serialPc = .yield → s.needsPoll = true

/-- The invariant. -/
structure Inv (s : LineDelivery) : Prop where
  lines : Lines s.parsed s.inApp s.inBuf s.written s.paused
  buffers : s.Buffers

/-- At the start nothing has been received, and the queue of the events is empty. -/
theorem inv_init : Inv .init where
  lines := ⟨List.Pairwise.nil, fun _ hp => (nomatch hp), fun _ _ hi => (nomatch hi),
    fun _ _ hp => (nomatch hp)⟩
  buffers :=
    ⟨fun _ => rfl, fun h => (nomatch h), fun h => absurd rfl h, fun h => (nomatch h),
      Nat.zero_le 1, fun h => (nomatch h), fun _ he => (nomatch he), fun h => (nomatch h)⟩

/-- A step after which the same lines are on their way has to keep the buffers. -/
theorem Inv.of_same {s t : LineDelivery} (hs : s.Inv) (hparsed : t.parsed = s.parsed)
    (happ : t.inApp = s.inApp) (hbuf : t.inBuf = s.inBuf) (hwritten : t.written = s.written)
    (hpaused : t.paused = s.paused) (hbuffers : t.Buffers) : t.Inv := by
  refine ⟨?_, hbuffers⟩
  rw [hparsed, happ, hbuf, hwritten, hpaused]
  exact hs.lines

/-! ### The queue -/

/-- The events that are not line events are posted without a trace. -/
theorem exists_post (s : LineDelivery) {e : EventData} (he : e.ev ≠ .serialLine) :
    ∃ events, s.post e = { s with events := events } ∧
      { s with events := events }.lineEvents = s.lineEvents ∧
      ∀ e' ∈ events.contents, e'.ev = .serialLine → e' ∈ s.events.contents := by
  rw [post]
  split
  · rename_i events hpost
    have hcontents := Core.EventQueue.contents_post hpost
    refine ⟨events, rfl, ?_, fun e' hmem hline => ?_⟩
    · simp only [lineEvents, hcontents, List.countP_append]
      simp [he]
    · rw [hcontents, List.mem_append, List.mem_singleton] at hmem
      exact hmem.resolve_right fun heq => he (heq ▸ hline)
  · exact ⟨s.events, rfl, rfl, fun _ hmem _ => hmem⟩

/-- Other events in the queue do not matter. -/
theorem Inv.requeue {s : LineDelivery} (hs : s.Inv) {events : EventQueue EventData}
    (hcount : { s with events := events }.lineEvents = s.lineEvents)
    (hmem : ∀ e ∈ events.contents, e.ev = .serialLine → e ∈ s.events.contents) :
    { s with events := events }.Inv := by
  obtain ⟨hcurrent, hterminated, hfull, hrewound, hsingle, hcopied, hbroadcast, hpolled⟩ :=
    hs.buffers
  have happ : { s with events := events }.inApp = s.inApp := by
    rw [inApp, inApp, hcount]
  refine hs.of_same rfl happ rfl rfl rfl
    ⟨hcurrent, hterminated, hfull, hrewound, ?_, ?_, ?_, hpolled⟩
  · rw [hcount]
    exact hsingle
  · rw [hcount]
    exact hcopied
  · exact fun e he hline => hbroadcast e (hmem e he hline) hline

/-- An event that is not about a line is posted. The lines that wait in the queue stay the same. -/
theorem Inv.post {s : LineDelivery} (hs : s.Inv) {e : EventData} (he : e.ev ≠ .serialLine) :
    (s.post e).Inv := by
  obtain ⟨events, heq, hcount, hmem⟩ := s.exists_post he
  rw [heq]
  exact hs.requeue hcount hmem

/-- The event that is passed on is no longer among the line events. -/
theorem lineEvents_delivered {s : LineDelivery} {e : EventData} (h : s.delivering = some e) :
    s.lineEvents = { s with delivering := none }.lineEvents +
      if e.ev = .serialLine then 1 else 0 := by
  simp only [lineEvents, h, Option.toList_some, Option.toList_none, List.append_nil,
    List.countP_append, List.countP_singleton, decide_eq_true_eq]

/-! ### The interrupts -/

/-- While `buffer` is full, bytes are only recorded. A line that ends is lost. -/
theorem Inv.record {s : LineDelivery} (hs : s.Inv) (hfull : s.bufferFull = true) (c : UInt8) :
    (s.record c).Inv := by
  obtain ⟨hlines, hcurrent, hterminated, hfull', hrewound, hsingle, hcopied, hbroadcast, hpolled⟩ :=
    hs
  have hbuffers : (s.record c).Buffers := by
    rw [LineDelivery.record]
    split <;> exact ⟨fun h => absurd (hfull.symm.trans h) (by decide), hterminated, hfull',
      hrewound, hsingle, hcopied, hbroadcast, hpolled⟩
  refine ⟨?_, hbuffers⟩
  rw [LineDelivery.record]
  split
  · refine Lines.write hlines ?_
    simp [idle, hfull]
  · exact hlines

/-- A line that ends in the free buffer is stored. -/
theorem Inv.store {s : LineDelivery} (hs : s.Inv) (hfree : s.bufferFull = false) :
    { s.record lineFeed with
        buffer := s.buffer ++ [0]
        bufferFull := true
        needsPoll := true
        inBuffer := s.written.length }.Inv := by
  obtain ⟨hlines, hcurrent, hterminated, hfull, hrewound, hsingle, hcopied, hbroadcast, hpolled⟩ :=
    hs
  -- The process is not in the middle of a copy while the buffer is free.
  have hpc : s.serialPc = .yield ∨ s.serialPc = .called := by
    by_cases hyield : s.serialPc = .yield
    · exact Or.inl hyield
    · refine Or.inr (Classical.byContradiction fun hcalled => ?_)
      exact absurd (hfree.symm.trans (hfull hyield hcalled)) (by decide)
  have hfree' : s.inBuf = [] := if_neg fun h => absurd (hfree.symm.trans h.1) (by decide)
  rw [hfree'] at hlines
  have hundisturbed : (s.undisturbed && s.idle) = true → s.inApp = [] ∧ s.paused = false := by
    intro h
    have hidle : s.idle = true := (Bool.and_eq_true_iff.mp h).2
    simp only [idle, decide_eq_true_eq, Bool.not_eq_true'] at hidle
    exact hidle.2
  -- The terminator ends the line where it was written.
  have htext : cString (s.buffer ++ [0]) = cString s.current := by
    rw [cString_concat, hcurrent hfree]
  rw [LineDelivery.record, if_pos rfl]
  refine ⟨?_, fun h => (nomatch h), fun _ _ => by simp, fun _ _ => rfl, ?_, hsingle, hcopied,
    hbroadcast, fun _ _ => rfl⟩
  · have hstore := @Lines.store _ _ _ _ hlines ⟨s.current, s.undisturbed && s.idle⟩ hundisturbed
    simp only [inBuf, htext, hpc, and_self, if_true]
    exact hstore
  · intro hrewind
    rcases hpc with hpc | hpc
    · exact absurd (hpc.symm.trans hrewind) (by decide)
    · exact absurd (hpc.symm.trans hrewind) (by decide)

/-- A byte of a line. -/
theorem Inv.inputByte {s : LineDelivery} (hs : s.Inv) {c : UInt8} (hc : s.ShortLines (.uart c)) :
    (s.inputByte c).Inv := by
  rw [LineDelivery.inputByte]
  -- The cases of the source: ignored, dropped, end of the line, stored.
  by_cases hcr : c = carriageReturn
  · rw [if_pos hcr]
    exact hs
  rw [if_neg hcr]
  by_cases hfull : s.bufferFull = true
  · rw [if_pos hfull]
    exact hs.record hfull c
  rw [if_neg hfull]
  have hfree : s.bufferFull = false := Bool.not_eq_true _ ▸ hfull
  by_cases hlf : c = lineFeed
  · rw [if_pos hlf, hlf]
    exact hs.store hfree
  rw [if_neg hlf]
  have hcurrent := hs.buffers.current hfree
  -- A short line leaves room for the byte.
  have hroom : s.buffer.length < bufSize - 1 := by
    rw [hcurrent]
    exact (hc.resolve_left hcr).resolve_left hlf
  rw [if_pos hroom, LineDelivery.record, if_neg hlf]
  have hbuf : s.inBuf = [] := if_neg fun h => absurd (hfree.symm.trans h.1) (by decide)
  have hlines := hs.lines
  rw [hbuf] at hlines
  have hbuf' : { s with
      buffer := s.buffer ++ [c]
      current := s.current ++ [c]
      undisturbed := s.undisturbed && s.idle }.inBuf = [] :=
    if_neg fun h => absurd (hfree.symm.trans h.1) (by decide)
  obtain ⟨_, _, hterminated, hfull', hrewound, hsingle, hcopied, hbroadcast, hpolled⟩ := hs
  refine ⟨?_, fun _ => congrArg (· ++ [c]) hcurrent, fun h => absurd h hfull, hfull', ?_, hsingle,
    hcopied, hbroadcast, hpolled⟩
  · rw [hbuf']
    exact hlines
  · intro hrewind
    exact absurd (hfull' (by rw [hrewind]; decide) (by rw [hrewind]; decide)) hfull

/-! ### `serial_line_process` -/

/-- Between its calls, `serial_line_process` waits. -/
theorem Inv.call {s : LineDelivery} (hs : s.Inv) (hpc : s.serialPc = .yield) (needsPoll : Bool) :
    { s with needsPoll := needsPoll, serialPc := .called }.Inv := by
  obtain ⟨hcurrent, hterminated, _, _, hsingle, _, hbroadcast, hpolled⟩ := hs.buffers
  refine hs.of_same rfl ?_ ?_ rfl rfl
    ⟨hcurrent, fun h _ => hterminated h (Or.inl hpc), fun _ h => absurd rfl h,
      fun h => (nomatch h), hsingle, fun h => (nomatch h), hbroadcast, fun _ h => (nomatch h)⟩
  · simp [inApp, lineEvents, hpc]
  · simp [inBuf, hpc]

/-- A full `buffer` is copied to `appbuffer` when no event refers to it. -/
theorem Inv.copy {s : LineDelivery} (hs : s.Inv) (hpc : s.serialPc = .called)
    (hfull : s.bufferFull = true) (hfree : s.lineEvents = 0) :
    { s with
        appbuffer := s.buffer ++ s.appbuffer.drop s.buffer.length
        serialPc := .copied
        inAppbuffer := s.inBuffer }.Inv := by
  obtain ⟨hlines, hcurrent, hterminated, _, _, hsingle, _, hbroadcast, hpolled⟩ := hs
  have happ : s.inApp = [] := by
    simp [inApp, hfree, hpc]
  have hbuf : s.inBuf = [(s.inBuffer, cString s.buffer)] := by
    simp [inBuf, hpc, hfull]
  rw [happ, hbuf] at hlines
  have htext := cString_append (hterminated hfull (Or.inr hpc)) (s.appbuffer.drop s.buffer.length)
  refine ⟨?_, hcurrent, fun _ h => h.elim (fun h => nomatch h) (fun h => nomatch h),
    fun _ _ => hfull, fun h => (nomatch h), hsingle, fun _ => hfree, hbroadcast,
    fun _ h => (nomatch h)⟩
  simp only [inApp, inBuf, htext, or_true, if_true, reduceCtorEq, or_self, and_false, if_false]
  exact hlines.copy

/-- The event for the line in `appbuffer`. -/
theorem Inv.postLine {s : LineDelivery} (hs : s.Inv) (hpc : s.serialPc = .copied)
    (hroom : s.events.nevents < processConfNumevents) :
    { s.post ⟨.serialLine, .broadcast⟩ with serialPc := .posted }.Inv := by
  obtain ⟨hcurrent, _, hfull, _, _, hcopied, hbroadcast, hpolled⟩ := hs.buffers
  obtain ⟨events, hpost⟩ := Core.EventQueue.exists_post hroom ⟨.serialLine, .broadcast⟩
  have hcontents := Core.EventQueue.contents_post hpost
  have hcount : { s with events := events, serialPc := SerialPc.posted }.lineEvents = 1 := by
    have hzero := hcopied hpc
    simp only [lineEvents, List.countP_append] at hzero
    simp only [lineEvents, hcontents, List.countP_append, List.countP_singleton]
    simp
    omega
  have hfull' : s.bufferFull = true := hfull (by rw [hpc]; decide) (by rw [hpc]; decide)
  rw [LineDelivery.post, hpost]
  refine hs.of_same rfl ?_ ?_ rfl rfl
    ⟨hcurrent, fun _ h => h.elim (fun h => nomatch h) (fun h => nomatch h), fun _ _ => hfull',
      fun h => (nomatch h), Nat.le_of_eq hcount, fun h => (nomatch h), ?_,
      fun _ h => (nomatch h)⟩
  · simp [inApp, hcount, hpc]
  · simp [inBuf, hpc]
  · intro e he hline
    rw [hcontents, List.mem_append, List.mem_singleton] at he
    rcases he with he | he
    · exact hbroadcast e he hline
    · rw [he]

/-- What `serial_line_process` does until it yields. -/
theorem Inv.serialLine {s t : LineDelivery} (hs : s.Inv) (hok : s.KeepsUp .serialLine)
    (hst : s.serialLine = some t) : t.Inv := by
  obtain ⟨hcopy, hpost, hrewound⟩ := hok
  rw [LineDelivery.serialLine] at hst
  split at hst
  next => exact nomatch hst
  next hpc =>
      by_cases hfull : s.bufferFull = true
      · -- `memcpy(appbuffer, buffer, ...)`.
        rw [if_pos hfull] at hst
        cases hst
        exact hs.copy hpc hfull (hcopy hpc hfull)
      · -- Back to `PROCESS_YIELD`, with nothing to do.
        rw [if_neg hfull] at hst
        cases hst
        obtain ⟨hcurrent, _, _, _, hsingle, _, hbroadcast, hpolled⟩ := hs.buffers
        refine hs.of_same rfl ?_ ?_ rfl rfl
          ⟨hcurrent, fun h => absurd h hfull, fun h => absurd rfl h, fun h => (nomatch h),
            hsingle, fun h => (nomatch h), hbroadcast, fun h => absurd h hfull⟩
        · simp [inApp, lineEvents, hpc]
        · simp [inBuf, hfull]
  next hpc =>
      -- `process_post`.
      cases hst
      exact hs.postLine hpc (hpost hpc)
  next hpc =>
      -- The bytes of `buffer` are gone, but it is not free yet.
      cases hst
      obtain ⟨_, _, hfull, _, hsingle, _, hbroadcast, hpolled⟩ := hs.buffers
      have hfull' : s.bufferFull = true := hfull (by rw [hpc]; decide) (by rw [hpc]; decide)
      refine hs.of_same rfl ?_ ?_ rfl rfl
        ⟨fun h => absurd (hfull'.symm.trans h) (by decide),
          fun _ h => h.elim (fun h => nomatch h) (fun h => nomatch h), fun _ _ => hfull',
          fun _ => rfl, hsingle, fun h => (nomatch h), hbroadcast, fun _ h => (nomatch h)⟩
      · simp [inApp, lineEvents, hpc]
      · simp [inBuf, hpc]
  next hpc =>
      -- `buffer` becomes free between two lines, so it starts at the start of the next one.
      cases hst
      obtain ⟨_, _, _, hempty, hsingle, _, hbroadcast, hpolled⟩ := hs.buffers
      refine hs.of_same rfl ?_ ?_ rfl rfl
        ⟨fun _ => (hempty hpc).trans (hrewound hpc).symm, fun h => (nomatch h),
          fun h => absurd rfl h, fun h => (nomatch h), hsingle, fun h => (nomatch h), hbroadcast,
          fun h => (nomatch h)⟩
      · simp [inApp, lineEvents, hpc]
      · simp [inBuf, hpc]

/-! ### `dissemination_process` -/

/-- The head of the wait for Glossy, when the lines allow both of its ends. -/
theorem Inv.whileGlossyIsOn {s : LineDelivery} (hbuffers : s.Buffers)
    (hlines : ∀ paused, Lines s.parsed s.inApp s.inBuf s.written paused) :
    s.whileGlossyIsOn.Inv := by
  obtain ⟨hcurrent, hterminated, hfull, hrewound, hsingle, hcopied, hbroadcast, hpolled⟩ := hbuffers
  have hpaused : ∀ paused, { s with paused := paused }.Inv := fun paused =>
    ⟨hlines paused, hcurrent, hterminated, hfull, hrewound, hsingle, hcopied, hbroadcast,
      hpolled⟩
  rw [LineDelivery.whileGlossyIsOn]
  split
  · obtain ⟨events, heq, hcount, hmem⟩ :=
      @exists_post s ⟨.continue_, .dissemination⟩ (fun h => nomatch h)
    rw [heq]
    exact (hpaused true).requeue hcount hmem
  · exact hpaused false

/-- Another event wakes `dissemination_process` only in its pause. -/
theorem Inv.dissemination {s : LineDelivery} (hs : s.Inv) {ev : EventId} (hev : ev ≠ .serialLine) :
    (s.dissemination ev).Inv := by
  rw [LineDelivery.dissemination]
  by_cases hpaused : s.paused = true
  · rw [if_pos hpaused]
    have hlines := hs.lines
    rw [hpaused] at hlines
    exact Inv.whileGlossyIsOn hs.buffers (hlines.pause (List.Sublist.refl _))
  · rw [if_neg hpaused, if_neg hev]
    exact hs

/-- The line event is parsed, or lost in the pause. -/
theorem Inv.disseminate {s : LineDelivery} (hs : s.Inv) (hpc : s.serialPc = .yield)
    {e : EventData} (he : s.delivering = some e) :
    ({ s with delivering := none }.dissemination e.ev).Inv := by
  have hcount := lineEvents_delivered he
  by_cases hev : e.ev = .serialLine
  · rw [if_pos hev] at hcount
    obtain ⟨hlines, hcurrent, hterminated, hfull, hrewound, hsingle, _, hbroadcast, hpolled⟩ := hs
    have hnone : { s with delivering := none }.lineEvents = 0 := by omega
    have hbuffers : { s with delivering := none }.Buffers :=
      ⟨hcurrent, hterminated, hfull, hrewound, by omega, fun _ => hnone, hbroadcast,
        hpolled⟩
    have happ : s.inApp = [(s.inAppbuffer, cString s.appbuffer)] :=
      if_pos (Or.inl (by omega))
    have happ' : { s with delivering := none }.inApp = [] :=
      if_neg fun h => h.elim (fun h => h hnone) fun h => absurd (hpc.symm.trans h) (by decide)
    rw [happ] at hlines
    rw [LineDelivery.dissemination]
    by_cases hpaused : s.paused = true
    · -- The event only wakes the process, so its line is lost.
      rw [if_pos hpaused]
      rw [hpaused] at hlines
      refine Inv.whileGlossyIsOn hbuffers fun paused => ?_
      rw [happ']
      exact hlines.pause (List.nil_sublist _) paused
    · -- The line is parsed from `appbuffer`.
      rw [if_neg hpaused, if_pos hev]
      obtain ⟨hcurrent, hterminated, hfull, hrewound, hsingle, hcopied, hbroadcast, hpolled⟩ :=
        hbuffers
      refine Inv.whileGlossyIsOn
        ⟨hcurrent, hterminated, hfull, hrewound, hsingle, hcopied, hbroadcast, hpolled⟩
        fun paused => ?_
      have happ'' : { s with
          delivering := none
          parsed := s.parsed ++ [(s.inAppbuffer, cString s.appbuffer)] }.inApp = [] := by
        rw [← happ']
        rfl
      rw [happ'']
      exact hlines.parse paused
  · -- Any other event leaves the line in `appbuffer`.
    rw [if_neg hev, Nat.add_zero] at hcount
    refine Inv.dissemination ?_ hev
    obtain ⟨hcurrent, hterminated, hfull, hrewound, hsingle, _, hbroadcast, hpolled⟩ := hs.buffers
    have happ : { s with delivering := none }.inApp = s.inApp := by
      rw [inApp, inApp, hcount]
    exact hs.of_same rfl happ rfl rfl rfl
      ⟨hcurrent, hterminated, hfull, hrewound, by omega,
        fun h => absurd (hpc.symm.trans h) (by decide), hbroadcast, hpolled⟩

/-- The first event leaves the queue. A line event is on its way to `dissemination_process`. -/
theorem Inv.doEvent {s : LineDelivery} (hs : s.Inv) (hpc : s.serialPc = .yield)
    (hnone : s.delivering = none) {e : EventData} {events : EventQueue EventData}
    (he : s.events.doEvent = some (e, events)) :
    { s with
        events := events
        delivering := if e.p = EventReceiver.other then none else some e }.Inv := by
  obtain ⟨hcurrent, hterminated, hfull, hrewound, hsingle, _, hbroadcast, hpolled⟩ := hs.buffers
  have hcontents := Core.EventQueue.contents_doEvent he
  have hmem : e ∈ s.events.contents := hcontents ▸ List.mem_cons_self
  have hcount : { s with
      events := events
      delivering := if e.p = EventReceiver.other then none else some e }.lineEvents =
        s.lineEvents := by
    simp only [lineEvents, hnone, hcontents, Option.toList_none, List.append_nil,
      List.countP_append, List.countP_cons]
    by_cases hp : e.p = EventReceiver.other
    · -- Line events go to every process.
      have hev : e.ev ≠ .serialLine := fun h => by
        rw [hbroadcast e hmem h] at hp
        exact nomatch hp
      simp [hp, hev]
    · simp [hp]
  have happ : { s with
      events := events
      delivering := if e.p = EventReceiver.other then none else some e }.inApp = s.inApp := by
    rw [inApp, inApp, hcount]
  exact hs.of_same rfl happ rfl rfl rfl
    ⟨hcurrent, hterminated, hfull, hrewound, by omega,
      fun h => absurd (hpc.symm.trans h) (by decide),
      fun e' he' hline => hbroadcast e' (hcontents ▸ List.mem_cons_of_mem _ he') hline, hpolled⟩

/-! ### Runs -/

/-- A step keeps the invariant when `serial_line_process` keeps up. -/
theorem Inv.step {s t : LineDelivery} {a : Action} (hs : s.Inv) (hok : s.KeepsUp a)
    (hst : s.step a = some t) : t.Inv := by
  cases a with
  | uart c =>
      cases hst
      exact hs.inputByte hok
  | glossy on =>
      cases hst
      obtain ⟨hlines, hcurrent, hterminated, hfull, hrewound, hsingle, hcopied, hbroadcast,
        hpolled⟩ := hs
      exact ⟨hlines, hcurrent, hterminated, hfull, hrewound, hsingle, hcopied, hbroadcast,
        hpolled⟩
  | poll =>
      obtain ⟨⟨hpc, _⟩, ⟨⟩⟩ := Option.ite_none_right_eq_some.mp hst
      exact hs.call hpc false
  | wake =>
      obtain ⟨hpc, ⟨⟩⟩ := Option.ite_none_right_eq_some.mp hst
      exact hs.call hpc s.needsPoll
  | serialLine => exact hs.serialLine hok hst
  | post e =>
      obtain ⟨⟨_, hev⟩, ⟨⟩⟩ := Option.ite_none_right_eq_some.mp hst
      exact hs.post hev
  | doEvent =>
      obtain ⟨⟨hpc, hnone⟩, hst⟩ := Option.ite_none_right_eq_some.mp hst
      obtain ⟨⟨e, events⟩, he, ⟨⟩⟩ := Option.map_eq_some_iff.mp hst
      exact hs.doEvent hpc hnone he
  | disseminate =>
      obtain ⟨hpc, hst⟩ := Option.ite_none_right_eq_some.mp hst
      obtain ⟨e, he, ⟨⟩⟩ := Option.map_eq_some_iff.mp hst
      exact hs.disseminate hpc he
  | synch ev =>
      obtain ⟨⟨_, hev⟩, ⟨⟩⟩ := Option.ite_none_right_eq_some.mp hst
      exact hs.dissemination hev

/-- Lines at growing positions are a subsequence. -/
theorem Inv.delivers {s : LineDelivery} (hs : s.Inv) : s.Delivers where
  subsequence := by
    obtain ⟨hordered, hcomplete, _, _⟩ := hs.lines
    rw [List.append_assoc] at hordered hcomplete
    rw [List.map_append, List.pairwise_append] at hordered
    refine sublist_of_positions hordered.1 fun p hp => ?_
    obtain ⟨line, hline, htext⟩ := hcomplete p (List.mem_append_left _ hp)
    rw [List.getElem?_map, hline, htext]
    rfl
  lines := hs.lines
  polled := hs.buffers.polled

/-- In every run in which `serial_line_process` keeps up, the lines are delivered. -/
theorem delivers_of_reachableIf {s : LineDelivery} (h : lineDelivery.ReachableIf KeepsUp s) :
    s.Delivers := by
  have hinv : s.Inv := h.invariant Inv inv_init fun _ _ _ hs hok hst => hs.step hok hst
  exact hinv.delivers

/-- The calls of `serial_line_process` that copy a line. -/
def copyLine : List Action := [.poll, .serialLine, .serialLine, .serialLine, .serialLine]

/-- The way of an event to `dissemination_process`. -/
def handleEvent : List Action := [.doEvent, .disseminate]

/-- The line `1` goes its way, then the line `23`. -/
def orderlyRun : List Action :=
  [Action.uart 49, .uart 10] ++ copyLine ++ handleEvent ++
    [Action.uart 50, .uart 51, .uart 10] ++ copyLine ++ handleEvent

/-- The `2` of the second line comes while `buffer` is full. -/
def fragmentRun : List Action :=
  [Action.uart 49, .uart 10, .uart 50] ++ copyLine ++ [Action.uart 51, .uart 10] ++
    handleEvent ++ copyLine ++ handleEvent

/-- The second line comes before the event of the first one is handled. -/
def overwriteRun : List Action :=
  [Action.uart 49, .uart 10] ++ copyLine ++ [Action.uart 50, .uart 51, .uart 10] ++ copyLine ++
    handleEvent ++ handleEvent

/-- A run in which the process keeps up, and all lines are delivered. -/
theorem delivers_of_reachableIf_orderly :
    ∃ s, lineDelivery.runIf KeepsUp .init orderlyRun = some s ∧ s.Delivers := by
  obtain ⟨s, hs⟩ : ∃ s, lineDelivery.runIf KeepsUp .init orderlyRun = some s :=
    Option.isSome_iff_exists.mp (by decide +kernel)
  exact ⟨s, hs, delivers_of_reachableIf (Machine.reachableIf_of_runIf KeepsUp _ hs)⟩

/-- The rest of a line is parsed as a line. A line is parsed twice, in place of one that was
written while no other one was in process. -/
theorem not_delivers :
    (∃ s, lineDelivery.ReachableIf ShortLines s ∧ ¬ s.Delivers ∧
      s.parsed.map Prod.snd = [[49], [51]] ∧
      s.written.map WrittenLine.text = [[49], [50, 51]]) ∧
    ∃ s, lineDelivery.ReachableIf ShortLines s ∧ ¬ s.Delivers ∧
      s.parsed.map Prod.snd = [[50, 51], [50, 51]] ∧
      s.written.map WrittenLine.text = [[49], [50, 51]] := by
  constructor
  · have hend : (lineDelivery.runIf ShortLines .init fragmentRun).map (fun s =>
        (s.parsed.map Prod.snd, s.written.map WrittenLine.text)) =
          some ([[49], [51]], [[49], [50, 51]]) := by
      decide +kernel
    obtain ⟨s, hreach, hs⟩ := Machine.exists_reachableIf_of_runIf (M := lineDelivery) hend
    obtain ⟨hparsed, hwritten⟩ := Prod.mk.inj hs
    refine ⟨s, hreach, fun h => ?_, hparsed, hwritten⟩
    have hsub := h.subsequence
    rw [hparsed, hwritten] at hsub
    exact absurd hsub (by decide)
  · have hend : (lineDelivery.runIf ShortLines .init overwriteRun).map (fun s =>
        (s.parsed.map Prod.snd, s.written.map WrittenLine.text)) =
          some ([[50, 51], [50, 51]], [[49], [50, 51]]) := by
      decide +kernel
    obtain ⟨s, hreach, hs⟩ := Machine.exists_reachableIf_of_runIf (M := lineDelivery) hend
    obtain ⟨hparsed, hwritten⟩ := Prod.mk.inj hs
    refine ⟨s, hreach, fun h => ?_, hparsed, hwritten⟩
    have hsub := h.subsequence
    rw [hparsed, hwritten] at hsub
    exact absurd hsub (by decide)

end LineDelivery

end PTunes.Glossy
