import Mathlib.Data.List.ReduceOption
import PTunes.Core.Uart1
import PTunes.Proofs.Core.Ringbuf

/-!
# `PTunes.Proofs.Core.Uart1`: what arrives on the serial line

* `line_prefix`: in every run, the bytes on the line are those that were written, in this order,
  and none of them is missing or comes twice. Between them there may be 0xFF bytes.
* `drained`: when `uart1_writeb` has returned, and neither the interrupt nor the hardware has
  anything to do, all of them are on the line: the transmission never stalls.
* `no_padding`: there is no such 0xFF in a run in which the interrupt does not find the buffer empty
  while `uart1_writeb` is between its `ringbuf_put` and its test of `transmitting`. There the byte
  was sent already, and `uart1_writeb` starts the transmission of an empty buffer.
-/

set_option autoImplicit false

namespace PTunes.Core

namespace Uart1

/-- The byte that was given to `uart1_writeb` and is not in the buffer yet. -/
def entering : WritebPc → List UInt8
  | .put c | .store c | .advancePut c => [c]
  | _ => []

/-- The byte that `uart1_writeb` took out of the buffer. -/
def leaving : WritebPc → List UInt8
  | .send (some c) => [c]
  | _ => []

/-- `uart1_writeb` starts the transmission. -/
def Starting : WritebPc → Prop
  | .getTest | .fetch | .readGet _ | .advanceGet .. | .send _ => True
  | _ => False

/-- What `uart1_writeb` knows of the buffer. -/
def Step (s : Uart1) : WritebPc → Prop
  | .store _ => ¬ s.txbuf.isFull
  | .advancePut c => ¬ s.txbuf.isFull ∧ s.txbuf.data s.txbuf.putPtr = c
  | .start => s.transmitting = false
  | .fetch => s.txbuf.contents ≠ []
  | .readGet c => s.txbuf.contents ≠ [] ∧ s.txbuf.data s.txbuf.getPtr = c
  | .advanceGet c g =>
    s.txbuf.contents ≠ [] ∧ s.txbuf.data s.txbuf.getPtr = c ∧
      g = (s.txbuf.getPtr + 1) &&& s.txbuf.mask
  | _ => True

/-- The bytes that are on the line or will be next, without those for -1. -/
def sent (s : Uart1) : List UInt8 := s.line.reduceOption ++ s.txbuf1.join.toList

/-- Who moves the bytes: `uart1_writeb` while it starts the transmission, and else the interrupt or
the hardware, as long as `transmitting` says so. -/
structure Inv (s : Uart1) : Prop where
  sized : s.txbuf.Sized 6
  step : s.Step s.pc
  bytes : s.sent ++ leaving s.pc ++ s.txbuf.contents ++ entering s.pc = s.written
  starting : Starting s.pc → s.transmitting ∧ s.utxifg1 = false ∧ s.txbuf1 = none
  stopped : s.transmitting = false → s.utxifg1 = false ∧ s.txbuf1 = none
  empty : s.transmitting = false → s.txbuf.contents = [] ∨ s.pc = .test ∨ s.pc = .start
  moving : s.transmitting → Starting s.pc ∨ s.utxifg1 ∨ s.txbuf1 ≠ none
  flag : s.utxifg1 → s.txbuf1 = none

variable {s t : Uart1}

/-- After `uart1_init` the buffers are empty, and no interrupt is due. -/
theorem Inv.init : Uart1.init.Inv := by
  have hsize : (txbufsize - 1).toNat + 1 = 2 ^ 6 := rfl
  obtain ⟨hsized, hcontents⟩ := Ringbuf.sized_init (fun _ => 0) hsize
  refine ⟨hsized, trivial, ?_, ?_, ?_, ?_, ?_, ?_⟩
  · show [] ++ _ ++ (Ringbuf.ringbufInit (fun _ => 0) txbufsize).contents ++ _ = []
    rw [hcontents]
    rfl
  · intro h
    cases h
  · intro _
    exact ⟨rfl, rfl⟩
  · intro _
    exact .inl hcontents
  · intro h
    cases h
  · intro h
    cases h

/-! ### The steps -/

/-- When the interrupt comes, a transmission is under way and the register is empty. It does not
come while `uart1_writeb` starts the transmission. -/
theorem Inv.of_flag (h : s.Inv) (hflag : s.utxifg1) :
    s.transmitting = true ∧ s.txbuf1 = none ∧ ¬ Starting s.pc ∧ leaving s.pc = [] := by
  have hpc : ¬ Starting s.pc := by
    intro hst
    rw [(h.starting hst).2.1] at hflag
    cases hflag
  refine ⟨?_, h.flag hflag, hpc, ?_⟩
  · by_contra hne
    rw [(h.stopped (by simpa using hne)).1] at hflag
    cases hflag
  · cases hp : s.pc with
    | send c =>
        rw [hp] at hpc
        exact absurd trivial hpc
    | _ => rfl

/-- The interrupt finds no byte, and the transmission ends. -/
theorem Inv.interrupt_empty (h : s.Inv) (hflag : s.utxifg1)
    (hzero : s.txbuf.ringbufElements = 0) :
    Inv { s with utxifg1 := false, transmitting := false } := by
  obtain ⟨-, hnone, hpc, -⟩ := h.of_flag hflag
  have hnil : s.txbuf.contents = [] := by
    rw [← List.length_eq_zero_iff, Ringbuf.length_contents, hzero]
    rfl
  refine ⟨h.sized, ?_, h.bytes, fun hst => absurd hst hpc, fun _ => ⟨rfl, hnone⟩,
    fun _ => .inl hnil, fun hc => (by cases hc), fun hc => (by cases hc)⟩
  have hstep := h.step
  cases hp : s.pc with
  | start => rfl
  | _ =>
      rw [hp] at hstep
      exact hstep

/-- The interrupt takes the first byte out of the buffer and puts it into the register. -/
theorem Inv.interrupt_byte (h : s.Inv) (hflag : s.utxifg1)
    (hne : s.txbuf.ringbufElements ≠ 0) :
    Inv (writeTxbuf1 { s with utxifg1 := false, txbuf := s.txbuf.ringbufGet.2 }
      s.txbuf.ringbufGet.1) := by
  obtain ⟨htrans, hnone, hpc, hleaving⟩ := h.of_flag hflag
  have hbytes := h.bytes
  rw [sent, hnone, hleaving] at hbytes
  have hcontents : s.txbuf.contents ≠ [] := by
    intro hnil
    rw [← List.length_eq_zero_iff, Ringbuf.length_contents] at hnil
    exact hne (UInt8.toNat_inj.mp hnil)
  obtain ⟨hsized, hhead, htail⟩ := h.sized.contents_get
  obtain ⟨c, rest, hc⟩ := List.exists_cons_of_ne_nil hcontents
  rw [hc] at hhead htail hbytes
  have hget : s.txbuf.ringbufGet.2 = s.txbuf.advanceGet := by
    rw [Ringbuf.ringbufGet, if_pos (Ringbuf.elements_pos_iff.mpr hcontents)]
  -- A place that was free stays free.
  have hfull : ¬ s.txbuf.isFull → ¬ s.txbuf.ringbufGet.2.isFull := by
    intro hf hf'
    rw [h.sized.isFull_iff, hc, List.length_cons] at hf
    rw [hsized.isFull_iff, htail] at hf'
    have hlt := h.sized.elements_lt
    rw [← Ringbuf.length_contents, hc, List.length_cons] at hlt
    simp only [List.tail_cons] at hf'
    omega
  refine ⟨hsized, ?_, ?_, fun hst => absurd hst hpc, fun hf => ?_, fun hf => ?_,
    fun _ => .inr (.inr (by simp [writeTxbuf1])), fun hf => (by cases hf)⟩
  · have hstep := h.step
    cases hp : s.pc with
    | store c =>
        rw [hp] at hstep
        exact hfull hstep
    | advancePut c =>
        rw [hp] at hstep
        refine ⟨hfull hstep.1, ?_⟩
        show s.txbuf.ringbufGet.2.data s.txbuf.ringbufGet.2.putPtr = c
        rw [hget]
        exact hstep.2
    | start =>
        rw [hp] at hstep
        rw [show s.transmitting = false from hstep] at htrans
        cases htrans
    | idle | put | test => trivial
    | _ =>
        rw [hp] at hpc
        exact absurd trivial hpc
  · show (s.line.reduceOption ++ s.txbuf.ringbufGet.1.toList) ++ leaving s.pc ++
      s.txbuf.ringbufGet.2.contents ++ entering s.pc = s.written
    rw [hhead, htail, hleaving, ← hbytes]
    simp
  · rw [show s.transmitting = false from hf] at htrans
    cases htrans
  · rw [show s.transmitting = false from hf] at htrans
    cases htrans

/-- The interrupt. -/
theorem Inv.txInterrupt (h : s.Inv) (hflag : s.utxifg1) : s.uart1TxInterrupt.Inv := by
  rw [uart1TxInterrupt]
  dsimp only
  split
  · rename_i hzero
    exact h.interrupt_empty hflag hzero
  · rename_i hne
    exact h.interrupt_byte hflag hne

/-- The hardware. -/
theorem Inv.shift (h : s.Inv) {c : Option UInt8} (hc : s.txbuf1 = some c) :
    ({ s with txbuf1 := none, utxifg1 := true, line := s.line ++ [c] } : Uart1).Inv := by
  have htrans : s.transmitting = true := by
    by_contra hne
    rw [(h.stopped (by simpa using hne)).2] at hc
    cases hc
  have hpc : ¬ Starting s.pc := by
    intro hst
    rw [(h.starting hst).2.2] at hc
    cases hc
  refine ⟨h.sized, ?_, ?_, fun hst => absurd hst hpc, fun hf => ?_, h.empty,
    fun _ => .inr (.inl rfl), fun _ => rfl⟩
  · have hstep := h.step
    cases hp : s.pc <;> rw [hp] at hstep <;> exact hstep
  · rw [← h.bytes, sent, sent, hc]
    cases c <;> simp [List.reduceOption_append]
  · rw [show s.transmitting = false from hf] at htrans
    cases htrans

/-- A step of `uart1_writeb` that leaves the registers alone, and is not part of the start. -/
theorem Inv.keep (h : s.Inv) (hpc : ¬ Starting s.pc) (hsized : t.txbuf.Sized 6)
    (hstep : t.Step t.pc) (htrans : t.transmitting = s.transmitting) (htxbuf : t.txbuf1 = s.txbuf1)
    (hflag : t.utxifg1 = s.utxifg1) (hpc' : ¬ Starting t.pc)
    (hbytes : t.sent ++ leaving t.pc ++ t.txbuf.contents ++ entering t.pc = t.written)
    (hempty : t.transmitting = false → t.txbuf.contents = [] ∨ t.pc = .test ∨ t.pc = .start) :
    t.Inv where
  sized := hsized
  step := hstep
  bytes := hbytes
  starting hst := absurd hst hpc'
  stopped hf := by
    rw [htxbuf, hflag]
    exact h.stopped (htrans ▸ hf)
  empty := hempty
  moving ht := by
    rw [htxbuf, hflag]
    exact .inr ((h.moving (htrans ▸ ht)).resolve_left hpc)
  flag hf := by
    rw [htxbuf]
    exact h.flag (hflag ▸ hf)

/-- A step while the transmission is started. -/
theorem Inv.keepStarting (h : s.Inv) (hpc : Starting s.pc) (hsized : t.txbuf.Sized 6)
    (hstep : t.Step t.pc) (htrans : t.transmitting = s.transmitting) (htxbuf : t.txbuf1 = s.txbuf1)
    (hflag : t.utxifg1 = s.utxifg1) (hpc' : Starting t.pc)
    (hbytes : t.sent ++ leaving t.pc ++ t.txbuf.contents ++ entering t.pc = t.written) :
    t.Inv := by
  obtain ⟨ht, hu, hx⟩ := h.starting hpc
  rw [← htrans] at ht
  rw [← hflag] at hu
  rw [← htxbuf] at hx
  refine ⟨hsized, hstep, hbytes, fun _ => ⟨ht, hu, hx⟩, fun hf => ?_, fun hf => ?_,
    fun _ => .inl hpc', fun _ => hx⟩
  · rw [ht] at hf
    cases hf
  · rw [ht] at hf
    cases hf

/-- `ringbuf_put` looks whether there is room. It looks again until there is. -/
theorem Inv.code_put {c : UInt8} (h : s.Inv) (hpc : s.pc = .put c) :
    Inv { s with pc := if s.txbuf.isFull then .put c else .store c } := by
  have hbytes := h.bytes
  rw [hpc] at hbytes
  have hst : ¬ Starting s.pc := by rw [hpc]; exact id
  have hempty : s.transmitting = false → s.txbuf.contents = [] := by
    intro hf
    have he := h.empty hf
    rw [hpc] at he
    simpa using he
  by_cases hfull : s.txbuf.isFull = true
  · refine h.keep hst h.sized ?_ rfl rfl rfl ?_ ?_ fun hf => .inl (hempty hf) <;>
      simp only [hfull, if_true]
    · trivial
    · exact id
    · exact hbytes
  · refine h.keep hst h.sized ?_ rfl rfl rfl ?_ ?_ fun hf => .inl (hempty hf) <;>
      simp only [hfull]
    · exact hfull
    · exact id
    · exact hbytes

/-- The byte is stored behind the contents, which do not change before `put_ptr` does. -/
theorem Inv.code_store {c : UInt8} (h : s.Inv) (hpc : s.pc = .store c) :
    Inv { s with txbuf := s.txbuf.store c, pc := .advancePut c } := by
  have hbytes := h.bytes
  have hstep := h.step
  rw [hpc] at hbytes hstep
  refine h.keep (by rw [hpc]; exact id) (h.sized.store c) ⟨hstep, Function.update_self ..⟩
    rfl rfl rfl id ?_ fun hf => .inl ?_
  · rw [h.sized.contents_store]
    exact hbytes
  · rw [h.sized.contents_store]
    have he := h.empty hf
    rw [hpc] at he
    simpa using he

/-- The byte that was on its way into the buffer is its last one. -/
theorem Inv.code_advancePut {c : UInt8} (h : s.Inv) (hpc : s.pc = .advancePut c) :
    Inv { s with txbuf := s.txbuf.advancePut, pc := .test } := by
  have hbytes := h.bytes
  have hstep := h.step
  rw [hpc] at hbytes hstep
  refine h.keep (by rw [hpc]; exact id) h.sized.advancePut trivial rfl rfl rfl id ?_
    fun _ => .inr (.inl rfl)
  rw [h.sized.contents_advancePut hstep.1, hstep.2, ← hbytes]
  simp [sent, leaving, entering]

/-- `transmitting` is tested. While it is set, the interrupt takes the byte out of the buffer. -/
theorem Inv.code_test (h : s.Inv) (hpc : s.pc = .test) :
    Inv { s with pc := if s.transmitting then .idle else .start } := by
  have hbytes := h.bytes
  rw [hpc] at hbytes
  have hst : ¬ Starting s.pc := by rw [hpc]; exact id
  by_cases htrans : s.transmitting = true
  · refine h.keep hst h.sized ?_ rfl rfl rfl ?_ ?_ ?_ <;> simp only [htrans, if_true]
    · trivial
    · exact id
    · exact hbytes
    · intro hf
      cases hf
  · refine h.keep hst h.sized ?_ rfl rfl rfl ?_ ?_ ?_ <;> simp only [htrans]
    · rfl
    · exact id
    · exact hbytes
    · exact fun _ => .inr (.inr rfl)

/-- `transmitting` is set. The interrupt is off, since nothing has been transmitted before. -/
theorem Inv.code_start (h : s.Inv) (hpc : s.pc = .start) :
    Inv { s with transmitting := true, pc := .getTest } := by
  have hbytes := h.bytes
  have hstep := h.step
  rw [hpc] at hbytes hstep
  obtain ⟨hu, hx⟩ := h.stopped hstep
  refine ⟨h.sized, trivial, hbytes, fun _ => ⟨rfl, hu, hx⟩, fun hf => ?_, fun hf => ?_,
    fun _ => .inl trivial, fun _ => hx⟩
  · cases hf
  · cases hf

/-- `ringbuf_get` looks whether there is a byte. -/
theorem Inv.code_getTest (h : s.Inv) (hpc : s.pc = .getTest) :
    Inv { s with
      pc := if 0 < (s.txbuf.putPtr - s.txbuf.getPtr) &&& s.txbuf.mask then .fetch
        else .send none } := by
  have hbytes := h.bytes
  rw [hpc] at hbytes
  have hst : Starting s.pc := by rw [hpc]; trivial
  by_cases hpos : 0 < (s.txbuf.putPtr - s.txbuf.getPtr) &&& s.txbuf.mask
  · refine h.keepStarting hst h.sized ?_ rfl rfl rfl ?_ ?_ <;> simp only [hpos, if_true]
    · exact Ringbuf.elements_pos_iff.mp hpos
    · trivial
    · exact hbytes
  · refine h.keepStarting hst h.sized ?_ rfl rfl rfl ?_ ?_ <;> simp only [hpos, if_false]
    · trivial
    · trivial
    · exact hbytes

/-- The byte is read, and it is still in the buffer. -/
theorem Inv.code_fetch (h : s.Inv) (hpc : s.pc = .fetch) :
    Inv { s with pc := .readGet (s.txbuf.data s.txbuf.getPtr) } := by
  have hbytes := h.bytes
  have hstep := h.step
  rw [hpc] at hbytes hstep
  exact h.keepStarting (by rw [hpc]; trivial) h.sized ⟨hstep, rfl⟩ rfl rfl rfl trivial hbytes

/-- The next `get_ptr` is computed. No interrupt can change the old one in between, since the
transmission starts only now. -/
theorem Inv.code_readGet {c : UInt8} (h : s.Inv) (hpc : s.pc = .readGet c) :
    Inv { s with pc := .advanceGet c ((s.txbuf.getPtr + 1) &&& s.txbuf.mask) } := by
  have hbytes := h.bytes
  have hstep := h.step
  rw [hpc] at hbytes hstep
  exact h.keepStarting (by rw [hpc]; trivial) h.sized ⟨hstep.1, hstep.2, rfl⟩ rfl rfl rfl
    trivial hbytes

/-- The first byte of the buffer becomes the one on its way out. -/
theorem Inv.code_advanceGet {c g : UInt8} (h : s.Inv) (hpc : s.pc = .advanceGet c g) :
    Inv { s with txbuf := { s.txbuf with getPtr := g }, pc := .send (some c) } := by
  have hbytes := h.bytes
  have hstep := h.step
  rw [hpc] at hbytes hstep
  obtain ⟨hne, hc, rfl⟩ := hstep
  refine h.keepStarting (by rw [hpc]; trivial) h.sized.advanceGet trivial rfl rfl rfl trivial ?_
  rw [h.sized.contents_advanceGet hne, hc] at hbytes
  rw [← hbytes]
  show _ ++ [c] ++ s.txbuf.advanceGet.contents ++ _ = _
  simp [sent, leaving, entering]

/-- The register gets the byte, and `uart1_writeb` is over. -/
theorem Inv.code_send {c : Option UInt8} (h : s.Inv) (hpc : s.pc = .send c) :
    Inv { s.writeTxbuf1 c with pc := .idle } := by
  have hbytes := h.bytes
  rw [hpc] at hbytes
  obtain ⟨ht, _, hx⟩ := h.starting (by rw [hpc]; trivial)
  refine ⟨h.sized, trivial, ?_, fun hst => (by cases hst), fun hf => ?_, fun hf => ?_,
    fun _ => .inr (.inr (by simp [writeTxbuf1])), fun hf => (by cases hf)⟩
  · refine Eq.trans ?_ hbytes
    rw [sent, sent, hx]
    cases c <;> simp [writeTxbuf1, leaving, entering]
  · rw [show s.transmitting = false from hf] at ht
    cases ht
  · rw [show s.transmitting = false from hf] at ht
    cases ht

/-- A step of `uart1_writeb`, one lemma for each place. -/
theorem Inv.code (h : s.Inv) (hcode : s.code = some t) : t.Inv := by
  rw [Uart1.code] at hcode
  cases hpc : s.pc with
  | idle =>
      rw [hpc] at hcode
      cases hcode
  | put c =>
      rw [hpc] at hcode
      cases hcode
      exact h.code_put hpc
  | store c =>
      rw [hpc] at hcode
      cases hcode
      exact h.code_store hpc
  | advancePut c =>
      rw [hpc] at hcode
      cases hcode
      exact h.code_advancePut hpc
  | test =>
      rw [hpc] at hcode
      cases hcode
      exact h.code_test hpc
  | start =>
      rw [hpc] at hcode
      cases hcode
      exact h.code_start hpc
  | getTest =>
      rw [hpc] at hcode
      cases hcode
      exact h.code_getTest hpc
  | fetch =>
      rw [hpc] at hcode
      cases hcode
      exact h.code_fetch hpc
  | readGet c =>
      rw [hpc] at hcode
      cases hcode
      exact h.code_readGet hpc
  | advanceGet c g =>
      rw [hpc] at hcode
      cases hcode
      exact h.code_advanceGet hpc
  | send c =>
      rw [hpc] at hcode
      cases hcode
      exact h.code_send hpc

/-- Every step keeps the invariant. -/
theorem Inv.next (h : s.Inv) {a : Uart1Label} (hstep : s.step a = some t) : t.Inv := by
  cases a with
  | writeb c =>
      rw [Uart1.step] at hstep
      split at hstep
      · rename_i hpc
        have hbytes := h.bytes
        rw [hpc] at hbytes
        cases hstep
        -- The byte enters the books when it enters the function.
        refine h.keep (by rw [hpc]; exact id) h.sized trivial rfl rfl rfl id ?_ fun hf => .inl ?_
        · rw [← hbytes]
          simp [sent, leaving, entering]
        · have he := h.empty hf
          rw [hpc] at he
          simpa using he
      · cases hstep
  | code => exact h.code hstep
  | txInterrupt =>
      rw [Uart1.step] at hstep
      split at hstep
      · cases hstep
        exact h.txInterrupt (by assumption)
      · cases hstep
  | shift =>
      rw [Uart1.step] at hstep
      split at hstep
      · cases hstep
      · rename_i c hc
        cases hstep
        exact h.shift hc

end Uart1

/-- The invariant of every run. -/
theorem uart1_inv {s : Uart1} (h : uart1.Reachable s) : s.Inv :=
  h.invariant Uart1.Inv .init fun _ _ _ hs hstep => hs.next hstep

/-- **No byte is lost, doubled or out of order.** The bytes on the line, apart from those for -1,
are the first ones of the bytes that were written. -/
theorem line_prefix {s : Uart1} (h : uart1.Reachable s) : s.line.reduceOption <+: s.written := by
  have hbytes := (uart1_inv h).bytes
  rw [Uart1.sent, List.append_assoc, List.append_assoc, List.append_assoc] at hbytes
  exact ⟨_, hbytes⟩

/-- **The transmission does not stall.** When no step, no interrupt and no shift is to come, every
byte that was written is on the line. -/
theorem drained {s : Uart1} (h : uart1.Reachable s)
    (hquiet : ∀ a, (∀ c, a ≠ .writeb c) → uart1.step s a = none) :
    s.line.reduceOption = s.written := by
  have hinv := uart1_inv h
  have hpc : s.pc = .idle := by
    have hcode : s.code = none := hquiet .code fun c hc => by cases hc
    cases hpc : s.pc with
    | idle => rfl
    | _ =>
        rw [Uart1.code, hpc] at hcode
        cases hcode
  have hflag : s.utxifg1 = false := by
    by_contra hne
    have hstep : uart1.step s .txInterrupt = none := hquiet .txInterrupt fun c hc => by cases hc
    rw [show uart1.step s .txInterrupt = some s.uart1TxInterrupt from
      if_pos (by simpa using hne)] at hstep
    cases hstep
  have hreg : s.txbuf1 = none := by
    cases hx : s.txbuf1 with
    | none => rfl
    | some c =>
        have hstep : s.step .shift = none := hquiet .shift fun c hc => by cases hc
        rw [Uart1.step, hx] at hstep
        cases hstep
  -- Nobody moves the bytes, so there are none.
  have hstopped : s.transmitting = false := by
    by_contra hne
    rcases hinv.moving (by simpa using hne) with hst | hu | hx
    · rw [hpc] at hst
      cases hst
    · rw [hflag] at hu
      cases hu
    · exact hx hreg
  have hnil : s.txbuf.contents = [] := by
    have he := hinv.empty hstopped
    rw [hpc] at he
    simpa using he
  have hbytes := hinv.bytes
  rw [Uart1.sent, hreg, hpc, hnil] at hbytes
  simpa [Uart1.leaving, Uart1.entering] using hbytes

/-- Two bytes are written. The first one is on the line, the second one in the register. -/
def twoBytes : List Uart1Label :=
  [.writeb 72, .code, .code, .code, .code, .code, .code, .code, .code, .code, .code, .shift,
    .writeb 105, .code, .code, .code, .txInterrupt, .code]

/-- `line_prefix` after the first byte. -/
theorem line_prefix_twoBytes : ∃ s : Uart1, s.line = [some 72] ∧ s.written = [72, 105] ∧
    s.line.reduceOption <+: s.written := by
  have hend : (uart1.run twoBytes).map (fun s => (s.line, s.written)) =
      some ([some 72], [72, 105]) := by
    decide
  obtain ⟨s, hs, hf⟩ := Machine.exists_reachable_of_run hend
  simp only [Prod.mk.injEq] at hf
  exact ⟨s, hf.1, hf.2, line_prefix hs⟩

/-- `drained` when the second byte is out, and the interrupt has found the buffer empty. -/
theorem drained_twoBytes : ∃ s : Uart1, s.line.reduceOption = s.written ∧
    s.written = [72, 105] := by
  have hend : (uart1.run (twoBytes ++ [.shift, .txInterrupt])).map
      (fun s => (s.pc, s.txbuf1, s.utxifg1, s.written)) =
      some (.idle, none, false, [72, 105]) := by
    decide
  obtain ⟨s, hs, hf⟩ := Machine.exists_reachable_of_run hend
  simp only [Prod.mk.injEq] at hf
  obtain ⟨hpc, hreg, hflag, hwritten⟩ := hf
  refine ⟨s, drained hs fun a ha => ?_, hwritten⟩
  cases a with
  | writeb c => exact absurd rfl (ha c)
  | code => simp [uart1, Uart1.step, Uart1.code, hpc]
  | txInterrupt => simp [uart1, Uart1.step, hflag]
  | shift => simp [uart1, Uart1.step, hreg]

/-! ### No padding -/

/-- The interrupt does not find the buffer empty while `uart1_writeb` is about to test
`transmitting`. -/
def NotOvertaken (s : Uart1) : Uart1Label → Prop
  | .txInterrupt => ¬ (s.pc = .test ∧ s.txbuf.ringbufElements = 0)
  | _ => True

instance (s : Uart1) (a : Uart1Label) : Decidable (NotOvertaken s a) := by
  cases a <;> unfold NotOvertaken <;> infer_instance

namespace Uart1

/-- No -1 is on its way, and the transmission is started only with a byte in the buffer. -/
structure Plain (s : Uart1) : Prop where
  line : none ∉ s.line
  txbuf1 : s.txbuf1 ≠ some none
  pc : s.pc ≠ .send none
  test : s.pc = .test → s.transmitting = false → s.txbuf.contents ≠ []
  start : s.pc = .start ∨ s.pc = .getTest → s.txbuf.contents ≠ []

variable {s t : Uart1}

/-- The code puts no -1 on its way: it starts a transmission only after it has seen a byte in the
buffer, and nothing but the interrupt takes one out in between. -/
theorem Plain.code (hinv : s.Inv) (h : s.Plain) (hcode : s.code = some t) : t.Plain := by
  obtain ⟨hline, hreg, hsend, htest, hstart⟩ := h
  have hstep := hinv.step
  cases hpc : s.pc with
  | idle =>
      rw [Uart1.code, hpc] at hcode
      cases hcode
  | put c =>
      rw [Uart1.code, hpc] at hcode
      cases hcode
      by_cases hfull : s.txbuf.isFull = true
      · exact ⟨hline, hreg, by simp [hfull], by simp [hfull], by simp [hfull]⟩
      · exact ⟨hline, hreg, by simp [hfull], by simp [hfull], by simp [hfull]⟩
  | store c | fetch | readGet c | advanceGet c g =>
      rw [Uart1.code, hpc] at hcode
      cases hcode
      exact ⟨hline, hreg, by simp, by simp, by simp⟩
  | advancePut c =>
      rw [Uart1.code, hpc] at hcode
      rw [hpc] at hstep
      cases hcode
      -- The buffer holds the byte that has been put.
      refine ⟨hline, hreg, by simp, fun _ _ => ?_, by simp⟩
      rw [hinv.sized.contents_advancePut hstep.1]
      simp
  | test =>
      rw [Uart1.code, hpc] at hcode
      cases hcode
      by_cases htrans : s.transmitting = true
      · exact ⟨hline, hreg, by simp [htrans], by simp [htrans], by simp [htrans]⟩
      · exact ⟨hline, hreg, by simp [htrans], by simp [htrans],
          fun _ => htest hpc (by simpa using htrans)⟩
  | start =>
      rw [Uart1.code, hpc] at hcode
      cases hcode
      exact ⟨hline, hreg, by simp, by simp, fun _ => hstart (.inl hpc)⟩
  | getTest =>
      rw [Uart1.code, hpc] at hcode
      cases hcode
      -- The test succeeds, so a byte is fetched and not the -1 of an empty buffer.
      have hpos := Ringbuf.elements_pos_iff.mpr (hstart (.inr hpc))
      exact ⟨hline, hreg, by simp [hpos], by simp [hpos], by simp [hpos]⟩
  | send c =>
      rw [Uart1.code, hpc] at hcode
      cases hcode
      refine ⟨hline, ?_, by simp, by simp, by simp⟩
      intro hc
      exact hsend (by rw [hpc, Option.some.inj hc])

/-- Every such step keeps the bytes plain. -/
theorem Plain.next (hinv : s.Inv) (h : s.Plain) {a : Uart1Label} (ha : NotOvertaken s a)
    (hstep : s.step a = some t) : t.Plain := by
  cases a with
  | code => exact h.code hinv hstep
  | writeb c =>
      rw [Uart1.step] at hstep
      split at hstep
      · cases hstep
        exact ⟨h.line, h.txbuf1, by simp, by simp, by simp⟩
      · cases hstep
  | shift =>
      rw [Uart1.step] at hstep
      split at hstep
      · cases hstep
      · rename_i c hc
        cases hstep
        refine ⟨?_, by simp, h.pc, h.test, h.start⟩
        have hne := h.txbuf1
        rw [hc] at hne
        simp only [List.mem_append, List.mem_singleton, not_or]
        exact ⟨h.line, fun hnone => hne (congrArg some hnone.symm)⟩
  | txInterrupt =>
      rw [Uart1.step] at hstep
      split at hstep
      · rename_i hflag
        cases hstep
        have htrans : s.transmitting = true := by
          by_contra hne
          rw [(hinv.stopped (by simpa using hne)).1] at hflag
          cases hflag
        -- Between the test and the fetch of the code no transmission runs, so no interrupt comes.
        have hnot : ¬ (s.pc = .start ∨ s.pc = .getTest) := by
          rintro (hpc | hpc)
          · have hst := hinv.step
            rw [hpc] at hst
            rw [show s.transmitting = false from hst] at htrans
            cases htrans
          · have hst := (hinv.starting (by rw [hpc]; trivial)).2.1
            rw [hst] at hflag
            cases hflag
        rw [uart1TxInterrupt]
        dsimp only
        split
        · -- The buffer is empty: the transmission ends.
          rename_i hzero
          refine ⟨h.line, h.txbuf1, h.pc, fun hpc _ => absurd ⟨hpc, hzero⟩ ha, ?_⟩
          exact fun hpc => absurd hpc hnot
        · -- It is not, and the interrupt sends its first byte.
          rename_i hne
          have hcontents : s.txbuf.contents ≠ [] := by
            intro hnil
            rw [← List.length_eq_zero_iff, Ringbuf.length_contents] at hnil
            exact hne (UInt8.toNat_inj.mp hnil)
          refine ⟨h.line, ?_, h.pc, fun _ hf => ?_, fun hpc => absurd hpc hnot⟩
          · intro hc
            rw [(hinv.sized.contents_get).2.1] at hc
            exact hcontents (List.head?_eq_none_iff.mp (Option.some.inj hc))
          · rw [show s.transmitting = false from hf] at htrans
            cases htrans
      · cases hstep

end Uart1

/-- **Nothing else is on the line.** If the interrupt does not find the buffer empty while
`uart1_writeb` is about to test `transmitting`, no -1 is sent. -/
theorem no_padding {s : Uart1} (h : uart1.ReachableIf NotOvertaken s) :
    s.line = s.line.reduceOption.map some ∧ s.line.reduceOption <+: s.written := by
  have hboth : s.Inv ∧ s.Plain := by
    refine h.invariant (fun s => s.Inv ∧ s.Plain) ⟨.init, ?_⟩ fun s a t hs ha hstep =>
      ⟨hs.1.next hstep, hs.2.next hs.1 ha hstep⟩
    exact ⟨by simp [uart1, Uart1.init], by simp [uart1, Uart1.init], by simp [uart1, Uart1.init],
      by simp [uart1, Uart1.init], by simp [uart1, Uart1.init]⟩
  refine ⟨?_, line_prefix (h.mono fun _ _ _ => trivial)⟩
  have hplain := hboth.2.line
  generalize s.line = line at hplain
  induction line with
  | nil => rfl
  | cons c line ih =>
      rw [List.mem_cons, not_or] at hplain
      obtain ⟨hc, hline⟩ := hplain
      cases c with
      | none => exact absurd rfl hc
      | some c =>
          rw [List.reduceOption_cons_of_some, List.map_cons, ← ih hline]

/-- `no_padding` after two bytes. -/
theorem no_padding_twoBytes : ∃ s : Uart1, s.line = [some 72] ∧
    s.line = s.line.reduceOption.map some ∧ s.line.reduceOption <+: s.written := by
  have hend : (uart1.runIf NotOvertaken Uart1.init twoBytes).map (fun s => s.line) =
      some [some 72] := by
    decide
  obtain ⟨s, hs, hf⟩ := Machine.exists_reachableIf_of_runIf (M := uart1) hend
  exact ⟨s, hf, no_padding hs⟩

/-- Without the condition there is padding: the second byte is out before `uart1_writeb` tests
`transmitting`. -/
theorem padding_reachable :
    ∃ s : Uart1, uart1.Reachable s ∧ s.line = [some 72, some 105, none] := by
  have hend : (uart1.run (twoBytes.take 17 ++ [.shift, .txInterrupt, .code, .code, .code, .code,
      .shift])).map (fun s => s.line) = some [some 72, some 105, none] := by
    decide
  exact Machine.exists_reachable_of_run hend

end PTunes.Core
