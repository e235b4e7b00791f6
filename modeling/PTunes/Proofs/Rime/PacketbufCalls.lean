import PTunes.Rime.PacketbufCalls

/-!
# `PTunes.Proofs.Rime.PacketbufCalls`: the array of `packetbuf.c` stands for two lists

`Represents b pb` says that the bytes from `hdrptr` to the end of the part for the header are the
header of `pb`, and the `buflen` bytes from `packetbuf_dataptr` on are its payload.

* `call_spec`: a call that is allowed has the same result on both levels, keeps `Represents` and
  writes nothing outside the array.
* `packetbufCalls_eq`: any sequence of allowed calls does.
* `Represents.pushHdr_iff`: a header that does not fit its part is never represented: the condition
  on headers is exact.
* `queuebufToPacketbuf_eq`: `queuebuf_to_packetbuf` is a sequence of these calls.

The step that needs an argument is `packetbuf_compact`, which moves the payload onto itself: it is
`moveDown`. A header is read and written below the byte 64, and a payload from there on, so neither
changes the other.
-/

set_option autoImplicit false

namespace PTunes.Rime

namespace PacketbufMem

/-- The array stands for the packet. -/
structure Represents (b : PacketbufMem PacketbufAttr) (pb : Packetbuf) : Prop where
  hdrptr_le : b.hdrptr ≤ packetbufHdrSize
  room : b.bufptr + b.buflen ≤ packetbufSize
  hdr : b.copytoHdr = pb.hdr
  data : b.data = pb.data
  attrs : b.attrs = pb.attrs
  addrs : b.addrs = pb.addrs

/-- What lies behind the array has not changed. -/
def SameOutside (b b' : PacketbufMem PacketbufAttr) : Prop :=
  ∀ i, packetbufHdrSize + packetbufSize ≤ i → b'.packetbuf i = b.packetbuf i

/-- A call that does not write to the array does not write outside it. -/
theorem SameOutside.of_eq {b b' : PacketbufMem PacketbufAttr} (h : b'.packetbuf = b.packetbuf) :
    SameOutside b b' := by
  intro i _
  rw [h]

/-- The payload is a piece of the array. -/
theorem data_eq_slice (b : PacketbufMem PacketbufAttr) :
    b.data = slice b.packetbuf b.dataptr b.buflen := rfl

/-- `packetbuf_copyto` reads the header and then the payload. -/
theorem copyto_eq (b : PacketbufMem PacketbufAttr) : b.copyto = b.copytoHdr ++ b.data := rfl

/-- `packetbuf_copyfrom` is the reception of the bytes that fit. -/
theorem copyfrom_eq_receive (b : PacketbufMem PacketbufAttr) (bytes : List UInt8) :
    b.copyfrom bytes = b.receive (bytes.take packetbufSize) := by
  have hlen : min bytes.length packetbufSize = (bytes.take packetbufSize).length := by
    rw [List.length_take, Nat.min_comm]
  have hmem : (b.copyfrom bytes).packetbuf =
      store b.packetbuf packetbufHdrSize (bytes.take packetbufSize) := by
    funext i
    rw [copyfrom, hlen]
    show (if _ then _ else _) = _
    split
    next h =>
      have hi : i - packetbufHdrSize < (bytes.take packetbufSize).length := by omega
      have hadd : i = packetbufHdrSize + (i - packetbufHdrSize) := by omega
      have hi' : i - packetbufHdrSize < bytes.length := by
        rw [List.length_take] at hi
        omega
      conv => rhs; rw [hadd, store_add hi, List.getElem_take]
      rw [List.getD_eq_getElem?_getD, List.getElem?_eq_getElem hi']
      rfl
    next h => rw [store_of_disjoint (by omega)]
  rw [receive, memcpy, setDatalen, clear, attrClear, ← hlen]
  show _ = PacketbufMem.mk (store b.packetbuf packetbufHdrSize _) _ _ _ _ _
  rw [← hmem]
  rfl

namespace Represents

variable {b : PacketbufMem PacketbufAttr} {pb : Packetbuf}

/-- Both levels agree on the length of the header. -/
theorem length_hdr (h : Represents b pb) : pb.hdr.length = b.hdrlen := by
  rw [← h.hdr, copytoHdr, length_slice]

/-- Both levels agree on the length of the payload. -/
theorem length_data (h : Represents b pb) : pb.data.length = b.buflen := by
  rw [← h.data, data_eq_slice, length_slice]

/-- The cleared packet buffer has neither a header nor a payload. -/
theorem clear (b : PacketbufMem PacketbufAttr) : Represents b.clear Packetbuf.clear where
  hdrptr_le := Nat.le_refl _
  room := Nat.zero_le _
  hdr := rfl
  data := rfl
  attrs := rfl
  addrs := rfl

/-- Attributes and addresses are no part of the array. -/
theorem withAttrs (h : Represents b pb) {attrs attrs' : PacketbufAttr → UInt16}
    {addrs addrs' : PacketbufAddr → RimeAddr} (hattrs : attrs = attrs') (haddrs : addrs = addrs') :
    Represents { b with attrs := attrs, addrs := addrs }
      { pb with attrs := attrs', addrs := addrs' } where
  hdrptr_le := h.hdrptr_le
  room := h.room
  hdr := h.hdr
  data := h.data
  attrs := hattrs
  addrs := haddrs

/-- A frame that is read into the cleared packet buffer. -/
theorem receive (b : PacketbufMem PacketbufAttr) {bytes : List UInt8}
    (hlen : bytes.length ≤ packetbufSize) :
    Represents (b.receive bytes) { Packetbuf.clear with data := bytes } where
  hdrptr_le := Nat.le_refl _
  room := by
    show 0 + bytes.length ≤ packetbufSize
    omega
  hdr := rfl
  data := slice_store
  attrs := rfl
  addrs := rfl

/-- A header that fits goes in front of the one that is there. -/
theorem pushHdr (h : Represents b pb) {bytes : List UInt8}
    (hlen : pb.hdr.length + bytes.length ≤ packetbufHdrSize) :
    Represents (b.pushHdr bytes) (pb.pushHdr bytes) := by
  have hptr := h.hdrptr_le
  have hle : packetbufHdrSize - b.hdrptr + bytes.length ≤ packetbufHdrSize := by
    rw [h.length_hdr] at hlen
    exact hlen
  -- With no byte of room left over, both branches leave 0.
  have halloc : b.hdralloc bytes.length = { b with hdrptr := b.hdrptr - bytes.length } := by
    rw [hdralloc]
    split
    · rfl
    · rw [show b.hdrptr - bytes.length = 0 by omega]
  have hpush : b.pushHdr bytes = { b with
      hdrptr := b.hdrptr - bytes.length
      packetbuf := store b.packetbuf (b.hdrptr - bytes.length) bytes } := by
    rw [PacketbufMem.pushHdr, halloc]
    rfl
  rw [hpush]
  exact {
    hdrptr_le := by
      show b.hdrptr - bytes.length ≤ packetbufHdrSize
      omega
    room := h.room
    hdr := by
      show slice (store b.packetbuf (b.hdrptr - bytes.length) bytes) (b.hdrptr - bytes.length)
        (packetbufHdrSize - (b.hdrptr - bytes.length)) = bytes ++ pb.hdr
      rw [show packetbufHdrSize - (b.hdrptr - bytes.length) =
          bytes.length + (packetbufHdrSize - b.hdrptr) by omega,
        slice_append, slice_store, slice_store_of_disjoint (by omega),
        show b.hdrptr - bytes.length + bytes.length = b.hdrptr by omega]
      exact congrArg _ h.hdr
    data := (slice_store_of_disjoint (by show _ ∨ _ ≤ b.bufptr + packetbufHdrSize; omega)).trans
      h.data
    attrs := h.attrs
    addrs := h.addrs }

/-- `packetbuf_hdrreduce` takes bytes off the front of the payload, or fails on both levels. -/
theorem hdrreduce (h : Represents b pb) (size : Nat) :
    Represents (b.hdrreduce size) (pb.hdrreduce size) := by
  rw [PacketbufMem.hdrreduce, Packetbuf.hdrreduce, h.length_data]
  split
  next => exact h
  next hsize =>
    have hroom := h.room
    exact {
      hdrptr_le := h.hdrptr_le
      room := by
        show b.bufptr + size + (b.buflen - size) ≤ packetbufSize
        omega
      hdr := h.hdr
      data := by
        show slice b.packetbuf (b.bufptr + size + packetbufHdrSize) (b.buflen - size) =
          pb.data.drop size
        rw [← h.data, data_eq_slice, drop_slice, dataptr,
          show b.bufptr + packetbufHdrSize + size = b.bufptr + size + packetbufHdrSize by omega]
      attrs := h.attrs
      addrs := h.addrs }

/-- `packetbuf_compact` moves the payload within the array, and the packet stays the same. -/
theorem compact (h : Represents b pb) : Represents b.compact pb := by
  rw [PacketbufMem.compact]
  split
  next =>
    have hroom := h.room
    exact {
      hdrptr_le := h.hdrptr_le
      room := by
        show 0 + b.buflen ≤ packetbufSize
        omega
      hdr := by
        have hptr := h.hdrptr_le
        refine Eq.trans (slice_moveDown_of_disjoint (Or.inl ?_)) h.hdr
        show b.hdrptr + (packetbufHdrSize - b.hdrptr) ≤ packetbufHdrSize
        omega
      data := by
        show slice _ (0 + packetbufHdrSize) b.buflen = pb.data
        rw [Nat.zero_add, slice_moveDown]
        exact h.data
      attrs := h.attrs
      addrs := h.addrs }
  next => exact h

/-- What the radio reads is the header and the payload. -/
theorem frame_compact (h : Represents b pb) : b.compact.frame = pb.hdr ++ pb.data := by
  have hc := h.compact
  have hptr : b.compact.hdrptr ≤ packetbufHdrSize := hc.hdrptr_le
  have hbuf : b.compact.bufptr = 0 := by
    rw [PacketbufMem.compact]
    split
    · rfl
    · omega
  have hdata : b.compact.data = slice b.compact.packetbuf (b.compact.hdrptr + b.compact.hdrlen)
      b.compact.buflen := by
    rw [data_eq_slice, dataptr, hbuf, hdrlen]
    congr 1
    omega
  calc b.compact.frame
      = b.compact.copytoHdr ++ slice b.compact.packetbuf (b.compact.hdrptr + b.compact.hdrlen)
          b.compact.buflen := slice_append _ _ _ _
    _ = pb.hdr ++ pb.data := by rw [← hdata, hc.hdr, hc.data]

/-- The result of `packetbuf_hdralloc`. -/
theorem hdralloc_result (h : Represents b pb) (bytes : List UInt8) :
    b.hdrptr > bytes.length ↔ pb.hdr.length + bytes.length < packetbufHdrSize := by
  have hptr := h.hdrptr_le
  rw [h.length_hdr, hdrlen]
  omega

/-- The condition on a header is exact: one that does not fit is not represented. -/
theorem pushHdr_iff (h : Represents b pb) (bytes : List UInt8) :
    Represents (b.pushHdr bytes) (pb.pushHdr bytes) ↔
      pb.hdr.length + bytes.length ≤ packetbufHdrSize := by
  constructor
  · intro hpush
    have hlen : bytes.length + pb.hdr.length = (b.pushHdr bytes).hdrlen := by
      rw [← hpush.length_hdr, Packetbuf.pushHdr, List.length_append]
    have hle : (b.pushHdr bytes).hdrlen ≤ packetbufHdrSize := Nat.sub_le _ _
    omega
  · exact h.pushHdr

/-- What does not fit the array is left out. -/
theorem copyfrom (b : PacketbufMem PacketbufAttr) (bytes : List UInt8) :
    Represents (b.copyfrom bytes) { Packetbuf.clear with data := bytes.take packetbufSize } := by
  rw [copyfrom_eq_receive]
  exact receive b (by rw [List.length_take]; exact Nat.min_le_left _ _)

end Represents

/-! ### The calls -/

variable {b : PacketbufMem PacketbufAttr} {pb : Packetbuf}

/-- A write that ends inside the array. -/
theorem sameOutside_store (p : Nat) (bytes : List UInt8) {b' : PacketbufMem PacketbufAttr}
    (hb' : b'.packetbuf = store b.packetbuf p bytes)
    (hp : p + bytes.length ≤ packetbufHdrSize + packetbufSize) : SameOutside b b' := by
  intro i hi
  rw [hb', store_of_disjoint (by omega)]

/-- A frame of at most `PACKETBUF_SIZE` bytes stays inside the array. -/
theorem sameOutside_receive {bytes : List UInt8} (hlen : bytes.length ≤ packetbufSize) :
    SameOutside b (b.receive bytes) := by
  refine sameOutside_store packetbufHdrSize bytes rfl ?_
  omega

/-- A header that fits is written below the byte 64. -/
theorem sameOutside_pushHdr (h : Represents b pb) {bytes : List UInt8}
    (hlen : pb.hdr.length + bytes.length ≤ packetbufHdrSize) :
    SameOutside b (b.pushHdr bytes) := by
  have hptr := h.hdrptr_le
  rw [h.length_hdr, hdrlen] at hlen
  have halloc : (b.hdralloc bytes.length).hdrptr + bytes.length ≤ packetbufHdrSize := by
    rw [hdralloc]
    split
    · show b.hdrptr - bytes.length + bytes.length ≤ packetbufHdrSize
      omega
    · show 0 + bytes.length ≤ packetbufHdrSize
      omega
  have hmem : (b.pushHdr bytes).packetbuf =
      store b.packetbuf (b.hdralloc bytes.length).hdrptr bytes := by
    rw [pushHdr, hdralloc]
    split <;> rfl
  refine sameOutside_store _ bytes hmem ?_
  omega

/-- The payload is moved to a lower place, so it stays inside the array. -/
theorem sameOutside_compact (h : Represents b pb) : SameOutside b b.compact := by
  intro i hi
  have hroom := h.room
  rw [compact]
  split
  · show moveDown b.packetbuf b.bufptr packetbufHdrSize b.buflen i = b.packetbuf i
    rw [moveDown_apply, if_neg (by omega)]
  · rfl

/-- One call. -/
theorem call_spec (h : Represents b pb) {c : PacketbufCall} (hc : pb.Allows c) :
    (b.call c).1 = (pb.call c).1 ∧ Represents (b.call c).2 (pb.call c).2 ∧
      SameOutside b (b.call c).2 := by
  cases c with
  | clear => exact ⟨rfl, .clear b, .of_eq rfl⟩
  | attrClear => exact ⟨rfl, h.withAttrs rfl rfl, .of_eq rfl⟩
  | copyfrom bytes =>
    -- The copy is cut to the size of the buffer.
    refine ⟨rfl, .copyfrom b bytes, ?_⟩
    show SameOutside b (b.copyfrom bytes)
    rw [copyfrom_eq_receive]
    exact sameOutside_receive (by rw [List.length_take]; exact Nat.min_le_left _ _)
  | receive bytes => exact ⟨rfl, .receive b hc, sameOutside_receive hc⟩
  | pushHdr bytes =>
    refine ⟨?_, h.pushHdr hc, sameOutside_pushHdr h hc⟩
    exact congrArg PacketbufResult.int (if_congr (h.hdralloc_result bytes) rfl rfl)
  | hdrreduce size =>
    refine ⟨?_, h.hdrreduce size, .of_eq ?_⟩
    · show PacketbufResult.int (if b.buflen < size then 0 else 1) = _
      rw [← h.length_data]
      rfl
    · show (b.hdrreduce size).packetbuf = b.packetbuf
      rw [hdrreduce]
      split <;> rfl
  | compact => exact ⟨rfl, h.compact, sameOutside_compact h⟩
  | setAttr type val =>
    have hset : Function.update b.attrs type val = Function.update pb.attrs type val := by
      rw [h.attrs]
    exact ⟨rfl, h.withAttrs hset h.addrs, .of_eq rfl⟩
  | setAddr type addr =>
    have hset : Function.update b.addrs type addr = Function.update pb.addrs type addr := by
      rw [h.addrs]
    exact ⟨rfl, h.withAttrs h.attrs hset, .of_eq rfl⟩
  | attrCopyfrom attrs addrs => exact ⟨rfl, h.withAttrs rfl rfl, .of_eq rfl⟩
  | attr type => exact ⟨congrArg PacketbufResult.attr (congrFun h.attrs type), h, .of_eq rfl⟩
  | addr type => exact ⟨congrArg PacketbufResult.addr (congrFun h.addrs type), h, .of_eq rfl⟩
  | attrCopyto => exact ⟨congrArg₂ PacketbufResult.attrs h.attrs h.addrs, h, .of_eq rfl⟩
  | copyto =>
    refine ⟨congrArg PacketbufResult.bytes ?_, h, .of_eq rfl⟩
    rw [copyto_eq, h.hdr, h.data]
  | copytoHdr => exact ⟨congrArg PacketbufResult.bytes h.hdr, h, .of_eq rfl⟩
  | data => exact ⟨congrArg PacketbufResult.bytes h.data, h, .of_eq rfl⟩
  | frame =>
    exact ⟨congrArg PacketbufResult.bytes h.frame_compact, h.compact, sameOutside_compact h⟩
  | hdrlen => exact ⟨congrArg PacketbufResult.int h.length_hdr.symm, h, .of_eq rfl⟩
  | datalen => exact ⟨congrArg PacketbufResult.int h.length_data.symm, h, .of_eq rfl⟩
  | totlen =>
    refine ⟨congrArg PacketbufResult.int ?_, h, .of_eq rfl⟩
    rw [totlen, Packetbuf.datalen, h.length_hdr, h.length_data]

/-- One call after another. -/
theorem SameOutside.trans {b' b'' : PacketbufMem PacketbufAttr} (h : SameOutside b b')
    (h' : SameOutside b' b'') : SameOutside b b'' := fun i hi => (h' i hi).trans (h i hi)

/-- Any sequence of allowed calls has the results of the lists, after which the array stands for
them again. Nothing is written behind the array. -/
theorem packetbufCalls_eq {b : PacketbufMem PacketbufAttr} {pb : Packetbuf} (h : Represents b pb)
    {cs : List PacketbufCall} (hcs : pb.AllowsAll cs) :
    (b.calls cs).1 = (pb.calls cs).1 ∧ Represents (b.calls cs).2 (pb.calls cs).2 ∧
      SameOutside b (b.calls cs).2 := by
  induction cs generalizing b pb with
  | nil => exact ⟨rfl, h, .of_eq rfl⟩
  | cons c cs ih =>
    obtain ⟨hres, hrep, hout⟩ := call_spec h hcs.1
    obtain ⟨hress, hreps, houts⟩ := ih hrep hcs.2
    refine ⟨?_, hreps, hout.trans houts⟩
    show (b.call c).1 :: ((b.call c).2.calls cs).1 = (pb.call c).1 :: ((pb.call c).2.calls cs).1
    rw [hres, hress]

/-- A frame is received, its header of two bytes is taken off, and the rest goes out with another
header. -/
def relayCalls : List PacketbufCall :=
  [.receive [1, 2, 3, 4, 5], .hdrreduce 2, .pushHdr [6, 7], .frame, .totlen]

/-- The calls by which a packet is received, relayed and sent are allowed. -/
theorem allowsAll_relayCalls : Packetbuf.clear.AllowsAll relayCalls := by
  refine ⟨?_, trivial, ?_, trivial, trivial, trivial⟩
  · show 5 ≤ 128
    omega
  · show 0 + 2 ≤ 64
    omega

/-- The relay, with `0xff` in the whole memory before. -/
theorem packetbufCalls_eq_relay :
    (calls (clear ⟨fun _ => 255, 0, 0, 0, fun _ => 0, fun _ => rimeaddrNull⟩) relayCalls).1 =
      [.void, .int 1, .int 1, .bytes [6, 7, 3, 4, 5], .int 5] :=
  (packetbufCalls_eq (.clear _) allowsAll_relayCalls).1

end PacketbufMem

/-- `queuebuf_to_packetbuf` is two of the calls. -/
theorem queuebufToPacketbuf_eq (p : QueuebufPool) (i : QueuebufPtr) (pb : Packetbuf) :
    queuebufToPacketbuf p i = (pb.calls [.copyfrom (p.bufmem.block i).data,
      .attrCopyfrom (p.bufmem.block i).attrs (p.bufmem.block i).addrs]).2 := rfl

/-- `queuebuf_new_from_packetbuf` copies what two of the calls copy. -/
theorem toQueuebuf_eq (pb : Packetbuf) :
    (pb.calls [.copyto, .attrCopyto]).1 =
      [.bytes pb.toQueuebuf.data, .attrs pb.toQueuebuf.attrs pb.toQueuebuf.addrs] := rfl

end PTunes.Rime
