import PTunes.Lib.Slice
import PTunes.Rime.ChameleonBitopt
import PTunes.Rime.Queuebuf

/-!
# `PTunes.Rime.PacketbufCalls`: the functions of the packet buffer (`core/net/rime/packetbuf.c`)

The array `packetbuf` has 64 bytes for a header, which begins at `hdrptr` and ends with its
part, and 128 bytes for a payload, of which the first `bufptr` bytes have been taken off. A
header is written behind the pointer `packetbuf_hdrptr`, after `packetbuf_hdralloc` has moved
it, and a received frame behind `packetbuf_dataptr`. The radio sends the `packetbuf_totlen` bytes
from `packetbuf_hdrptr` on, so the payload must have been moved to the header before
(`packetbuf_compact`).

The lists of `Packetbuf` are what the array stands for. `PacketbufMem.calls` and
`Packetbuf.calls` run the same calls on both. The functions for outside memory
(`packetbuf_reference`) are left out.
-/

set_option autoImplicit false

namespace PTunes.Rime

variable {α : Type}

namespace PacketbufMem

/-- `packetbuf_attr_clear`. -/
def attrClear (b : PacketbufMem α) : PacketbufMem α :=
  { b with attrs := fun _ => 0, addrs := fun _ => rimeaddrNull }

/-- `packetbuf_clear`. -/
def clear (b : PacketbufMem α) : PacketbufMem α :=
  { b with buflen := 0, bufptr := 0, hdrptr := packetbufHdrSize }.attrClear

/-- `packetbuf_compact`. -/
def compact (b : PacketbufMem α) : PacketbufMem α :=
  if b.bufptr > 0 then
    { b with packetbuf := moveDown b.packetbuf b.bufptr packetbufHdrSize b.buflen, bufptr := 0 }
  else b

/-- `packetbuf_hdrlen`. -/
def hdrlen (b : PacketbufMem α) : Nat := packetbufHdrSize - b.hdrptr

/-- `packetbuf_totlen`. -/
def totlen (b : PacketbufMem α) : Nat := b.hdrlen + b.buflen

/-- `packetbuf_copyto_hdr`. -/
def copytoHdr (b : PacketbufMem α) : List UInt8 := slice b.packetbuf b.hdrptr b.hdrlen

/-- `packetbuf_set_datalen`. -/
def setDatalen (b : PacketbufMem α) (len : Nat) : PacketbufMem α := { b with buflen := len }

/-- `memcpy` of the bytes to the position `p`. -/
def memcpy (b : PacketbufMem α) (p : Nat) (bytes : List UInt8) : PacketbufMem α :=
  { b with packetbuf := store b.packetbuf p bytes }

/-- `packetbuf_attr_copyfrom`. -/
def attrCopyfrom (b : PacketbufMem α) (attrs : α → UInt16) (addrs : PacketbufAddr → RimeAddr) :
    PacketbufMem α :=
  { b with attrs := attrs, addrs := addrs }

/-- `packetbuf_hdralloc`, and a header that is written to `packetbuf_hdrptr`. -/
def pushHdr (b : PacketbufMem α) (bytes : List UInt8) : PacketbufMem α :=
  let b := b.hdralloc bytes.length
  b.memcpy b.hdrptr bytes

/-- `packetbuf_clear`, a frame that is read to `packetbuf_dataptr`, and its length. -/
def receive (b : PacketbufMem α) (bytes : List UInt8) : PacketbufMem α :=
  let b := b.clear
  (b.memcpy b.dataptr bytes).setDatalen bytes.length

/-- The `packetbuf_totlen` bytes from `packetbuf_hdrptr` on. -/
def frame (b : PacketbufMem α) : List UInt8 := slice b.packetbuf b.hdrptr b.totlen

end PacketbufMem

/-- The calls. `frame` is `packetbuf_compact` and what the radio reads then. -/
inductive PacketbufCall
  | clear
  | attrClear
  | copyfrom (bytes : List UInt8)
  | receive (bytes : List UInt8)
  | pushHdr (bytes : List UInt8)
  | hdrreduce (size : Nat)
  | compact
  | setAttr (type : PacketbufAttr) (val : UInt16)
  | setAddr (type : PacketbufAddr) (addr : RimeAddr)
  | attrCopyfrom (attrs : PacketbufAttr → UInt16) (addrs : PacketbufAddr → RimeAddr)
  | attr (type : PacketbufAttr)
  | addr (type : PacketbufAddr)
  | attrCopyto
  | copyto
  | copytoHdr
  | data
  | frame
  | hdrlen
  | datalen
  | totlen

/-- What a call returns or copies. -/
inductive PacketbufResult
  | void
  | int (n : Nat)
  | bytes (l : List UInt8)
  | attr (val : UInt16)
  | addr (addr : RimeAddr)
  | attrs (attrs : PacketbufAttr → UInt16) (addrs : PacketbufAddr → RimeAddr)

namespace PacketbufMem

/-- One call. -/
def call (b : PacketbufMem PacketbufAttr) :
    PacketbufCall → PacketbufResult × PacketbufMem PacketbufAttr
  | .clear => (.void, b.clear)
  | .attrClear => (.void, b.attrClear)
  | .copyfrom bytes => (.int (b.copyfrom bytes).buflen, b.copyfrom bytes)
  | .receive bytes => (.void, b.receive bytes)
  | .pushHdr bytes => (.int (if b.hdrptr > bytes.length then 1 else 0), b.pushHdr bytes)
  | .hdrreduce size => (.int (if b.buflen < size then 0 else 1), b.hdrreduce size)
  | .compact => (.void, b.compact)
  | .setAttr type val => (.int 1, b.setAttr type val)
  | .setAddr type addr => (.int 1, b.setAddr type addr)
  | .attrCopyfrom attrs addrs => (.void, b.attrCopyfrom attrs addrs)
  | .attr type => (.attr (b.attrs type), b)
  | .addr type => (.addr (b.addrs type), b)
  | .attrCopyto => (.attrs b.attrs b.addrs, b)
  | .copyto => (.bytes b.copyto, b)
  | .copytoHdr => (.bytes b.copytoHdr, b)
  | .data => (.bytes b.data, b)
  | .frame => (.bytes b.compact.frame, b.compact)
  | .hdrlen => (.int b.hdrlen, b)
  | .datalen => (.int b.buflen, b)
  | .totlen => (.int b.totlen, b)

/-- A sequence of calls, with the results. -/
def calls (b : PacketbufMem PacketbufAttr) :
    List PacketbufCall → List PacketbufResult × PacketbufMem PacketbufAttr
  | [] => ([], b)
  | c :: cs =>
    let (r, b') := b.call c
    let (rs, b'') := b'.calls cs
    (r :: rs, b'')

end PacketbufMem

namespace Packetbuf

/-- `packetbuf_hdralloc`, and the header. -/
def pushHdr (pb : Packetbuf) (bytes : List UInt8) : Packetbuf := { pb with hdr := bytes ++ pb.hdr }

/-- `packetbuf_hdrreduce`. -/
def hdrreduce (pb : Packetbuf) (size : Nat) : Packetbuf :=
  if pb.data.length < size then pb else { pb with data := pb.data.drop size }

/-- One call. `packetbuf_hdralloc` does not return 1 when nothing would be left of the room for
the header. -/
def call (pb : Packetbuf) : PacketbufCall → PacketbufResult × Packetbuf
  | .clear => (.void, clear)
  | .attrClear => (.void, { pb with attrs := clear.attrs, addrs := clear.addrs })
  | .copyfrom bytes =>
    (.int (min bytes.length packetbufSize), { clear with data := bytes.take packetbufSize })
  | .receive bytes => (.void, { clear with data := bytes })
  | .pushHdr bytes =>
    (.int (if pb.hdr.length + bytes.length < packetbufHdrSize then 1 else 0), pb.pushHdr bytes)
  | .hdrreduce size => (.int (if pb.data.length < size then 0 else 1), pb.hdrreduce size)
  | .compact => (.void, pb)
  | .setAttr type val => (.int 1, pb.setAttr type val)
  | .setAddr type addr => (.int 1, pb.setAddr type addr)
  | .attrCopyfrom attrs addrs => (.void, { pb with attrs := attrs, addrs := addrs })
  | .attr type => (.attr (pb.attr type), pb)
  | .addr type => (.addr (pb.addr type), pb)
  | .attrCopyto => (.attrs pb.attrs pb.addrs, pb)
  | .copyto => (.bytes (pb.hdr ++ pb.data), pb)
  | .copytoHdr => (.bytes pb.hdr, pb)
  | .data => (.bytes pb.data, pb)
  | .frame => (.bytes (pb.hdr ++ pb.data), pb)
  | .hdrlen => (.int pb.hdr.length, pb)
  | .datalen => (.int pb.datalen, pb)
  | .totlen => (.int (pb.hdr.length + pb.datalen), pb)

/-- A sequence of calls, with the results. -/
def calls (pb : Packetbuf) : List PacketbufCall → List PacketbufResult × Packetbuf
  | [] => ([], pb)
  | c :: cs =>
    let (r, pb') := pb.call c
    let (rs, pb'') := pb'.calls cs
    (r :: rs, pb'')

/-- The headers fit their part, and a frame that is read fits the other one. A length has 16
bits. -/
def Allows (pb : Packetbuf) : PacketbufCall → Prop
  | .copyfrom bytes => bytes.length < 65536
  | .pushHdr bytes => pb.hdr.length + bytes.length ≤ packetbufHdrSize
  | .receive bytes => bytes.length ≤ packetbufSize
  | _ => True

/-- Each call of the sequence is allowed. -/
def AllowsAll (pb : Packetbuf) : List PacketbufCall → Prop
  | [] => True
  | c :: cs => pb.Allows c ∧ (pb.call c).2.AllowsAll cs

end Packetbuf

end PTunes.Rime
