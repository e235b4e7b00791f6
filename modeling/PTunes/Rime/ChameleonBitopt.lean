import Mathlib.Algebra.Order.Ring.Nat
import PTunes.Rime.Packetbuf

/-!
# `PTunes.Rime.ChameleonBitopt`: packet headers (`core/net/rime/chameleon-bitopt.c`)

`pack_header` writes the attributes of a packet in front of its payload, each with the number
of bits that the attribute list of the channel gives to it, without gaps. `unpack_header` reads
them back. `get_bits` and `set_bits` have a branch for fields of less than 8 bits, one for
fields that start with a byte, and one for the others.

Here the packet buffer is the array `packetbuf` with its pointers. The attributes other than
addresses are a parameter: the code only uses them as an index. A field can be wider than its
variable. Then `pack_header` reads what lies behind the variable, which is `beyond`, and
`unpack_header` writes there, into its own stack frame. What this destroys depends on the
compiler and is left out. `stack` is what the stack holds before.

`int` has 16 bits, and so has the result of `shifted_val << bitpos`.
-/

set_option autoImplicit false

namespace PTunes.Rime

/-! ### Bits -/

/-- `bitmask`. -/
def bitmask (vallen : Nat) : Nat :=
  [0x00, 0x80, 0xc0, 0xe0, 0xf0, 0xf8, 0xfc, 0xfe, 0xff].getD vallen 0

/-- `get_bits_in_byte`. -/
def getBitsInByte (m : Nat → UInt8) (from_ bitpos vallen : Nat) : UInt8 :=
  let shiftedVal := ((m from_).toNat <<< 8) ||| (m (from_ + 1)).toNat
  UInt8.ofNat (((((shiftedVal <<< bitpos) % 65536) >>> 8) &&& bitmask vallen) >>> (8 - vallen))

/-- The loop over whole bytes, when the field starts with a byte. -/
def copyBytes (to_ : Nat → UInt8) (ptr : Nat) (val : Nat → UInt8) : Nat → Nat → UInt8
  | 0 => to_
  | i + 1 => Function.update (copyBytes to_ ptr val i) (ptr + i) (val i)

/-- The loop over whole bytes of `get_bits`. -/
def getBytes (to_ m : Nat → UInt8) (from_ bitpos : Nat) : Nat → Nat → UInt8
  | 0 => to_
  | i + 1 =>
    Function.update (getBytes to_ m from_ bitpos i) i (getBitsInByte m (from_ + i) bitpos 8)

/-- `get_bits`, which leaves the value in `to_`. -/
def getBits (to_ m : Nat → UInt8) (from_ bitpos vallen : Nat) : Nat → UInt8 :=
  if vallen < 8 then Function.update to_ 0 (getBitsInByte m from_ bitpos vallen)
  else
    let i := vallen / 8
    let bits := vallen % 8
    if bitpos = 0 then
      let to_ := copyBytes to_ 0 (fun i => m (from_ + i)) i
      if bits ≠ 0 then Function.update to_ i (getBitsInByte m (from_ + i) 0 bits) else to_
    else
      let to_ := getBytes to_ m from_ bitpos i
      if bits ≠ 0 then Function.update to_ i (getBitsInByte m (from_ + i) bitpos bits) else to_

/-- `set_bits_in_byte`. -/
def setBitsInByte (m : Nat → UInt8) (target bitpos : Nat) (val : UInt8) (vallen : Nat) :
    Nat → UInt8 :=
  let shiftedVal := (val.toNat <<< (8 - bitpos + 8 - vallen)) % 65536
  let m := Function.update m target (m target ||| UInt8.ofNat (shiftedVal >>> 8))
  Function.update m (target + 1) (m (target + 1) ||| UInt8.ofNat (shiftedVal % 256))

/-- The loop over whole bytes of `set_bits`, when the field starts within a byte. -/
def setBytes (m : Nat → UInt8) (ptr bitpos : Nat) (val : Nat → UInt8) : Nat → Nat → UInt8
  | 0 => m
  | i + 1 => setBitsInByte (setBytes m ptr bitpos val i) (ptr + i) bitpos (val i) 8

/-- `set_bits`. -/
def setBits (m : Nat → UInt8) (ptr bitpos : Nat) (val : Nat → UInt8) (vallen : Nat) :
    Nat → UInt8 :=
  if vallen < 8 then setBitsInByte m ptr bitpos (val 0) vallen
  else
    let i := vallen / 8
    let bits := vallen % 8
    if bitpos = 0 then
      let m := copyBytes m ptr val i
      if bits ≠ 0 then setBitsInByte m (ptr + i) 0 (val i >>> UInt8.ofNat (8 - bits)) bits else m
    else
      let m := setBytes m ptr bitpos val i
      if bits ≠ 0 then
        setBitsInByte m (ptr + i) 0
          (UInt8.ofNat ((val i).toNat >>> (8 - bits + bitpos))) bits
      else m

/-! ### The packet buffer and the channels -/

variable {α : Type}

/-- `type` of an attribute list: an attribute, or one of the addresses. -/
inductive HeaderType (α : Type)
  | attr (type : α)
  | addr (type : PacketbufAddr)
deriving DecidableEq, Repr

/-- `struct packetbuf_attrlist`. The list ends without `PACKETBUF_ATTR_NONE`. -/
structure PacketbufAttrlist (α : Type) where
  type : HeaderType α
  len : UInt8
deriving DecidableEq, Repr

/-- `struct channel`. -/
structure Channel (α : Type) where
  channelno : UInt16
  attrlist : List (PacketbufAttrlist α)
  hdrsize : UInt8

/-- `header_size`. -/
def headerSize (attrlist : List (PacketbufAttrlist α)) : Nat :=
  (attrlist.map fun a => a.len.toNat).sum

/-- `channel_open`, and `channel_set_attributes` for it. -/
def Channel.ofAttributes (channelno : UInt16) (attrlist : List (PacketbufAttrlist α)) :
    Channel α where
  channelno := channelno
  attrlist := attrlist
  hdrsize := UInt8.ofNat (headerSize attrlist)

/-- The number of bytes of the header: `hdrbytesize`. -/
def Channel.hdrbytesize (c : Channel α) : Nat :=
  c.hdrsize.toNat / 8 + if c.hdrsize.toNat % 8 = 0 then 0 else 1

/-- `PACKETBUF_HDR_SIZE`. -/
abbrev packetbufHdrSize : Nat := 64

/-- The static variables of `packetbuf.c`. -/
structure PacketbufMem (α : Type) where
  packetbuf : Nat → UInt8
  hdrptr : Nat
  bufptr : Nat
  buflen : Nat
  attrs : α → UInt16
  addrs : PacketbufAddr → RimeAddr

namespace PacketbufMem

/-- `packetbuf_hdralloc`. -/
def hdralloc (b : PacketbufMem α) (size : Nat) : PacketbufMem α :=
  if b.hdrptr > size then { b with hdrptr := b.hdrptr - size } else { b with hdrptr := 0 }

/-- `packetbuf_hdrreduce`. -/
def hdrreduce (b : PacketbufMem α) (size : Nat) : PacketbufMem α :=
  if b.buflen < size then b
  else { b with bufptr := b.bufptr + size, buflen := b.buflen - size }

/-- `packetbuf_dataptr`, as a position in `packetbuf`. -/
def dataptr (b : PacketbufMem α) : Nat := b.bufptr + packetbufHdrSize

/-- The payload, from `packetbuf_dataptr` on. -/
def data (b : PacketbufMem α) : List UInt8 :=
  (List.range b.buflen).map fun i => b.packetbuf (b.dataptr + i)

/-- `packetbuf_copyto`: the header and the payload. -/
def copyto (b : PacketbufMem α) : List UInt8 :=
  ((List.range (packetbufHdrSize - b.hdrptr)).map fun i => b.packetbuf (b.hdrptr + i)) ++ b.data

/-- `packetbuf_copyfrom`, which clears the packet buffer first. -/
def copyfrom (b : PacketbufMem α) (bytes : List UInt8) : PacketbufMem α :=
  let l := min bytes.length packetbufSize
  { packetbuf := fun i =>
      if packetbufHdrSize ≤ i ∧ i < packetbufHdrSize + l then bytes.getD (i - packetbufHdrSize) 0
      else b.packetbuf i
    hdrptr := packetbufHdrSize
    bufptr := 0
    buflen := l
    attrs := fun _ => 0
    addrs := fun _ => rimeaddrNull }

variable [DecidableEq α]

/-- `packetbuf_set_attr`. -/
def setAttr (b : PacketbufMem α) (type : α) (val : UInt16) : PacketbufMem α :=
  { b with attrs := Function.update b.attrs type val }

/-- `packetbuf_set_addr`. -/
def setAddr (b : PacketbufMem α) (type : PacketbufAddr) (addr : RimeAddr) : PacketbufMem α :=
  { b with addrs := Function.update b.addrs type addr }

end PacketbufMem

/-! ### The header -/

/-- The memory from the variable of an attribute on. The low byte comes first. -/
def attrMemory (val : UInt16) (beyond : Nat → UInt8) : Nat → UInt8
  | 0 => UInt8.ofNat (val.toNat % 256)
  | 1 => UInt8.ofNat (val.toNat / 256)
  | i + 2 => beyond i

/-- The memory from an address on. -/
def addrMemory (addr : RimeAddr) (beyond : Nat → UInt8) : Nat → UInt8
  | 0 => addr.u8_0
  | 1 => addr.u8_1
  | i + 2 => beyond i

/-- The memory from the value of a field on. -/
def fieldMemory (b : PacketbufMem α) (type : HeaderType α) (beyond : Nat → UInt8) :
    Nat → UInt8 :=
  match type with
  | .attr type => attrMemory (b.attrs type) beyond
  | .addr type => addrMemory (b.addrs type) beyond

/-- The loop of `pack_header`. -/
def packFields (b : PacketbufMem α) (beyond : Nat → Nat → UInt8) (hdrptr : Nat) :
    Nat → List (PacketbufAttrlist α) → (Nat → UInt8) → Nat → UInt8
  | _, [], m => m
  | bitptr, a :: rest, m =>
    packFields b beyond hdrptr (bitptr + a.len.toNat) rest
      (setBits m (hdrptr + bitptr / 8) (bitptr % 8) (fieldMemory b a.type (beyond bitptr))
        a.len.toNat)

/-- `memset` to 0. -/
def memset (m : Nat → UInt8) (ptr size : Nat) : Nat → UInt8 := fun i =>
  if ptr ≤ i ∧ i < ptr + size then 0 else m i

/-- `pack_header`. -/
def packHeader (beyond : Nat → Nat → UInt8) (c : Channel α) (b : PacketbufMem α) :
    PacketbufMem α :=
  let hdrptr := (b.hdralloc c.hdrbytesize).hdrptr
  let m := memset b.packetbuf hdrptr c.hdrbytesize
  let m := packFields b beyond hdrptr 0 c.attrlist m
  let b := { b with packetbuf := m, hdrptr := hdrptr }.hdralloc 2
  let m := Function.update b.packetbuf b.hdrptr (UInt8.ofNat (c.channelno.toNat % 256))
  { b with
    packetbuf := Function.update m (b.hdrptr + 1) (UInt8.ofNat (c.channelno.toNat / 256)) }

variable [DecidableEq α]

/-- One turn of the loop of `unpack_header`. -/
def unpackField (stack : Nat → UInt8) (hdrptr bitptr : Nat) (a : PacketbufAttrlist α)
    (b : PacketbufMem α) : PacketbufMem α :=
  match a.type with
  | .addr type =>
    let to_ := getBits stack b.packetbuf (hdrptr + bitptr / 8) (bitptr % 8) a.len.toNat
    b.setAddr type ⟨to_ 0, to_ 1⟩
  | .attr type =>
    let to_ := getBits (attrMemory 0 stack) b.packetbuf (hdrptr + bitptr / 8) (bitptr % 8)
      a.len.toNat
    b.setAttr type (UInt16.ofNat ((to_ 0).toNat + 256 * (to_ 1).toNat))

/-- The loop of `unpack_header`. -/
def unpackFields (stack : Nat → Nat → UInt8) (hdrptr : Nat) :
    Nat → List (PacketbufAttrlist α) → PacketbufMem α → PacketbufMem α
  | _, [], b => b
  | bitptr, a :: rest, b =>
    unpackFields stack hdrptr (bitptr + a.len.toNat) rest
      (unpackField (stack bitptr) hdrptr bitptr a b)

/-- `unpack_header`. `lookup` is `channel_lookup`. -/
def unpackHeader (lookup : UInt16 → Option (Channel α)) (stack : Nat → Nat → UInt8)
    (b : PacketbufMem α) : Option (Channel α) × PacketbufMem α :=
  let hdr := b.dataptr
  let channelno := UInt16.ofNat
    (((b.packetbuf (hdr + 1)).toNat <<< 8) + (b.packetbuf hdr).toNat)
  let b := b.hdrreduce 2
  match lookup channelno with
  | none => (none, b)
  | some c =>
    let hdrptr := b.dataptr
    (some c, unpackFields stack hdrptr 0 c.attrlist (b.hdrreduce c.hdrbytesize))

/-! ### The attribute lists of collection packets -/

/-- `PACKETBUF_ADDRSIZE`. -/
def packetbufAddrsize : UInt8 := 16

/-- `UNICAST_ATTRIBUTES`, with `BROADCAST_ATTRIBUTES` and `ABC_ATTRIBUTES`. -/
def unicastAttributes : List (PacketbufAttrlist PacketbufAttr) :=
  [⟨.addr .receiver, packetbufAddrsize⟩, ⟨.addr .sender, packetbufAddrsize⟩]

/-- `RELUNICAST_ATTRIBUTES`. `withTime` is `WITH_FTSP || GLOSSY`. -/
def relunicastAttributes (withTime : Bool) : List (PacketbufAttrlist PacketbufAttr) :=
  ⟨.attr .packetId, 8⟩ ::
    ((if withTime then [⟨.attr .timeHigh, 32⟩, ⟨.attr .timeLow, 32⟩] else []) ++
      unicastAttributes)

/-- `RELCOLLECT_ATTRIBUTES`. `queuingStats` is `QUEUING_STATS`. -/
def relcollectAttributes (queuingStats withTime : Bool) :
    List (PacketbufAttrlist PacketbufAttr) :=
  [⟨.addr .esender, packetbufAddrsize⟩, ⟨.attr .epacketId, 8⟩, ⟨.attr .rtmetric, 8⟩,
    ⟨.attr .maxRexmit, 5⟩] ++
  (if queuingStats then
    [⟨.attr .queuingDelay, 16⟩, ⟨.attr .droppedPacketsCount, 16⟩, ⟨.attr .queueSize, 8⟩]
  else []) ++
  relunicastAttributes withTime

end PTunes.Rime
