import Mathlib.Logic.Function.Basic
import PTunes.Rime.Addr

/-!
# `PTunes.Rime.Packetbuf`: the packet buffer (`core/net/rime/packetbuf.c`)

The one packet buffer of a node: the header bytes pushed so far, the payload, and the
attributes. The attributes are those that relcollect and relunicast read or write. A packet
buffer that references outside memory (`packetbuf_reference`) does not occur on their
paths.
-/

set_option autoImplicit false

namespace PTunes.Rime

/-- The `PACKETBUF_ATTR_*` values that relcollect and relunicast use. -/
inductive PacketbufAttr
  | packetId
  | epacketId
  | queuingDelay
  | droppedPacketsCount
  | queueSize
  | timeHigh
  | timeLow
  | maxRexmit
  | rtmetric
deriving DecidableEq, Repr

/-- The `PACKETBUF_ADDR_*` values. -/
inductive PacketbufAddr
  | sender
  | receiver
  | esender
  | ereceiver
deriving DecidableEq, Repr

/-- `PACKETBUF_SIZE`. -/
abbrev packetbufSize : Nat := 128

/-- The packet buffer and the arrays `packetbuf_attrs` and `packetbuf_addrs`. -/
structure Packetbuf where
  hdr : List UInt8
  data : List UInt8
  attrs : PacketbufAttr → UInt16
  addrs : PacketbufAddr → RimeAddr

namespace Packetbuf

/-- `packetbuf_clear`, which also clears the attributes. -/
def clear : Packetbuf where
  hdr := []
  data := []
  attrs _ := 0
  addrs _ := rimeaddrNull

/-- `packetbuf_attr`. -/
def attr (pb : Packetbuf) (type : PacketbufAttr) : UInt16 := pb.attrs type

/-- `packetbuf_set_attr`. -/
def setAttr (pb : Packetbuf) (type : PacketbufAttr) (val : UInt16) : Packetbuf :=
  { pb with attrs := Function.update pb.attrs type val }

/-- `packetbuf_addr`. -/
def addr (pb : Packetbuf) (type : PacketbufAddr) : RimeAddr := pb.addrs type

/-- `packetbuf_set_addr`. -/
def setAddr (pb : Packetbuf) (type : PacketbufAddr) (addr : RimeAddr) : Packetbuf :=
  { pb with addrs := Function.update pb.addrs type addr }

/-- `packetbuf_datalen`. -/
def datalen (pb : Packetbuf) : Nat := pb.data.length

end Packetbuf

end PTunes.Rime
