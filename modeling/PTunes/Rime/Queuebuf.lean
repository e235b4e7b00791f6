import PTunes.Core.Memb
import PTunes.Rime.Packetbuf

/-!
# `PTunes.Rime.Queuebuf`: the shared queue buffers (`core/net/rime/queuebuf.c`)

The pool `bufmem` has 22 blocks on this platform (`QUEUEBUF_CONF_NUM`). All users of the
node share it: the relunicast connection, the announcements, the forwarding queue and
every other protocol. `queuebuf_len` counts the blocks in use.

`QueuebufPool.Owns p owned` says that the blocks in the list `owned` are pairwise different
and are exactly the allocated ones, and that `queuebuf_len` is their number. Under it the
second test in `queuebuf_new_from_packetbuf`, against `queuebuf_max_len`, never refuses a
block that the pool has.
-/

set_option autoImplicit false

namespace PTunes.Rime

open PTunes.Core

/-- `QUEUEBUF_NUM`. -/
abbrev queuebufNum : Nat := 22

/-- A non-`NULL` `struct queuebuf *` into `bufmem`. -/
abbrev QueuebufPtr := Fin queuebufNum

instance : LawfulBEq QueuebufPtr := inferInstance

/-- `struct queuebuf`. The field `len` is the length of `data`. -/
structure Queuebuf where
  data : List UInt8
  attrs : PacketbufAttr → UInt16
  addrs : PacketbufAddr → RimeAddr

/-- A block of `bufmem` after `memb_init`. -/
def Queuebuf.zero : Queuebuf where
  data := []
  attrs _ := 0
  addrs _ := rimeaddrNull

/-- The static variables of `queuebuf.c`. -/
structure QueuebufPool where
  bufmem : Memb Queuebuf queuebufNum
  queuebufLen : UInt8
  queuebufMaxLen : UInt8

/-- `queuebuf_init`, from zeroed memory. -/
def queuebufInit : QueuebufPool where
  bufmem := Memb.membInit Queuebuf.zero
  queuebufLen := 0
  queuebufMaxLen := UInt8.ofNat queuebufNum

/-- `packetbuf_copyto` and `packetbuf_attr_copyto`: header and payload together. -/
def Packetbuf.toQueuebuf (pb : Packetbuf) : Queuebuf where
  data := pb.hdr ++ pb.data
  attrs := pb.attrs
  addrs := pb.addrs

/-- `queuebuf_new_from_packetbuf`, for a packet buffer that is no reference. -/
def queuebufNewFromPacketbuf (p : QueuebufPool) (pb : Packetbuf) :
    Option QueuebufPtr × QueuebufPool :=
  match p.bufmem.membAlloc with
  | some (i, m) =>
    if (p.queuebufLen + 1).toNat = p.queuebufMaxLen.toNat + 1 then
      (none, { p with bufmem := m.membFree i })
    else
      (some i, { p with bufmem := m.write i pb.toQueuebuf, queuebufLen := p.queuebufLen + 1 })
  | none => (none, p)

/-- `queuebuf_free`, for a block of `bufmem`. -/
def queuebufFree (p : QueuebufPool) (i : QueuebufPtr) : QueuebufPool :=
  { p with bufmem := p.bufmem.membFree i, queuebufLen := p.queuebufLen - 1 }

/-- `queuebuf_to_packetbuf`: the buffered bytes become the payload of a cleared packet
buffer, at most `PACKETBUF_SIZE` of them. -/
def queuebufToPacketbuf (p : QueuebufPool) (i : QueuebufPtr) : Packetbuf where
  hdr := []
  data := (p.bufmem.block i).data.take packetbufSize
  attrs := (p.bufmem.block i).attrs
  addrs := (p.bufmem.block i).addrs

/-- `queuebuf_free` leaves the contents of the buffers as they are. -/
@[simp] theorem block_queuebufFree (p : QueuebufPool) (i j : QueuebufPtr) :
    (queuebufFree p i).bufmem.block j = p.bufmem.block j := Memb.block_membFree _ _ _

namespace QueuebufPool

/-- The blocks in `owned` are pairwise different, they are exactly the allocated ones, and
`queuebuf_len` is their number. -/
structure Owns (p : QueuebufPool) (owned : List QueuebufPtr) : Prop where
  blocks : Memb.Owns p.bufmem owned
  len : p.queuebufLen.toNat = owned.length
  maxLen : p.queuebufMaxLen = UInt8.ofNat queuebufNum

/-- After `queuebuf_init` no buffer is allocated, and the counter is 0. -/
theorem owns_queuebufInit : Owns queuebufInit [] where
  blocks := Memb.owns_membInit _
  len := rfl
  maxLen := rfl

namespace Owns

variable {p : QueuebufPool} {owned owned' : List QueuebufPtr}

/-- The order of the list does not matter. -/
theorem perm (h : Owns p owned) (hp : owned.Perm owned') : Owns p owned' where
  blocks := h.blocks.perm hp
  len := h.len.trans hp.length_eq
  maxLen := h.maxLen

/-- The owner of a block gives it back. -/
theorem free {i : QueuebufPtr} (h : Owns p (i :: owned)) : Owns (queuebufFree p i) owned where
  blocks := h.blocks.free
  len := by
    have hlen : p.queuebufLen.toNat = owned.length + 1 := h.len
    show (p.queuebufLen - 1).toNat = owned.length
    rw [UInt8.toNat_sub_of_le _ _ (by rw [UInt8.le_iff_toNat_le, hlen]; simp), hlen]
    rfl
  maxLen := h.maxLen

/-- A request returns a block nobody owns and copies the packet buffer into it, or finds the
pool exhausted and changes nothing. The blocks that are owned keep their contents. -/
theorem new_cases (h : Owns p owned) (pb : Packetbuf) :
    (∃ i p', queuebufNewFromPacketbuf p pb = (some i, p') ∧ Owns p' (i :: owned) ∧
      p'.bufmem.block i = pb.toQueuebuf ∧
      ∀ j ∈ owned, p'.bufmem.block j = p.bufmem.block j) ∨
    (owned.length = queuebufNum ∧ queuebufNewFromPacketbuf p pb = (none, p)) := by
  unfold queuebufNewFromPacketbuf
  cases ha : p.bufmem.membAlloc with
  | none => exact Or.inr ⟨h.blocks.length_of_alloc_none ha, rfl⟩
  | some r =>
      obtain ⟨i, m⟩ := r
      obtain ⟨hi, hm⟩ := h.blocks.alloc ha
      -- One more block fits the pool, so `queuebuf_len` is below `queuebuf_max_len`.
      have hle : owned.length + 1 ≤ 22 := hm.length_le
      have hlen : (p.queuebufLen + 1).toNat = owned.length + 1 := by
        rw [UInt8.toNat_add, h.len]
        show (owned.length + 1) % 256 = owned.length + 1
        omega
      have hmax : p.queuebufMaxLen.toNat = 22 := by
        rw [h.maxLen]
        rfl
      have hne : (p.queuebufLen + 1).toNat ≠ p.queuebufMaxLen.toNat + 1 := by
        rw [hlen, hmax]
        omega
      refine Or.inl ⟨i, _, if_neg hne, ⟨hm.write _, hlen, h.maxLen⟩,
        Memb.block_write_self _ _ _, fun j hj => ?_⟩
      have hij : i ≠ j := fun hc => hi (hc ▸ hj)
      obtain ⟨_, rfl⟩ := Memb.membAlloc_some ha
      exact Memb.block_write_ne _ _ hij

end Owns

end QueuebufPool

end PTunes.Rime
