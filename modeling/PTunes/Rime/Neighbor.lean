import Mathlib.Algebra.Order.Ring.Nat
import PTunes.Core.Memb
import PTunes.Lib.Machine
import PTunes.Rime.Addr

/-!
# `PTunes.Rime.Neighbor`: the neighbor table (`core/net/rime/neighbor.c`)

The table is the pool `neighbors_mem`, the linked list `neighbors_list` of pointers into it,
and the static pointer `last_best`, the parent that `neighbor_best` keeps from call to
call. A pointer is the index of its block, and freed blocks keep their contents, as in the
source.

The target is the 16-bit MSP430: `int` has 16 bits, so `max_time` is compared with the
unsigned `n->time` as an unsigned value, and metric sums are taken in 16 bits.

Two functions read memory that is no neighbor. `neighbor_remove` passes `&last_best`, not
`&last_best->addr`, to `rimeaddr_cmp`, so it compares an address with the two bytes of the
pointer itself. `neighbor_add` reads `last_best->addr` without a `NULL` check. A
`Platform` gives both values.
-/

set_option autoImplicit false

namespace PTunes.Rime

open PTunes.Core

/-- `MAX_NEIGHBORS`. -/
abbrev maxNeighbors : Nat := 16

instance : NeZero maxNeighbors := ⟨by decide⟩

/-- `NEIGHBOR_NUM_ETXS`. -/
abbrev neighborNumEtxs : Nat := 16

/-- `NEIGHBOR_ETX_SCALE`. -/
abbrev neighborEtxScale : Nat := 1

/-- `RTMETRIC_MAX`, which is `RELCOLLECT_MAX_DEPTH`. -/
abbrev rtmetricMax : UInt16 := 255

/-- `struct neighbor`, without its link. -/
structure Neighbor where
  time : UInt16
  addr : RimeAddr
  rtmetric : UInt16
  etxptr : UInt8
  etxs : Vector UInt8 neighborNumEtxs

/-- A block of `neighbors_mem` after `memb_init`. -/
def Neighbor.zero : Neighbor where
  time := 0
  addr := rimeaddrNull
  rtmetric := 0
  etxptr := 0
  etxs := Vector.replicate _ 0

/-- A non-`NULL` `struct neighbor *`. -/
abbrev NeighborPtr := Fin maxNeighbors

/-- `sizeof(struct neighbor)`: 25 bytes, padded to an even size. -/
def sizeofNeighbor : Nat := 26

/-- What the linker and the hardware fix: the address of the blocks of `neighbors_mem`, and
the two bytes that `NULL->addr` reads. -/
structure Platform where
  neighborsMem : UInt16
  nullAddr : RimeAddr

/-- The two bytes of a pointer to the block `i`, low byte first. -/
def Platform.ptrBytes (P : Platform) (i : NeighborPtr) : RimeAddr :=
  let p := (P.neighborsMem.toNat + sizeofNeighbor * i) % 2 ^ 16
  ⟨UInt8.ofNat (p % 256), UInt8.ofNat (p / 256)⟩

/-- The static variables of `neighbor.c`. -/
structure NeighborTable where
  neighborsMem : Memb Neighbor maxNeighbors
  neighborsList : List NeighborPtr
  lastBest : Option NeighborPtr
  maxTime : UInt16

namespace NeighborTable

/-- The contents of a block. -/
def get (t : NeighborTable) (i : NeighborPtr) : Neighbor := t.neighborsMem.block i

/-- A write through a pointer. -/
def write (t : NeighborTable) (i : NeighborPtr) (n : Neighbor) : NeighborTable :=
  { t with neighborsMem := t.neighborsMem.write i n }

/-- `list_remove(neighbors_list, n)` and `memb_free(&neighbors_mem, n)`. -/
def unlink (t : NeighborTable) (i : NeighborPtr) : NeighborTable :=
  { t with
    neighborsList := t.neighborsList.erase i
    neighborsMem := t.neighborsMem.membFree i }

end NeighborTable

/-- `neighbor_init`, from zeroed memory: `last_best` is `NULL` and `max_time` is 500. -/
def neighborInit : NeighborTable where
  neighborsMem := Memb.membInit Neighbor.zero
  neighborsList := []
  lastBest := none
  maxTime := 500

/-- `neighbor_find`: the first entry with the address. -/
def neighborFind (t : NeighborTable) (addr : RimeAddr) : Option NeighborPtr :=
  t.neighborsList.find? (fun i => rimeaddrCmp (t.get i).addr addr)

/-- `neighbor_update`. The parameter `rtmetric` has 8 bits, the field has 16. -/
def neighborUpdate (t : NeighborTable) (n : Option NeighborPtr) (rtmetric : UInt8) :
    NeighborTable :=
  match n with
  | none => t
  | some i => t.write i { t.get i with rtmetric := rtmetric.toUInt16, time := 0 }

/-- `(etxptr + 1) % NEIGHBOR_NUM_ETXS`, in 16 bits before it is stored. -/
def nextEtxptr (p : UInt8) : UInt8 := UInt8.ofNat ((p.toNat + 1) % neighborNumEtxs)

/-- `neighbor_timedout_etx`: the count is added to the current slot, modulo 256. -/
def neighborTimedoutEtx (t : NeighborTable) (n : Option NeighborPtr) (etx : UInt8) :
    NeighborTable :=
  match n with
  | none => t
  | some i =>
    let b := t.get i
    let p := b.etxptr.toNat
    t.write i { b with
      etxs := b.etxs.setIfInBounds p (b.etxs.toArray.getD p 0 + etx)
      etxptr := nextEtxptr b.etxptr }

/-- `neighbor_update_etx`: the count replaces the current slot. -/
def neighborUpdateEtx (t : NeighborTable) (n : Option NeighborPtr) (etx : UInt8) :
    NeighborTable :=
  match n with
  | none => t
  | some i =>
    let b := t.get i
    t.write i { b with
      etxs := b.etxs.setIfInBounds b.etxptr.toNat etx
      etxptr := nextEtxptr b.etxptr
      time := 0 }

/-- `neighbor_etx`: the mean of the slots, as an 8-bit value. -/
def neighborEtx (n : Neighbor) : UInt8 :=
  let etx := (n.etxs.toList.map UInt8.toNat).sum
  UInt8.ofNat (neighborEtxScale * etx / neighborNumEtxs)

/-- `n->rtmetric + neighbor_etx(n)`, in 16 bits. -/
def Neighbor.cost (n : Neighbor) : UInt16 := n.rtmetric + (neighborEtx n).toUInt16

/-- One entry of the loop in `periodic`: an entry that reaches `max_time` is re-addressed
to null, taken off the list and freed. `last_best` is not looked at. -/
def periodicEntry (t : NeighborTable) (i : NeighborPtr) : NeighborTable :=
  let n := t.get i
  if !rimeaddrCmp n.addr rimeaddrNull && n.time < t.maxTime then
    let time := n.time + 1
    if time = t.maxTime then
      (t.write i
        { n with time := time, rtmetric := rtmetricMax, addr := rimeaddrNull }).unlink i
    else
      t.write i { n with time := time }
  else t

/-- `periodic`: the loop reads each `next` before it removes an entry, so it visits the
entries the list has at the start. -/
def periodic (t : NeighborTable) : NeighborTable :=
  t.neighborsList.foldl periodicEntry t

/-- `last_best->addr`, also where `last_best` is `NULL`. -/
def lastBestAddr (P : Platform) (t : NeighborTable) : RimeAddr :=
  match t.lastBest with
  | some l => (t.get l).addr
  | none => P.nullAddr

/-- The loop in `neighbor_add` that looks for an entry to recycle: the running `rtmetric`,
`etx` and `max`. The entry with the address of `last_best` is passed over. -/
def recycleEntry (P : Platform) (t : NeighborTable)
    (acc : UInt16 × UInt16 × Option NeighborPtr) (i : NeighborPtr) :
    UInt16 × UInt16 × Option NeighborPtr :=
  let n := t.get i
  if !rimeaddrCmp n.addr rimeaddrNull && !rimeaddrCmp n.addr (lastBestAddr P t) then
    if n.rtmetric > acc.1 then (n.rtmetric, (neighborEtx n).toUInt16, some i)
    else if n.rtmetric = acc.1 && (neighborEtx n).toUInt16 > acc.2.1 then
      (n.rtmetric, (neighborEtx n).toUInt16, some i)
    else acc
  else acc

/-- The entry `neighbor_add` recycles when the pool is exhausted. -/
def recycle (P : Platform) (t : NeighborTable) : Option NeighborPtr :=
  (t.neighborsList.foldl (recycleEntry P t) (0, 0, none)).2.2

/-- The fresh contents `neighbor_add` writes. The parameters have 8 bits. -/
def freshNeighbor (addr : RimeAddr) (nrtmetric netx : UInt8) : Neighbor where
  time := 0
  addr := addr
  rtmetric := nrtmetric.toUInt16
  etxptr := 0
  etxs := Vector.replicate _ netx

/-- `neighbor_add`: the first entry with a null address or this address is reused. Without
one, a block is allocated and appended, or an entry is recycled. -/
def neighborAdd (P : Platform) (t : NeighborTable) (addr : RimeAddr) (nrtmetric netx : UInt8) :
    NeighborTable :=
  match t.neighborsList.find? (fun i =>
      rimeaddrCmp (t.get i).addr rimeaddrNull || rimeaddrCmp (t.get i).addr addr) with
  | some i => t.write i (freshNeighbor addr nrtmetric netx)
  | none =>
    match t.neighborsMem.membAlloc with
    | some (i, m) =>
      { t with
        neighborsMem := m.write i (freshNeighbor addr nrtmetric netx)
        neighborsList := t.neighborsList ++ [i] }
    | none =>
      match recycle P t with
      | some i => t.write i (freshNeighbor addr nrtmetric netx)
      | none => t

/-- `neighbor_remove`: the first entry with the address is re-addressed to null, taken off
the list and freed. `last_best` is cleared when the address equals the bytes of the
pointer. -/
def neighborRemove (P : Platform) (t : NeighborTable) (addr : RimeAddr) : NeighborTable :=
  match neighborFind t addr with
  | none => t
  | some i =>
    let n := t.get i
    let lastBest := match t.lastBest with
      | some l => if rimeaddrCmp n.addr (P.ptrBytes l) then none else some l
      | none => none
    ({ t with lastBest := lastBest }.write i
      { n with addr := rimeaddrNull, rtmetric := rtmetricMax }).unlink i

/-- One entry of the loop in `neighbor_best`: the running `rtmetric` and `best`. -/
def bestEntry (t : NeighborTable) (acc : UInt16 × Option NeighborPtr) (i : NeighborPtr) :
    UInt16 × Option NeighborPtr :=
  let n := t.get i
  if !rimeaddrCmp n.addr rimeaddrNull && acc.1 > n.cost then (n.cost, some i) else acc

/-- The loop in `neighbor_best`: the lowest cost below `RTMETRIC_MAX` and its entry. -/
def lowest (t : NeighborTable) : UInt16 × Option NeighborPtr :=
  t.neighborsList.foldl (bestEntry t) (rtmetricMax, none)

/-- `neighbor_best`: the previous parent is kept unless the lowest cost is more than 2
below its own. -/
def neighborBest (t : NeighborTable) : Option NeighborPtr × NeighborTable :=
  let (rtmetric, best) := lowest t
  match t.lastBest with
  | none => (best, { t with lastBest := best })
  | some l =>
    if !(rtmetric + 2 < (t.get l).cost) then (some l, t)
    else (best, { t with lastBest := best })

/-- `neighbor_set_lifetime`, with the bit pattern of its `int` argument. -/
def neighborSetLifetime (t : NeighborTable) (seconds : UInt16) : NeighborTable :=
  { t with maxTime := seconds }

/-- The operations of the neighbor table. A pointer argument may be any block, so a caller
may also pass a pointer that it kept too long. -/
inductive NeighborOp
  | add (addr : RimeAddr) (rtmetric etx : UInt8)
  | update (n : Option NeighborPtr) (rtmetric : UInt8)
  | updateEtx (n : Option NeighborPtr) (etx : UInt8)
  | timedoutEtx (n : Option NeighborPtr) (etx : UInt8)
  | periodic
  | remove (addr : RimeAddr)
  | best
  | setLifetime (seconds : UInt16)

/-- The table after one operation. -/
def applyNeighborOp (P : Platform) (t : NeighborTable) : NeighborOp → NeighborTable
  | .add addr rtmetric etx => neighborAdd P t addr rtmetric etx
  | .update n rtmetric => neighborUpdate t n rtmetric
  | .updateEtx n etx => neighborUpdateEtx t n etx
  | .timedoutEtx n etx => neighborTimedoutEtx t n etx
  | .periodic => periodic t
  | .remove addr => neighborRemove P t addr
  | .best => (neighborBest t).2
  | .setLifetime seconds => neighborSetLifetime t seconds

/-- The table as a machine: every operation is possible at any time. -/
def neighborMachine (P : Platform) : Machine NeighborTable NeighborOp where
  init := neighborInit
  step t op := some (applyNeighborOp P t op)

end PTunes.Rime
