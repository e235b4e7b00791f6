import Mathlib.Logic.Function.Basic

/-!
# `PTunes.Core.Ringbuf`: the ring buffer (`core/lib/ringbuf.c`)

The indices are bytes, so that reading and writing them is atomic. The size is a power of two, and
`mask` is the size minus one.
-/

set_option autoImplicit false

namespace PTunes.Core

/-- `struct ringbuf`, with the array that `data` points to. -/
structure Ringbuf where
  data : UInt8 → UInt8
  mask : UInt8
  putPtr : UInt8
  getPtr : UInt8

namespace Ringbuf

/-- `ringbuf_init`. -/
def ringbufInit (dataptr : UInt8 → UInt8) (size : UInt8) : Ringbuf where
  data := dataptr
  mask := size - 1
  putPtr := 0
  getPtr := 0

/-- `ringbuf_elements`. -/
def ringbufElements (r : Ringbuf) : UInt8 := (r.putPtr - r.getPtr) &&& r.mask

/-- The test of `ringbuf_put`. -/
def isFull (r : Ringbuf) : Bool := (r.putPtr - r.getPtr) &&& r.mask == r.mask

/-- `r->data[r->put_ptr] = c`. -/
def store (r : Ringbuf) (c : UInt8) : Ringbuf :=
  { r with data := Function.update r.data r.putPtr c }

/-- `r->put_ptr = (r->put_ptr + 1) & r->mask`. -/
def advancePut (r : Ringbuf) : Ringbuf := { r with putPtr := (r.putPtr + 1) &&& r.mask }

/-- `r->get_ptr = (r->get_ptr + 1) & r->mask`. -/
def advanceGet (r : Ringbuf) : Ringbuf := { r with getPtr := (r.getPtr + 1) &&& r.mask }

/-- `ringbuf_put`. -/
def ringbufPut (r : Ringbuf) (c : UInt8) : Bool × Ringbuf :=
  if r.isFull then (false, r) else (true, (r.store c).advancePut)

/-- `ringbuf_get`. `none` is -1. -/
def ringbufGet (r : Ringbuf) : Option UInt8 × Ringbuf :=
  if 0 < (r.putPtr - r.getPtr) &&& r.mask then (some (r.data r.getPtr), r.advanceGet)
  else (none, r)

/-- `ringbuf_size`. -/
def ringbufSize (r : Ringbuf) : Nat := r.mask.toNat + 1

/-- A call of a function of the module other than `ringbuf_init`. -/
inductive Call
  | put (c : UInt8)
  | get
  | size
  | elements
deriving DecidableEq, Repr

/-- What it returns. -/
inductive Result
  | put (stored : Bool)
  | get (c : Option UInt8)
  | size (n : Nat)
  | elements (n : Nat)
deriving DecidableEq, Repr

/-- One call. -/
def call (r : Ringbuf) : Call → Ringbuf × Result
  | .put c => ((r.ringbufPut c).2, .put (r.ringbufPut c).1)
  | .get => (r.ringbufGet.2, .get r.ringbufGet.1)
  | .size => (r, .size r.ringbufSize)
  | .elements => (r, .elements r.ringbufElements.toNat)

/-- A sequence of calls, with the results. -/
def calls (r : Ringbuf) : List Call → Ringbuf × List Result
  | [] => (r, [])
  | c :: cs => (((r.call c).1.calls cs).1, (r.call c).2 :: ((r.call c).1.calls cs).2)

end Ringbuf

end PTunes.Core
