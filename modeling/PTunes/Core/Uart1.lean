import PTunes.Core.Ringbuf
import PTunes.Lib.Machine

/-!
# `PTunes.Core.Uart1`: writing to the serial line (`cpu/msp430/dev/uart1.c`)

`uart1_writeb` puts a byte into the ring buffer `txbuf`. The transmit interrupt moves the bytes to
the register `TXBUF1`, one each time that the register is empty, and the hardware shifts them out.
When no interrupt is to come, `transmitting` is 0, and `uart1_writeb` writes to the register itself.

The interrupt comes at any point of `uart1_writeb`, so this function is a sequence of small steps.
A step reads or writes at most one of the variables that it shares with the interrupt. The bytes
are written by processes, one at a time.

A byte in the register and on the line is `none` when it is the -1 of a `ringbuf_get` from an empty
buffer. On the line it is 0xFF. `written` records the bytes that were given to `uart1_writeb`.
-/

set_option autoImplicit false

namespace PTunes.Core

/-- Where `uart1_writeb` is. -/
inductive WritebPc
  | idle
  | put (c : UInt8)
  | store (c : UInt8)
  | advancePut (c : UInt8)
  | test
  | start
  | getTest
  | fetch
  | readGet (c : UInt8)
  | advanceGet (c : UInt8) (getPtr : UInt8)
  | send (c : Option UInt8)
deriving DecidableEq, Repr

/-- The variables, the register `TXBUF1`, the flag `UTXIFG1` of the interrupt, and the line. -/
structure Uart1 where
  txbuf : Ringbuf
  transmitting : Bool
  txbuf1 : Option (Option UInt8)
  utxifg1 : Bool
  pc : WritebPc
  line : List (Option UInt8)
  written : List UInt8

/-- A call of `uart1_writeb`, a step of it, the interrupt, and the hardware. -/
inductive Uart1Label
  | writeb (c : UInt8)
  | code
  | txInterrupt
  | shift
deriving DecidableEq, Repr

namespace Uart1

/-- `TXBUF1 = c`. -/
def writeTxbuf1 (s : Uart1) (c : Option UInt8) : Uart1 :=
  { s with txbuf1 := some c, utxifg1 := false }

/-- `uart1_tx_interrupt`. -/
def uart1TxInterrupt (s : Uart1) : Uart1 :=
  let s := { s with utxifg1 := false }
  if s.txbuf.ringbufElements = 0 then { s with transmitting := false }
  else { s with txbuf := s.txbuf.ringbufGet.2 }.writeTxbuf1 s.txbuf.ringbufGet.1

/-- A step of `uart1_writeb`. -/
def code (s : Uart1) : Option Uart1 :=
  match s.pc with
  | .idle => none
  | .put c => some { s with pc := if s.txbuf.isFull then .put c else .store c }
  | .store c => some { s with txbuf := s.txbuf.store c, pc := .advancePut c }
  | .advancePut _ => some { s with txbuf := s.txbuf.advancePut, pc := .test }
  | .test => some { s with pc := if s.transmitting then .idle else .start }
  | .start => some { s with transmitting := true, pc := .getTest }
  | .getTest =>
    some { s with
      pc := if 0 < (s.txbuf.putPtr - s.txbuf.getPtr) &&& s.txbuf.mask then .fetch
        else .send none }
  | .fetch => some { s with pc := .readGet (s.txbuf.data s.txbuf.getPtr) }
  | .readGet c => some { s with pc := .advanceGet c ((s.txbuf.getPtr + 1) &&& s.txbuf.mask) }
  | .advanceGet c getPtr =>
    some { s with txbuf := { s.txbuf with getPtr := getPtr }, pc := .send (some c) }
  | .send c => some { s.writeTxbuf1 c with pc := .idle }

/-- The labelled step. -/
def step (s : Uart1) : Uart1Label → Option Uart1
  | .writeb c =>
    if s.pc = .idle then some { s with pc := .put c, written := s.written ++ [c] } else none
  | .code => s.code
  | .txInterrupt => if s.utxifg1 then some s.uart1TxInterrupt else none
  | .shift =>
    match s.txbuf1 with
    | none => none
    | some c => some { s with txbuf1 := none, utxifg1 := true, line := s.line ++ [c] }

/-- `TXBUFSIZE`. -/
def txbufsize : UInt8 := 64

/-- The end of `uart1_init`. The interrupt of the empty register was served at once, when it was
enabled. -/
def init : Uart1 where
  txbuf := .ringbufInit (fun _ => 0) txbufsize
  transmitting := false
  txbuf1 := none
  utxifg1 := false
  pc := .idle
  line := []
  written := []

end Uart1

/-- Writing to the serial line, under every order of steps and interrupts. -/
def uart1 : Machine Uart1 Uart1Label where
  init := Uart1.init
  step := Uart1.step

end PTunes.Core
