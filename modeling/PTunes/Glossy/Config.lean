import Mathlib.Init
import PTunes.Lib.Straight

/-!
# `PTunes.Glossy.Config`: configurations and the processes that copy them

The shared variables of `glossy_interface.h` and, as straight-line code over them, the two
processes of `adaptive-mac.c` that work on them: one pass of `dissemination_process` over a
line that came over the UART, and one pass of `adaptation_process` after a poll. Each access
to a field is an instruction of its own, because the timer interrupt may come between any
two of them.

A `Line` is what `atoi` makes of the three fields of the line. `int` has 16 bits and
`unsigned long` has 32.
-/

set_option autoImplicit false

namespace PTunes.Glossy

open Straight

/-- `struct config`. -/
structure Config where
  tL : UInt16
  tS : UInt16
  n : UInt8
deriving DecidableEq, Repr

/-- `glossy_config_struct`. -/
structure GlossyConfig where
  config : Config
  seqNo : UInt8
deriving DecidableEq, Repr

/-- The fields of a `Config`. -/
inductive Field where
  | tL
  | tS
  | n
deriving DecidableEq, Repr

namespace Config

/-- A field as the value that the code loads. The 8-bit field is extended. -/
def read (c : Config) : Field → UInt16
  | .tL => c.tL
  | .tS => c.tS
  | .n => c.n.toUInt16

/-- A value is stored in a field. The 8-bit field takes its low byte. -/
def write (c : Config) (v : UInt16) : Field → Config
  | .tL => { c with tL := v }
  | .tS => { c with tS := v }
  | .n => { c with n := v.toUInt8 }

end Config

/-! ### The memories of the two processes -/

/-- What `dissemination_process` reads and writes: `new_cfg` and `glossy_config_data`. -/
structure DissMem where
  newCfg : Config
  data : GlossyConfig
deriving DecidableEq, Repr

/-- The fields that `dissemination_process` reads and writes one at a time. -/
inductive DissCell where
  | newCfg (f : Field)
  | data (f : Field)
  | seqNo
deriving DecidableEq, Repr

/-- How they are read and written. The sequence number has 8 bits, as in `glossy_config_struct`. -/
def dissMemory : Memory DissMem DissCell UInt16 where
  read m
    | .newCfg f => m.newCfg.read f
    | .data f => m.data.config.read f
    | .seqNo => m.data.seqNo.toUInt16
  write m c v :=
    match c with
    | .newCfg f => { m with newCfg := m.newCfg.write v f }
    | .data f => { m with data := { m.data with config := m.data.config.write v f } }
    | .seqNo => { m with data := { m.data with seqNo := v.toUInt8 } }

/-- What `adaptation_process` reads and writes: `new_cfg` and `current_cfg`. -/
structure AdaptMem where
  newCfg : Config
  currentCfg : Config
deriving DecidableEq, Repr

/-- The fields that `adaptation_process` reads and writes one at a time. -/
inductive AdaptCell where
  | newCfg (f : Field)
  | currentCfg (f : Field)
deriving DecidableEq, Repr

/-- How they are read and written. -/
def adaptMemory : Memory AdaptMem AdaptCell UInt16 where
  read m
    | .newCfg f => m.newCfg.read f
    | .currentCfg f => m.currentCfg.read f
  write m c v :=
    match c with
    | .newCfg f => { m with newCfg := m.newCfg.write v f }
    | .currentCfg f => { m with currentCfg := m.currentCfg.write v f }

/-- The code of `dissemination_process`. -/
abbrev DissCode := List (Instr DissCell UInt16)
/-- `dissemination_process` between two of its instructions. -/
abbrev DissThread := Thread DissCell UInt16
/-- The code of `adaptation_process`. -/
abbrev AdaptCode := List (Instr AdaptCell UInt16)
/-- `adaptation_process` between two of its instructions. -/
abbrev AdaptThread := Thread AdaptCell UInt16

/-! ### Lines -/

/-- `RTIMER_SECOND` with Glossy. -/
def rtimerSecond : UInt32 := 32768

/-- `SCALE`. -/
def scale : UInt32 := 1000

/-- A configuration update: the results of `atoi`. -/
structure Line where
  tL : Int16
  tS : Int16
  n : Int16
deriving DecidableEq, Repr

/-- `(unsigned long)RTIMER_SECOND * 10 * atoi(buf) / SCALE`: ten times the number of timer
ticks. -/
def tenTicks (a : Int16) : UInt32 := rtimerSecond * 10 * a.toInt32.toUInt32 / scale

/-- The ticks, rounded. -/
def roundTicks (tmp : UInt32) : UInt16 := (tmp / 10).toUInt16 + if tmp % 10 > 4 then 1 else 0

/-- The tuple that a line stands for. -/
def Line.config (l : Line) : Config where
  tL := roundTicks (tenTicks l.tL)
  tS := roundTicks (tenTicks l.tS)
  n := l.n.toUInt16.toUInt8

/-! ### The code of the processes -/

/-- `c++`. -/
def increment {Cell : Type} (c : Cell) : List (Instr Cell UInt16) :=
  [.load c, .add 1, .store c]

/-- `dst = src`. -/
def copy {Cell : Type} (dst src : Cell) : List (Instr Cell UInt16) := [.load src, .store dst]

/-- `dissemination_process`, up to the wait: the line is parsed into `new_cfg`. -/
def parseLine (l : Line) : DissCode :=
  [Instr.const l.n.toUInt16, .store (DissCell.newCfg .n),
   .const (tenTicks l.tL / 10).toUInt16, .store (.newCfg .tL),
   .const (tenTicks l.tS / 10).toUInt16, .store (.newCfg .tS)] ++
  (if tenTicks l.tL % 10 > 4 then increment (DissCell.newCfg .tL) else []) ++
  (if tenTicks l.tS % 10 > 4 then increment (DissCell.newCfg .tS) else [])

/-- `dissemination_process`, after the wait: `new_cfg` is published. -/
def publish : DissCode :=
  increment DissCell.seqNo ++ copy (DissCell.data .tL) (.newCfg .tL) ++
    copy (DissCell.data .tS) (.newCfg .tS) ++ copy (DissCell.data .n) (.newCfg .n)

/-- `dissemination_process`, from a line to the wait for the next one. At `pause` it waits
until Glossy is off. -/
def disseminate (l : Line) : DissCode := parseLine l ++ [.pause] ++ publish

/-- `adaptation_process`, from a poll to the wait for the next one. -/
def adaptation : AdaptCode :=
  copy (AdaptCell.currentCfg .tL) (.newCfg .tL) ++
    copy (AdaptCell.currentCfg .tS) (.newCfg .tS) ++ copy (AdaptCell.currentCfg .n) (.newCfg .n)

/-! ### What the processes do when they are not interrupted -/

/-- Parsing leaves the tuple of the line in `new_cfg`. -/
theorem exec_parseLine (l : Line) (s : UInt16 × DissMem) :
    (exec dissMemory (parseLine l) s).2 = { s.2 with newCfg := l.config } := by
  unfold parseLine
  split <;> split <;>
    simp_all [increment, Instr.run, dissMemory, Config.write, Config.read, Line.config,
      roundTicks]

/-- Publishing copies `new_cfg` under the next sequence number. -/
theorem exec_publish (s : UInt16 × DissMem) :
    (exec dissMemory publish s).2 =
      { s.2 with data := ⟨s.2.newCfg, s.2.data.seqNo + 1⟩ } := by
  simp [publish, increment, copy, Instr.run, dissMemory, Config.write, Config.read]

/-- An uninterrupted pass publishes the tuple of the line. -/
theorem exec_disseminate (l : Line) (s : UInt16 × DissMem) :
    (exec dissMemory (disseminate l) s).2 = ⟨l.config, ⟨l.config, s.2.data.seqNo + 1⟩⟩ := by
  simp only [disseminate, exec_append, exec_cons, exec_nil, Instr.run]
  rw [exec_publish, exec_parseLine]

/-- An uninterrupted adaptation copies `new_cfg` to `current_cfg`. -/
theorem exec_adaptation (s : UInt16 × AdaptMem) :
    (exec adaptMemory adaptation s).2 = { s.2 with currentCfg := s.2.newCfg } := by
  simp [adaptation, copy, Instr.run, adaptMemory, Config.write, Config.read]

end PTunes.Glossy
