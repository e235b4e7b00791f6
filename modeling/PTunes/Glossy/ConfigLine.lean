import PTunes.Glossy.Config
import PTunes.Lib.Decimal

/-!
# `PTunes.Glossy.ConfigLine`: configuration lines and report lines

`dissemination_process` (`adaptive-mac.c`) parses a line that has come over the UART, and
`glossy_print_report_process` (`glossy_interface.h`) prints the current configuration with
the report of a node.

A line is the list of its bytes, without the NUL behind them. The parser can read behind the
NUL and write behind its field buffer. Then what follows is not defined, so it is a `Fault`.
-/

set_option autoImplicit false

namespace PTunes.Glossy

open Straight

/-- `','` -/
def comma : UInt8 := 44

/-- What the parser may do wrong. -/
inductive Fault where
  | readPastEnd
  | writePastBuf
deriving DecidableEq, Repr

/-- A line as `serial_line_process` delivers it: at most `BUFSIZE - 1` bytes before the NUL. -/
structure SerialLine where
  bytes : List UInt8
  noNul : (0 : UInt8) ∉ bytes
  length_le : bytes.length ≤ 79

/-! ### `atoi` -/

/-- `isspace`. -/
def isSpace (c : UInt8) : Bool := c = 32 ∨ 9 ≤ c ∧ c ≤ 13

/-- `atoi`, before the conversion to `int`. -/
def atoi (s : List UInt8) : Int :=
  match s.dropWhile isSpace with
  | [] => 0
  | c :: rest =>
    if c = 45 then - (value (rest.takeWhile isDigit) : Int)
    else if c = 43 then value (rest.takeWhile isDigit)
    else value ((c :: rest).takeWhile isDigit)

/-! ### The parser -/

/-- `while (*s2 != ',')`, and `s2++` after it: the number of bytes before the comma, and what
comes behind it. -/
def scan (count : UInt8) : List UInt8 → Except Fault (UInt8 × List UInt8)
  -- The NUL is no comma either.
  | [] => .error .readPastEnd
  | c :: s2 => if c = comma then .ok (count, s2) else scan (count + 1) s2

/-- `strncpy(buf, s1, count)` for the `char buf[10] = ""`. -/
def strncpy (s1 : List UInt8) (count : UInt8) : Except Fault (List UInt8) :=
  if count.toNat ≤ 10 then
    .ok (s1.take count.toNat ++ List.replicate (10 - count.toNat) 0)
  else .error .writePastBuf

/-- One turn of the loop over the fields: the result of `atoi(buf)`, and the next `s1`. The bytes
behind `buf` are `behind`. -/
def readField (behind s1 : List UInt8) : Except Fault (Int16 × List UInt8) := do
  let (count, s2) ← scan 0 s1
  let buf ← strncpy s1 count
  return (Int16.ofInt (atoi (buf ++ behind)), s2)

/-- The loop over the fields. -/
def parseConfig (behind data : List UInt8) : Except Fault Line := do
  let (tL, s1) ← readField behind data
  let (tS, s1) ← readField behind s1
  let (n, _) ← readField behind s1
  return ⟨tL, tS, n⟩

/-- `dissemination_process`, for one line, when nothing interrupts it. -/
def receiveLine (behind : List UInt8) (m : DissMem) (data : List UInt8) : Except Fault DissMem :=
  do
  let line ← parseConfig behind data
  return (exec dissMemory (disseminate line) (0, m)).2

/-! ### The report -/

/-- `glossy_report_struct`. -/
structure GlossyReport where
  pktRate : UInt16
  prr : UInt16
  nodeId : UInt8
  parentId : UInt8
deriving DecidableEq, Repr

/-- The milliseconds of a number of ticks, rounded. -/
def ticksToPrint (t : UInt16) : UInt16 :=
  let toPrint := t.toUInt32 * scale * 10 / rtimerSecond
  if toPrint % 10 > 4 then (toPrint / 10 + 1).toUInt16 else (toPrint / 10).toUInt16

/-- The conversions of the format `"G o=%u p=%u pr=%u prr=%u tl=%u ts=%u n=%u\n"`, with their
arguments. -/
def reportFields (report : GlossyReport) (currentCfg : Config) : List (String × Nat) :=
  [("o=", report.nodeId.toNat), ("p=", report.parentId.toNat), ("pr=", report.pktRate.toNat),
   ("prr=", report.prr.toNat), ("tl=", (ticksToPrint currentCfg.tL).toNat),
   ("ts=", (ticksToPrint currentCfg.tS).toNat), ("n=", currentCfg.n.toNat)]

/-- The line that `glossy_print_report_process` prints, without the newline. -/
def reportLine (report : GlossyReport) (currentCfg : Config) : List UInt8 :=
  ascii "G" ++ (reportFields report currentCfg).flatMap fun (key, v) =>
    32 :: (ascii key ++ decimal v)

end PTunes.Glossy
