import PTunes.Controller.Topology
import PTunes.Lib.Decimal

/-!
# `PTunes.Controller.Serial`: what the controller writes and reads

`MacConfiguration.inject` writes a line to the serial port, and `AdaptMac.processMsg` reads the
`G` lines that come from there. `none` is a `NumberFormatException`.

The packet rate is computed with `double` and only stored: its value before it is read and
`1.0 / Double.valueOf` are parameters.
-/

set_option autoImplicit false

namespace PTunes.Controller

/-- `Integer.toString`. -/
def intToString (z : Int) : List UInt8 :=
  if z < 0 then 45 :: decimal z.natAbs else decimal z.natAbs

/-- `MacConfiguration.inject`, without the newline. -/
def MacConfiguration.inject (v : MacConfiguration) : List UInt8 :=
  intToString v.tl ++ 44 :: (intToString v.ts ++ 44 :: (intToString v.n ++ [44]))

/-- `Integer.valueOf`. -/
def intValueOf (s : List UInt8) : Option Int :=
  let digits := if s.head? = some 45 ∨ s.head? = some 43 then s.tail else s
  let z : Int := if s.head? = some 45 then - (value digits : Int) else value digits
  if digits ≠ [] ∧ digits.all isDigit ∧ -2147483648 ≤ z ∧ z ≤ 2147483647 then some z else none

/-- `token.substring(token.indexOf('=') + 1)`. -/
def afterEquals (token : List UInt8) : List UInt8 :=
  if (61 : UInt8) ∈ token then (token.dropWhile (· ≠ 61)).tail else token

variable {ρ : Type}

/-- The variables of `processMsg`. -/
structure MsgFields (ρ : Type) where
  nodeId : Int
  parentId : Int
  prr : Int
  tl : Int
  ts : Int
  n : Int
  pktRate : ρ

/-- `token.startsWith`. -/
def startsWith (token : List UInt8) (key : String) : Bool := (ascii key).isPrefixOf token

/-- One turn of the loop of `processMsg`. -/
def readToken (inverseOf : List UInt8 → Option ρ) (m : MsgFields ρ) (token : List UInt8) :
    Option (MsgFields ρ) :=
  let s := afterEquals token
  if startsWith token "o=" then (intValueOf s).map fun z => { m with nodeId := z }
  else if startsWith token "p=" then (intValueOf s).map fun z => { m with parentId := z }
  else if startsWith token "pr=" then (inverseOf s).map fun r => { m with pktRate := r }
  else if startsWith token "prr=" then (intValueOf s).map fun z => { m with prr := z }
  else if startsWith token "tl=" then (intValueOf s).map fun z => { m with tl := z }
  else if startsWith token "ts=" then (intValueOf s).map fun z => { m with ts := z }
  else if startsWith token "n=" then (intValueOf s).map fun z => { m with n := z }
  else some m

/-- `AdaptMac.processMsg`, at the time `now`. -/
def processMsg (zero : ρ) (inverseOf : List UInt8 → Option ρ) (now : Int) (msg : List UInt8) :
    Option (NodeTopologyInfo ρ) :=
  ((tokens msg).foldlM (readToken inverseOf) ⟨0, 0, 0, 0, 0, 0, zero⟩).map fun m =>
    { timestamp := now, nodeId := m.nodeId, parentId := m.parentId, prr := m.prr,
      pktRate := m.pktRate, macConf := ⟨m.tl, m.ts, m.n⟩ }

end PTunes.Controller
