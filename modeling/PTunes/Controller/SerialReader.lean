import PTunes.Controller.AbstractTrigger
import PTunes.Controller.History
import PTunes.Controller.Serial
import PTunes.Lib.Completion

/-!
# `PTunes.Controller.SerialReader`: the thread that reads the serial port

The reading loop of `AdaptMac.connectToCOMPort`, with `generatePacketLogMessage`,
`generatePRRLogMessage`, `printCurrentTopology` and the callbacks `collectionFinished` of the
triggers. The loop catches `ArithmeticException` and `NumberFormatException` in each turn. Any
other exception ends the thread.

The thread is started before the triggers are created, so their variables may still be `null`
when a line arrives. The other threads take their steps between two lines. What goes to the logs
is the message of `generatePacketLogMessage`; the other texts are left out.

`Double.valueOf` (`inverseOf`) and the answer of ECLiPSe to `driver.performance` come from
outside.
-/

set_option autoImplicit false

namespace PTunes.Controller

variable {ρ R : Type}

/-- The exceptions. -/
inductive JavaException
  | arithmetic
  | numberFormat
  | noSuchElement
  | nullPointer
  | classCast
  | indexOutOfBounds
  deriving DecidableEq, Repr

/-- The exceptions that the loop catches. -/
def JavaException.caught : JavaException → Bool
  | .arithmetic => true
  | .numberFormat => true
  | _ => false

/-! ### `A` lines -/

/-- `Long.valueOf`. -/
def longValueOf (s : List UInt8) : Option Int :=
  let digits := if s.head? = some 45 ∨ s.head? = some 43 then s.tail else s
  let z : Int := if s.head? = some 45 then - (value digits : Int) else value digits
  if digits ≠ [] ∧ digits.all isDigit ∧ -9223372036854775808 ≤ z ∧ z ≤ 9223372036854775807
  then some z else none

/-- The variables of `generatePacketLogMessage`. -/
structure PacketLog where
  nodeId : Int
  seqNo : Int
  queuingDelay : Int
  droppedPacketsCount : Int
  queueSize : Int
  tTx : Int
  tRx : Int
  tCpu : Int
  tLpm : Int
  tGlossyTx : Int
  tGlossyRx : Int
  tGlossyCpu : Int
  latency : Int
  deriving DecidableEq, Repr

/-- One turn of the loop of `generatePacketLogMessage`. -/
def readLogToken (m : PacketLog) (token : List UInt8) : Option PacketLog :=
  let s := afterEquals token
  if startsWith token "o=" then (intValueOf s).map fun z => { m with nodeId := z }
  else if startsWith token "seq=" then (intValueOf s).map fun z => { m with seqNo := z }
  else if startsWith token "qd=" then (intValueOf s).map fun z => { m with queuingDelay := z }
  else if startsWith token "dp=" then
    (intValueOf s).map fun z => { m with droppedPacketsCount := z }
  else if startsWith token "qs=" then (intValueOf s).map fun z => { m with queueSize := z }
  else if startsWith token "tx=" then (longValueOf s).map fun z => { m with tTx := z }
  else if startsWith token "rx=" then (longValueOf s).map fun z => { m with tRx := z }
  else if startsWith token "cpu=" then (longValueOf s).map fun z => { m with tCpu := z }
  else if startsWith token "lpm=" then (longValueOf s).map fun z => { m with tLpm := z }
  else if startsWith token "lat=" then (longValueOf s).map fun z => { m with latency := z }
  else if startsWith token "gtx=" then (longValueOf s).map fun z => { m with tGlossyTx := z }
  else if startsWith token "grx=" then (longValueOf s).map fun z => { m with tGlossyRx := z }
  else if startsWith token "gcpu=" then (longValueOf s).map fun z => { m with tGlossyCpu := z }
  else some m

/-- The text of a log entry. -/
def PacketLog.message (m : PacketLog) : List UInt8 :=
  List.intercalate [32] (ascii "PACKET" :: [m.nodeId, m.seqNo, m.queuingDelay,
    m.droppedPacketsCount, m.queueSize, m.tRx, m.tTx, m.tCpu, m.tLpm, m.tGlossyRx, m.tGlossyTx,
    m.tGlossyCpu, m.latency].map intToString)

/-- `generatePacketLogMessage`. -/
def generatePacketLogMessage (msg : List UInt8) : Option (List UInt8) :=
  ((tokens msg).foldlM readLogToken ⟨0, 0, 0, 0, 0, 0, 0, 0, 0, 0, 0, 0, 0⟩).map
    PacketLog.message

/-- A method whose only exception is `NumberFormatException`. -/
def ofNumberFormat {α : Type} : Option α → Completion JavaException α
  | some a => .returned a
  | none => .threw .numberFormat

/-! ### The history and the triggers -/

/-- `topologyHistory.getFirst()`. -/
def getFirst : List (Topology ρ) → Completion JavaException (Topology ρ)
  | [] => .threw .noSuchElement
  | t :: _ => .returned t

/-- `printCurrentTopology`: the topology that it prints. -/
def printCurrentTopology (topologyHistory : List (Topology ρ)) :
    Completion JavaException (Option (Topology ρ)) :=
  if topologyHistory.isEmpty then .returned none
  else do
    let t ← getFirst topologyHistory
    return some t

/-- A term that ECLiPSe answers. -/
inductive EclipseTerm (R : Type)
  | double (x : R)
  | other

/-- `((Double) performance.get(i)).doubleValue()`. -/
def getDouble (performance : List (EclipseTerm R)) (i : Nat) : Completion JavaException R :=
  match performance[i]? with
  | some (.double x) => .returned x
  | some .other => .threw .classCast
  | none => .threw .indexOutOfBounds

/-- `EclipseDriver.performance`. `none` is an `IOException` or an `EclipseException`, which it
catches. -/
def performance (answer : Option (List (EclipseTerm R))) :
    Completion JavaException (Option (R × R × R × R)) :=
  match answer with
  | none => .returned none
  | some performance => do
    let lifetime ← getDouble performance 0
    let reliability ← getDouble performance 1
    let latency ← getDouble performance 2
    let maxQueuingRate ← getDouble performance 3
    return some (lifetime, reliability, latency, maxQueuingRate)

/-- The optimization triggers. -/
inductive OptimizationTrigger
  | timed
  | adaptiveTimed
  | timedPerformance (nodesHaveBeenPurged : Bool)
  | unifiedDataRate
  | initialOptimization
  deriving DecidableEq, Repr

/-- What is fixed for a run of the controller. -/
structure AdaptMac (ρ R : Type) where
  withEstimation : Bool
  withOptimizationTrigger : Bool
  doubleOps : DoubleOps R
  /-- The initial packet rate `0.0`. -/
  zero : ρ
  /-- `1.0 / Double.valueOf`. -/
  inverseOf : List UInt8 → Option ρ

/-- What one turn of the loop finds. A trigger that is `none` has not been created. -/
structure LineEnv (ρ R : Type) where
  sink : NodeTopologyInfo ρ
  now : Int
  clock : Nat → Int
  estimationTrigger : Option Unit
  optimizationTrigger : Option OptimizationTrigger
  /-- The answer of ECLiPSe to `performance`. -/
  answer : Option (List (EclipseTerm R))
  /-- A bound on the turns of each inner loop. -/
  fuel : Nat

/-- `OptimizationTrigger.collectionFinished`. All but one only compare packet rates and wake
their thread up. -/
def OptimizationTrigger.collectionFinished (D : DoubleOps R) (E : LineEnv ρ R)
    (topologyHistory : List (Topology ρ)) : OptimizationTrigger → Completion JavaException Unit
  | .timedPerformance nodesHaveBeenPurged =>
    if topologyHistory.isEmpty || nodesHaveBeenPurged then .returned ()
    else do
      let _ ← .ofLoop .nullPointer (prepareTopologies D E.fuel topologyHistory true)
      let _ ← performance E.answer
      return ()
  | _ => .returned ()

namespace AdaptMac

variable (K : AdaptMac ρ R) (E : LineEnv ρ R)

/-- `estimationTrigger.collectionFinished()`, if it is selected. -/
def notifyEstimation : Completion JavaException Unit :=
  if K.withEstimation then
    match E.estimationTrigger with
    | none => .threw .nullPointer
    | some _ => .returned ()
  else .returned ()

/-- `optimizationTrigger.collectionFinished()`, if it is selected. -/
def notifyOptimization (topologyHistory : List (Topology ρ)) :
    Completion JavaException Unit :=
  if K.withOptimizationTrigger then
    match E.optimizationTrigger with
    | none => .threw .nullPointer
    | some trigger => trigger.collectionFinished K.doubleOps E topologyHistory
  else .returned ()

/-- `generatePRRLogMessage` of the current topology, if that is consistent. -/
def logPRR (topologyHistory : List (Topology ρ)) :
    Completion JavaException (Option (PRRStatistics R)) :=
  if topologyHistory.isEmpty then .returned none
  else do
    let t ← getFirst topologyHistory
    let ok ← .ofLoop .nullPointer (t.isConsistent E.fuel)
    if ok then
      let s ← .ofLoop .nullPointer (t.computePRRStats K.doubleOps E.fuel)
      return some s
    else return none

/-! ### The loop -/

/-- The branch for `A` lines. -/
def handlePacket (line : List UInt8) (topologyHistory : List (Topology ρ)) :
    Completion JavaException Unit := do
  let _ ← ofNumberFormat (generatePacketLogMessage line)
  let _ ← printCurrentTopology topologyHistory
  return ()

/-- The branch for `F` lines. -/
def handleFinished (topologyHistory : List (Topology ρ)) : Completion JavaException Unit := do
  let _ ← K.logPRR E topologyHistory
  let _ ← printCurrentTopology topologyHistory
  K.notifyEstimation E
  K.notifyOptimization E topologyHistory

/-- The branches of a turn, with the history after it. -/
def handleLine (line : List UInt8) (topologyHistory : List (Topology ρ)) :
    Completion JavaException Unit × List (Topology ρ) :=
  if startsWith line "A" then (handlePacket line topologyHistory, topologyHistory)
  else if startsWith line "G" then
    match processMsg K.zero K.inverseOf E.now line with
    | none => (.threw .numberFormat, topologyHistory)
    | some nodeInfo =>
      (.returned (), updateTopologyHistory E.sink E.clock nodeInfo topologyHistory)
  else if startsWith line "F" then
    (K.handleFinished E topologyHistory, topologyHistory)
  else (.returned (), topologyHistory)

/-- The `try` statement of a turn. -/
def catchLine : Completion JavaException Unit → Completion JavaException Unit
  | .threw e => if e.caught then .returned () else .threw e
  | c => c

/-- A printable character in the sense of `\p{Print}`. -/
def isPrint (c : Char) : Bool := 32 ≤ c.toNat && c.toNat ≤ 126

/-- `line.replaceAll("[^\\p{Print}]", "")`. -/
def removeNonPrintable (line : List Char) : List UInt8 :=
  (line.filter isPrint).map fun c => UInt8.ofNat c.toNat

/-- One turn of the loop. -/
def readLine (line : List Char) (topologyHistory : List (Topology ρ)) :
    Completion JavaException Unit × List (Topology ρ) :=
  let r := K.handleLine E (removeNonPrintable line) topologyHistory
  (catchLine r.1, r.2)

/-- The loop over the lines, each with what its turn finds. -/
def readLines : List (LineEnv ρ R × List Char) → List (Topology ρ) →
    Completion JavaException Unit × List (Topology ρ)
  | [], topologyHistory => (.returned (), topologyHistory)
  | (E, line) :: rest, topologyHistory =>
    match K.readLine E line topologyHistory with
    | (.returned _, topologyHistory) => readLines rest topologyHistory
    | r => r

/-- `SERIAL_FLUSH_LINES`. -/
def serialFlushLines : Nat := 5

/-- The thread that reads the serial port: the first lines are flushed. -/
def readSerial (lines : List (LineEnv ρ R × List Char)) (topologyHistory : List (Topology ρ)) :
    Completion JavaException Unit × List (Topology ρ) :=
  K.readLines (lines.drop serialFlushLines) topologyHistory

end AdaptMac

end PTunes.Controller
