import PTunes.Core.Process
import PTunes.Lib.Machine

/-!
# `PTunes.Glossy.LineDelivery`: from the UART to the parser

The UART interrupt collects a line in `buffer` (`serial_line_input_byte`, `serial-line.c`).
`serial_line_process` copies it to `appbuffer` and posts an event with a pointer to
`appbuffer`. `dissemination_process` (`adaptive-mac.c`) parses what `appbuffer` holds when the
event reaches it. Then it waits until Glossy is off, and while it waits, any event wakes it and
is gone.

An `Action` is an interrupt, or what a process does between two points at which an interrupt
matters. A process runs until it yields, so nothing else starts while `serial_line_process` is
on its way. Other processes post events and wake these two processes as they like. Both have
been started, and neither the UART nor the flood loses an interrupt.

The last fields are records: the lines that have been written, and for each line in a buffer
its position among them. `undisturbed` says that no earlier line was in process while the line
was written. A carriage return is ignored, so it does not belong to a line.
-/

set_option autoImplicit false

namespace PTunes.Glossy

open PTunes.Core (EventQueue processConfNumevents)

/-- The events that `dissemination_process` may get. -/
inductive EventId where
  | serialLine
  | continue_
  | other (ev : UInt8)
deriving DecidableEq, Repr

/-- To whom an event is posted. -/
inductive EventReceiver where
  | broadcast
  | dissemination
  | other
deriving DecidableEq, Repr

/-- `struct event_data`. The data of a line event is `appbuffer`. -/
structure EventData where
  ev : EventId
  p : EventReceiver
deriving DecidableEq, Repr

/-- Where `serial_line_process` is: in `PROCESS_YIELD`, called, behind the `memcpy`, behind the
`process_post`, or between `bufwptr = 0` and `buffer_full = 0`. -/
inductive SerialPc where
  | yield
  | called
  | copied
  | posted
  | rewound
deriving DecidableEq, Repr

/-- A complete line. -/
structure WrittenLine where
  bytes : List UInt8
  undisturbed : Bool
deriving DecidableEq, Repr

/-- The variables. `buffer` holds `bufwptr` bytes, `delivering` is the event that `do_event` is
about to pass to `dissemination_process`, and `paused` says that this process waits until Glossy
is off. -/
structure LineDelivery where
  buffer : List UInt8
  bufferFull : Bool
  appbuffer : List UInt8
  serialPc : SerialPc
  needsPoll : Bool
  events : EventQueue EventData
  delivering : Option EventData
  glossyOn : Bool
  paused : Bool
  parsed : List (Nat × List UInt8)
  written : List WrittenLine
  current : List UInt8
  undisturbed : Bool
  inBuffer : Nat
  inAppbuffer : Nat

/-- The C string at the beginning of a buffer. -/
def cString (l : List UInt8) : List UInt8 := l.takeWhile (· ≠ 0)

/-- `BUFSIZE`. -/
def bufSize : Nat := 80

/-- `END`. -/
def lineFeed : UInt8 := 10

/-- The character that `IGNORE_CHAR` accepts. -/
def carriageReturn : UInt8 := 13

namespace LineDelivery

/-- Both processes wait, and nothing has been written. -/
def init : LineDelivery where
  buffer := []
  bufferFull := false
  appbuffer := List.replicate bufSize 0
  serialPc := .yield
  needsPoll := false
  events := .init ⟨.other 0, .broadcast⟩
  delivering := none
  glossyOn := false
  paused := false
  parsed := []
  written := []
  current := []
  undisturbed := true
  inBuffer := 0
  inAppbuffer := 0

/-! ### The lines on their way -/

/-- The number of line events that have not reached `dissemination_process`. -/
def lineEvents (s : LineDelivery) : Nat :=
  (s.events.contents ++ s.delivering.toList).countP fun e => e.ev = .serialLine

/-- A line in `appbuffer` that has not been parsed. -/
def inApp (s : LineDelivery) : List (Nat × List UInt8) :=
  if s.lineEvents ≠ 0 ∨ s.serialPc = .copied then [(s.inAppbuffer, cString s.appbuffer)] else []

/-- A line in `buffer` that has not been copied. -/
def inBuf (s : LineDelivery) : List (Nat × List UInt8) :=
  if s.bufferFull ∧ (s.serialPc = .yield ∨ s.serialPc = .called) then
    [(s.inBuffer, cString s.buffer)]
  else []

/-- No line is in process. -/
def idle (s : LineDelivery) : Bool :=
  !s.bufferFull ∧ s.inApp = [] ∧ !s.paused

/-! ### The interrupts -/

/-- The records, when a byte is written to the line. -/
def record (s : LineDelivery) (c : UInt8) : LineDelivery :=
  if c = lineFeed then
    { s with
      written := s.written ++ [⟨s.current, s.undisturbed && s.idle⟩]
      current := []
      undisturbed := true }
  else { s with current := s.current ++ [c], undisturbed := s.undisturbed && s.idle }

/-- `serial_line_input_byte`. -/
def inputByte (s : LineDelivery) (c : UInt8) : LineDelivery :=
  if c = carriageReturn then s
  else if s.bufferFull then s.record c
  else if c = lineFeed then
    { s.record c with
      buffer := s.buffer ++ [0]
      bufferFull := true
      needsPoll := true
      inBuffer := s.written.length }
  else if s.buffer.length < bufSize - 1 then { s.record c with buffer := s.buffer ++ [c] }
  else s.record c

/-! ### The processes -/

/-- `process_post`, when the result is ignored. -/
def post (s : LineDelivery) (e : EventData) : LineDelivery :=
  match s.events.post e with
  | some events => { s with events := events }
  | none => s

/-- What `serial_line_process` does next, until it yields. -/
def serialLine (s : LineDelivery) : Option LineDelivery :=
  match s.serialPc with
  | .yield => none
  | .called =>
    if s.bufferFull then
      some
        { s with
          appbuffer := s.buffer ++ s.appbuffer.drop s.buffer.length
          serialPc := .copied
          inAppbuffer := s.inBuffer }
    else some { s with serialPc := .yield }
  | .copied => some { s.post ⟨.serialLine, .broadcast⟩ with serialPc := .posted }
  | .posted => some { s with buffer := [], serialPc := .rewound }
  | .rewound => some { s with bufferFull := false, serialPc := .yield }

/-- `while (GLOSSY_IS_ON())`, up to the wait in `PROCESS_PAUSE` or for the next line. -/
def whileGlossyIsOn (s : LineDelivery) : LineDelivery :=
  if s.glossyOn then { s.post ⟨.continue_, .dissemination⟩ with paused := true }
  else { s with paused := false }

/-- `dissemination_process`, called with an event. -/
def dissemination (s : LineDelivery) (ev : EventId) : LineDelivery :=
  if s.paused then s.whileGlossyIsOn
  else if ev = .serialLine then
    { s with parsed := s.parsed ++ [(s.inAppbuffer, cString s.appbuffer)] }.whileGlossyIsOn
  else s

/-- What happens: a byte comes in or Glossy starts or stops, both in an interrupt.
`serial_line_process` is called with a poll or with an event, or goes on. Another process posts
an event. `do_event` takes an event out of the queue, or passes it to `dissemination_process`.
This process is called with an event that was not in the queue. -/
inductive Action where
  | uart (c : UInt8)
  | glossy (on : Bool)
  | poll
  | wake
  | serialLine
  | post (e : EventData)
  | doEvent
  | disseminate
  | synch (ev : EventId)
deriving DecidableEq, Repr

/-- One step. -/
def step (s : LineDelivery) : Action → Option LineDelivery
  | .uart c => some (s.inputByte c)
  | .glossy on => some { s with glossyOn := on }
  | .poll =>
    if s.serialPc = .yield ∧ s.needsPoll then
      some { s with needsPoll := false, serialPc := .called }
    else none
  | .wake => if s.serialPc = .yield then some { s with serialPc := .called } else none
  | .serialLine => s.serialLine
  | .post e =>
    -- Only `serial_line_process` posts line events.
    if s.serialPc = .yield ∧ e.ev ≠ .serialLine then some (s.post e) else none
  | .doEvent =>
    if s.serialPc = .yield ∧ s.delivering = none then
      s.events.doEvent.map fun (e, events) =>
        { s with
          events := events
          delivering := if e.p = .other then none else some e }
    else none
  | .disseminate =>
    if s.serialPc = .yield then
      s.delivering.map fun e => { s with delivering := none }.dissemination e.ev
    else none
  | .synch ev =>
    if s.serialPc = .yield ∧ ev ≠ .serialLine then some (s.dissemination ev) else none

end LineDelivery

/-- The way of the lines to `dissemination_process`. -/
def lineDelivery : Machine LineDelivery LineDelivery.Action where
  init := .init
  step := LineDelivery.step

end PTunes.Glossy
