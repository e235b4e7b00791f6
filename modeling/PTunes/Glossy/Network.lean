import Mathlib.Logic.Function.Basic
import PTunes.Glossy.Scheduler
import PTunes.Lib.Machine
import PTunes.Rime.Addr

/-!
# `PTunes.Glossy.Network`: the sink floods its configuration

All nodes with the timer interrupts of their schedulers, and `dissemination_process` on the
sink. A process runs until it yields, and an interrupt may come between any two of its
instructions.

In the flood of the configuration the sink is the initiator: `glossy_start` copies
`glossy_config_data` to the packet, and so does the timeout of `glossy.c` for as long as
nobody has answered. `air` holds these packets of the flood. Another node that is in its
flood may receive any of them, which copies the packet to its own `glossy_config_data`, or
none.

`parsed` and `assigned` are records: the tuples of the lines in the order in which they were
parsed, and the sequence numbers that `dissemination_process` has stored.
-/

set_option autoImplicit false

namespace PTunes.Glossy

open Straight
open PTunes.Rime (RimeAddr)

/-- The constants of the build: the sink's address, `N_NODES`, and the initial
`current_cfg`. -/
structure GlossyConf where
  sink : RimeAddr
  nNodes : Nat
  initial : Config

/-- All nodes, the thread of `dissemination_process` on the sink, the packets of the current flood,
and the two records. -/
structure Network where
  nodes : RimeAddr → Node
  diss : DissThread
  air : List GlossyConfig
  parsed : List Config
  assigned : List UInt8

/-- What may happen, one step of one node at a time. Everything that the environment decides is in
the label: the line, the packet that is received, and the time of an interrupt. -/
inductive NetworkAction where
  /-- The next stretch of `glossy_scheduler` at a node. -/
  | scheduler (node : RimeAddr) (bootstrapping : Bool)
  /-- The initiator timeout of `glossy.c` at the sink. -/
  | initiatorTimeout
  /-- Glossy has sent its last packet in this flood and turns itself off. -/
  | glossyOff (node : RimeAddr)
  /-- A node receives the packet `air[k]`. -/
  | receive (node : RimeAddr) (k : Nat)
  /-- A line for `dissemination_process`. -/
  | line (l : Line)
  /-- The next instruction of `dissemination_process`. -/
  | dissStep
  /-- `adaptation_process` gets its poll. -/
  | adaptStart (node : RimeAddr)
  /-- The next instruction of `adaptation_process`. -/
  | adaptStep (node : RimeAddr)
deriving DecidableEq, Repr

namespace Network

variable (C : GlossyConf)

/-- The start: no line has come yet, and no flood is under way. -/
def init : Network where
  nodes _ := Node.init C.initial
  diss := ⟨[], 0⟩
  air := []
  parsed := []
  assigned := []

/-- The state of one node changes. -/
def setNode (s : Network) (node : RimeAddr) (t : Node) : Network :=
  { s with nodes := Function.update s.nodes node t }

/-- The memory of `dissemination_process`. -/
def dissMem (s : Network) : DissMem := ⟨(s.nodes C.sink).newCfg, (s.nodes C.sink).data⟩

/-- The packets of the flood after a stretch of the scheduler: the sink starts a flood with
one. -/
def floodStart (s : Network) (node : RimeAddr) : List GlossyConfig :=
  if node = C.sink ∧ (s.nodes node).pc = .waiting then [(s.nodes node).data] else s.air

/-- `dissemination_process` is at its wait for Glossy. -/
def atPause (s : Network) : Prop := s.diss.code.head? = some .pause

instance (s : Network) : Decidable s.atPause := inferInstanceAs (Decidable (_ = _))

/-- The next instruction of `dissemination_process`, with the record of a stored sequence
number. -/
def dissStep (s : Network) : Option Network :=
  (s.diss.step dissMemory (s.dissMem C)).map fun (t, m) =>
    { s with
      nodes := Function.update s.nodes C.sink
        { s.nodes C.sink with newCfg := m.newCfg, data := m.data }
      diss := t
      assigned := if s.diss.code.head? = some (.store .seqNo) then
        s.assigned ++ [m.data.seqNo] else s.assigned }

/-- The network as a machine. -/
def machine : Machine Network NetworkAction where
  init := init C
  step s
    | .scheduler node bootstrapping =>
      some { s.setNode node (Node.glossyScheduler C.nNodes bootstrapping (s.nodes node)) with
        air := s.floodStart C node }
    | .initiatorTimeout =>
      let sink := s.nodes C.sink
      if sink.pc = .configFlood ∧ sink.glossyOn then
        some { s with air := s.air ++ [sink.data] }
      else none
    | .glossyOff node => some (s.setNode node { s.nodes node with glossyOn := false })
    | .receive node k =>
      let n := s.nodes node
      match s.air[k]? with
      | some packet =>
        if node ≠ C.sink ∧ n.pc = .configFlood ∧ n.glossyOn then
          some (s.setNode node { n with data := packet })
        else none
      | none => none
    | .line l =>
      -- A line that comes while the process is not at its wait for a line is lost.
      if s.diss.code = [] ∧ (s.nodes C.sink).adapt.code = [] then
        some { s with
          diss := ⟨disseminate l, s.diss.reg⟩
          parsed := s.parsed ++ [l.config] }
      else none
    | .dissStep =>
      if (s.nodes C.sink).adapt.code = [] ∧ (s.atPause → ¬ (s.nodes C.sink).glossyOn) then
        s.dissStep C
      else none
    | .adaptStart node =>
      let n := s.nodes node
      -- At the sink, `dissemination_process` must have yielded.
      if n.polled ∧ n.adapt.code = [] ∧ (node = C.sink → s.diss.code = [] ∨ s.atPause) then
        some (s.setNode node n.adaptStart)
      else none
    | .adaptStep node => ((s.nodes node).adaptStep).map (s.setNode node)

end Network

end PTunes.Glossy
