import Mathlib.Data.Fintype.Basic
import PTunes.Glossy.Config
import PTunes.Lib.Machine
import PTunes.Rime.Trickle

/-!
# `PTunes.Mac.Dissemination`: the dissemination of configurations without Glossy

Any number of nodes run Trickle and the two processes of `adaptive-mac.c` that use it.
`dissemination_process` of the sink issues each configuration that comes over the UART.
`trickle_recv` stores a configuration that is new in `new_cfg` and polls `adaptation_process`,
which applies `new_cfg` when nothing new was heard for some time.

A message that a node broadcasts stays in `air`, and any node may hear it at any later time:
never, late, or more than once.

`issued` is the record of all configurations. It starts with the one that all nodes start with, so
the sequence number of the sink is the number of an update in this list, modulo 256. Each message
carries the number of its update. A node does not see this number, but the record of the node has
the number of the update it took last.
-/

set_option autoImplicit false

namespace PTunes.Mac

open PTunes.Glossy (Config)
open PTunes.Rime (TricklePacket TrickleConn)

/-- A configuration that was issued, and its number. -/
structure Update where
  config : Config
  number : Nat
deriving DecidableEq, Repr

/-- Where `adaptation_process` waits: for a poll, or in the loop that waits for quiet. -/
inductive AdaptationPc
  | poll
  | pause
deriving DecidableEq, Repr

/-- A node, with its record. -/
structure AdaptNode where
  trickle : TrickleConn Update
  newCfg : Config
  currentCfg : Config
  /-- `adaptation_process` is polled. -/
  polled : Bool
  adaptation : AdaptationPc
  /-- The number of the update that the node took last. -/
  number : Nat
  /-- There was room for the message of that update. -/
  stored : Bool
  /-- What was applied, each with the number of the node at that time. -/
  applied : List (Nat × Config)
deriving DecidableEq, Repr

namespace AdaptNode

/-- A node after `trickle_open`. -/
def boot (cfg : Config) : AdaptNode where
  trickle := TrickleConn.trickleOpen
  newCfg := ⟨0, 0, 0⟩
  currentCfg := cfg
  polled := false
  adaptation := .poll
  number := 0
  stored := false
  applied := []

/-- `dissemination_process` of the sink: the configuration is in `new_cfg`, and it is sent. -/
def disseminate (u : Update) (room : Bool) (n : AdaptNode) :
    AdaptNode × Option (TricklePacket Update) :=
  let r := n.trickle.trickleSend room u
  ({ n with trickle := r.1, newCfg := u.config, number := u.number, stored := room }, r.2)

/-- `trickle_recv`, after `recv` has taken over the message. -/
def trickleRecv (u : Update) (room : Bool) (n : AdaptNode) : AdaptNode :=
  { n with newCfg := u.config, polled := true, number := u.number, stored := room }

/-- `recv` of `trickle.c`, with its callback. -/
def hear (p : TricklePacket Update) (room : Bool) (n : AdaptNode) :
    AdaptNode × Option (TricklePacket Update) :=
  let r := n.trickle.recv room p
  let n := { n with trickle := r.1 }
  (if r.2.2 then n.trickleRecv p.data room else n, r.2.1)

/-- The last part of `adaptation_process`. -/
def apply (n : AdaptNode) : AdaptNode :=
  { n with
    currentCfg := n.newCfg
    adaptation := .poll
    applied := n.applied ++ [(n.number, n.newCfg)] }

/-- `adaptation_process` from an event to its next wait. -/
def adapt (n : AdaptNode) : AdaptNode :=
  if n.trickle.intervalScaling < 3 then { n with adaptation := .pause } else n.apply

end AdaptNode

/-- The nodes, the messages, and the record of the configurations. -/
structure Dissemination (ι : Type) where
  nodes : ι → AdaptNode
  air : List (TricklePacket Update)
  issued : List Config

/-- What happens next. -/
inductive DissAction (ι : Type)
  /-- The sink gets a configuration over the UART. -/
  | issue (c : Config) (room : Bool)
  /-- A node hears the message `air[k]`. -/
  | hear (i : ι) (k : Nat) (room : Bool)
  /-- A timer of Trickle expires. -/
  | timer (i : ι) (timer : TrickleConn.Timer)
  /-- `adaptation_process` gets an event: a poll, or the one it has sent to itself. -/
  | adaptation (i : ι) (poll : Bool)

namespace Dissemination

variable {ι : Type} [DecidableEq ι]

/-- A node has an event, in which it may send a message. -/
def update (s : Dissemination ι) (i : ι) (r : AdaptNode × Option (TricklePacket Update)) :
    Dissemination ι :=
  { s with nodes := Function.update s.nodes i r.1, air := s.air ++ r.2.toList }

/-- The node gets the event: a poll if it is polled, another one only in the loop. -/
def getsEvent (n : AdaptNode) (poll : Bool) : Bool :=
  if poll then n.polled else n.adaptation == .pause

/-- The nodes as a machine. They all start with the configuration `cfg`. -/
def machine (sink : ι) (cfg : Config) : Machine (Dissemination ι) (DissAction ι) where
  init := ⟨fun _ => .boot cfg, [], [cfg]⟩
  step s
    | .issue c room =>
      some
        { s.update sink ((s.nodes sink).disseminate ⟨c, s.issued.length⟩ room) with
          issued := s.issued ++ [c] }
    | .hear i k room =>
      match s.air[k]? with
      | some p => some (s.update i ((s.nodes i).hear p room))
      | none => none
    | .timer i timer =>
      if (s.nodes i).trickle.isSet timer then
        let r := (s.nodes i).trickle.expire timer
        some (s.update i ({ s.nodes i with trickle := r.1 }, r.2))
      else none
    | .adaptation i poll =>
      if getsEvent (s.nodes i) poll then
        let n := if poll then { s.nodes i with polled := false } else s.nodes i
        some (s.update i (n.adapt, none))
      else none

/-- At most 127 updates lie between any two nodes. -/
def Apart (s : Dissemination ι) : Prop := ∀ i j, (s.nodes i).number ≤ (s.nodes j).number + 127

/-- At most 127 updates lie between any two nodes after the step. -/
def keepsApart (sink : ι) (cfg : Config) (s : Dissemination ι) (a : DissAction ι) : Prop :=
  ∀ t ∈ (machine sink cfg).step s a, t.Apart

/-- A message that is heard is at most 128 updates behind the node. -/
def hearsRecent (s : Dissemination ι) : DissAction ι → Prop
  | .hear i k _ => ∀ p ∈ s.air[k]?, (s.nodes i).number ≤ p.data.number + 128
  | _ => True

/-- The runs in which the nodes stay close and no message that is heard is too old. -/
def closeAndRecent (sink : ι) (cfg : Config) (s : Dissemination ι) (a : DissAction ι) : Prop :=
  keepsApart sink cfg s a ∧ hearsRecent s a

section

variable [Fintype ι]

instance (s : Dissemination ι) : Decidable s.Apart := by
  unfold Apart
  infer_instance

instance (sink : ι) (cfg : Config) (s : Dissemination ι) (a : DissAction ι) :
    Decidable (keepsApart sink cfg s a) := by
  unfold keepsApart
  infer_instance

instance (s : Dissemination ι) (a : DissAction ι) : Decidable (hearsRecent s a) := by
  cases a <;> unfold hearsRecent <;> infer_instance

instance (sink : ι) (cfg : Config) (s : Dissemination ι) (a : DissAction ι) :
    Decidable (closeAndRecent sink cfg s a) := by
  unfold closeAndRecent
  infer_instance

end

/-- The packet for the update `number` is stored if there was room for it, and none otherwise. -/
def StoresUpdate (issued : List Config) (n : AdaptNode) : Prop :=
  if n.stored then
    ∃ p, n.trickle.q = some p ∧ p.seqno = n.trickle.seqno ∧
      issued[n.number]? = some p.data.config
  else n.trickle.q = none

/-- A node is at an update that was issued, and its sequence number is that of the update. What it
has to send again is this update, and whatever it applied was the configuration of the update it
was at. -/
structure InStep (issued : List Config) (n : AdaptNode) : Prop where
  isIssued : n.number < issued.length
  seqno : n.trickle.seqno = UInt8.ofNat n.number
  stores : n.trickle.owes = true → StoresUpdate issued n
  applied : ∀ e ∈ n.applied, issued[e.1]? = some e.2

/-- No node goes back. -/
def Forward (s t : Dissemination ι) : Prop := ∀ i, (s.nodes i).number ≤ (t.nodes i).number

end Dissemination

end PTunes.Mac
