import PTunes.Lib.Machine
import PTunes.Lib.Retry
import PTunes.Rime.Relcollect

/-!
# `PTunes.Rime.Connection`: a relunicast connection and its client

One connection on a node whose MAC is X-MAC, with any client. The client calls
`relunicast_send` when it likes, also inside the callbacks, and it may do anything to the
node that leaves the connection alone. The functions are those of `PTunes.Rime.Relunicast`,
together with a record of what they do: `relunicast_send` accepts a packet, `send` hands it
to `unicast_send`, and a callback reports the end.
-/

set_option autoImplicit false

namespace PTunes.Rime

/-- The arguments of a call of `relunicast_send`. -/
structure SendCall where
  env : Env
  receiver : RimeAddr
  maxRetransmissions : UInt8
  esender : RimeAddr

/-- What a client does: it calls `relunicast_send`, or it changes other parts of the node. -/
inductive ClientStep
  | call (a : SendCall)
  | other (f : Node → Node)

/-- A node and the record of its connection. -/
structure Recorded where
  node : Node
  events : List Retry.Event

namespace Recorded

/-- The connection after `relunicast_open`. -/
def boot : Recorded := ⟨Node.boot, []⟩

/-- `relunicast_send`. -/
def call (C : NodeConf) (r : Recorded) (a : SendCall) : Recorded :=
  match relunicastSend C a.env r.node a.receiver a.maxRetransmissions a.esender with
  | (true, s) => ⟨s, r.events ++ [.accepted a.maxRetransmissions.toNat]⟩
  | (false, s) => ⟨s, r.events⟩

/-- A change of the node that leaves the connection alone. -/
def other (r : Recorded) (f : Node → Node) : Recorded :=
  ⟨{ f r.node with relunicast := r.node.relunicast }, r.events⟩

/-- One step of a client. -/
def clientStep (C : NodeConf) (r : Recorded) : ClientStep → Recorded
  | .call a => call C r a
  | .other f => other r f

/-- The steps of a client, in order. -/
def client (C : NodeConf) (r : Recorded) (steps : List ClientStep) : Recorded :=
  steps.foldl (clientStep C) r

/-- The end of a transmission, and the callback: the client takes its steps. -/
def report (C : NodeConf) (steps : List ClientStep) (r : Recorded)
    (event : Nat → Retry.Event) : Recorded :=
  let c := Relunicast.finish r.node.relunicast
  client C ⟨{ r.node with relunicast := c }, r.events ++ [event c.rxmit.toNat]⟩ steps

/-- The packet is handed to `unicast_send`. -/
def attempt (C : NodeConf) (r : Recorded) (mac : Packetbuf → Packetbuf) (acked : Bool) :
    Recorded :=
  let c := r.node.relunicast
  let pb := (Relunicast.loadPacket C r.node).setAddr .receiver c.receiver
  ⟨{ r.node with
      packetbuf := mac pb
      relunicast := { c with rxmit := c.rxmit + 1, timer := false } },
    r.events ++ [.attempt acked]⟩

/-- `send` with X-MAC. -/
def send (C : NodeConf) (steps : List ClientStep) (r : Recorded)
    (mac : Packetbuf → Packetbuf) (acked : Bool) : Recorded :=
  if r.node.relunicast.rxmit > r.node.relunicast.maxRxmit then report C steps r .gaveUp
  else
    let r := attempt C r mac acked
    if acked then report C steps r .succeeded else ⟨scheduleSend r.node, r.events⟩

/-- What can happen to the connection. -/
inductive Action
  /-- The client takes a step outside the callbacks. -/
  | client (step : ClientStep)
  /-- The timer expires. The client takes the steps in the callback, if there is one. -/
  | timer (mac : Packetbuf → Packetbuf) (acked : Bool) (steps : List ClientStep)

/-- The connection as a machine. -/
def machine (C : NodeConf) : Machine Recorded Action where
  init := boot
  step r
    | .client step => some (clientStep C r step)
    | .timer mac acked steps =>
      if r.node.relunicast.timer then some (send C steps r mac acked) else none

/-! ### The record is no part of the node -/

/-- What the client does to the node does not depend on the record. -/
theorem client_node (C : NodeConf) (steps : List ClientStep) {r r' : Recorded}
    (h : r.node = r'.node) : (client C r steps).node = (client C r' steps).node := by
  induction steps generalizing r r' with
  | nil => exact h
  | cons step steps ih =>
      apply ih
      cases step with
      | call a =>
          simp only [clientStep, call, h]
          split <;> rfl
      | other f => simp only [clientStep, other, h]

/-- The callbacks of a client that takes the steps. -/
def callbacks (C : NodeConf) (steps : List ClientStep) : RelunicastCallbacks where
  sent s _ _ := (client C ⟨s, []⟩ steps).node
  timedout s _ _ := (client C ⟨s, []⟩ steps).node

/-- Without the record, `send` is the function of the source with X-MAC. -/
theorem send_node {C : NodeConf} (hC : C.mac = .xmac) (steps : List ClientStep) (r : Recorded)
    (mac : Packetbuf → Packetbuf) (acked : Bool) (lppSend : Node → Node) :
    (send C steps r mac acked).node =
      Relunicast.send C (callbacks C steps) r.node mac acked lppSend := by
  simp only [send, Relunicast.send, hC]
  by_cases hlimit : r.node.relunicast.rxmit > r.node.relunicast.maxRxmit
  · rw [if_pos hlimit, if_pos hlimit]
    exact client_node C steps rfl
  · rw [if_neg hlimit, if_neg hlimit]
    cases acked with
    | true => exact client_node C steps rfl
    | false => rfl

/-- The connection before the callback is not used by a client step that changes other parts:
any node with the same connection can be the result. -/
theorem client_other (C : NodeConf) (r : Recorded) {s : Node}
    (h : s.relunicast = r.node.relunicast) :
    client C r [.other fun _ => s] = ⟨s, r.events⟩ := by
  show (⟨{ s with relunicast := r.node.relunicast }, r.events⟩ : Recorded) = _
  rw [← h]

end Recorded

end PTunes.Rime
