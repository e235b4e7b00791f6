import PTunes.Rime.FtspNode

/-!
# `PTunes.Rime.FtspRoot`: the root of a node over a run (`ftsp.c`)

The machine of `PTunes.Rime.FtspNode` with records of the root. A node is its own root when
`msg.root_id` is its id. Each beat of its heart since then is counted, and a switch to another
root before the count has reached `IGNORE_ROOT_MSG` is noted. The roots that the node has had are
listed, the last one first.

`heart_beats` itself does not start when the node becomes its own root, and it is a `uint8_t`, so
it is not the number of these beats in every run.
-/

set_option autoImplicit false

namespace PTunes.Rime

/-- `IGNORE_ROOT_MSG`. -/
def ignoreRootMsg : Nat := 4

namespace Ftsp

variable {φ : Type}

/-- `~((heart_beats < IGNORE_ROOT_MSG) && (msg.root_id == node_id))`. An `int` has 16 bits. -/
def rootGuard (C : FtspConf) (s : Ftsp φ) : Int16 :=
  ~~~(if s.heartBeats.toNat < ignoreRootMsg ∧ s.msg.rootId = C.nodeId then 1 else 0)

/-- The entries that are in use. -/
def fullSlots (s : Ftsp φ) : Nat := (List.finRange 8).countP (isFull s.table)

end Ftsp

/-- A node, with the record of its roots. -/
structure FtspRoot (φ : Type) where
  node : FtspNode φ
  /-- The beats since the node is its own root. -/
  rootBeats : Nat
  roots : List UInt16
  /-- The node has switched to another root before `IGNORE_ROOT_MSG` beats as its own root. -/
  switchedEarly : Bool

namespace FtspRoot

variable {φ : Type} (C : FtspConf)

/-- The node is its own root. -/
def isRoot (n : FtspNode φ) : Bool := n.ftsp.msg.rootId == C.nodeId

/-- The node is its own root for fewer than `IGNORE_ROOT_MSG` beats. -/
def isNewRoot (s : FtspRoot φ) : Bool := isRoot C s.node && s.rootBeats < ignoreRootMsg

/-- The step is a heart beat: `msg_send` and `ftsp_send_process` count them. -/
def isBeat (n n' : FtspNode φ) : FtspAction → Bool
  | .msgSend .. | .sendReady .. => n'.ftsp.heartBeats != n.ftsp.heartBeats
  | _ => false

/-- The record after the step `a` to `n'`. -/
def next (s : FtspRoot φ) (a : FtspAction) (n' : FtspNode φ) : FtspRoot φ where
  node := n'
  rootBeats :=
    if isRoot C n' then
      if isRoot C s.node then s.rootBeats + (isBeat s.node n' a).toNat else 0
    else 0
  roots :=
    if n'.ftsp.msg.rootId = s.node.ftsp.msg.rootId then s.roots
    else n'.ftsp.msg.rootId :: s.roots
  switchedEarly :=
    s.switchedEarly || (s.isNewRoot C && n'.ftsp.msg.rootId != s.node.ftsp.msg.rootId)

variable [SkewFloat φ]

/-- The node after `ftsp_init`. -/
def boot : FtspRoot φ where
  node := FtspNode.boot C
  rootBeats := 0
  roots := [(FtspNode.boot C : FtspNode φ).ftsp.msg.rootId]
  switchedEarly := false

/-- The node of `FtspNode.machine`, with the record of its roots. -/
def machine : Machine (FtspRoot φ) FtspAction where
  init := boot C
  step s a := ((FtspNode.machine C).step s.node a).map (s.next C a)

/-- When `process_msg` runs, a node that is its own root for fewer than `IGNORE_ROOT_MSG` beats
has not received a smaller root. -/
def NoSmallerRoot (s : FtspRoot φ) : FtspAction → Prop
  | .expired => s.isNewRoot C = true → ¬ s.node.ftsp.msgRcv.rootId < s.node.ftsp.msg.rootId
  | _ => True

instance (s : FtspRoot φ) (a : FtspAction) : Decidable (s.NoSmallerRoot C a) :=
  match a with
  | .expired => inferInstanceAs (Decidable (_ → _))
  | .arrive .. | .fifop .. | .read .. | .flushrx | .received .. | .msgReady | .msgSend ..
  | .sendReady .. => inferInstanceAs (Decidable True)

end FtspRoot

end PTunes.Rime
