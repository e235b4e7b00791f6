import Mathlib.Data.Rat.Defs
import PTunes.Controller.History

/-!
# `PTunes.Proofs.Controller.History`: what a collected message changes

The abstract state of the history is the partial map from node ids to records that its most
recent topology holds (`mostRecent`). A message updates this map at the id of the node and
nowhere else, on each of the four paths of `updateTopologyHistory`. The new record has the
parent and the MAC parameters of the message, and its PRR unless that is 0
(`updateTopologyHistory_records`).

The packet rate is the one of the message on three of the paths. On the fourth, the head is
no longer recent and knows the node, and the known rate is carried over (`recordedRate`).
Two more things the message does not decide: the static record of the sink wins over a
first message that carries the id of the sink, and a PRR of 0 is only kept out of a record
that is updated in place.
-/

set_option autoImplicit false

namespace PTunes.Controller

variable {ρ : Type}

/-- What the most recent topology knows of each node. Before the first message this is the
static record of the sink. -/
def mostRecent (sink : NodeTopologyInfo ρ) :
    List (Topology ρ) → Int → Option (NodeTopologyInfo ρ)
  | [] => Function.update (fun _ => none) sink.nodeId (some sink)
  | lastTopology :: _ => lastTopology.getNodeInfo

/-- The packet rate that is recorded: the one of the message, except that a topology that
is no longer recent keeps the rate of a node it knows. -/
def recordedRate (clock : Nat → Int) (nodeInfo : NodeTopologyInfo ρ) :
    List (Topology ρ) → ρ
  | [] => nodeInfo.pktRate
  | lastTopology :: _ =>
      if lastTopology.isRecent (clock 0) then nodeInfo.pktRate
      else ((lastTopology.getNodeInfo nodeInfo.nodeId).map (·.pktRate)).getD nodeInfo.pktRate

/-- The record `r` has what the message reports, with the packet rate `rate`. -/
structure Records (nodeInfo : NodeTopologyInfo ρ) (rate : ρ) (r : NodeTopologyInfo ρ) :
    Prop where
  parentId : r.parentId = nodeInfo.parentId
  macConf : r.macConf = nodeInfo.macConf
  pktRate : r.pktRate = rate
  prr : nodeInfo.prr ≠ 0 → r.prr = nodeInfo.prr

/-- A message records itself. -/
theorem Records.self (nodeInfo : NodeTopologyInfo ρ) :
    Records nodeInfo nodeInfo.pktRate nodeInfo :=
  ⟨rfl, rfl, rfl, fun _ => rfl⟩

/-- A message whose packet rate has been replaced. -/
theorem Records.carriedOver (nodeInfo : NodeTopologyInfo ρ) (rate : ρ) :
    Records nodeInfo rate { nodeInfo with pktRate := rate } :=
  ⟨rfl, rfl, rfl, fun _ => rfl⟩

/-- The record that is updated in place. -/
theorem Records.updateFrom (known nodeInfo : NodeTopologyInfo ρ) (now : Int) :
    Records nodeInfo nodeInfo.pktRate (known.updateFrom nodeInfo now) where
  parentId := rfl
  macConf := rfl
  pktRate := rfl
  prr h := if_pos h

/-- An update in place keeps the recorded PRR when the message reports 0. -/
theorem prr_updateFrom_zero {known nodeInfo : NodeTopologyInfo ρ} (h : nodeInfo.prr = 0)
    (now : Int) : (known.updateFrom nodeInfo now).prr = known.prr :=
  if_neg (not_not_intro h)

/-- An update in place changes the record of one node. -/
theorem getNodeInfo_updateNode {t : Topology ρ} {nodeInfo known : NodeTopologyInfo ρ}
    (h : t.getNodeInfo nodeInfo.nodeId = some known) (nodeNow topologyNow : Int) :
    (t.updateNode nodeInfo nodeNow topologyNow).getNodeInfo =
      Function.update t.getNodeInfo nodeInfo.nodeId
        (some (known.updateFrom nodeInfo nodeNow)) := by
  have hmod := t.nodes.get?_modify nodeInfo.nodeId (·.updateFrom nodeInfo nodeNow)
    (fun _ => rfl)
  have hget : t.nodes.get? nodeInfo.nodeId = some known := h
  rw [hget, Option.map_some] at hmod
  exact hmod

/-- The head after a message: it exists, and it differs from the most recent topology in
the record of one node, which has what the message reports. -/
theorem updateTopologyHistory_records (sink : NodeTopologyInfo ρ) (clock : Nat → Int)
    (nodeInfo : NodeTopologyInfo ρ) (history : List (Topology ρ))
    (h : history = [] → nodeInfo.nodeId ≠ sink.nodeId) :
    ∃ t older r, updateTopologyHistory sink clock nodeInfo history = t :: older ∧
      t.getNodeInfo =
        Function.update (mostRecent sink history) nodeInfo.nodeId (some r) ∧
      Records nodeInfo (recordedRate clock nodeInfo history) r ∧
      (nodeInfo.prr = 0 → ∀ lastTopology ∈ history.head?,
        lastTopology.isRecent (clock 0) = true →
        ∀ known ∈ lastTopology.getNodeInfo nodeInfo.nodeId, r.prr = known.prr) := by
  cases history with
  | nil =>
      exact ⟨_, [], nodeInfo, rfl, Topology.getNodeInfo_ofSink (h rfl) _, Records.self nodeInfo,
        fun _ lastTopology hl => by cases hl⟩
  | cons lastTopology older =>
      cases hk : lastTopology.getNodeInfo nodeInfo.nodeId with
      | none =>
          -- A new node: the rate of the message is recorded, whatever the age of the head.
          have hrate : recordedRate clock nodeInfo (lastTopology :: older) = nodeInfo.pktRate := by
            simp [recordedRate, hk]
          refine ⟨lastTopology.withNode nodeInfo (clock 0), lastTopology :: older, nodeInfo,
            by simp [updateTopologyHistory, hk], lastTopology.getNodeInfo_withNode _ _,
            hrate ▸ Records.self nodeInfo, ?_⟩
          rintro - t ⟨⟩ - known hknown
          rw [hk] at hknown
          cases hknown
      | some known =>
          cases hr : lastTopology.isRecent (clock 0) with
          | true =>
              have hrate :
                  recordedRate clock nodeInfo (lastTopology :: older) = nodeInfo.pktRate := by
                simp [recordedRate, hr]
              refine ⟨lastTopology.updateNode nodeInfo (clock 1) (clock 2), older,
                known.updateFrom nodeInfo (clock 1), by simp [updateTopologyHistory, hk, hr],
                getNodeInfo_updateNode hk _ _, hrate ▸ Records.updateFrom _ _ _, ?_⟩
              rintro hprr t ⟨⟩ - known' hknown'
              rw [hk] at hknown'
              cases hknown'
              exact prr_updateFrom_zero hprr _
          | false =>
              -- The head knows the node and is not recent: the known rate is carried over.
              have hrate :
                  recordedRate clock nodeInfo (lastTopology :: older) = known.pktRate := by
                simp [recordedRate, hk, hr]
              refine ⟨lastTopology.withNode { nodeInfo with pktRate := known.pktRate } (clock 1),
                lastTopology :: older, { nodeInfo with pktRate := known.pktRate },
                by simp [updateTopologyHistory, hk, hr],
                lastTopology.getNodeInfo_withNode { nodeInfo with pktRate := known.pktRate }
                  (clock 1),
                hrate ▸ Records.carriedOver _ _, ?_⟩
              rintro - t ⟨⟩ hrecent
              rw [hr] at hrecent
              cases hrecent

/-! ### Sample messages -/

/-- The static record of the sink, node 1. -/
def sampleSink : NodeTopologyInfo ℚ := ⟨0, 1, 1, 1000, 0, ⟨0, 0, 0⟩⟩

/-- Node 2 below the sink, six packets per minute. -/
def sampleReport : NodeTopologyInfo ℚ := ⟨0, 2, 1, 900, 6, ⟨16, 100, 3⟩⟩

/-- The history after the first message. -/
def sampleHistory : List (Topology ℚ) :=
  updateTopologyHistory sampleSink (fun _ => 0) sampleReport []

/-- The next message of node 2: another parent, 12 packets per minute, PRR 0. -/
def sampleNext : NodeTopologyInfo ℚ := ⟨3, 2, 5, 0, 12, ⟨16, 100, 3⟩⟩

/-- Three seconds later the head is recent, so it is changed in place. -/
theorem updateTopologyHistory_records_sample :
    sampleHistory ≠ [] ∧
    ∃ t older r, updateTopologyHistory sampleSink (fun _ => 3) sampleNext sampleHistory
          = t :: older ∧
      t.getNodeInfo = Function.update (mostRecent sampleSink sampleHistory) 2 (some r) ∧
      Records sampleNext 12 r ∧
      (sampleNext.prr = 0 → ∀ lastTopology ∈ sampleHistory.head?,
        lastTopology.isRecent 3 = true →
        ∀ known ∈ lastTopology.getNodeInfo 2, r.prr = known.prr) :=
  ⟨by decide, updateTopologyHistory_records sampleSink (fun _ => 3) sampleNext sampleHistory
    (fun h => by cases h)⟩

/-- The update records all that the message reports, the packet rate in every case, and it
never makes a PRR 0. -/
def FaithfulUpdate (sink : NodeTopologyInfo ρ) (clock : Nat → Int)
    (nodeInfo : NodeTopologyInfo ρ) (history : List (Topology ρ)) : Prop :=
  ∃ t older r, updateTopologyHistory sink clock nodeInfo history = t :: older ∧
    t.getNodeInfo = Function.update (mostRecent sink history) nodeInfo.nodeId (some r) ∧
    Records nodeInfo nodeInfo.pktRate r ∧
    (nodeInfo.prr = 0 → r.prr = 0 →
      ∀ known ∈ mostRecent sink history nodeInfo.nodeId, known.prr = 0)

/-- After a faithful update the head has a record of the node with the reported parent and
rate. -/
theorem FaithfulUpdate.head {sink nodeInfo : NodeTopologyInfo ρ} {clock : Nat → Int}
    {history : List (Topology ρ)} (h : FaithfulUpdate sink clock nodeInfo history) :
    ∀ t ∈ (updateTopologyHistory sink clock nodeInfo history).head?,
      (t.getNodeInfo nodeInfo.nodeId).map (fun r => (r.parentId, r.pktRate)) =
        some (nodeInfo.parentId, nodeInfo.pktRate) := by
  obtain ⟨t, older, r, hupdate, hget, hrec, _⟩ := h
  rw [hupdate]
  rintro t' ⟨⟩
  rw [hget, Function.update_self, Option.map_some, hrec.parentId, hrec.pktRate]

/-- A first message that carries the id of the sink. -/
def sampleSinkReport : NodeTopologyInfo ℚ := ⟨0, 1, 4, 1000, 0, ⟨16, 100, 3⟩⟩

/-- Ten seconds after the first message the head is not recent, so that the rate of 12
packets per minute is not recorded. In an empty history the static record of the sink wins
over a message with its id, so that the parent 4 is not recorded. -/
theorem not_faithfulUpdate_sample :
    ¬ FaithfulUpdate sampleSink (fun _ => 10) sampleNext sampleHistory ∧
    ¬ FaithfulUpdate sampleSink (fun _ => 0) sampleSinkReport [] := by
  constructor
  · intro h
    exact absurd (h.head _ rfl) (by decide)
  · intro h
    exact absurd (h.head _ rfl) (by decide)

end PTunes.Controller
