import PTunes.Controller.Topology
import PTunes.Controller.WaitNotify

/-!
# `PTunes.Controller.UnifiedDataRateTrigger`: optimizing when the common rate changes

`collectionFinished` of `UnifiedDataRateTrigger.java`, and the run over a sequence of collections.
Each call finds `topologyHistory` as it is then; only its first topology is looked at, in the
iteration order of its nodes. `dataRate` belongs to this method alone: the trigger thread of the
class, which waits in `waitNotify` and optimizes, does not touch it.

`requests` is not in the source. It says whether the call asks for an immediate optimization by
`setPeriod(1)`. Left out are the texts of the log.
-/

set_option autoImplicit false

namespace PTunes.Controller

/-- The uses of `double` for packet rates. Values that `Double.compare` takes for equal are equal,
so there is one NaN. -/
class PktRate (ρ : Type) where
  /-- `Double.NaN`. -/
  nan : ρ
  /-- `0.0`. -/
  zero : ρ
  zero_ne_nan : zero ≠ nan

/-- The variables of the loop in `collectionFinished`. -/
structure RateScan (ρ : Type) where
  /-- The field of the trigger. -/
  dataRate : ρ
  newDataRate : ρ
  allNodesSwitchedDataRate : Bool
deriving DecidableEq, Repr

/-- The fields that `collectionFinished` uses. -/
structure UnifiedDataRateTrigger (ρ : Type) where
  waitNotify : WaitNotify
  dataRate : ρ
deriving DecidableEq, Repr

namespace UnifiedDataRateTrigger

variable {ρ : Type} [DecidableEq ρ] [PktRate ρ]

/-- The loop over the nodes of the topology. -/
def scanNodes (scan : RateScan ρ) : List (NodeTopologyInfo ρ) → RateScan ρ
  | [] => scan
  | n :: rest =>
    if n.isSink then scanNodes scan rest
    else if scan.dataRate = PktRate.nan then { scan with dataRate := n.pktRate }
    else if n.pktRate = scan.dataRate then { scan with allNodesSwitchedDataRate := false }
    else scanNodes { scan with newDataRate := n.pktRate } rest

/-- The loop with its initial values. -/
def scanTopology (s : UnifiedDataRateTrigger ρ) (t : Topology ρ) : RateScan ρ :=
  scanNodes ⟨s.dataRate, PktRate.zero, true⟩ t.nodes.toList

/-- The call requests an immediate optimization. -/
def requests (s : UnifiedDataRateTrigger ρ) : List (Topology ρ) → Bool
  | [] => false
  | t :: _ => (s.scanTopology t).allNodesSwitchedDataRate

/-- `collectionFinished` -/
def collectionFinished (s : UnifiedDataRateTrigger ρ) :
    List (Topology ρ) → UnifiedDataRateTrigger ρ
  | [] => s
  | t :: rest =>
    if s.requests (t :: rest) then
      { waitNotify := (s.waitNotify.setPeriod 1).doNotify
        dataRate := (s.scanTopology t).newDataRate }
    else
      { waitNotify := s.waitNotify.doNotify
        dataRate := (s.scanTopology t).dataRate }

/-- After the constructor. -/
def init (period : Int) : UnifiedDataRateTrigger ρ where
  waitNotify := .new period
  dataRate := PktRate.nan

/-- The state after the collections. -/
def afterAll (period : Int) (collections : List (List (Topology ρ))) : UnifiedDataRateTrigger ρ :=
  collections.foldl collectionFinished (init period)

omit [DecidableEq ρ] [PktRate ρ] in
/-- The rates that the nodes other than the sink report, in the iteration order. -/
def rates (nodes : List (NodeTopologyInfo ρ)) : List ρ :=
  (nodes.filter fun n => !n.isSink).map NodeTopologyInfo.pktRate

end UnifiedDataRateTrigger

end PTunes.Controller
