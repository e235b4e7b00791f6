import PTunes.Glossy.Config

/-!
# `PTunes.Glossy.Scheduler`: the Glossy scheduler of one node (`glossy_interface.h`)

`glossy_scheduler` runs in the timer interrupt, so each stretch of it between two yields is
one step of the node. A round is a flood of the configuration, and then, unless the node is
still bootstrapping, one flood for each report. At its end the node compares the sequence
number in `glossy_config_data` with the last one that it has adopted.

The sink and the other nodes differ in their role in the flood of the configuration only,
which `Network` models. Whether the node is bootstrapping depends on the radio, so it is an
input of the step. `adopted` and `applied` are records: the configurations that the
scheduler has copied to `new_cfg` and that `adaptation_process` has copied to `current_cfg`,
each with the sequence number in `config_seq_no`.
-/

set_option autoImplicit false

namespace PTunes.Glossy

open Straight

/-- The yields of `glossy_scheduler`: before a round, in the flood of the configuration,
before the flood of a report, and in it. -/
inductive SchedulerPc where
  | waiting
  | configFlood
  | reportGap (reportIdx : Nat)
  | reportFlood (reportIdx : Nat)
deriving DecidableEq, Repr

/-- The variables of one node. `glossyOn` is `GLOSSY_IS_ON()`, `polled` is the poll of
`adaptation_process`, and `adapt` is what this process has left to run. -/
structure Node where
  pc : SchedulerPc
  glossyOn : Bool
  data : GlossyConfig
  configSeqNo : UInt8
  newCfg : Config
  currentCfg : Config
  polled : Bool
  adapt : AdaptThread
  adopted : List (UInt8 × Config)
  applied : List (UInt8 × Config)
deriving DecidableEq, Repr

namespace Node

/-- `glossy_init`. -/
def init (currentCfg : Config) : Node where
  pc := .waiting
  glossyOn := false
  data := ⟨currentCfg, 0⟩
  configSeqNo := 0
  newCfg := ⟨0, 0, 0⟩
  currentCfg := currentCfg
  polled := false
  adapt := ⟨[], 0⟩
  adopted := []
  applied := []

/-- The end of a round: a configuration with a new sequence number is adopted. -/
def adopt (s : Node) : Node :=
  if s.data.seqNo ≠ s.configSeqNo then
    { s with
      configSeqNo := s.data.seqNo
      newCfg := s.data.config
      polled := true
      adopted := s.adopted ++ [(s.data.seqNo, s.data.config)] }
  else s

/-- The head of the loop over the reports: the next one, or the end of the round. -/
def nextReport (nNodes : Nat) (s : Node) (reportIdx : Nat) : Node :=
  if reportIdx < nNodes then { s with pc := .reportGap reportIdx }
  else adopt { s with pc := .waiting }

/-- `glossy_scheduler`, from one yield to the next. -/
def glossyScheduler (nNodes : Nat) (bootstrapping : Bool) (s : Node) : Node :=
  match s.pc with
  | .waiting => { s with pc := .configFlood, glossyOn := true }
  | .configFlood =>
    let s := { s with glossyOn := false }
    if bootstrapping then adopt { s with pc := .waiting } else nextReport nNodes s 0
  | .reportGap reportIdx => { s with pc := .reportFlood reportIdx, glossyOn := true }
  | .reportFlood reportIdx => nextReport nNodes { s with glossyOn := false } (reportIdx + 1)

/-- The stretch that follows ends the round. -/
def endsRound (nNodes : Nat) (bootstrapping : Bool) : SchedulerPc → Bool
  | .waiting | .reportGap _ => false
  | .configFlood => bootstrapping || nNodes == 0
  | .reportFlood reportIdx => nNodes ≤ reportIdx + 1

/-- `adaptation_process` gets its poll. -/
def adaptStart (s : Node) : Node :=
  { s with polled := false, adapt := ⟨adaptation, s.adapt.reg⟩ }

/-- The memory of `adaptation_process`. -/
def adaptMem (s : Node) : AdaptMem := ⟨s.newCfg, s.currentCfg⟩

/-- The next instruction of `adaptation_process`. -/
def adaptStep (s : Node) : Option Node :=
  (s.adapt.step adaptMemory s.adaptMem).map fun (t, m) =>
    { s with
      newCfg := m.newCfg
      currentCfg := m.currentCfg
      adapt := t
      applied := if t.code = [] then s.applied ++ [(s.configSeqNo, m.currentCfg)]
        else s.applied }

/-- A stretch of the scheduler that does not end the round moves on and starts or stops the
radio. One that ends it adopts. -/
theorem glossyScheduler_eq (nNodes : Nat) (bootstrapping : Bool) (s : Node) :
    ∃ pc on, glossyScheduler nNodes bootstrapping s =
      if endsRound nNodes bootstrapping s.pc then adopt { s with pc := pc, glossyOn := on }
      else { s with pc := pc, glossyOn := on } := by
  cases hpc : s.pc with
  | waiting => exact ⟨.configFlood, true, by simp [glossyScheduler, endsRound, hpc]⟩
  | reportGap i => exact ⟨.reportFlood i, true, by simp [glossyScheduler, endsRound, hpc]⟩
  | configFlood =>
      by_cases hb : bootstrapping = true
      · exact ⟨.waiting, false, by simp [glossyScheduler, endsRound, hpc, hb]⟩
      · by_cases hn : 0 < nNodes
        · have hne : nNodes ≠ 0 := by omega
          exact ⟨.reportGap 0, false, by
            simp [glossyScheduler, nextReport, endsRound, hpc, hb, hn, hne]⟩
        · have hz : nNodes = 0 := by omega
          exact ⟨.waiting, false, by
            simp [glossyScheduler, nextReport, endsRound, hpc, hb, hz]⟩
  | reportFlood i =>
      by_cases hn : i + 1 < nNodes
      · have hle : ¬ nNodes ≤ i + 1 := by omega
        exact ⟨.reportGap (i + 1), false, by
          simp [glossyScheduler, nextReport, endsRound, hpc, hn, hle]⟩
      · have hle : nNodes ≤ i + 1 := by omega
        exact ⟨.waiting, false, by
          simp [glossyScheduler, nextReport, endsRound, hpc, hn, hle]⟩

end Node

end PTunes.Glossy
