import Mathlib.Data.Fintype.Basic
import PTunes.Controller.SerialReader
import PTunes.Proofs.Controller.Paths

/-!
# `PTunes.Proofs.Controller.SerialReader`: damaged lines

A `G` line has seven fields, recognised by their prefixes (`MsgField`). `processMsg` reads the
tokens one after the other, and a field that has no token keeps its default value of zero. So a
line that has lost a field changes the history by values that nobody reported. Only a line with
all fields, or with a number that is not valid, is treated as it should be
(`updatesOrKeeps_iff`). `readToken_cases` says what one token does, and `value_foldlM_readToken`
what the loop does: the last token of a field counts.

The loop catches `NumberFormatException`, and no branch raises another exception on a line: the
loops over a consistent topology find every record (`followParents_ne_failed`). The one exception
that is left is a trigger that has not been created when an `F` line arrives
(`survivesLine_iff`).
-/

set_option autoImplicit false

namespace PTunes.Controller

variable {ρ R : Type}

/-! ### The fields of a `G` line -/

/-- The fields that `processMsg` looks for. -/
inductive MsgField
  | o
  | p
  | pr
  | prr
  | tl
  | ts
  | n
  deriving DecidableEq, Repr

namespace MsgField

instance : Fintype MsgField where
  elems := {o, p, pr, prr, tl, ts, n}
  complete f := by cases f <;> decide

/-- How the tokens of the field begin. -/
def key : MsgField → String
  | o => "o="
  | p => "p="
  | pr => "pr="
  | prr => "prr="
  | tl => "tl="
  | ts => "ts="
  | n => "n="

/-- The number in the text after the `=`, if it is a valid one. -/
def parse (inverseOf : List UInt8 → Option ρ) (s : List UInt8) : MsgField → Option (Int ⊕ ρ)
  | pr => (inverseOf s).map .inr
  | _ => (intValueOf s).map .inl

/-- The variables after the text after the `=` has been read into the field. -/
def update (inverseOf : List UInt8 → Option ρ) (m : MsgFields ρ) (s : List UInt8) :
    MsgField → Option (MsgFields ρ)
  | o => (intValueOf s).map fun z => { m with nodeId := z }
  | p => (intValueOf s).map fun z => { m with parentId := z }
  | pr => (inverseOf s).map fun r => { m with pktRate := r }
  | prr => (intValueOf s).map fun z => { m with prr := z }
  | tl => (intValueOf s).map fun z => { m with tl := z }
  | ts => (intValueOf s).map fun z => { m with ts := z }
  | n => (intValueOf s).map fun z => { m with n := z }

/-- The value of the field. -/
def value (m : MsgFields ρ) : MsgField → Int ⊕ ρ
  | o => .inl m.nodeId
  | p => .inl m.parentId
  | pr => .inr m.pktRate
  | prr => .inl m.prr
  | tl => .inl m.tl
  | ts => .inl m.ts
  | n => .inl m.n

/-- The token is one of the field. -/
def isKeyOf (token : List UInt8) (f : MsgField) : Bool := startsWith token f.key

end MsgField

/-- The last token of a field. -/
def lastToken (line : List UInt8) (f : MsgField) : Option (List UInt8) :=
  ((tokens line).filter (MsgField.isKeyOf · f)).getLast?

/-- The line carries the values of all fields. A later token counts more than an earlier one. -/
def Carries (inverseOf : List UInt8 → Option ρ) (line : List UInt8) (m : MsgFields ρ) : Prop :=
  ∀ f : MsgField, (lastToken line f).bind (fun token => f.parse inverseOf (afterEquals token)) =
    some (f.value m)

/-- Each field has a token. -/
def HasAllFields (line : List UInt8) : Prop :=
  ∀ f : MsgField, ∃ token ∈ tokens line, f.isKeyOf token = true

/-- A field has a token whose number is not valid. -/
def HasInvalidNumber (inverseOf : List UInt8 → Option ρ) (line : List UInt8) : Prop :=
  ∃ token ∈ tokens line, ∃ f : MsgField, f.isKeyOf token = true ∧
    f.parse inverseOf (afterEquals token) = none

/-- A token belongs to one field at most. -/
theorem isKeyOf_unique {token : List UInt8} {f g : MsgField} (hf : f.isKeyOf token = true)
    (hg : g.isKeyOf token = true) : f = g := by
  have hunique : ∀ f g : MsgField, ascii f.key <+: ascii g.key → f = g := by decide
  have hf' : ascii f.key <+: token := List.isPrefixOf_iff_prefix.mp hf
  have hg' : ascii g.key <+: token := List.isPrefixOf_iff_prefix.mp hg
  rcases List.prefix_or_prefix_of_prefix hf' hg' with h | h
  · exact hunique f g h
  · exact (hunique g f h).symm

/-- The keys of the fields differ, so a token is the key of one field at most. -/
theorem isKeyOf_of_ne {token : List UInt8} {f g : MsgField} (hf : f.isKeyOf token = true)
    (hne : g ≠ f) : g.isKeyOf token = false := by
  rw [← Bool.not_eq_true]
  exact fun hg => hne (isKeyOf_unique hg hf)

/-! ### The loop of `processMsg` -/

/-- A token without a key is skipped. -/
theorem readToken_of_none {inverseOf : List UInt8 → Option ρ} {m : MsgFields ρ}
    {token : List UInt8} (h : ∀ f : MsgField, f.isKeyOf token = false) :
    readToken inverseOf m token = some m := by
  have ho : startsWith token "o=" = false := h .o
  have hp : startsWith token "p=" = false := h .p
  have hpr : startsWith token "pr=" = false := h .pr
  have hprr : startsWith token "prr=" = false := h .prr
  have htl : startsWith token "tl=" = false := h .tl
  have hts : startsWith token "ts=" = false := h .ts
  have hn : startsWith token "n=" = false := h .n
  simp [readToken, ho, hp, hpr, hprr, htl, hts, hn]

/-- A token of a field is read into this field. -/
theorem readToken_of_key {inverseOf : List UInt8 → Option ρ} {m : MsgFields ρ}
    {token : List UInt8} {f : MsgField} (h : f.isKeyOf token = true) :
    readToken inverseOf m token = f.update inverseOf m (afterEquals token) := by
  have hkey : startsWith token f.key = true := h
  have hother : ∀ g : MsgField, g ≠ f → startsWith token g.key = false := fun g hg =>
    isKeyOf_of_ne h hg
  -- The tests before the one of the field fail.
  have ho := hother .o
  have hp := hother .p
  have hpr := hother .pr
  have hprr := hother .prr
  have htl := hother .tl
  have hts := hother .ts
  cases f <;> simp_all [readToken, MsgField.update, MsgField.key]

/-- An update sets its field to the number and no other field, and fails when there is no valid
number. -/
theorem update_cases (inverseOf : List UInt8 → Option ρ) (m : MsgFields ρ) (s : List UInt8)
    (f : MsgField) :
    (f.update inverseOf m s = none ∧ f.parse inverseOf s = none) ∨
    ∃ m', f.update inverseOf m s = some m' ∧ f.parse inverseOf s = some (f.value m') ∧
      ∀ g : MsgField, g ≠ f → g.value m' = g.value m := by
  cases f with
  | pr =>
      cases hs : inverseOf s with
      | none => exact Or.inl (by simp [MsgField.update, MsgField.parse, hs])
      | some r =>
          refine Or.inr ⟨{ m with pktRate := r }, by simp [MsgField.update, hs],
            by simp [MsgField.parse, MsgField.value, hs], fun g hg => ?_⟩
          cases g with
          | pr => exact absurd rfl hg
          | _ => rfl
  | _ =>
      cases hs : intValueOf s with
      | none => exact Or.inl (by simp [MsgField.update, MsgField.parse, hs])
      | some z =>
          refine Or.inr ⟨_, by simp [MsgField.update, hs]; rfl,
            by simp [MsgField.parse, MsgField.value, hs], fun g hg => ?_⟩
          cases g <;> first | rfl | exact absurd rfl hg

/-- What `processMsg` makes of one token: an exception, or one field at most is set. -/
theorem readToken_cases (inverseOf : List UInt8 → Option ρ) (m : MsgFields ρ)
    (token : List UInt8) :
    (readToken inverseOf m token = none ∧ ∃ f : MsgField, f.isKeyOf token = true ∧
      f.parse inverseOf (afterEquals token) = none) ∨
    ∃ m', readToken inverseOf m token = some m' ∧ ∀ f : MsgField,
      (f.isKeyOf token = true ∧ f.parse inverseOf (afterEquals token) = some (f.value m')) ∨
      (f.isKeyOf token = false ∧ f.value m' = f.value m) := by
  by_cases hkey : ∃ f : MsgField, f.isKeyOf token = true
  · obtain ⟨f, hf⟩ := hkey
    rw [readToken_of_key hf]
    rcases update_cases inverseOf m (afterEquals token) f with
      ⟨hu, hparse⟩ | ⟨m', hu, hparse, hother⟩
    · exact Or.inl ⟨hu, f, hf, hparse⟩
    · refine Or.inr ⟨m', hu, fun g => ?_⟩
      by_cases hg : g = f
      · subst hg
        exact Or.inl ⟨hf, hparse⟩
      · exact Or.inr ⟨isKeyOf_of_ne hf hg, hother g hg⟩
  · have hnone : ∀ f : MsgField, f.isKeyOf token = false := by
      intro f
      rw [← Bool.not_eq_true]
      exact fun hf => hkey ⟨f, hf⟩
    exact Or.inr ⟨m, readToken_of_none hnone, fun f => Or.inr ⟨hnone f, rfl⟩⟩

/-- The loop of `processMsg` ends with an exception exactly when a token has an invalid
number. -/
theorem foldlM_readToken_eq_none_iff (inverseOf : List UInt8 → Option ρ)
    (l : List (List UInt8)) (m : MsgFields ρ) :
    l.foldlM (readToken inverseOf) m = none ↔ ∃ token ∈ l, ∃ f : MsgField,
      f.isKeyOf token = true ∧ f.parse inverseOf (afterEquals token) = none := by
  induction l generalizing m with
  | nil => simp
  | cons token l ih =>
      rw [List.foldlM_cons, List.exists_mem_cons_iff]
      rcases readToken_cases inverseOf m token with ⟨hread, hbad⟩ | ⟨m', hread, hfields⟩
      · rw [hread]
        exact iff_of_true rfl (Or.inl hbad)
      · have hgood : ¬ ∃ f : MsgField, f.isKeyOf token = true ∧
            f.parse inverseOf (afterEquals token) = none := by
          rintro ⟨f, hf, hparse⟩
          rcases hfields f with ⟨_, hvalue⟩ | ⟨hno, _⟩
          · rw [hparse] at hvalue
            cases hvalue
          · rw [hf] at hno
            cases hno
        rw [hread]
        exact (ih m').trans (or_iff_right hgood).symm

/-- After the loop of `processMsg`, a field has the value of its last token, and without a token
the value from before. -/
theorem value_foldlM_readToken {inverseOf : List UInt8 → Option ρ} {l : List (List UInt8)}
    {m m' : MsgFields ρ} (h : l.foldlM (readToken inverseOf) m = some m') (f : MsgField) :
    match (l.filter (MsgField.isKeyOf · f)).getLast? with
    | none => f.value m' = f.value m
    | some token => f.parse inverseOf (afterEquals token) = some (f.value m') := by
  induction l using List.reverseRecOn generalizing m' with
  | nil =>
      cases h
      rfl
  | append_singleton l token ih =>
      rw [List.foldlM_append] at h
      obtain ⟨m₁, hm₁, h⟩ := Option.bind_eq_some_iff.mp h
      rw [List.foldlM_cons] at h
      obtain ⟨m₂, hm₂, h⟩ := Option.bind_eq_some_iff.mp h
      cases h
      rcases readToken_cases inverseOf m₁ token with ⟨hread, _⟩ | ⟨m₃, hread, hfields⟩
      · rw [hread] at hm₂
        cases hm₂
      · rw [hread] at hm₂
        cases hm₂
        rw [List.filter_append]
        rcases hfields f with ⟨hkey, hvalue⟩ | ⟨hkey, hvalue⟩
        · have hone : [token].filter (MsgField.isKeyOf · f) = [token] := by simp [hkey]
          rw [hone, List.getLast?_concat]
          exact hvalue
        · have hone : [token].filter (MsgField.isKeyOf · f) = [] := by simp [hkey]
          rw [hone, List.append_nil, hvalue]
          exact ih hm₁

/-! ### `processMsg` -/

/-- The record of a node for the values of a message. -/
def MsgFields.toNodeInfo (m : MsgFields ρ) (now : Int) : NodeTopologyInfo ρ :=
  { timestamp := now, nodeId := m.nodeId, parentId := m.parentId, prr := m.prr,
    pktRate := m.pktRate, macConf := ⟨m.tl, m.ts, m.n⟩ }

/-- A line has no message exactly when the number of one of its fields cannot be parsed. -/
theorem processMsg_eq_none_iff (zero : ρ) (inverseOf : List UInt8 → Option ρ) (now : Int)
    (line : List UInt8) :
    processMsg zero inverseOf now line = none ↔ HasInvalidNumber inverseOf line := by
  rw [processMsg, Option.map_eq_none_iff]
  exact foldlM_readToken_eq_none_iff inverseOf (tokens line) _

/-- A line with a token of each field, and with valid numbers only, is read completely. -/
theorem carries_of_hasAllFields {zero : ρ} {inverseOf : List UInt8 → Option ρ} {now : Int}
    {line : List UInt8} (hall : HasAllFields line) {nodeInfo : NodeTopologyInfo ρ}
    (h : processMsg zero inverseOf now line = some nodeInfo) :
    ∃ m, Carries inverseOf line m ∧ nodeInfo = m.toNodeInfo now := by
  obtain ⟨m, hm, rfl⟩ := Option.map_eq_some_iff.mp h
  refine ⟨m, fun f => ?_, rfl⟩
  have hvalue := value_foldlM_readToken hm f
  rw [lastToken]
  cases hlast : ((tokens line).filter (MsgField.isKeyOf · f)).getLast? with
  | none =>
      -- The field has a token, so it has a last one.
      rw [List.getLast?_eq_none_iff] at hlast
      obtain ⟨token, hmem, hkey⟩ := hall f
      have hfilter : token ∈ (tokens line).filter (MsgField.isKeyOf · f) :=
        List.mem_filter.mpr ⟨hmem, hkey⟩
      rw [hlast] at hfilter
      cases hfilter
  | some token =>
      rw [hlast] at hvalue
      exact hvalue

/-- A line that carries the values of all fields has a token of each. -/
theorem Carries.hasAllFields {inverseOf : List UInt8 → Option ρ} {line : List UInt8}
    {m : MsgFields ρ} (h : Carries inverseOf line m) : HasAllFields line := by
  intro f
  obtain ⟨token, hlast, _⟩ := Option.bind_eq_some_iff.mp (h f)
  obtain ⟨hmem, hkey⟩ := List.mem_filter.mp (List.mem_of_getLast? hlast)
  exact ⟨token, hmem, hkey⟩

/-! ### No missing record is dereferenced -/

namespace Topology

variable {t : Topology ρ} {β γ : Type}

/-- The check of a topology throws nothing. -/
theorem isConsistent_ne_failed (t : Topology ρ) (fuel : Nat) : t.isConsistent fuel ≠ .failed := by
  rw [isConsistent]
  split
  · rename_i hparents
    have hwalk : ∀ n ∈ t.nodes.toList, n.isSink = false →
        whileLoop t.walkTurn fuel (n, [n.nodeId]) ≠ .failed := fun n hmem hn =>
      whileLoop_ne_failed t.Walking
        (fun s hs => walkTurn_ne_fail (fun m hm hsource => by
          simpa [hsource] using List.all_eq_true.mp hparents m hm) hs)
        (fun s s' hs hnext => (hs.next hnext).1) fuel (walking_start hmem hn)
    -- The walks are run one after the other.
    have hall : ∀ l : List (NodeTopologyInfo ρ), (∀ n ∈ l, n ∈ t.nodes.toList) →
        t.walkAll fuel l ≠ .failed := by
      intro l
      induction l with
      | nil =>
          intro _ h
          cases h
      | cons n l ih =>
          intro hl
          have hrest := ih fun m hm => hl m (List.mem_cons_of_mem _ hm)
          rw [walkAll]
          split
          · exact hrest
          · rename_i hn
            refine Loop.bind_ne_failed (hwalk n (hl n List.mem_cons_self) (by simpa using hn)) ?_
            intro ok _
            split
            · exact hrest
            · intro h
              cases h
    exact hall _ fun n hn => hn
  · intro h
    cases h

/-- In a consistent topology the loops up to the sink find every record that they look for. -/
theorem followParents_ne_failed {visit : β → NodeTopologyInfo ρ → β}
    {finish : β → NodeTopologyInfo ρ → γ} {start : β} {fuel : Nat}
    (h : t.isConsistent fuel = .returned true) {l : NodeTopologyInfo ρ} (hl : l ∈ t.sources)
    (fuel' : Nat) : t.followParents visit finish start fuel' l ≠ .failed := by
  obtain ⟨hmem, hsource⟩ := List.mem_filter.mp hl
  -- There is a sink, since `l` ascends to one.
  obtain ⟨r, below, hasc⟩ := ascends_of_isConsistent h hmem (by simpa using hsource)
  obtain ⟨hr, hrsink⟩ := hasc.root
  have hsink : t.getSink ≠ none := by
    intro hnone
    have hno := List.find?_eq_none.mp hnone r (getNodeInfo_eq_some_iff.mp hr).1
    exact hno hrsink
  obtain ⟨sink, hsink⟩ := Option.ne_none_iff_exists'.mp hsink
  refine whileLoop_ne_failed
    (fun s => ∃ n, s.1 = some n ∧ n ∈ t.nodes.toList) ?_ ?_ fuel' ?_
  · rintro ⟨iterator, acc⟩ ⟨n, rfl, hn⟩
    simp only [followTurn, hsink]
    split
    · intro h
      cases h
    · intro h
      cases h
  · rintro ⟨iterator, acc⟩ s' ⟨n, rfl, hn⟩ hnext
    simp only [followTurn, hsink] at hnext
    split at hnext
    · cases hnext
      cases hs : n.isSink with
      | true =>
          have hid : n.nodeId = n.parentId := NodeTopologyInfo.isSink_iff.mp hs
          exact ⟨n, getNodeInfo_eq_some_iff.mpr ⟨hn, hid⟩, hn⟩
      | false =>
          obtain ⟨p, hp, hid⟩ := parent_mem_of_isConsistent h hn hs
          exact ⟨p, getNodeInfo_eq_some_iff.mpr ⟨hp, hid⟩, hp⟩
    · cases hnext
  · exact ⟨l, getNodeInfo_eq_some_iff.mpr ⟨hmem, rfl⟩, hmem⟩

/-- The statistics of a consistent topology can be computed: the chain of parents of each node ends
at the sink. -/
theorem computePRRStats_ne_failed {fuel : Nat} (h : t.isConsistent fuel = .returned true)
    (D : DoubleOps R) (fuel' : Nat) : t.computePRRStats D fuel' ≠ .failed := by
  refine Loop.bind_ne_failed (Loop.mapLoop_ne_failed fun l hl => ?_) fun _ _ => ?_
  · exact followParents_ne_failed h hl fuel'
  · exact fun hc => nomatch hc

/-- So can the lists for the optimizer. -/
theorem buildLists_ne_failed {fuel : Nat} (h : t.isConsistent fuel = .returned true)
    (D : DoubleOps R) (fuel' : Nat) : t.buildLists D fuel' ≠ .failed := by
  refine Loop.bind_ne_failed (Loop.mapLoop_ne_failed fun l hl => ?_) fun _ _ => ?_
  · exact followParents_ne_failed h hl fuel'
  · exact fun hc => nomatch hc

end Topology

/-- With the check of the topologies, only consistent ones are put into lists. -/
theorem prepareTopologies_ne_failed (D : DoubleOps R) (fuel : Nat)
    (topologyHistory : List (Topology ρ)) :
    prepareTopologies D fuel topologyHistory true ≠ .failed := by
  cases topologyHistory with
  | nil => exact fun h => nomatch h
  | cons t older =>
      refine Loop.bind_ne_failed (t.isConsistent_ne_failed fuel) fun ok hok => ?_
      cases ok with
      | false => exact fun h => nomatch h
      | true =>
          refine Loop.bind_ne_failed (Topology.buildLists_ne_failed hok D fuel) fun _ _ => ?_
          exact fun h => nomatch h

/-! ### Which exceptions a line can raise -/

/-- ECLiPSe answers to `performance` with four `double`s, if it answers. -/
def AnswersPerformance (answer : Option (List (EclipseTerm R))) : Prop :=
  ∀ terms, answer = some terms → ∃ a b c d, terms = [.double a, .double b, .double c, .double d]

/-- The exceptions of the branches are caught. -/
abbrev Harmless {α : Type} (c : Completion JavaException α) : Prop :=
  c.OnlyThrows (·.caught = true)

/-- A value is harmless. -/
theorem harmless_returned {α : Type} (a : α) :
    Harmless (.returned a : Completion JavaException α) := .pure _ a

/-- A number that cannot be parsed is an exception that the loop catches. -/
theorem harmless_ofNumberFormat {α : Type} (r : Option α) : Harmless (ofNumberFormat r) := by
  cases r with
  | none => exact .throw rfl
  | some a => exact harmless_returned a

/-- A history that is not empty has a first topology. -/
theorem harmless_getFirst {topologyHistory : List (Topology ρ)}
    (h : topologyHistory.isEmpty = false) : Harmless (getFirst topologyHistory) := by
  cases topologyHistory with
  | nil => cases h
  | cons t older => exact harmless_returned t

/-- Printing tests for an empty history itself. -/
theorem harmless_printCurrentTopology (topologyHistory : List (Topology ρ)) :
    Harmless (printCurrentTopology topologyHistory) := by
  unfold printCurrentTopology
  split
  · exact harmless_returned _
  · rename_i hne
    exact (harmless_getFirst (by simpa using hne)).bind fun t _ => harmless_returned _

/-- The performance takes four terms apart, which an answer of this form has. -/
theorem harmless_performance {answer : Option (List (EclipseTerm R))}
    (h : AnswersPerformance answer) : Harmless (performance answer) := by
  cases answer with
  | none => exact harmless_returned _
  | some terms =>
      obtain ⟨a, b, c, d, rfl⟩ := h terms rfl
      exact harmless_returned (some (a, b, c, d))

namespace AdaptMac

variable {K : AdaptMac ρ R} {E : LineEnv ρ R}

/-- The triggers that are selected have been created. -/
def TriggersCreated (K : AdaptMac ρ R) (E : LineEnv ρ R) : Prop :=
  (K.withEstimation = true → E.estimationTrigger ≠ none) ∧
  (K.withOptimizationTrigger = true → E.optimizationTrigger ≠ none)

/-- A line about a packet ends with a value or with an exception that is caught. -/
theorem harmless_handlePacket (line : List UInt8) (topologyHistory : List (Topology ρ)) :
    Harmless (handlePacket line topologyHistory) :=
  (harmless_ofNumberFormat _).bind fun _ _ =>
    (harmless_printCurrentTopology topologyHistory).bind fun _ _ => harmless_returned _

/-- So does the log of the reception rates. -/
theorem harmless_logPRR (topologyHistory : List (Topology ρ)) :
    Harmless (K.logPRR E topologyHistory) := by
  unfold logPRR
  split
  · exact harmless_returned _
  · rename_i hne
    refine (harmless_getFirst (by simpa using hne)).bind fun t _ => ?_
    refine (Completion.OnlyThrows.ofLoop (t.isConsistent_ne_failed E.fuel)).bind fun ok hok => ?_
    cases ok with
    | false => exact harmless_returned _
    | true =>
        have hconsistent : t.isConsistent E.fuel = .returned true := by
          cases hc : t.isConsistent E.fuel <;> rw [hc] at hok <;> cases hok
          rfl
        exact (Completion.OnlyThrows.ofLoop
          (Topology.computePRRStats_ne_failed hconsistent K.doubleOps E.fuel)).bind
            fun _ _ => harmless_returned _

/-- The end of a collection, for every kind of trigger. -/
theorem harmless_collectionFinished (h : AnswersPerformance E.answer)
    (topologyHistory : List (Topology ρ)) (trigger : OptimizationTrigger) :
    Harmless (trigger.collectionFinished K.doubleOps E topologyHistory) := by
  cases trigger with
  | timedPerformance nodesHaveBeenPurged =>
      unfold OptimizationTrigger.collectionFinished
      simp only
      split
      · exact harmless_returned _
      · exact (Completion.OnlyThrows.ofLoop
          (prepareTopologies_ne_failed K.doubleOps E.fuel topologyHistory)).bind fun _ _ =>
            (harmless_performance h).bind fun _ _ => harmless_returned _
  | _ => exact harmless_returned _

/-- The notification of the estimation returns, or finds no trigger to notify. -/
theorem notifyEstimation_cases (K : AdaptMac ρ R) (E : LineEnv ρ R) :
    K.notifyEstimation E = .returned () ∨ K.notifyEstimation E = .threw .nullPointer := by
  unfold notifyEstimation
  split
  · split
    · exact Or.inr rfl
    · exact Or.inl rfl
  · exact Or.inl rfl

/-- The `F` branch is harmless once the triggers have been created. -/
theorem harmless_handleFinished (h : AnswersPerformance E.answer) (ht : K.TriggersCreated E)
    (topologyHistory : List (Topology ρ)) : Harmless (K.handleFinished E topologyHistory) := by
  refine (harmless_logPRR topologyHistory).bind fun _ _ =>
    (harmless_printCurrentTopology topologyHistory).bind fun _ _ => ?_
  refine Completion.OnlyThrows.bind ?_ fun _ _ => ?_
  · unfold notifyEstimation
    split
    · rename_i hwith
      cases htrigger : E.estimationTrigger with
      | none => exact absurd htrigger (ht.1 hwith)
      | some _ => exact harmless_returned _
    · exact harmless_returned _
  · unfold notifyOptimization
    split
    · rename_i hwith
      cases htrigger : E.optimizationTrigger with
      | none => exact absurd htrigger (ht.2 hwith)
      | some trigger => exact harmless_collectionFinished h topologyHistory trigger
    · exact harmless_returned _

/-- A turn of the loop ends the thread with no exception when its branch is harmless. -/
theorem catchLine_ne_threw {c : Completion JavaException Unit} :
    (∀ e, catchLine c ≠ .threw e) ↔ Harmless c := by
  cases c with
  | returned a => exact iff_of_true (fun e h => nomatch h) (harmless_returned a)
  | running => exact iff_of_true (fun e h => nomatch h) fun e h => nomatch h
  | threw e =>
      constructor
      · intro h e' he
        cases he
        by_contra hc
        exact h e (by rw [catchLine, if_neg hc])
      · intro h e' he
        rw [catchLine, if_pos (h e rfl)] at he
        cases he

/-! ### Damaged lines -/

/-- A `G` line updates the history by the values of its fields, or leaves the history alone. -/
def UpdatesOrKeeps (K : AdaptMac ρ R) (E : LineEnv ρ R) (line : List Char)
    (topologyHistory : List (Topology ρ)) : Prop :=
  startsWith (removeNonPrintable line) "G" = true →
    (∃ m, Carries K.inverseOf (removeNonPrintable line) m ∧
      (K.readLine E line topologyHistory).2 =
        updateTopologyHistory E.sink E.clock (m.toNodeInfo E.now) topologyHistory) ∨
    (K.readLine E line topologyHistory).2 = topologyHistory

/-- The thread goes on after the line. -/
def SurvivesLine (K : AdaptMac ρ R) (E : LineEnv ρ R) (line : List Char)
    (topologyHistory : List (Topology ρ)) : Prop :=
  ∀ e, (K.readLine E line topologyHistory).1 ≠ .threw e

/-- A line cannot start with two letters. -/
theorem startsWith_letter {line : List UInt8} (a b : Char)
    (hne : UInt8.ofNat a.toNat ≠ UInt8.ofNat b.toNat)
    (h : startsWith line (String.singleton a) = true) :
    startsWith line (String.singleton b) = false := by
  have hascii : ∀ c : Char, ascii (String.singleton c) = [UInt8.ofNat c.toNat] := by
    intro c
    simp [ascii]
  rw [startsWith, hascii] at h
  rw [startsWith, hascii]
  cases line with
  | nil => simp at h
  | cons c line =>
      simp only [List.isPrefixOf, Bool.and_true, beq_iff_eq] at h
      subst h
      simp [List.isPrefixOf, hne.symm]

/-- What a line with a message does. -/
theorem handleLine_of_G {line : List UInt8} (h : startsWith line "G" = true)
    (topologyHistory : List (Topology ρ)) :
    K.handleLine E line topologyHistory =
      match processMsg K.zero K.inverseOf E.now line with
      | none => (.threw .numberFormat, topologyHistory)
      | some nodeInfo =>
        (.returned (), updateTopologyHistory E.sink E.clock nodeInfo topologyHistory) := by
  have hA : startsWith line "A" = false := startsWith_letter 'G' 'A' (by decide) h
  have hnot : ¬ startsWith line "A" = true := by
    rw [hA]
    exact Bool.false_ne_true
  refine (if_neg hnot).trans ((if_pos h).trans ?_)
  cases processMsg K.zero K.inverseOf E.now line <;> rfl

/-- What a line at the end of a collection does. -/
theorem handleLine_of_F {line : List UInt8} (h : startsWith line "F" = true)
    (topologyHistory : List (Topology ρ)) :
    K.handleLine E line topologyHistory =
      (K.handleFinished E topologyHistory, topologyHistory) := by
  have hA : startsWith line "A" = false := startsWith_letter 'F' 'A' (by decide) h
  have hG : startsWith line "G" = false := startsWith_letter 'F' 'G' (by decide) h
  rw [handleLine, if_neg (by rw [hA]; exact Bool.false_ne_true),
    if_neg (by rw [hG]; exact Bool.false_ne_true), if_pos h]

/-- The first update of an empty history creates a topology. -/
theorem updateTopologyHistory_nil_ne (sink nodeInfo : NodeTopologyInfo ρ) (clock : Nat → Int) :
    updateTopologyHistory sink clock nodeInfo [] ≠ [] := List.cons_ne_nil _ _

/-- A `G` line never changes the history by default values exactly when it has a token of each
field or an invalid number. -/
theorem updatesOrKeeps_iff (line : List Char) :
    (∀ topologyHistory, K.UpdatesOrKeeps E line topologyHistory) ↔
      (startsWith (removeNonPrintable line) "G" = true →
        HasAllFields (removeNonPrintable line) ∨
          HasInvalidNumber K.inverseOf (removeNonPrintable line)) := by
  constructor
  · intro h hG
    have hline := h [] hG
    simp only [readLine, handleLine_of_G hG] at hline
    cases hmsg : processMsg K.zero K.inverseOf E.now (removeNonPrintable line) with
    | none => exact Or.inr ((processMsg_eq_none_iff ..).mp hmsg)
    | some nodeInfo =>
        rw [hmsg] at hline
        rcases hline with ⟨m, hm, _⟩ | hkept
        · exact Or.inl hm.hasAllFields
        · exact absurd hkept (updateTopologyHistory_nil_ne _ _ _)
  · intro h topologyHistory hG
    simp only [readLine, handleLine_of_G hG]
    cases hmsg : processMsg K.zero K.inverseOf E.now (removeNonPrintable line) with
    | none => exact Or.inr rfl
    | some nodeInfo =>
        have hvalid : ¬ HasInvalidNumber K.inverseOf (removeNonPrintable line) := by
          intro hbad
          rw [(processMsg_eq_none_iff K.zero K.inverseOf E.now _).mpr hbad] at hmsg
          cases hmsg
        obtain ⟨m, hm, rfl⟩ := carries_of_hasAllFields ((h hG).resolve_right hvalid) hmsg
        exact Or.inl ⟨m, hm, rfl⟩

/-- No line ends the thread, except an `F` line before the triggers have been created. -/
theorem survivesLine_iff (h : AnswersPerformance E.answer) (line : List Char) :
    (∀ topologyHistory, K.SurvivesLine E line topologyHistory) ↔
      (startsWith (removeNonPrintable line) "F" = true → K.TriggersCreated E) := by
  constructor
  · intro hsurvives hF
    have hline := catchLine_ne_threw.mp (hsurvives [])
    rw [handleLine_of_F hF] at hline
    -- With an empty history only the calls of the triggers are left.
    have hnil : K.handleFinished E [] =
        K.notifyEstimation E >>= fun _ => K.notifyOptimization E [] := rfl
    rw [hnil] at hline
    refine ⟨fun hwith hnone => ?_, fun hwith hnone => ?_⟩
    · have hest : K.notifyEstimation E = .threw .nullPointer := by
        rw [notifyEstimation, if_pos hwith, hnone]
      rw [hest] at hline
      exact absurd (hline .nullPointer rfl) Bool.false_ne_true
    · have hopt : K.notifyOptimization E ([] : List (Topology ρ)) = .threw .nullPointer := by
        rw [notifyOptimization, if_pos hwith, hnone]
      rcases K.notifyEstimation_cases E with hest | hest
      · rw [hest] at hline
        exact absurd (hline .nullPointer hopt) Bool.false_ne_true
      · rw [hest] at hline
        exact absurd (hline .nullPointer rfl) Bool.false_ne_true
  · intro ht topologyHistory
    refine catchLine_ne_threw.mpr ?_
    unfold handleLine
    split
    · exact harmless_handlePacket _ topologyHistory
    · split
      · cases processMsg K.zero K.inverseOf E.now (removeNonPrintable line) with
        | none => exact .throw rfl
        | some nodeInfo => exact harmless_returned _
      · split
        · rename_i hF
          exact harmless_handleFinished h (ht hF) topologyHistory
        · exact harmless_returned _

/-- For every line: whatever the history is, a `G` line updates it by the values of its fields or
leaves it alone, and the line does not end the thread. This holds exactly when a `G` line has a
token of each field or an invalid number, and an `F` line finds the triggers created. -/
theorem damaged_lines_iff (K : AdaptMac ρ R) (E : LineEnv ρ R) (line : List Char)
    (hanswer : AnswersPerformance E.answer) :
    (∀ topologyHistory, K.UpdatesOrKeeps E line topologyHistory ∧
      K.SurvivesLine E line topologyHistory) ↔
    (startsWith (removeNonPrintable line) "G" = true →
      HasAllFields (removeNonPrintable line) ∨
        HasInvalidNumber K.inverseOf (removeNonPrintable line)) ∧
    (startsWith (removeNonPrintable line) "F" = true → K.TriggersCreated E) := by
  rw [forall_and, updatesOrKeeps_iff, survivesLine_iff hanswer]

/-- The reading loop goes on to the end of the input once the triggers have been created. -/
theorem readLines_ne_threw {lines : List (LineEnv ρ R × List Char)}
    (h : ∀ r ∈ lines, AnswersPerformance r.1.answer ∧ K.TriggersCreated r.1)
    (topologyHistory : List (Topology ρ)) (e : JavaException) :
    (K.readLines lines topologyHistory).1 ≠ .threw e := by
  induction lines generalizing topologyHistory with
  | nil => exact fun hc => nomatch hc
  | cons r rest ih =>
      obtain ⟨E, line⟩ := r
      obtain ⟨hanswer, ht⟩ := h _ List.mem_cons_self
      have hline := (survivesLine_iff hanswer line).mpr (fun _ => ht) topologyHistory
      have hrest := fun t => ih (fun r hr => h r (List.mem_cons_of_mem _ hr)) t
      unfold readLines
      split
      · exact hrest _
      · exact hline e

/-- A controller that reads packet rates as rational numbers, and a sink with id 1. -/
def sampleMac : AdaptMac ℚ Float where
  withEstimation := true
  withOptimizationTrigger := true
  doubleOps := DoubleOps.double
  zero := 0
  inverseOf s := (intValueOf s).map fun z => 1 / (z : ℚ)

/-- The trigger asks for the performance after each collection, and ECLiPSe answers. -/
def sampleLineEnv : LineEnv ℚ Float where
  sink := ⟨0, 1, 1, 1000, 0, ⟨0, 0, 0⟩⟩
  now := 0
  clock _ := 0
  estimationTrigger := some ()
  optimizationTrigger := some (.timedPerformance false)
  answer := some [.double 100000.0, .double 0.99, .double 0.5, .double 0.0]
  fuel := 10

/-- The sample answer has the four numbers. -/
theorem answersPerformance_sampleLineEnv : AnswersPerformance sampleLineEnv.answer := by
  rintro terms ⟨⟩
  exact ⟨_, _, _, _, rfl⟩

/-- The sink with node 2 below it. -/
def sampleHistory : List (Topology ℚ) :=
  [Topology.ofSink sampleLineEnv.sink ⟨2, 2, 1, 900, 1 / 10, ⟨16, 100, 3⟩⟩ 0]

/-- An undamaged message, and the line that ends a collection, for which the performance is
computed. -/
theorem damaged_lines_iff_sample :
    (sampleMac.UpdatesOrKeeps sampleLineEnv
        "G o=5 p=1 pr=10 prr=900 tl=16 ts=100 n=3".toList sampleHistory ∧
      sampleMac.SurvivesLine sampleLineEnv
        "G o=5 p=1 pr=10 prr=900 tl=16 ts=100 n=3".toList sampleHistory) ∧
    sampleMac.UpdatesOrKeeps sampleLineEnv "F".toList sampleHistory ∧
      sampleMac.SurvivesLine sampleLineEnv "F".toList sampleHistory := by
  have hanswer := answersPerformance_sampleLineEnv
  have hall : HasAllFields
      (removeNonPrintable "G o=5 p=1 pr=10 prr=900 tl=16 ts=100 n=3".toList) := by
    unfold HasAllFields
    decide +kernel
  have htriggers : sampleMac.TriggersCreated sampleLineEnv :=
    ⟨fun _ h => (nomatch h), fun _ h => (nomatch h)⟩
  constructor
  · exact (damaged_lines_iff sampleMac sampleLineEnv _ hanswer).mpr
      ⟨fun _ => Or.inl hall, fun _ => htriggers⟩ sampleHistory
  · exact (damaged_lines_iff sampleMac sampleLineEnv _ hanswer).mpr
      ⟨fun hG => absurd hG (by decide +kernel), fun _ => htriggers⟩ sampleHistory

/-- A line that has lost all fields but the first creates a topology with default values. -/
theorem not_forall_damaged_lines :
    ¬ ∀ (K : AdaptMac ℚ Float) (E : LineEnv ℚ Float) (line : List Char),
      AnswersPerformance E.answer → ∀ topologyHistory,
        K.UpdatesOrKeeps E line topologyHistory ∧ K.SurvivesLine E line topologyHistory := by
  intro h
  have hlaw := (updatesOrKeeps_iff "G o=5".toList).mp fun topologyHistory =>
    (h sampleMac sampleLineEnv "G o=5".toList answersPerformance_sampleLineEnv
      topologyHistory).1
  rcases hlaw (by decide +kernel) with hall | hbad
  · revert hall
    unfold HasAllFields
    decide +kernel
  · revert hbad
    unfold HasInvalidNumber
    decide +kernel

end AdaptMac

end PTunes.Controller
