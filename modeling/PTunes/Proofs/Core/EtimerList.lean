import PTunes.Core.Etimer
import PTunes.Lib.Chain

/-!
# `PTunes.Proofs.Core.EtimerList`: the list of pending timers

`armed`, `owner` and `lastSet` read off the recorded events whether a timer is pending, who started
it, and when. `Linked s l` says that the timers on `timerlist` are `l`, that they are the armed
ones, and how far the running function has come along the list. Every step keeps it:

* `Linked.tick`: the clock interrupt.
* `Linked.call`: the first step of a call that is made by a process.
* `Linked.code`: the other steps of a function, by one lemma for each place `EtimerPc`.
-/

set_option autoImplicit false

namespace PTunes.Core

variable {κ π : Type} [DecidableEq κ]

/-! ### What the events say of a timer -/

namespace Etimers

/-- The timer was started, and not stopped, posted or dropped since. -/
def armed (t : κ) : List (EtimerEvent κ π) → Bool
  | [] => false
  | .set t' .. :: h | .reset t' _ :: h => t' == t || armed t h
  | .stop t' :: h | .drop t' :: h | .post _ t' _ :: h => t' != t && armed t h
  | .adjust _ :: h => armed t h

/-- The process that started the timer, when it was not armed before. -/
def owner (t : κ) : List (EtimerEvent κ π) → Option π
  | [] => none
  | .set t' caller _ _ :: h | .reset t' caller :: h =>
    if t' = t ∧ armed t h = false then caller else owner t h
  | _ :: h => owner t h

/-- The time and the interval of the last start, if it was a `set`. -/
def lastSet (t : κ) : List (EtimerEvent κ π) → Option (Nat × UInt16)
  | [] => none
  | .set t' _ time interval :: h => if t' = t then some (time, interval) else lastSet t h
  | .reset t' _ :: h | .adjust t' :: h => if t' = t then none else lastSet t h
  | _ :: h => lastSet t h

/-- A posted event is one of an armed timer, to its owner, and not early. -/
def PostOk (p : Option π) (t : κ) (time : Nat) (h : List (EtimerEvent κ π)) : Prop :=
  armed t h ∧ p ≠ none ∧ p = owner t h ∧
    ∀ start interval, lastSet t h = some (start, interval) → start + interval.toNat ≤ time

/-- Every posted event is. -/
def PostsOk : List (EtimerEvent κ π) → Prop
  | [] => True
  | .post p t time :: h => PostOk p t time h ∧ PostsOk h
  | _ :: h => PostsOk h

/-- What follows an event holds of it. -/
theorem PostsOk.of_append {h₁ h₂ : List (EtimerEvent κ π)} {e : EtimerEvent κ π}
    (h : PostsOk (h₁ ++ e :: h₂)) : PostsOk (e :: h₂) := by
  induction h₁ with
  | nil => exact h
  | cons e' h₁ ih =>
      refine ih ?_
      cases e' with
      | post => exact h.2
      | _ => exact h

end Etimers

/-- Calls are made by processes. -/
def CalledByProcess (_ : Etimers κ π) : EtimerLabel κ π → Prop
  | .call caller _ => caller ≠ none
  | _ => True

instance (s : Etimers κ π) (a : EtimerLabel κ π) : Decidable (CalledByProcess s a) := by
  cases a <;> unfold CalledByProcess <;> infer_instance

/-! ### The list -/

/-- The timer that `etimer_stop` has unlinked. -/
def EtimerReturn.moving : EtimerReturn κ → Option κ
  | .stop et => some et
  | .caller | .again => none

/-- The timer that a running function is about to link, or has unlinked. -/
def EtimerPc.moving : EtimerPc κ π → Option κ
  | .addTimer et | .addWalk et _ | .link et | .stopEnd et => some et
  | .updateTime ret | .updateWalk _ _ _ ret => ret.moving
  | _ => none

namespace Etimers

/-- A walk along the timers `l` is at `t`: `l₁` are the timers behind it. -/
def At (s : Etimers κ π) (l : List κ) (t : Option κ) (l₁ l₂ : List κ) : Prop :=
  l = l₁ ++ l₂ ∧ Segment s.next t l₂ none

/-- The interval of the timer has passed since the last `set`. -/
def Due (s : Etimers κ π) (t : κ) : Prop :=
  ∀ start interval, lastSet t s.events = some (start, interval) →
    start + interval.toNat ≤ s.time

/-- The call is made by a process, and its timer is armed. -/
structure Adding (s : Etimers κ π) (l : List κ) (et : κ) : Prop where
  caller : s.processCurrent ≠ none
  armed : armed et s.events
  owner : et ∉ l → owner et s.events = s.processCurrent

/-- What the running function knows of the list. -/
def Place (s : Etimers κ π) (l : List κ) : EtimerPc κ π → Prop
  | .idle | .exitedHead _ => True
  | .addTimer et => s.Adding l et
  | .addWalk et t => s.Adding l et ∧ ∃ l₁ l₂, s.At l t l₁ l₂ ∧ et ∉ l₁
  | .link et => s.Adding l et ∧ et ∉ l
  | .updateTime ret => ∀ et, ret = .stop et → et ∉ l
  | .updateWalk _ _ t ret => (∀ et, ret = .stop et → et ∉ l) ∧ ∃ l₁ l₂, s.At l t l₁ l₂ ∧ l₁ ≠ []
  | .stopWalk et t => ∃ l₁ l₂, s.At l t l₁ l₂ ∧ et ∉ l₁ ∧ l₂.head? ≠ some et
  | .stopEnd et => et ∉ l
  | .scan t u => ∃ l₁ l₂, s.At l t l₁ l₂ ∧ u = l₁.getLast?
  | .expired t u => s.Due t ∧ ∃ l₁ l₂, s.At l (some t) l₁ l₂ ∧ u = l₁.getLast?
  | .exitedWalk _ t => t ∈ l

/-- The timers `l` are those on `timerlist`. -/
structure Linked (s : Etimers κ π) (l : List κ) : Prop where
  chain : Segment s.next s.timerlist l none
  armed_of_mem : ∀ t ∈ l, armed t s.events
  mem_of_armed : ∀ t, s.pc.moving ≠ some t → armed t s.events → t ∈ l
  owner : ∀ t ∈ l, s.p t ≠ none ∧ s.p t = Etimers.owner t s.events
  place : s.Place l s.pc

variable {s s' : Etimers κ π} {l l₁ l₂ : List κ} {t : κ} {u : Option κ}

omit [DecidableEq κ] in
/-- The walk starts at the head of the list. -/
theorem at_head (h : Segment s.next s.timerlist l none) : s.At l s.timerlist [] l :=
  ⟨rfl, h⟩

omit [DecidableEq κ] in
/-- The walk is at a timer of the list, and goes on to the next one. -/
theorem At.next (h : s.At l (some t) l₁ l₂) :
    ∃ l₃, l₂ = t :: l₃ ∧ s.At l (s.next t) (l₁ ++ [t]) l₃ := by
  obtain ⟨rfl, hseg⟩ := h
  cases l₂ with
  | nil => cases Segment.nil_iff.mp hseg
  | cons a l₃ =>
      obtain ⟨ha, hrest⟩ := Segment.cons_iff.mp hseg
      cases ha
      exact ⟨l₃, rfl, by simp, hrest⟩

omit [DecidableEq κ] in
/-- The walk is at the end of the list. -/
theorem At.end_eq (h : s.At l none l₁ l₂) : l₂ = [] ∧ l = l₁ := by
  obtain ⟨rfl, hseg⟩ := h
  cases l₂ with
  | nil => exact ⟨rfl, List.append_nil l₁⟩
  | cons a l₃ => cases (Segment.cons_iff.mp hseg).1

omit [DecidableEq κ] in
/-- The timer behind the walk, and the one that it is at. -/
theorem At.mem (h : s.At l (some t) l₁ l₂) : t ∈ l := by
  obtain ⟨l₃, rfl, hl, _⟩ := h.next
  rw [hl]
  simp

/-- A step that changes neither the list nor the timers. -/
theorem Linked.keep (h : s.Linked l) (hnext : s'.next = s.next)
    (hlist : s'.timerlist = s.timerlist) (hp : s'.p = s.p) (hevents : s'.events = s.events)
    (hmoving : ∀ t, s'.pc.moving ≠ some t → s.pc.moving = some t → t ∈ l)
    (hplace : s'.Place l s'.pc) : s'.Linked l where
  chain := by
    rw [hnext, hlist]
    exact h.chain
  armed_of_mem := by
    rw [hevents]
    exact h.armed_of_mem
  mem_of_armed t ht := by
    rw [hevents]
    intro harmed
    by_cases hmov : s.pc.moving = some t
    · exact hmoving t ht hmov
    · exact h.mem_of_armed t hmov harmed
  owner := by
    rw [hp, hevents]
    exact h.owner
  place := hplace

/-- A step along the list: the same timer is on the move as before, or none was. -/
theorem Linked.move (h : s.Linked l) (hnext : s'.next = s.next)
    (hlist : s'.timerlist = s.timerlist) (hp : s'.p = s.p) (hevents : s'.events = s.events)
    (hmoving : s.pc.moving = none ∨ s'.pc.moving = s.pc.moving)
    (hplace : s'.Place l s'.pc) : s'.Linked l := by
  refine h.keep hnext hlist hp hevents (fun t hne ht => ?_) hplace
  rcases hmoving with hnone | hsame
  · rw [hnone] at ht
    cases ht
  · rw [hsame] at hne
    exact absurd ht hne

/-- What the running function knows, at the place where it is. -/
theorem Linked.place_of (h : s.Linked l) {pc : EtimerPc κ π} (hpc : s.pc = pc) : s.Place l pc := by
  rw [← hpc]
  exact h.place

/-! ### A timer is taken off -/

/-- The list without the timer that a walk is at, when the one behind it gets its link. -/
theorem At.remove (hchain : Segment s.next s.timerlist l none) (h : s.At l (some t) l₁ l₂)
    (hu : u = l₁.getLast?) :
    ∃ l', (∀ x, x ∈ l' ↔ x ∈ l ∧ x ≠ t) ∧ l'.length + 1 = l.length ∧
      match u with
      | some u => Segment (Function.update s.next u (s.next t)) s.timerlist l' none
      | none => Segment s.next (s.next t) l' none := by
  obtain ⟨l₃, rfl, hl, _⟩ := h.next
  have hnodup := hchain.nodup
  have hl' : l = l₁ ++ t :: l₃ := by simpa using hl
  rw [hl'] at hnodup hchain
  have ht₁ : t ∉ l₁ := fun hmem => (List.nodup_append.mp hnodup).2.2 t hmem t (by simp) rfl
  have ht₃ : t ∉ l₃ := (List.nodup_cons.mp (List.nodup_append.mp hnodup).2.1).1
  refine ⟨l₁ ++ l₃, fun x => ?_, ?_, ?_⟩
  · rw [hl']
    have : x ∈ l₁ ∨ x ∈ l₃ → x ≠ t := by
      rintro (hx | hx) rfl
      · exact ht₁ hx
      · exact ht₃ hx
    simp only [List.mem_append, List.mem_cons]
    tauto
  · rw [hl']
    simp only [List.length_append, List.length_cons]
    omega
  · -- The head goes with the list pointer, any other timer with the link of the one behind it.
    rcases List.eq_nil_or_concat l₁ with rfl | ⟨front, b, rfl⟩
    · rw [hu]
      exact (Segment.cons_iff.mp hchain).1 ▸ (Segment.cons_iff.mp hchain).2
    · rw [List.concat_eq_append] at hchain hnodup hu ⊢
      rw [hu, List.getLast?_concat]
      simp only [List.append_assoc, List.singleton_append] at hchain hnodup ⊢
      exact hchain.bypass hnodup

/-- A step that takes the timer `t` off the list. -/
theorem Linked.remove (h : s.Linked l) {l' : List κ} (hl' : ∀ x, x ∈ l' ↔ x ∈ l ∧ x ≠ t)
    (hpc : s.pc.moving = none) (hchain : Segment s'.next s'.timerlist l' none)
    (hp : ∀ x, x ≠ t → s'.p x = s.p x)
    (harmed : ∀ x, x ≠ t → armed x s'.events = armed x s.events)
    (howner : ∀ x, x ≠ t → Etimers.owner x s'.events = Etimers.owner x s.events)
    (hmoving : s'.pc.moving ≠ some t → armed t s'.events = false)
    (hplace : s'.Place l' s'.pc) : s'.Linked l' where
  chain := hchain
  armed_of_mem x hx := by
    obtain ⟨hxl, hxt⟩ := (hl' x).mp hx
    rw [harmed x hxt]
    exact h.armed_of_mem x hxl
  mem_of_armed x hx hax := by
    have hxt : x ≠ t := by
      rintro rfl
      rw [hmoving hx] at hax
      cases hax
    rw [harmed x hxt] at hax
    exact (hl' x).mpr ⟨h.mem_of_armed x (by rw [hpc]; simp) hax, hxt⟩
  owner x hx := by
    obtain ⟨hxl, hxt⟩ := (hl' x).mp hx
    rw [hp x hxt, howner x hxt]
    exact h.owner x hxl
  place := hplace

/-- A timer is dropped with its process. -/
theorem Linked.dropped (h : s.Linked l) {l' : List κ} (hl' : ∀ x, x ∈ l' ↔ x ∈ l ∧ x ≠ t)
    (hpc : s.pc.moving = none) (hchain : Segment s'.next s'.timerlist l' none)
    (hp : s'.p = s.p) (hevents : s'.events = .drop t :: s.events)
    (hplace : s'.Place l' s'.pc) : s'.Linked l' := by
  refine h.remove hl' hpc hchain (fun _ _ => by rw [hp]) ?_ ?_ ?_ hplace
  · intro x hx
    rw [hevents, armed, bne_iff_ne.mpr (Ne.symm hx), Bool.true_and]
  · intro x _
    rw [hevents]
    rfl
  · intro _
    rw [hevents, armed, bne_self_eq_false, Bool.false_and]

/-! ### The steps -/

/-- What the running function knows is about the links, the caller and the events. As time goes
on, what was due stays due. -/
theorem Place.later {pc : EtimerPc κ π} (h : s.Place l pc) (hnext : s'.next = s.next)
    (hcurrent : s'.processCurrent = s.processCurrent) (hevents : s'.events = s.events)
    (htime : s.time ≤ s'.time) : s'.Place l pc := by
  have hat : ∀ {t l₁ l₂}, s.At l t l₁ l₂ → s'.At l t l₁ l₂ := by
    intro t l₁ l₂ hat
    rwa [At, hnext]
  have hadd : ∀ {et}, s.Adding l et → s'.Adding l et := by
    rintro et ⟨hc, ha, ho⟩
    exact ⟨by rwa [hcurrent], by rwa [hevents], by rwa [hevents, hcurrent]⟩
  cases pc with
  | idle | exitedHead => trivial
  | addTimer et => exact hadd h
  | addWalk et t =>
      obtain ⟨ha, l₁, l₂, hwalk, het⟩ := h
      exact ⟨hadd ha, l₁, l₂, hat hwalk, het⟩
  | link et => exact ⟨hadd h.1, h.2⟩
  | updateTime ret => exact h
  | updateWalk now tdist t ret =>
      obtain ⟨hret, l₁, l₂, hwalk, hne⟩ := h
      exact ⟨hret, l₁, l₂, hat hwalk, hne⟩
  | stopWalk et t =>
      obtain ⟨l₁, l₂, hwalk, het⟩ := h
      exact ⟨l₁, l₂, hat hwalk, het⟩
  | stopEnd et => exact h
  | scan t u =>
      obtain ⟨l₁, l₂, hwalk, hu⟩ := h
      exact ⟨l₁, l₂, hat hwalk, hu⟩
  | expired t u =>
      obtain ⟨hdue, l₁, l₂, hwalk, hu⟩ := h
      -- The only place that speaks of the time, and it only says that a time has passed.
      refine ⟨fun start interval hset => ?_, l₁, l₂, hat hwalk, hu⟩
      rw [hevents] at hset
      exact Nat.le_trans (hdue start interval hset) htime
  | exitedWalk p t => exact h

/-- The interrupt changes the time and the poll. -/
theorem Linked.tick (h : s.Linked l) (late : Fin 256) : (s.timera1 late).Linked l := by
  have htime : s.time ≤ s.time + late + 1 := by omega
  rw [timera1]
  split <;> exact h.move rfl rfl rfl rfl (.inr rfl) (Place.later h.place rfl rfl rfl htime)

/-- A call of `etimer_set`, `etimer_reset` or `etimer_restart` is about to add the timer. -/
theorem Linked.add (h : s.Linked l) (et : κ) {caller : Option π} (hcaller : caller ≠ none)
    (hpc : s.pc = .idle) (hnext : s'.next = s.next) (hlist : s'.timerlist = s.timerlist)
    (hp : s'.p = s.p) (hcurrent : s'.processCurrent = caller) (hpc' : s'.pc = .addTimer et)
    (harmed : ∀ x, armed x s'.events = (et == x || armed x s.events))
    (howner : ∀ x, Etimers.owner x s'.events =
      if et = x ∧ armed x s.events = false then caller else Etimers.owner x s.events) :
    s'.Linked l where
  chain := by
    rw [hnext, hlist]
    exact h.chain
  armed_of_mem x hx := by
    rw [harmed, h.armed_of_mem x hx, Bool.or_true]
  mem_of_armed x hx hax := by
    rw [hpc'] at hx
    have hne : et ≠ x := fun hc => hx (congrArg some hc)
    rw [harmed, beq_false_of_ne hne, Bool.false_or] at hax
    exact h.mem_of_armed x (by rw [hpc]; simp [EtimerPc.moving]) hax
  owner x hx := by
    rw [hp, howner, if_neg (by rw [h.armed_of_mem x hx]; simp)]
    exact h.owner x hx
  place := by
    rw [hpc']
    refine ⟨hcurrent ▸ hcaller, by rw [harmed]; simp, fun hmem => ?_⟩
    have hold : armed et s.events = false := by
      cases ha : armed et s.events with
      | false => rfl
      | true => exact absurd (h.mem_of_armed et (by rw [hpc]; simp [EtimerPc.moving]) ha) hmem
    rw [howner, if_pos ⟨rfl, hold⟩, hcurrent]

/-- The calls. -/
theorem Linked.call (h : s.Linked l) (hpc : s.pc = .idle) {caller : Option π}
    (hcaller : caller ≠ none) (c : EtimerCall κ) : ∃ l', (s.call caller c).Linked l' := by
  have hmov : s.pc.moving = none := by rw [hpc]; rfl
  cases c with
  | set et interval =>
      exact ⟨l, h.add et hcaller hpc rfl rfl rfl rfl rfl (fun _ => rfl) (fun _ => rfl)⟩
  | reset et =>
      exact ⟨l, h.add et hcaller hpc rfl rfl rfl rfl rfl (fun _ => rfl) (fun _ => rfl)⟩
  | restart et =>
      exact ⟨l, h.add et hcaller hpc rfl rfl rfl rfl rfl (fun _ => rfl) (fun _ => rfl)⟩
  | adjust et timediff =>
      -- `etimer_adjust` leaves the list alone.
      refine ⟨l, h.chain, h.armed_of_mem, fun x _ => h.mem_of_armed x (by rw [hmov]; simp),
        h.owner, ?_⟩
      intro et' hret
      cases hret
  | stop et =>
      rw [Etimers.call]
      split
      · -- The head is taken off at once, for the others the walk starts.
        rename_i hhead
        have hwalk : s.At l (some et) [] l := hhead ▸ at_head h.chain
        obtain ⟨l', hl', _, hseg⟩ := hwalk.remove h.chain rfl
        refine ⟨l', h.remove hl' hmov hseg (fun _ _ => rfl) (fun _ _ => rfl) (fun _ _ => rfl)
          (fun hne => absurd rfl hne) ?_⟩
        intro et' hret
        cases hret
        exact fun hmem => ((hl' et).mp hmem).2 rfl
      · rename_i hhead
        refine ⟨l, h.move rfl rfl rfl rfl (.inl hmov) ?_⟩
        refine ⟨[], l, at_head h.chain, by simp, fun hc => hhead ?_⟩
        cases l with
        | nil => cases hc
        | cons a l =>
            rw [(Segment.cons_iff.mp h.chain).1]
            exact hc

/-- The place to which `update_time` returns. -/
theorem Linked.returnTo (h : s.Linked l) {ret : EtimerReturn κ}
    (hret : ∀ et, ret = .stop et → et ∉ l) (hpc : s.pc = .updateTime ret ∨
      ∃ now tdist t, s.pc = .updateWalk now tdist t ret) {n : UInt16} :
    ({ s with nextExpiration := n, pc := s.returnTo ret } : Etimers κ π).Linked l := by
  refine h.keep rfl rfl rfl rfl ?_ ?_
  · intro t hne hmov
    cases ret with
    | stop et => rcases hpc with hpc | ⟨_, _, _, hpc⟩ <;> rw [hpc] at hmov <;> exact absurd hmov hne
    | _ => rcases hpc with hpc | ⟨_, _, _, hpc⟩ <;> rw [hpc] at hmov <;> cases hmov
  · cases ret with
    | caller => trivial
    | stop et => exact hret et rfl
    | again => exact ⟨[], l, at_head h.chain, rfl⟩

/-- A timer is linked in front of the list. -/
theorem Linked.link (h : s.Linked l) {timer : κ} (hpc : s.pc = .link timer)
    (hadd : s.Adding l timer) (hmem : timer ∉ l) (hnext : s'.next =
      Function.update s.next timer s.timerlist) (hlist : s'.timerlist = some timer)
    (hp : s'.p = Function.update s.p timer s.processCurrent) (hevents : s'.events = s.events)
    (hpc' : s'.pc = .updateTime .caller) : s'.Linked (timer :: l) where
  chain := by
    rw [hnext, hlist]
    exact h.chain.push hmem
  armed_of_mem x hx := by
    rw [hevents]
    rcases List.mem_cons.mp hx with rfl | hx
    · exact hadd.armed
    · exact h.armed_of_mem x hx
  mem_of_armed x _ hax := by
    rw [hevents] at hax
    -- The timer was the one on its way, so every other armed one is on the list.
    by_cases hxt : x = timer
    · exact List.mem_cons.mpr (.inl hxt)
    · refine List.mem_cons_of_mem _ (h.mem_of_armed x ?_ hax)
      rw [hpc]
      exact fun hc => hxt (Option.some.inj hc).symm
  owner x hx := by
    rw [hp, hevents]
    by_cases hxt : x = timer
    · subst hxt
      rw [Function.update_self]
      exact ⟨hadd.caller, (hadd.owner hmem).symm⟩
    · rw [Function.update_of_ne hxt]
      exact h.owner x (List.mem_of_ne_of_mem hxt hx)
  place := by
    rw [hpc']
    intro et hret
    cases hret

/-- `etimer_process` takes a timer off the list, whose event was posted. -/
theorem Linked.posted (h : s.Linked l) {t : κ} (hpc : s.pc = .expired t u)
    (hwalk : s.At l (some t) l₁ l₂) (hu : u = l₁.getLast?) {p : Option π} {time : Nat}
    (hnext : s'.next = Function.update
      (match u with
        | some u => Function.update s.next u (s.next t)
        | none => s.next) t none)
    (hlist : s'.timerlist = if u = none then s.next t else s.timerlist)
    (hp : s'.p = Function.update s.p t none) (hevents : s'.events = .post p t time :: s.events)
    (hpc' : s'.pc = .updateTime .again) :
    ∃ l', s'.Linked l' ∧ l'.length + 1 = l.length := by
  obtain ⟨l', hl', hlen, hseg⟩ := hwalk.remove h.chain hu
  have ht : t ∉ l' := fun hmem => ((hl' t).mp hmem).2 rfl
  refine ⟨l', h.remove hl' (by rw [hpc]; rfl) ?_ ?_ ?_ ?_ ?_ ?_, hlen⟩
  · rw [hnext, hlist]
    cases u with
    | none => exact hseg.update ht
    | some u => exact hseg.update ht
  · intro x hx
    rw [hp, Function.update_of_ne hx]
  · intro x hx
    rw [hevents, armed, bne_iff_ne.mpr (Ne.symm hx), Bool.true_and]
  · intro x _
    rw [hevents]
    rfl
  · intro _
    rw [hevents, armed, bne_self_eq_false, Bool.false_and]
  · rw [hpc']
    intro et hret
    cases hret

/-! ### The time of the last start -/

/-- After a `set` the timer has its interval, and no more time has passed by its `start` than since
the call. -/
def TimedAt (s : Etimers κ π) (t : κ) : Prop :=
  ∀ start interval, lastSet t s.events = some (start, interval) →
    s.interval t = interval ∧ start + (s.clockTime - s.start t).toNat ≤ s.time

/-- So it is with every timer. -/
def Timed (s : Etimers κ π) : Prop := ∀ t, s.TimedAt t

/-- A timer that has expired is due. -/
theorem Timed.due (h : s.Timed) (hexp : s.timerExpired t) : s.Due t := by
  intro start interval hset
  obtain ⟨hint, hle⟩ := h t start interval hset
  have hexp' := UInt16.le_iff_toNat_le.mp hexp
  rw [hint] at hexp'
  omega

/-- The clock `n` ticks later. -/
theorem toNat_ofNat_add_sub_le (time n : Nat) (start : UInt16) :
    (UInt16.ofNat (time + n) - start).toNat ≤ (UInt16.ofNat time - start).toNat + n := by
  have hstart := start.toNat_lt
  simp only [UInt16.toNat_sub, UInt16.toNat_ofNat']
  omega

/-- The timer was not started again. -/
theorem TimedAt.keep (h : s.TimedAt t) (hstart : s'.start t = s.start t)
    (hinterval : s'.interval t = s.interval t) (htime : ∃ n, s'.time = s.time + n)
    (hevents : lastSet t s'.events = lastSet t s.events) : s'.TimedAt t := by
  intro start interval hset
  obtain ⟨n, htime⟩ := htime
  rw [hevents] at hset
  obtain ⟨hint, hle⟩ := h start interval hset
  rw [hinterval, hstart, htime, clockTime, htime]
  refine ⟨hint, ?_⟩
  have hadd := toNat_ofNat_add_sub_le s.time n (s.start t)
  rw [clockTime] at hle
  omega

/-- No timer was started. -/
theorem Timed.keep (h : s.Timed) (hstart : s'.start = s.start)
    (hinterval : s'.interval = s.interval) (htime : ∃ n, s'.time = s.time + n)
    (hevents : ∀ t, lastSet t s'.events = lastSet t s.events) : s'.Timed :=
  fun t => (h t).keep (by rw [hstart]) (by rw [hinterval]) htime (hevents t)

/-- Of the interrupt's ticks no timer's interval loses any. -/
theorem Timed.tick (h : s.Timed) (late : Fin 256) : (s.timera1 late).Timed := by
  rw [timera1]
  dsimp only
  split
  · exact h.keep rfl rfl ⟨late + 1, by simp [Nat.add_assoc]⟩ fun _ => rfl
  · exact h.keep rfl rfl ⟨late + 1, by simp [Nat.add_assoc]⟩ fun _ => rfl

/-- A timer that is started now. -/
theorem TimedAt.now (hstart : s.start t = s.clockTime) (hset : lastSet t s.events =
    some (s.time, s.interval t)) : s.TimedAt t := by
  intro start interval hset'
  rw [hset] at hset'
  cases hset'
  refine ⟨rfl, ?_⟩
  rw [hstart, UInt16.sub_self]
  exact Nat.le_refl _

/-- A call starts one timer, or takes its last start away. -/
theorem Timed.call (h : s.Timed) (caller : Option π) (c : EtimerCall κ) :
    (s.call caller c).Timed := by
  intro t
  -- One timer is started, the other ones stay as they are.
  have hother : ∀ et (v : UInt16), et ≠ t → Function.update s.start et v t = s.start t :=
    fun et v ht => Function.update_of_ne (Ne.symm ht) _ _
  cases c with
  | stop et =>
      rw [Etimers.call]
      split <;> exact (h t).keep rfl rfl ⟨0, rfl⟩ rfl
  | set et i =>
      by_cases ht : et = t
      · subst ht
        refine TimedAt.now (Function.update_self ..) ?_
        simp [Etimers.call, lastSet]
      · exact (h t).keep (hother et _ ht) (Function.update_of_ne (Ne.symm ht) _ _) ⟨0, rfl⟩
          (if_neg ht)
  | restart et =>
      by_cases ht : et = t
      · subst ht
        refine TimedAt.now (Function.update_self ..) ?_
        simp [Etimers.call, lastSet]
      · exact (h t).keep (hother et _ ht) rfl ⟨0, rfl⟩ (if_neg ht)
  | reset et | adjust et =>
      by_cases ht : et = t
      · intro start interval hset
        rw [Etimers.call, lastSet, if_pos ht] at hset
        cases hset
      · exact (h t).keep (hother et _ ht) rfl ⟨0, rfl⟩ (if_neg ht)

/-! ### The steps of the functions -/

variable [DecidableEq π] {posted : Bool}

/-- `add_timer` tests `timer->p`. A timer without a process is not on the list. -/
theorem Linked.code_addTimer (h : s.Linked l) {timer : κ} (hpc : s.pc = .addTimer timer)
    (hstep : s.code posted = some s') : ∃ l', s'.Linked l' := by
  have hadd : s.Adding l timer := h.place_of hpc
  rw [Etimers.code, hpc] at hstep
  cases hstep
  refine ⟨l, h.move rfl rfl rfl rfl (.inr ?_) ?_⟩
  · rw [hpc]
    dsimp only
    split <;> rfl
  · dsimp only
    split
    · exact ⟨⟨hadd.caller, hadd.armed, hadd.owner⟩, [], l, at_head h.chain, by simp⟩
    · rename_i hp
      exact ⟨⟨hadd.caller, hadd.armed, hadd.owner⟩, fun hmem => hp (h.owner timer hmem).1⟩

/-- The loop of `add_timer` looks for the timer. It is not among those behind the walk. -/
theorem Linked.code_addWalk (h : s.Linked l) {timer : κ} {t : Option κ}
    (hpc : s.pc = .addWalk timer t) (hstep : s.code posted = some s') : ∃ l', s'.Linked l' := by
  obtain ⟨hadd, l₁, l₂, hwalk, hfront⟩ := h.place_of hpc
  rw [Etimers.code, hpc] at hstep
  cases t with
  | none =>
      cases hstep
      -- The walk has seen the whole list.
      refine ⟨l, h.move rfl rfl rfl rfl (.inr (by rw [hpc]; rfl))
        ⟨⟨hadd.caller, hadd.armed, hadd.owner⟩, ?_⟩⟩
      rwa [hwalk.end_eq.2]
  | some t =>
      cases hstep
      by_cases ht : t = timer
      · -- The timer is found, so it is on the list already.
        subst ht
        refine ⟨l, h.keep rfl rfl rfl rfl (fun x _ hx => ?_) ?_⟩
        · rw [hpc] at hx
          cases hx
          exact hwalk.mem
        · dsimp only
          rw [if_pos rfl]
          intro et hret
          cases hret
      · -- The walk goes past a timer that is not the one sought.
        obtain ⟨l₃, rfl, hwalk'⟩ := hwalk.next
        refine ⟨l, h.move rfl rfl rfl rfl (.inr ?_) ?_⟩
        · rw [hpc]
          dsimp only
          rw [if_neg ht]
          rfl
        · dsimp only
          rw [if_neg ht]
          refine ⟨⟨hadd.caller, hadd.armed, hadd.owner⟩, _, l₃, hwalk', fun hmem => ?_⟩
          rcases List.mem_append.mp hmem with hmem | hmem
          · exact hfront hmem
          · exact ht (List.mem_singleton.mp hmem).symm

/-- `update_time` starts at the head of the list, or returns when it is empty. -/
theorem Linked.code_updateTime (h : s.Linked l) {ret : EtimerReturn κ}
    (hpc : s.pc = .updateTime ret) (hstep : s.code posted = some s') : ∃ l', s'.Linked l' := by
  have hret : ∀ et, ret = .stop et → et ∉ l := h.place_of hpc
  rw [Etimers.code, hpc] at hstep
  dsimp only at hstep
  split at hstep
  · cases hstep
    exact ⟨l, h.returnTo hret (.inl hpc)⟩
  · rename_i t hhead
    cases hstep
    have hwalk : s.At l (some t) [] l := hhead ▸ at_head h.chain
    obtain ⟨l₃, rfl, hwalk'⟩ := hwalk.next
    exact ⟨_, h.move rfl rfl rfl rfl (.inr (by rw [hpc]; rfl)) ⟨hret, [t], l₃, hwalk', by simp⟩⟩

/-- The loop of `update_time` only reads the list. -/
theorem Linked.code_updateWalk (h : s.Linked l) {now tdist : UInt16} {t : Option κ}
    {ret : EtimerReturn κ} (hpc : s.pc = .updateWalk now tdist t ret)
    (hstep : s.code posted = some s') : ∃ l', s'.Linked l' := by
  obtain ⟨hret, l₁, l₂, hwalk, _⟩ := h.place_of hpc
  rw [Etimers.code, hpc] at hstep
  cases t with
  | none =>
      cases hstep
      exact ⟨l, h.returnTo hret (.inr ⟨now, tdist, none, hpc⟩)⟩
  | some t =>
      cases hstep
      obtain ⟨l₃, rfl, hwalk'⟩ := hwalk.next
      exact ⟨l, h.move rfl rfl rfl rfl (.inr (by rw [hpc]; rfl)) ⟨hret, _, l₃, hwalk', by simp⟩⟩

/-- The loop of `etimer_stop` looks for the timer behind which the timer `et` is, and takes `et`
off the list. -/
theorem Linked.code_stopWalk (h : s.Linked l) {et : κ} {t : Option κ}
    (hpc : s.pc = .stopWalk et t) (hstep : s.code posted = some s') : ∃ l', s'.Linked l' := by
  obtain ⟨l₁, l₂, hwalk, hfront, hhead⟩ := h.place_of hpc
  have hmov : s.pc.moving = none := by rw [hpc]; rfl
  rw [Etimers.code, hpc] at hstep
  cases t with
  | none =>
      cases hstep
      exact ⟨l, h.move rfl rfl rfl rfl (.inl hmov) (hwalk.end_eq.2 ▸ hfront)⟩
  | some t =>
      obtain ⟨l₃, rfl, hwalk'⟩ := hwalk.next
      have het : et ∉ l₁ ++ [t] := by
        intro hmem
        rcases List.mem_append.mp hmem with hmem | hmem
        · exact hfront hmem
        · exact hhead (congrArg some (List.mem_singleton.mp hmem).symm)
      dsimp only at hstep
      split at hstep
      · rename_i hnext
        cases hstep
        -- The timer behind `t` is the one to be stopped.
        obtain ⟨l', hl', _, hseg⟩ := (hnext ▸ hwalk').remove h.chain rfl
        rw [List.getLast?_concat] at hseg
        refine ⟨l', h.remove hl' hmov hseg (fun _ _ => rfl) (fun _ _ => rfl) (fun _ _ => rfl)
          (fun hne => absurd rfl hne) ?_⟩
        intro et' hret
        cases hret
        exact fun hmem => ((hl' et).mp hmem).2 rfl
      · rename_i hnext
        cases hstep
        refine ⟨l, h.move rfl rfl rfl rfl (.inl hmov) ⟨_, l₃, hwalk', het, fun hc => hnext ?_⟩⟩
        cases l₃ with
        | nil => cases hc
        | cons a l₃ =>
            rw [(Segment.cons_iff.mp hwalk'.2).1]
            exact hc

/-- The end of `etimer_stop`: the timer is off the list, and now its record says so, too. -/
theorem Linked.code_stopEnd (h : s.Linked l) {et : κ} (hpc : s.pc = .stopEnd et)
    (hstep : s.code posted = some s') : ∃ l', s'.Linked l' := by
  have het : et ∉ l := h.place_of hpc
  rw [Etimers.code, hpc] at hstep
  cases hstep
  have hne : ∀ x ∈ l, x ≠ et := by
    rintro x hx rfl
    exact het hx
  refine ⟨l, h.chain.update het, fun x hx => ?_, fun x _ hax => ?_, fun x hx => ?_, trivial⟩
  · rw [armed, bne_iff_ne.mpr (hne x hx).symm, Bool.true_and]
    exact h.armed_of_mem x hx
  · rw [armed, Bool.and_eq_true, bne_iff_ne] at hax
    refine h.mem_of_armed x ?_ hax.2
    rw [hpc]
    exact fun hc => hax.1 (Option.some.inj hc)
  · show Function.update s.p et none x ≠ none ∧ Function.update s.p et none x = _
    rw [Function.update_of_ne (hne x hx)]
    exact h.owner x hx

/-- The loop of `etimer_process` stops at a timer that has expired. Its interval has passed. -/
theorem Linked.code_scan (h : s.Linked l) (htimed : s.Timed) {t u : Option κ}
    (hpc : s.pc = .scan t u) (hstep : s.code posted = some s') : ∃ l', s'.Linked l' := by
  obtain ⟨l₁, l₂, hwalk, hu⟩ := h.place_of hpc
  have hmov : s.pc.moving = none := by rw [hpc]; rfl
  rw [Etimers.code, hpc] at hstep
  cases t with
  | none =>
      cases hstep
      exact ⟨l, h.move rfl rfl rfl rfl (.inl hmov) trivial⟩
  | some t =>
      cases hstep
      refine ⟨l, h.move rfl rfl rfl rfl (.inl hmov) ?_⟩
      dsimp only
      split
      · rename_i hexp
        exact ⟨htimed.due hexp, l₁, l₂, hwalk, hu⟩
      · obtain ⟨l₃, rfl, hwalk'⟩ := hwalk.next
        exact ⟨_, l₃, hwalk', by simp⟩

/-- `process_post` takes the event, and the timer leaves the list, which gets shorter. -/
theorem Linked.code_posted (h : s.Linked l) {t : κ} {u : Option κ} (hpc : s.pc = .expired t u)
    (hstep : s.code true = some s') : ∃ l', s'.Linked l' ∧ l'.length + 1 = l.length := by
  obtain ⟨_, l₁, l₂, hwalk, hu⟩ := h.place_of hpc
  rw [Etimers.code, hpc] at hstep
  cases u with
  | none =>
      cases hstep
      exact h.posted hpc hwalk hu rfl rfl rfl rfl rfl
  | some u =>
      cases hstep
      exact h.posted hpc hwalk hu rfl rfl rfl rfl rfl

/-- The event queue is full, and the loop of `etimer_process` goes on. -/
theorem Linked.code_notPosted (h : s.Linked l) {t : κ} {u : Option κ} (hpc : s.pc = .expired t u)
    (hstep : s.code false = some s') : s'.Linked l := by
  obtain ⟨_, l₁, l₂, hwalk, _⟩ := h.place_of hpc
  obtain ⟨l₃, rfl, hwalk'⟩ := hwalk.next
  rw [Etimers.code, hpc] at hstep
  cases hstep
  exact h.move rfl rfl rfl rfl (.inl (by rw [hpc]; rfl)) ⟨_, l₃, hwalk', by simp⟩

/-- For a process that has exited, `etimer_process` drops the head of the list when it is a timer
of that process. -/
theorem Linked.code_exitedHead (h : s.Linked l) {p : π} (hpc : s.pc = .exitedHead p)
    (hstep : s.code posted = some s') : ∃ l', s'.Linked l' := by
  have hmov : s.pc.moving = none := by rw [hpc]; rfl
  rw [Etimers.code, hpc] at hstep
  dsimp only at hstep
  split at hstep
  · cases hstep
    exact ⟨l, h.move rfl rfl rfl rfl (.inl hmov) trivial⟩
  · rename_i t hhead
    have hwalk : s.At l (some t) [] l := hhead ▸ at_head h.chain
    split at hstep
    · cases hstep
      obtain ⟨l', hl', _, hseg⟩ := hwalk.remove h.chain rfl
      exact ⟨l', h.dropped hl' hmov hseg rfl rfl trivial⟩
    · cases hstep
      exact ⟨l, h.move rfl rfl rfl rfl (.inl hmov) hwalk.mem⟩

/-- Behind the head it drops the timer `n` behind `t`, and stays at `t`. -/
theorem Linked.code_exitedWalk (h : s.Linked l) {p : π} {t : κ} (hpc : s.pc = .exitedWalk p t)
    (hstep : s.code posted = some s') : ∃ l', s'.Linked l' := by
  have htl : t ∈ l := h.place_of hpc
  have hmov : s.pc.moving = none := by rw [hpc]; rfl
  rw [Etimers.code, hpc] at hstep
  dsimp only at hstep
  split at hstep
  · cases hstep
    exact ⟨l, h.move rfl rfl rfl rfl (.inl hmov) trivial⟩
  · rename_i n hnext
    obtain ⟨l₁, l₂, hl, _, hrest⟩ := h.chain.split htl
    have hwalk : s.At l (some n) (l₁ ++ [t]) l₂ := ⟨by simpa using hl, hnext ▸ hrest⟩
    split at hstep
    · cases hstep
      obtain ⟨l', hl', _, hseg⟩ := hwalk.remove h.chain rfl
      rw [List.getLast?_concat] at hseg
      have htn : t ≠ n := by
        rintro rfl
        have hnodup := h.chain.nodup
        rw [hwalk.1] at hnodup
        obtain ⟨l₃, rfl, _⟩ := hwalk.next
        exact (List.nodup_append.mp hnodup).2.2 t (by simp) t (by simp) rfl
      exact ⟨l', h.dropped hl' hmov hseg rfl rfl ((hl' t).mpr ⟨htl, htn⟩)⟩
    · cases hstep
      exact ⟨l, h.move rfl rfl rfl rfl (.inl hmov) hwalk.mem⟩

/-- The steps of the functions, one lemma for each place. -/
theorem Linked.code (h : s.Linked l) (htimed : s.Timed) (hstep : s.code posted = some s') :
    ∃ l', s'.Linked l' := by
  cases hpc : s.pc with
  | idle =>
      rw [Etimers.code, hpc] at hstep
      cases hstep
  | addTimer timer => exact h.code_addTimer hpc hstep
  | addWalk timer t => exact h.code_addWalk hpc hstep
  | link timer =>
      obtain ⟨hadd, hmem⟩ := h.place_of hpc
      rw [Etimers.code, hpc] at hstep
      cases hstep
      exact ⟨_, h.link hpc hadd hmem rfl rfl rfl rfl rfl⟩
  | updateTime ret => exact h.code_updateTime hpc hstep
  | updateWalk now tdist t ret => exact h.code_updateWalk hpc hstep
  | stopWalk et t => exact h.code_stopWalk hpc hstep
  | stopEnd et => exact h.code_stopEnd hpc hstep
  | scan t u => exact h.code_scan htimed hpc hstep
  | expired t u =>
      cases posted with
      | false => exact ⟨l, h.code_notPosted hpc hstep⟩
      | true =>
          obtain ⟨l', hlinked, _⟩ := h.code_posted hpc hstep
          exact ⟨l', hlinked⟩
  | exitedHead p => exact h.code_exitedHead hpc hstep
  | exitedWalk p t => exact h.code_exitedWalk hpc hstep

end Etimers

end PTunes.Core
