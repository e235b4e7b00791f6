import PTunes.Proofs.Core.EtimerList

/-!
# `PTunes.Proofs.Core.Etimer`: the pending timers, and what is posted

All results are about runs in which every call is made by a process. The clock interrupt and the
calls of `etimer_process` come at any point of them.

* `pending_iff_armed`: `timerlist` is a list that ends, and when no function is running its timers
  are those that were started, and since then neither stopped, nor posted, nor dropped with their
  process.
* `posts_ok`: an event is posted for a timer only if it was started since its last event or stop,
  it goes to the process that started it, and it does not come early: with the last call `set` or
  `restart`, the whole interval has passed since.
-/

set_option autoImplicit false

namespace PTunes.Core

variable {κ π : Type} [DecidableEq κ]

namespace Etimers

variable {s s' : Etimers κ π} {l : List κ} [DecidableEq π]

/-- The functions start no timer after the first step of a call, and record what they do. -/
theorem code_fields {posted : Bool} (hstep : s.code posted = some s') :
    s'.start = s.start ∧ s'.interval = s.interval ∧ s'.time = s.time ∧
      (s'.events = s.events ∨
        (∃ et, s'.events = .stop et :: s.events ∨ s'.events = .drop et :: s.events) ∨
        ∃ t u, s.pc = .expired t u ∧ s'.events = .post (s.p t) t s.time :: s.events) := by
  cases hpc : s.pc with
  | idle =>
      rw [Etimers.code, hpc] at hstep
      cases hstep
  | addTimer | link =>
      rw [Etimers.code, hpc] at hstep
      cases hstep
      exact ⟨rfl, rfl, rfl, .inl rfl⟩
  -- The steps that record something are the end of a stop, the drop and the post.
  | stopEnd et =>
      rw [Etimers.code, hpc] at hstep
      cases hstep
      exact ⟨rfl, rfl, rfl, .inr (.inl ⟨et, .inl rfl⟩)⟩
  | addWalk timer t | updateWalk now tdist t ret | scan t u =>
      rw [Etimers.code, hpc] at hstep
      cases t <;> cases hstep <;> exact ⟨rfl, rfl, rfl, .inl rfl⟩
  | updateTime ret =>
      rw [Etimers.code, hpc] at hstep
      dsimp only at hstep
      split at hstep <;> cases hstep <;> exact ⟨rfl, rfl, rfl, .inl rfl⟩
  | exitedHead p | exitedWalk p t =>
      rw [Etimers.code, hpc] at hstep
      dsimp only at hstep
      split at hstep
      · cases hstep
        exact ⟨rfl, rfl, rfl, .inl rfl⟩
      · split at hstep
        · cases hstep
          exact ⟨rfl, rfl, rfl, .inr (.inl ⟨_, .inr rfl⟩)⟩
        · cases hstep
          exact ⟨rfl, rfl, rfl, .inl rfl⟩
  | stopWalk et t =>
      rw [Etimers.code, hpc] at hstep
      cases t with
      | none =>
          cases hstep
          exact ⟨rfl, rfl, rfl, .inl rfl⟩
      | some t =>
          dsimp only at hstep
          split at hstep <;> cases hstep <;> exact ⟨rfl, rfl, rfl, .inl rfl⟩
  | expired t u =>
      rw [Etimers.code, hpc] at hstep
      cases posted with
      | false =>
          cases hstep
          exact ⟨rfl, rfl, rfl, .inl rfl⟩
      | true =>
          cases u <;> cases hstep <;> exact ⟨rfl, rfl, rfl, .inr (.inr ⟨t, _, rfl, rfl⟩)⟩

/-- The steps of the functions keep the times. -/
theorem Timed.code (h : s.Timed) {posted : Bool} (hstep : s.code posted = some s') :
    s'.Timed := by
  obtain ⟨hstart, hinterval, htime, hevents⟩ := code_fields hstep
  refine h.keep hstart hinterval ⟨0, htime⟩ fun t => ?_
  rcases hevents with hev | ⟨et, hev | hev⟩ | ⟨t', u, _, hev⟩ <;> rw [hev] <;> rfl

/-- A step posts an event only for a timer that is due. -/
theorem PostsOk.code (h : PostsOk s.events) (hl : s.Linked l) {posted : Bool}
    (hstep : s.code posted = some s') : PostsOk s'.events := by
  obtain ⟨_, _, _, hevents⟩ := code_fields hstep
  rcases hevents with hev | ⟨et, hev | hev⟩ | ⟨t, u, hpc, hev⟩
  · rwa [hev]
  · rwa [hev]
  · rwa [hev]
  · have hplace := hl.place
    rw [hpc] at hplace
    obtain ⟨hdue, l₁, l₂, hwalk, _⟩ := hplace
    rw [hev]
    exact ⟨⟨hl.armed_of_mem t hwalk.mem, (hl.owner t hwalk.mem).1, (hl.owner t hwalk.mem).2,
      hdue⟩, h⟩

/-! ### Every run -/

/-- What holds in every run whose calls are made by processes. -/
structure Inv (s : Etimers κ π) : Prop where
  linked : ∃ l, s.Linked l
  timed : s.Timed
  posts : PostsOk s.events

omit [DecidableEq π] in
/-- At the start no timer is on the list, and nothing was recorded. -/
theorem Inv.init : (Etimers.init : Etimers κ π).Inv where
  linked := by
    refine ⟨[], .nil none, ?_, ?_, ?_, trivial⟩
    · intro t ht
      cases ht
    · intro t _ ht
      cases ht
    · intro t ht
      cases ht
  timed := by
    intro t start interval hset
    cases hset
  posts := trivial

/-- Every step keeps the invariant: the list is handled by `Linked.call`, `Linked.code` and
`Linked.tick`, the record of the last start by `Timed`, and a posted event is checked when it is
recorded. -/
theorem Inv.step (h : s.Inv) {a : EtimerLabel κ π} (ha : CalledByProcess s a)
    (hstep : s.step a = some s') : s'.Inv := by
  obtain ⟨⟨l, hl⟩, htimed, hposts⟩ := h
  cases a with
  | call caller c =>
      rw [Etimers.step] at hstep
      split at hstep
      · rename_i hpc
        cases hstep
        refine ⟨hl.call hpc ha c, htimed.call caller c, ?_⟩
        cases c with
        | stop et =>
            rw [Etimers.call]
            split <;> exact hposts
        | _ => exact hposts
      · cases hstep
  | code posted => exact ⟨hl.code htimed hstep, htimed.code hstep, hposts.code hl hstep⟩
  | poll =>
      rw [Etimers.step] at hstep
      split at hstep
      · rename_i hpoll
        cases hstep
        -- The scan starts at the head, between two functions no timer is on its way.
        have hmov : s.pc.moving = none := by rw [hpoll.1]; rfl
        refine ⟨⟨l, hl.keep rfl rfl rfl rfl (fun x _ hx => ?_) ⟨[], l, at_head hl.chain, rfl⟩⟩,
          htimed.keep rfl rfl ⟨0, rfl⟩ fun _ => rfl, hposts⟩
        rw [hmov] at hx
        cases hx
      · cases hstep
  | exited p =>
      rw [Etimers.step] at hstep
      split at hstep
      · rename_i hpc
        cases hstep
        have hmov : s.pc.moving = none := by rw [hpc]; rfl
        refine ⟨⟨l, hl.keep rfl rfl rfl rfl (fun x _ hx => ?_) trivial⟩,
          htimed.keep rfl rfl ⟨0, rfl⟩ fun _ => rfl, hposts⟩
        rw [hmov] at hx
        cases hx
      · cases hstep
  | tick late =>
      cases hstep
      refine ⟨⟨l, hl.tick late⟩, htimed.tick late, ?_⟩
      rw [timera1]
      dsimp only
      split <;> exact hposts

end Etimers

variable [DecidableEq π]

/-- The invariant of every run whose calls are made by processes. -/
theorem etimers_inv {s : Etimers κ π} (h : (etimers κ π).ReachableIf CalledByProcess s) : s.Inv :=
  h.invariant Etimers.Inv .init fun _ _ _ hs ha hstep => hs.step ha hstep

/-- **The list of pending timers.** It ends, and when no function is running, its timers are the
armed ones. -/
theorem pending_iff_armed {s : Etimers κ π}
    (h : (etimers κ π).ReachableIf CalledByProcess s) :
    ∃ l, Segment s.next s.timerlist l none ∧ (∀ t ∈ l, ¬ s.etimerExpired t) ∧
      (s.pc = .idle → ∀ t, t ∈ l ↔ Etimers.armed t s.events) := by
  obtain ⟨⟨l, hl⟩, _, _⟩ := etimers_inv h
  refine ⟨l, hl.chain, fun t ht => (hl.owner t ht).1, fun hpc t => ?_⟩
  refine ⟨hl.armed_of_mem t, hl.mem_of_armed t ?_⟩
  rw [hpc]
  simp [EtimerPc.moving]

/-- **Every event belongs to one start of its timer.** The timer was started after its last event
or stop, the event goes to the process that started it, and if the last start was a `set` or a
`restart`, its interval has passed. -/
theorem posts_ok {s : Etimers κ π} (h : (etimers κ π).ReachableIf CalledByProcess s)
    {later earlier : List (EtimerEvent κ π)} {p : Option π} {t : κ} {time : Nat}
    (hevents : s.events = later ++ .post p t time :: earlier) :
    Etimers.PostOk p t time earlier := by
  have hposts := (etimers_inv h).posts
  rw [hevents] at hposts
  exact hposts.of_append.1

/-- The interrupt comes at once. -/
def atOnce : Fin 256 := 0

/-- A timer of three ticks is set by the process `()`, and its event is posted. -/
def threeTicks : List (EtimerLabel Bool Unit) :=
  [.call (some ()) (.set true 3), .code true, .code true, .code true, .code true,
    .poll, .code true, .code true, .tick atOnce, .tick atOnce, .tick atOnce, .poll, .code true,
    .code true]

/-- `pending_iff_armed` before the event is posted. -/
theorem pending_iff_armed_threeTicks : ∃ s : Etimers Bool Unit,
    s.pc = .idle ∧ ∃ l, Segment s.next s.timerlist l none ∧ (∀ t ∈ l, ¬ s.etimerExpired t) ∧
      (s.pc = .idle → ∀ t, t ∈ l ↔ Etimers.armed t s.events) := by
  have hend : ((etimers Bool Unit).runIf CalledByProcess Etimers.init
      (threeTicks.take 11)).map (fun s => s.pc) = some .idle := by
    decide
  obtain ⟨s, hs, hpc⟩ := Machine.exists_reachableIf_of_runIf (M := etimers Bool Unit) hend
  exact ⟨s, hpc, pending_iff_armed hs⟩

/-- `posts_ok` for the event. -/
theorem posts_ok_threeTicks : ∃ s : Etimers Bool Unit,
    s.events = [.post (some ()) true 3, .set true (some ()) 0 3] ∧
      Etimers.PostOk (some ()) true 3 [.set true (some ()) 0 3] := by
  have hend : ((etimers Bool Unit).runIf CalledByProcess Etimers.init threeTicks).map
      (fun s => s.events) = some [.post (some ()) true 3, .set true (some ()) 0 3] := by
    decide
  obtain ⟨s, hs, hev⟩ := Machine.exists_reachableIf_of_runIf (M := etimers Bool Unit) hend
  have hsplit : s.events = [] ++ .post (some ()) true 3 :: [.set true (some ()) 0 3] := hev
  exact ⟨s, hev, posts_ok hs hsplit⟩

end PTunes.Core
