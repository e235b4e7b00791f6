import PTunes.Proofs.Core.Kernel

/-!
# `PTunes.Proofs.Core.KernelBroadcast`: a broadcast calls every process once

The loop of `do_event` walks along the list of the processes. The processes that it calls, and those
that `do_poll` calls in between, may start and end others. The process at which the loop is may end
as well, and the loop goes on along the link that this process had in the list.

So the walk of the loop is no part of the list, but it has all the processes of the list that have
yet to be called. The others on it have exited (`Hears`).

* `broadcast_heard`: in a broadcast no process is called twice, and at its end every running process
  that was there at its beginning has been called.

A process that exits and is started again during the broadcast would lead the walk back to the front
of the list. The runs are those without such a restart.
-/

set_option autoImplicit false

namespace PTunes.Core

variable {π : Type}

namespace MainPc

/-- The place of the loop of a broadcast. -/
def cursor : MainPc π → Option (Option π)
  | .broadcast _ _ c => some c
  | .deliver _ _ p | .broadcastCall _ _ p | .doPoll (.broadcast _ _ p)
  | .poll (.broadcast _ _ p) _ | .pollNow (.broadcast _ _ p) _ | .pollCall (.broadcast _ _ p) _ =>
    some (some p)
  | _ => none

/-- The part of the walk whose processes have not been called. -/
def uncalled : MainPc π → List π → List π
  | .broadcastCall _ _ _, walk => walk.tail
  | _, walk => walk

end MainPc

/-- The invariant of a broadcast, with the walk that the loop has before it. -/
structure Hears (s : Kernel π) (c : Option π) (walk : List π) : Prop where
  segment : Segment s.next c walk none
  ended : ∀ p ∈ walk, s.state p = .none → p ∈ s.gone
  nodup : s.heard.Nodup
  once : ∀ p ∈ s.heard, p ∉ s.main.uncalled walk
  all : ∀ p, s.state p ≠ .none → p ∉ s.started → p ∈ s.heard ∨ p ∈ s.main.uncalled walk

/-- In a broadcast the invariant holds. -/
def Broadcasts (s : Kernel π) : Prop :=
  ∀ c, s.main.cursor = some c → ∃ walk, Hears s c walk

variable {s t : Kernel π} {c : Option π} {walk : List π} {p q : π}

/-- The process that the next statement puts on the list: the search of `process_start` has come to
the end of the list without it. -/
def Kernel.starting (s : Kernel π) : Option π :=
  match s.stack with
  | .search p _ none :: _ => some p
  | _ => none

/-- A step is orderly, and `process_start` does not start a process that has exited in the present
broadcast. -/
def NoRestart [DecidableEq π] (s : Kernel π) (a : KernelLabel π) : Prop :=
  Orderly s a ∧ (a = .code → s.main.cursor ≠ none → ∀ p ∈ s.starting, p ∉ s.gone)

instance [DecidableEq π] (s : Kernel π) (a : KernelLabel π) : Decidable (NoRestart s a) :=
  inferInstanceAs (Decidable (Orderly s a ∧
    (a = .code → s.main.cursor ≠ none → ∀ p ∈ s.starting, p ∉ s.gone)))

/-- The walk without `p`, which is not the first one. -/
theorem mem_uncalled_bypass {main : MainPc π} {front back : List π} {r : π} :
    r ∈ main.uncalled (front ++ q :: p :: back) ↔
      r ∈ main.uncalled (front ++ q :: back) ∨ r = p := by
  cases main with
  | broadcastCall =>
      cases front with
      | nil =>
          show r ∈ p :: back ↔ r ∈ back ∨ r = p
          rw [List.mem_cons, or_comm]
      | cons e front =>
          simp only [MainPc.uncalled, List.cons_append, List.tail_cons, List.mem_append,
            List.mem_cons]
          tauto
  | _ =>
      simp only [MainPc.uncalled, List.mem_append, List.mem_cons]
      tauto

namespace Broadcasts

/-- The loop is at the same place, and the links are the same. -/
theorem congr (h : Broadcasts s) (hnext : t.next = s.next)
    (hstate : ∀ p, t.state p = .none ↔ s.state p = .none)
    (hcursor : t.main.cursor = s.main.cursor)
    (huncalled : t.main.cursor ≠ none → t.main.uncalled = s.main.uncalled)
    (hheard : t.heard = s.heard) (hgone : t.gone = s.gone) (hstarted : t.started = s.started) :
    Broadcasts t := by
  intro c hc
  obtain ⟨walk, hwalk, hended, hnodup, honce, hall⟩ := h c (hcursor ▸ hc)
  rw [← huncalled (by rw [hc]; exact Option.some_ne_none c)] at honce hall
  refine ⟨walk, hnext ▸ hwalk, fun p hp hnone => ?_, hheard ▸ hnodup, ?_, fun p hp hnew => ?_⟩
  · rw [hgone]
    exact hended p hp ((hstate p).mp hnone)
  · rw [hheard]
    exact honce
  · rw [hheard]
    exact hall p (fun hnone => hp ((hstate p).mpr hnone)) (hstarted ▸ hnew)

/-- The calls and the current process do not matter. -/
theorem calls (h : Broadcasts s) (stack : List (Frame π)) (current : Option π) :
    Broadcasts { s with stack := stack, processCurrent := current } :=
  h.congr rfl (fun _ => Iff.rfl) rfl (fun _ => rfl) rfl rfl rfl

/-- A call has returned. -/
theorem resume (h : Broadcasts s) : Broadcasts s.resume := by
  unfold Kernel.resume
  split
  · exact h.congr rfl (fun _ => Iff.rfl) rfl (fun _ => rfl) rfl rfl rfl
  · exact h.congr rfl (fun _ => Iff.rfl) rfl (fun _ => rfl) rfl rfl rfl
  · split
    · rename_i after p hmain
      refine h.congr rfl (fun _ => Iff.rfl) ?_ (fun _ => ?_) rfl rfl rfl
      · rw [hmain]
        cases after <;> rfl
      · rw [hmain]
        rfl
    · -- The process at the cursor has been called.
      rename_i ev data p hmain
      intro c hc
      cases hc
      obtain ⟨walk, hwalk, hended, hnodup, honce, hall⟩ := h (some p) (by rw [hmain]; rfl)
      rw [hmain] at honce hall
      cases walk with
      | nil => cases Segment.nil_iff.mp hwalk
      | cons q walk =>
          obtain ⟨hq, hwalk⟩ := Segment.cons_iff.mp hwalk
          cases hq
          exact ⟨walk, hwalk, fun r hr => hended r (List.mem_cons_of_mem _ hr), hnodup, honce, hall⟩
    · intro c hc
      cases hc
    · exact h
  · exact h

/-- Outside a broadcast there is nothing to show. -/
theorem of_cursor_none (h : s.main.cursor = none) : Broadcasts s := by
  intro c hc
  rw [h] at hc
  cases hc

/-- A broadcast begins with the whole list before it. -/
theorem begins {l rest : List π} (hinv : KernelInv s l rest) (hs : s.stack = []) (ev : UInt8)
    (data : ProcessData π) : Broadcasts { s.takeEvent with
      main := .broadcast ev data s.processList, heard := [], gone := [], started := [] } := by
  intro c hc
  cases hc
  refine ⟨l, hinv.list, fun p hp hnone => ?_, List.nodup_nil, fun p hp => (by cases hp),
    fun p hp _ => .inr (hinv.stack.listed p hp)⟩
  have hmem := hinv.stack.ended p hp hnone
  rw [hs] at hmem
  cases hmem

variable [DecidableEq π]

/-- `call_process`. -/
theorem callProcess (h : Broadcasts s) (p : π) (ev : UInt8) (data : ProcessData π) :
    Broadcasts (s.callProcess p ev data) := by
  unfold Kernel.callProcess
  split
  · rename_i hp
    refine h.congr rfl (fun q => ?_) rfl (fun _ => rfl) rfl rfl rfl
    show Function.update s.state p ProcessState.called q = .none ↔ _
    rw [Function.update_apply]
    split
    · rename_i hqp
      rw [hqp, hp]
      exact ⟨fun h => (by cases h), fun h => (by cases h)⟩
    · exact Iff.rfl
  · exact h.resume

/-- `exit_process` begins to take a process out of the list. -/
theorem remove (h : Broadcasts s) (p : π) (oldCurrent : Option π) :
    Broadcasts (s.remove p oldCurrent) := by
  unfold Kernel.remove Kernel.exited
  split
  · exact resume (h.congr rfl (fun _ => Iff.rfl) rfl (fun _ => rfl) rfl rfl rfl)
  · exact h.congr rfl (fun _ => Iff.rfl) rfl (fun _ => rfl) rfl rfl rfl

/-- `exit_process`. -/
theorem exitProcess (h : Broadcasts s) (p : π) (fromprocess : Option π) :
    Broadcasts (s.exitProcess p fromprocess) := by
  unfold Kernel.exitProcess
  split
  · intro c hc
    obtain ⟨walk, hwalk, hended, hnodup, honce, hall⟩ := h c hc
    refine ⟨walk, hwalk, fun q hq hnone => ?_, hnodup, honce, fun q hq hnew => ?_⟩
    · have hnone : Function.update s.state p ProcessState.none q = .none := hnone
      rw [Function.update_apply] at hnone
      split at hnone
      · rename_i hqp
        rw [hqp]
        exact List.mem_cons_self
      · exact List.mem_cons_of_mem p (hended q hq hnone)
    · have hq : Function.update s.state p ProcessState.none q ≠ .none := hq
      rw [Function.update_apply] at hq
      split at hq
      · exact absurd rfl hq
      · exact hall q hq hnew
  · exact h.remove p _

/-- A process that has exited is taken out of the list, behind `q`. -/
theorem unlink (h : Broadcasts s) (hq : s.next q = some p) (hp : s.state p = .none) :
    Broadcasts { s with next := Function.update s.next q (s.next p) } := by
  intro c hc
  obtain ⟨walk, hwalk, hended, hnodup, honce, hall⟩ := h c hc
  by_cases hmem : q ∈ walk
  · obtain ⟨front, back, rfl, hfront, hback⟩ := hwalk.split hmem
    rw [hq] at hback
    -- `p` is behind `q` on the walk as well.
    cases back with
    | nil => cases Segment.nil_iff.mp hback
    | cons r back =>
        obtain ⟨hr, _⟩ := Segment.cons_iff.mp hback
        cases hr
        refine ⟨front ++ q :: back, hwalk.bypass hwalk.nodup, fun r hr => hended r ?_, hnodup,
          fun r hr hmem => honce r hr (mem_uncalled_bypass.mpr (.inl hmem)), fun r hr hnew => ?_⟩
        · simp only [List.mem_append, List.mem_cons] at hr ⊢
          tauto
        · have hrp : r ≠ p := by
            rintro rfl
            exact hr hp
          exact (hall r hr hnew).imp_right fun hmem =>
            (mem_uncalled_bypass.mp hmem).resolve_right hrp
  · exact ⟨walk, hwalk.update hmem, hended, hnodup, honce, hall⟩

/-- `process_start` of a process that has not exited in the broadcast. -/
theorem startProcess (h : Broadcasts s) (hp : s.state p = .none)
    (hgone : s.main.cursor ≠ none → p ∉ s.gone) : Broadcasts (s.startProcess p) := by
  intro c hc
  have hc : s.main.cursor = some c := hc
  obtain ⟨walk, hwalk, hended, hnodup, honce, hall⟩ := h c hc
  have hnot : p ∉ walk := fun hmem =>
    hgone (by rw [hc]; exact Option.some_ne_none c) (hended p hmem hp)
  refine ⟨walk, hwalk.update hnot, fun q hq hnone => ?_, hnodup, honce, fun q hq hnew => ?_⟩
  · have hnone : Function.update s.state p ProcessState.running q = .none := hnone
    rw [Function.update_apply] at hnone
    split at hnone
    · cases hnone
    · exact hended q hq hnone
  · have hnew : q ∉ p :: s.started := hnew
    have hq : Function.update s.state p ProcessState.running q ≠ .none := hq
    rw [Function.update_of_ne (fun hqp : q = p => hnew (hqp ▸ List.mem_cons_self))] at hq
    exact hall q hq fun hmem => hnew (List.mem_cons_of_mem p hmem)

/-- The thread on top of the stack returns. -/
theorem threadReturns {l rest : List π} {exited : Bool} (h : Broadcasts s)
    (hinv : KernelInv s l rest) (hst : s.threadReturns exited = some t) : Broadcasts t := by
  unfold Kernel.threadReturns at hst
  split at hst
  · rename_i p ev data stack hs
    split at hst
    · cases hst
      exact (h.calls stack s.processCurrent).exitProcess _ _
    · cases hst
      have hstack := hinv.stack
      rw [hs] at hstack
      have hstate : s.state p = .called := (hstack.called p).mpr List.mem_cons_self
      refine resume (h.congr rfl (fun q => ?_) rfl (fun _ => rfl) rfl rfl rfl)
      show Function.update s.state p ProcessState.running q = .none ↔ _
      rw [Function.update_apply]
      split
      · rename_i hqp
        rw [hqp, hstate]
        exact ⟨fun h => (by cases h), fun h => (by cases h)⟩
      · exact Iff.rfl
  · rename_i p oldCurrent stack hs
    cases hst
    exact (h.calls stack s.processCurrent).remove p oldCurrent
  · cases hst

/-- A step of the function on top of the stack. -/
theorem frameCode {l rest : List π} (h : Broadcasts s) (hinv : KernelInv s l rest)
    (hrestart : NoRestart s .code) (hst : s.frameCode = some t) : Broadcasts t := by
  have hstack := hinv.stack
  have htop := hinv.top
  unfold Kernel.frameCode at hst
  split at hst
  · split at hst <;> cases hst <;> exact h.calls _ s.processCurrent
  · rename_i p arg stack hs
    cases hst
    rw [hs] at htop
    -- The search has come to the end, so the process is not listed.
    obtain ⟨post, _, hq, hmem⟩ := htop
    obtain rfl := List.head?_eq_none_iff.mp hq.symm
    have hp : s.state p = .none := by
      by_contra hne
      cases hmem (hinv.stack.listed p hne)
    refine ((h.calls stack s.processCurrent).startProcess hp fun hcursor => ?_).callProcess _ _ _
    refine hrestart.2 rfl hcursor p ?_
    simp only [Kernel.starting, hs]
    rfl
  · rename_i p fromprocess oldCurrent q stack hs
    split at hst
    · cases hst
      exact h.calls _ s.processCurrent
    · cases hst
      exact (h.calls (.exitCall p fromprocess oldCurrent q :: stack)
        s.processCurrent).callProcess _ _ _
  · rename_i p fromprocess oldCurrent stack hs
    split at hst
    · cases hst
      exact h.calls _ (some p)
    · cases hst
      -- The head of the list exits.
      exact (h.calls stack s.processCurrent).remove p oldCurrent
  · rename_i p oldCurrent q stack hs
    split at hst
    · rename_i hqp
      cases hst
      have hp : s.state p = .none := by
        -- A process that is on its way out runs no more.
        refine hstack.leaving p ?_
        rw [hs]
        exact List.mem_cons_self
      exact ((h.unlink hqp hp).calls stack oldCurrent).resume
    · cases hst
      exact h.calls _ s.processCurrent
  · rename_i p oldCurrent stack hs
    cases hst
    exact (h.calls stack oldCurrent).resume
  · cases hst

/-- `call_process` outside a broadcast. -/
theorem callProcess_of_cursor_none (h : s.main.cursor = none) (p : π) (ev : UInt8)
    (data : ProcessData π) : Broadcasts (s.callProcess p ev data) :=
  callProcess (of_cursor_none h) p ev data

omit [DecidableEq π] in
/-- A broadcast calls the process at the cursor. -/
theorem deliver {l rest : List π} (h : Broadcasts s) (hinv : KernelInv s l rest)
    (hs : s.stack = []) {ev : UInt8} {data : ProcessData π} (hmain : s.main = .deliver ev data p) :
    Broadcasts { s with
      main := .broadcastCall ev data p
      heard := if s.state p = .running then s.heard ++ [p] else s.heard } := by
  intro c hc
  cases hc
  obtain ⟨walk, hwalk, hended, hnodup, honce, hall⟩ := h (some p) (by rw [hmain]; rfl)
  rw [hmain] at honce hall
  cases walk with
  | nil => cases Segment.nil_iff.mp hwalk
  | cons q walk =>
      have hwalkNodup := hwalk.nodup
      obtain ⟨hq, _⟩ := Segment.cons_iff.mp hwalk
      cases hq
      obtain ⟨hnot, _⟩ := List.nodup_cons.mp hwalkNodup
      -- A process that has heard the event is not ahead of the cursor.
      have hfresh : p ∉ s.heard := fun hmem => honce p hmem List.mem_cons_self
      refine ⟨p :: walk, hwalk, hended, ?_, fun r hr => ?_, fun r hr hnew => ?_⟩
      · show (if s.state p = .running then s.heard ++ [p] else s.heard).Nodup
        split
        · refine List.nodup_append.mpr ⟨hnodup, List.nodup_singleton p, fun r hr q hq => ?_⟩
          rw [List.mem_singleton.mp hq]
          rintro rfl
          exact hfresh hr
        · exact hnodup
      · have hr : r ∈ if s.state p = .running then s.heard ++ [p] else s.heard := hr
        show r ∉ walk
        split at hr
        · rcases List.mem_append.mp hr with hr | hr
          · exact fun hmem => honce r hr (List.mem_cons_of_mem p hmem)
          · rw [List.mem_singleton.mp hr]
            exact hnot
        · exact fun hmem => honce r hr (List.mem_cons_of_mem p hmem)
      · show r ∈ (if s.state p = .running then s.heard ++ [p] else s.heard) ∨ r ∈ walk
        -- Who was listed has heard it or is still ahead; the process at the cursor hears it now.
        rcases hall r hr hnew with hmem | hmem
        · left
          split
          · exact List.mem_append_left _ hmem
          · exact hmem
        · rcases List.mem_cons.mp hmem with rfl | hmem
          · left
            rw [if_pos (hinv.running_of_ne_none hs hr)]
            exact List.mem_append_right _ List.mem_cons_self
          · exact .inr hmem

/-- `do_poll` calls a process. It is running, so its state does not change by that. -/
theorem pollNow {after : AfterPoll π} {p : π} {l rest : List π} (h : Broadcasts s)
    (hinv : KernelInv s l rest) (hs : s.stack = []) (hmain : s.main = .pollNow after p) :
    Broadcasts ({ s with
      state := Function.update s.state p .running
      needspoll := Function.update s.needspoll p false
      polled := Function.update s.polled p false
      main := .pollCall after p }.callProcess p processEventPoll .null) := by
  have hwalk := hinv.walk
  rw [hmain] at hwalk
  obtain ⟨rest, rfl⟩ := List.head?_eq_some_iff.mp hwalk.2.symm
  have hrunning := hinv.running_of_listed hs (hwalk.1.subset List.mem_cons_self)
  rw [← hrunning, Function.update_eq_self]
  apply callProcess
  refine h.congr rfl (fun _ => Iff.rfl) ?_ (fun _ => ?_) rfl rfl rfl
  · show _ = s.main.cursor
    rw [hmain]
    cases after <;> rfl
  · show _ = s.main.uncalled
    rw [hmain]
    rfl

/-- `do_event` begins a broadcast, or calls the one receiver of its event. -/
theorem doEvent {l rest : List π} (hinv : KernelInv s l rest) (hs : s.stack = []) :
    Broadcasts s.doEvent := by
  unfold Kernel.doEvent
  split
  · dsimp only
    split
    · exact begins hinv hs _ _
    · split <;> exact callProcess_of_cursor_none rfl _ _ _
  · exact of_cursor_none rfl

/-- A step of the main loop. Most steps move the program counter within one broadcast, or are
outside of any. -/
theorem mainCode {l rest : List π} (h : Broadcasts s) (hinv : KernelInv s l rest)
    (hs : s.stack = []) (hst : s.mainCode = some t) : Broadcasts t := by
  rw [Kernel.mainCode] at hst
  cases hmain : s.main with
  | boot | pollCall | broadcastCall | eventCall | idle | asleep =>
      rw [hmain] at hst
      cases hst
  | run =>
      rw [hmain] at hst
      cases hst
      refine of_cursor_none ?_
      -- No broadcast is under way at the head of the loop.
      show (if s.pollRequested = true then MainPc.doPoll .event else .doEvent).cursor = none
      split <;> rfl
  | doPoll after =>
      rw [hmain] at hst
      cases hst
      refine h.congr rfl (fun _ => Iff.rfl) ?_ (fun _ => ?_) rfl rfl rfl
      · -- The polls between two calls leave the cursor and the uncalled ones.
        show _ = s.main.cursor
        rw [hmain]
        cases after <;> rfl
      · show _ = s.main.uncalled
        rw [hmain]
        rfl
  | poll after q =>
      rw [hmain] at hst
      cases q with
      | none =>
          cases hst
          refine h.congr rfl (fun _ => Iff.rfl) ?_ (fun _ => ?_) rfl rfl rfl
          · rw [hmain]
            cases after <;> rfl
          · rw [hmain]
            cases after <;> rfl
      | some p =>
          cases hst
          refine h.congr rfl (fun _ => Iff.rfl) ?_ (fun _ => ?_) rfl rfl rfl
          · rw [hmain]
            split <;> cases after <;> rfl
          · rw [hmain]
            split <;> rfl
  | pollNow after p =>
      rw [hmain] at hst
      cases hst
      exact h.pollNow hinv hs hmain
  | doEvent =>
      rw [hmain] at hst
      cases hst
      exact doEvent hinv hs
  | broadcast ev data q =>
      rw [hmain] at hst
      cases q with
      | none =>
          cases hst
          -- The last process has been called.
          exact of_cursor_none rfl
      | some p =>
          cases hst
          refine h.congr rfl (fun _ => Iff.rfl) ?_ (fun _ => ?_) rfl rfl rfl
          · rw [hmain]
            split <;> rfl
          · rw [hmain]
            split <;> rfl
  | deliver ev data p =>
      rw [hmain] at hst
      cases hst
      exact (h.deliver hinv hs hmain).callProcess _ _ _
  | ran =>
      rw [hmain] at hst
      cases hst
      refine of_cursor_none ?_
      show (if 0 < s.nevents ∨ s.pollRequested = true then MainPc.run else .idle).cursor = none
      split <;> rfl

/-- A step without a restart keeps the invariant. -/
theorem step {l rest : List π} {a : KernelLabel π} (h : Broadcasts s) (hinv : KernelInv s l rest)
    (ha : NoRestart s a) (hst : s.step a = some t) : Broadcasts t := by
  have hpoll : ∀ p, Broadcasts (s.processPoll p) := by
    intro p
    unfold Kernel.processPoll
    split
    · -- The flags of the polls are outside of the broadcast.
      exact h.congr rfl (fun _ => Iff.rfl) rfl (fun _ => rfl) rfl rfl rfl
    · exact h
  cases a with
  | interrupt p =>
      cases hst
      unfold Kernel.interrupt
      by_cases hasleep : (s.processPoll p).main = .asleep
      · dsimp only
        rw [if_pos hasleep]
        exact of_cursor_none rfl
      · dsimp only
        rw [if_neg hasleep]
        exact hpoll p
  | code =>
      have hst : (if s.stack = [] then s.mainCode else s.frameCode) = some t := hst
      split at hst
      · rename_i hs
        exact h.mainCode hinv hs hst
      · exact h.frameCode hinv ha hst
  | idle uart1Active =>
      obtain ⟨_, ⟨⟩⟩ := Option.ite_none_right_eq_some.mp hst
      refine of_cursor_none ?_
      show (if s.nevents ≠ 0 ∨ s.pollRequested = true ∨ uart1Active = true then
        MainPc.run else .asleep).cursor = none
      split <;> rfl
  | booted =>
      obtain ⟨_, ⟨⟩⟩ := Option.ite_none_right_eq_some.mp hst
      exact of_cursor_none rfl
  | start p arg =>
      obtain ⟨_, ⟨⟩⟩ := Option.ite_none_right_eq_some.mp hst
      exact h.calls _ s.processCurrent
  | exit p =>
      obtain ⟨_, ⟨⟩⟩ := Option.ite_none_right_eq_some.mp hst
      exact h.exitProcess p _
  | post p ev data =>
      obtain ⟨_, ⟨⟩⟩ := Option.ite_none_right_eq_some.mp hst
      unfold Kernel.processPost
      split
      · exact h
      · exact h.congr rfl (fun _ => Iff.rfl) rfl (fun _ => rfl) rfl rfl rfl
  | postSynch p ev data =>
      obtain ⟨_, ⟨⟩⟩ := Option.ite_none_right_eq_some.mp hst
      -- A call from a thread is above the broadcast and does not move the cursor.
      exact (h.calls (.postSynch s.processCurrent :: s.stack) s.processCurrent).callProcess
        p ev data
  | poll p =>
      obtain ⟨_, ⟨⟩⟩ := Option.ite_none_right_eq_some.mp hst
      exact hpoll p
  | ret exited => exact h.threadReturns hinv hst

end Broadcasts

variable [DecidableEq π]

/-- **A broadcast reaches every process once.** At the end of a broadcast every running process that
was not started during the broadcast has been called, and nobody twice. -/
theorem broadcast_heard (h : (kernel π).ReachableIf NoRestart s) {ev : UInt8}
    {data : ProcessData π} (hmain : s.main = .broadcast ev data none) :
    s.heard.Nodup ∧ ∀ p, s.state p ≠ .none → p ∉ s.started → p ∈ s.heard := by
  have hinv : KernelSound s ∧ Broadcasts s := by
    have hinit : Broadcasts (Kernel.init : Kernel π) := Broadcasts.of_cursor_none rfl
    refine h.invariant (fun s => KernelSound s ∧ Broadcasts s) ⟨kernelSound_init, hinit⟩ ?_
    rintro s a t ⟨hsound, hbroadcasts⟩ ha hst
    obtain ⟨l, rest, hinv⟩ := hsound.1
    exact ⟨hsound.step ha.1 hst, hbroadcasts.step hinv ha hst⟩
  obtain ⟨walk, hwalk, _, hnodup, _, hall⟩ := hinv.2 none (by rw [hmain]; rfl)
  obtain rfl : walk = [] := by
    cases walk with
    | nil => rfl
    | cons p walk => cases (Segment.cons_iff.mp hwalk).1
  refine ⟨hnodup, fun p hp hnew => (hall p hp hnew).resolve_right ?_⟩
  rw [hmain]
  exact List.not_mem_nil

/-- The broadcast of `broadcastRun` at its end. -/
theorem broadcast_heard_twoProcesses : ∃ s : Kernel Bool,
    s.heard = [false, true] ∧
      s.heard.Nodup ∧ ∀ p, s.state p ≠ .none → p ∉ s.started → p ∈ s.heard := by
  have hend : ((kernel Bool).runIf NoRestart Kernel.init (twoProcesses ++ broadcastRun)).map
      (fun s => (s.main, s.heard)) = some (.broadcast 0x88 .null none, [false, true]) := by
    decide
  obtain ⟨s, hs, hf⟩ := Machine.exists_reachableIf_of_runIf (M := kernel Bool) hend
  simp only [Prod.mk.injEq] at hf
  exact ⟨s, hf.2, broadcast_heard hs hf.1⟩

/-- A process that is restarted before it is called leads the broadcast back to the front. -/
theorem broadcast_twice_reachable : ∃ s : Kernel Bool,
    (kernel Bool).ReachableIf Orderly s ∧ s.heard = [false, true, false] := by
  have hend : ((kernel Bool).runIf Orderly Kernel.init
      (twoProcesses ++ [.code, .code, .code, .code, .interrupt false, .ret false, .code, .code,
        .code, .code, .exit true, .code, .code, .code, .ret false, .code, .start true .null, .code,
        .code, .ret false, .ret false, .code, .code, .ret false, .code, .code])).map
        (fun s => s.heard) = some [false, true, false] := by
    decide
  exact Machine.exists_reachableIf_of_runIf hend

end PTunes.Core
