import PTunes.Lib.Chain
import PTunes.Proofs.Core.KernelStack

/-!
# `PTunes.Proofs.Core.Kernel`: the processor sleeps only when nothing is left to do

The list of the processes changes under the loops of the kernel that walk along it. While `do_poll`
is at a process, the ones behind it are a suffix of the list, also after the call of this process
has started others or ended some. So every running process that was polled is in this suffix, or
`poll_requested` is set again (`KernelInv.pending`).

The runs are the orderly ones: `process_exit` is not called for a process that has a call on the
stack, and nobody posts `PROCESS_EVENT_INIT` to a process, which `process_start` does by a call.

* `asleep_served`: when the processor sleeps the event queue is empty and no running process waits
  for a poll.
* `runs_once`: no process is called while it runs, and the running processes are those in the list.
* `taken_append_contents`: the events come out of the queue in the order in which they went in.
-/

set_option autoImplicit false

namespace PTunes.Core

open StackInv (TopWaits)

variable {π : Type}

/-- The main loop waits for a call to return. -/
def MainPc.waits : MainPc π → Bool
  | .boot | .pollCall _ _ | .broadcastCall _ _ _ | .eventCall => true
  | _ => false

/-- The process of the outermost call. -/
def bottom (stack : List (Frame π)) : Option π := stack.getLast?.bind Frame.process

/-- The processes that the loop of `do_poll` has before it. -/
def Walk (main : MainPc π) (stack : List (Frame π)) (next : π → Option π) (l rest : List π) :
    Prop :=
  match main with
  | .poll _ c => rest <:+ l ∧ c = rest.head?
  | .pollNow _ c => rest <:+ l ∧ some c = rest.head?
  | .pollCall _ c =>
    (stack = [] → rest <:+ l ∧ next c = rest.head?) ∧
      (stack ≠ [] → bottom stack = some c ∧ (c :: rest) <:+ l)
  | _ => rest = []

/-- A loop that looks for a process, or for the one in front of it, has not passed it. -/
def TopOk (l : List π) : List (Frame π) → Prop
  | .search p _ q :: _ => ∃ post, post <:+ l ∧ q = post.head? ∧ (p ∈ l → p ∈ post)
  | .unlink p _ q :: _ => ∃ post, post <:+ l ∧ q = post.head? ∧ (p ∈ l → p ∈ post.tail)
  | _ => True

/-- Below the calls the main loop waits for the outermost one. In the initialisation there is no
call of a process below them. -/
def MainOk (main : MainPc π) (stack : List (Frame π)) : Prop :=
  main = .boot ∨ main.waits = true ∧ (bottom stack).isSome = true

/-- The invariant of the kernel: `l` is the list of the processes, and `rest` what `do_poll` has
before it. -/
structure KernelInv (s : Kernel π) (l rest : List π) : Prop where
  list : Segment s.next s.processList l none
  stack : StackInv s.state s.stack l
  top : TopOk l s.stack
  main : s.stack ≠ [] → MainOk s.main s.stack
  walk : Walk s.main s.stack s.next l rest
  needs : ∀ p, s.polled p = true → s.needspoll p = true
  pending : ∀ p ∈ l, s.polled p = true → s.pollRequested = true ∨ p ∈ rest
  asleep : s.main = .asleep → s.nevents = 0 ∧ s.pollRequested = false

/-- Without `p` nothing is filtered out. -/
theorem filter_ne_eq_self [DecidableEq π] {l : List π} {p : π} (hp : p ∉ l) :
    l.filter (· ≠ p) = l :=
  List.filter_eq_self.mpr fun _ hq => decide_eq_true fun hqp => hp (hqp ▸ hq)

/-! ### The loop of `do_poll` -/

section Walk

variable {main : MainPc π} {stack stack' : List (Frame π)} {next next' : π → Option π}
  {l l' rest : List π} {f : Frame π} {p : π} {head : Option π}

/-- A call above others is not the outermost one. -/
theorem bottom_cons (hstack : stack ≠ []) : bottom (f :: stack) = bottom stack := by
  cases stack with
  | nil => exact absurd rfl hstack
  | cons g stack => rw [bottom, List.getLast?_cons_cons, bottom]

/-- The outermost call is on the stack. -/
theorem bottom_mem (h : bottom stack = some p) : p ∈ stack.filterMap Frame.process := by
  obtain ⟨f, hf, hfp⟩ := Option.bind_eq_some_iff.mp h
  exact List.mem_filterMap.mpr ⟨f, List.mem_of_getLast? hf, hfp⟩

/-- Other calls above the outermost one. -/
theorem Walk.congr (h : Walk main stack next l rest) (hstack : stack ≠ []) (hstack' : stack' ≠ [])
    (hbottom : bottom stack' = bottom stack) (hl : l <:+ l') :
    Walk main stack' next' l' rest := by
  cases main with
  | poll => exact ⟨h.1.trans hl, h.2⟩
  | pollNow => exact ⟨h.1.trans hl, h.2⟩
  | pollCall after c =>
      obtain ⟨hc, hsuffix⟩ := h.2 hstack
      exact ⟨fun hnil => absurd hnil hstack', fun _ => ⟨hbottom.trans hc, hsuffix.trans hl⟩⟩
  | _ => exact h

/-- A call above the others. -/
theorem Walk.push (h : Walk main stack next l rest) (hstack : stack = [] → main = .boot)
    (hl : l <:+ l') : Walk main (f :: stack) next' l' rest := by
  by_cases hnil : stack = []
  · rw [hstack hnil] at h ⊢
    exact h
  · exact h.congr hnil (List.cons_ne_nil f stack) (bottom_cons hnil) hl

/-- A call has returned. -/
theorem Walk.pop (h : Walk main (f :: stack) next l rest) (hlist : Segment next head l none) :
    Walk main stack next l rest := by
  cases main with
  | pollCall after c =>
      obtain ⟨hc, hsuffix⟩ := h.2 (List.cons_ne_nil f stack)
      constructor
      · intro _
        exact ⟨(List.suffix_cons c rest).trans hsuffix, hlist.next_eq_head? hsuffix⟩
      · intro hstack
        rw [bottom_cons hstack] at hc
        exact ⟨hc, hsuffix⟩
  | _ => exact h

/-- The process of the call on top is taken out of the list, and the call has returned. -/
theorem Walk.removed [DecidableEq π] (h : Walk main (f :: stack) next l rest)
    (hmain : main.waits = true) (hlist : Segment next head l none) (hf : f.process = some p)
    (hnot : p ∉ stack.filterMap Frame.process) (hnext : next' p = next p) :
    Walk main stack next' (l.filter (· ≠ p)) (rest.filter (· ≠ p)) := by
  cases main with
  | pollCall after c =>
      obtain ⟨hc, hsuffix⟩ := h.2 (List.cons_ne_nil f stack)
      have hfilter := hsuffix.filter (· ≠ p)
      constructor
      · -- The process that `do_poll` has called leaves the list itself.
        intro hnil
        rw [hnil, bottom, List.getLast?_singleton, Option.bind_some, hf] at hc
        cases hc
        have hnodup := hlist.nodup.sublist hsuffix.sublist
        have hrest : rest.filter (· ≠ p) = rest :=
          filter_ne_eq_self (List.nodup_cons.mp hnodup).1
        rw [List.filter_cons_of_neg (by simp), hrest] at hfilter
        rw [hrest, hnext]
        exact ⟨hfilter, hlist.next_eq_head? hsuffix⟩
      · intro hstack
        rw [bottom_cons hstack] at hc
        -- The walk waits for another process, which stays at its place.
        have hcp : c ≠ p := by
          rintro rfl
          exact hnot (bottom_mem hc)
        rw [List.filter_cons_of_pos (by simpa using hcp)] at hfilter
        exact ⟨hc, hfilter⟩
  | boot | broadcastCall | eventCall =>
      obtain rfl : rest = [] := h
      rfl
  | _ => cases hmain

end Walk

/-- Below a call the main loop waits, also during the initialisation. -/
theorem MainOk.waits {main : MainPc π} {stack : List (Frame π)} (h : MainOk main stack) :
    main.waits = true := by
  rcases h with rfl | h
  · rfl
  · exact h.1

/-- It depends on the outermost call only. -/
theorem MainOk.congr {main : MainPc π} {stack stack' : List (Frame π)} (h : MainOk main stack)
    (hbottom : bottom stack' = bottom stack) : MainOk main stack' := by
  rw [MainOk, hbottom]
  exact h

/-- A frame that waits on top of others that do. -/
theorem topWaits_cons {f : Frame π} {stack : List (Frame π)} (h : TopWaits stack)
    (hf : f.waits = true) : TopWaits (f :: stack) := by
  intro g hg
  rcases List.mem_cons.mp hg with rfl | hg
  · exact hf
  · exact h g hg

/-- With no call on the stack there is none that could not wait. -/
theorem topWaits_of_nil {stack : List (Frame π)} (h : stack = []) : TopWaits stack := by
  rw [h]
  intro f hf
  cases hf

/-- Frames that wait have no loop. -/
theorem topOk_of_topWaits {l : List π} {stack : List (Frame π)} (h : TopWaits stack) :
    TopOk l stack := by
  cases stack with
  | nil => trivial
  | cons f stack =>
      have hf := h f List.mem_cons_self
      cases f <;> trivial

namespace KernelInv

variable {s : Kernel π} {l rest : List π} {stack : List (Frame π)} {f g : Frame π} {p : π}
  {oldCurrent : Option π}

/-- `process_list` is the first process of the list. -/
theorem head?_eq (h : KernelInv s l rest) : s.processList = l.head? := h.list.eq_head?

/-- A frame without a process goes. -/
theorem pop (h : KernelInv s l rest) (hs : s.stack = f :: stack) (hf : f.process = none)
    (current : Option π) :
    KernelInv { s with stack := stack, processCurrent := current } l rest := by
  obtain ⟨hlist, hstack, htop, hmain, hwalk, hneeds, hpending, hasleep⟩ := h
  rw [hs] at hstack hwalk hmain
  refine ⟨hlist, hstack.pop hf, topOk_of_topWaits hstack.topWaits_tail, fun hne => ?_,
    hwalk.pop hlist, hneeds, hpending, hasleep⟩
  exact (hmain (List.cons_ne_nil f stack)).congr (bottom_cons hne).symm

/-- A frame without a process comes. -/
theorem push (h : KernelInv s l rest) (hwaits : TopWaits s.stack)
    (hboot : s.stack = [] → s.main = .boot) (hf : f.process = none)
    (htop : TopOk l (f :: s.stack)) :
    KernelInv { s with stack := f :: s.stack } l rest := by
  refine ⟨h.list, h.stack.push hwaits hf, htop, fun _ => ?_, h.walk.push hboot l.suffix_refl,
    h.needs, h.pending, h.asleep⟩
  by_cases hnil : s.stack = []
  · exact .inl (hboot hnil)
  · exact (h.main hnil).congr (bottom_cons hnil)

/-- The frame on top goes on with the same process. -/
theorem change (h : KernelInv s l rest) (hs : s.stack = f :: stack)
    (hprocess : g.process = f.process) (hcalled : g.called = f.called)
    (hleaving : g.leaving = f.leaving) (hlinked : g.linked = f.linked ∨ g.linked = none)
    (htop : TopOk l (g :: stack)) (current : Option π) :
    KernelInv { s with stack := g :: stack, processCurrent := current } l rest := by
  obtain ⟨hlist, hstack, _, hmain, hwalk, hneeds, hpending, hasleep⟩ := h
  have hne : s.stack ≠ [] := by
    rw [hs]
    exact List.cons_ne_nil f stack
  have hbottom : bottom (g :: stack) = bottom s.stack := by
    rw [hs]
    cases stack with
    | nil => exact hprocess
    | cons e stack =>
        rw [bottom_cons (List.cons_ne_nil e stack), bottom_cons (List.cons_ne_nil e stack)]
  refine ⟨hlist, ?_, htop, fun _ => (hmain hne).congr hbottom,
    hwalk.congr hne (List.cons_ne_nil g stack) hbottom l.suffix_refl, hneeds, hpending, hasleep⟩
  rw [hs] at hstack
  exact hstack.change hprocess hcalled hleaving hlinked

/-- `call_process` or `exit_process` has returned. -/
theorem resume (h : KernelInv s l rest) : KernelInv s.resume l rest := by
  unfold Kernel.resume
  split
  · rename_i caller stack hs
    exact h.pop hs rfl caller
  · rename_i q fromprocess oldCurrent r stack hs
    exact h.change (g := .exiting q fromprocess oldCurrent (s.next r)) hs rfl rfl rfl (.inl rfl)
      trivial s.processCurrent
  · rename_i hs
    split
    · rename_i after c hmain
      have hwalk := h.walk
      rw [hmain] at hwalk
      exact ⟨h.list, h.stack, h.top, fun hne => absurd hs hne, hwalk.1 hs, h.needs, h.pending,
        fun heq => (by cases heq)⟩
    · rename_i ev data c hmain
      have hwalk := h.walk
      rw [hmain] at hwalk
      exact ⟨h.list, h.stack, h.top, fun hne => absurd hs hne, hwalk, h.needs, h.pending,
        fun heq => (by cases heq)⟩
    · rename_i hmain
      have hwalk := h.walk
      rw [hmain] at hwalk
      exact ⟨h.list, h.stack, h.top, fun hne => absurd hs hne, hwalk, h.needs, h.pending,
        fun heq => (by cases heq)⟩
    · exact h
  · exact h

variable [DecidableEq π]

/-- `call_process`, except by `do_poll`. -/
theorem callProcess (h : KernelInv s l rest) (hwaits : TopWaits s.stack)
    (hmain : s.stack = [] → s.main.waits = true ∧ rest = [] ∧ ∀ after c,
      s.main ≠ .pollCall after c) (ev : UInt8) (data : ProcessData π) :
    KernelInv (s.callProcess p ev data) l rest := by
  unfold Kernel.callProcess
  split
  · rename_i hp
    by_cases hnil : s.stack = []
    · obtain ⟨hmainWaits, hrest, hne⟩ := hmain hnil
      refine ⟨h.list, h.stack.call hwaits hp ev data, trivial, fun _ => .inr ⟨hmainWaits, ?_⟩, ?_,
        h.needs, h.pending, h.asleep⟩
      · show (bottom (.thread p ev data :: s.stack)).isSome = true
        rw [hnil]
        rfl
      · show Walk s.main _ _ _ _
        cases hmain' : s.main with
        | pollCall after c => exact absurd hmain' (hne after c)
        | boot | broadcastCall | eventCall => exact hrest
        | _ =>
            rw [hmain'] at hmainWaits
            cases hmainWaits
    · exact ⟨h.list, h.stack.call hwaits hp ev data, trivial,
        fun _ => (h.main hnil).congr (bottom_cons hnil),
        h.walk.congr hnil (List.cons_ne_nil _ _) (bottom_cons hnil) l.suffix_refl, h.needs,
        h.pending, h.asleep⟩
  · exact h.resume

/-- The process on top is taken out of the list. -/
theorem removed (h : KernelInv s l rest) (hs : s.stack = f :: stack) (hf : f.leaving = some p)
    {next : π → Option π} {head : Option π}
    (hlist : Segment next head (l.filter (· ≠ p)) none) (hnext : next p = s.next p)
    (current : Option π) :
    KernelInv
      { s with next := next, processList := head, stack := stack, processCurrent := current }
      (l.filter (· ≠ p)) (rest.filter (· ≠ p)) := by
  have hne : s.stack ≠ [] := by
    rw [hs]
    exact List.cons_ne_nil f stack
  have hmain := h.main hne
  have hstack := h.stack
  rw [hs] at hstack
  have hprocess := Frame.process_of_leaving hf
  refine ⟨hlist, hstack.remove hf, topOk_of_topWaits hstack.topWaits_tail, fun hne' => ?_, ?_,
    h.needs, ?_, h.asleep⟩
  · rw [hs] at hmain
    exact hmain.congr (bottom_cons hne').symm
  · have hwalk := h.walk
    rw [hs] at hwalk
    exact hwalk.removed hmain.waits h.list hprocess (hstack.not_mem_tail hprocess) hnext
  · intro q hq hpolled
    obtain ⟨hql, hqp⟩ := List.mem_filter.mp hq
    exact (h.pending q hql hpolled).imp_right fun hmem => List.mem_filter.mpr ⟨hmem, hqp⟩

/-- `exit_process` takes the process on top out of the list. -/
theorem remove (h : KernelInv s l rest) (hs : s.stack = f :: stack) (hf : f.leaving = some p) :
    ∃ l rest, KernelInv ({ s with stack := stack }.remove p oldCurrent) l rest := by
  unfold Kernel.remove
  split
  · rename_i hhead
    have hhead : s.processList = some p := hhead
    refine ⟨_, _, (h.removed hs hf ?_ rfl oldCurrent).resume⟩
    obtain ⟨t, rfl⟩ : ∃ t, l = p :: t := by
      have hl := h.head?_eq
      rw [hhead] at hl
      exact List.head?_eq_some_iff.mp hl.symm
    have hnot := (List.nodup_cons.mp h.list.nodup).1
    rw [List.filter_cons_of_neg (by simp), filter_ne_eq_self hnot]
    exact (Segment.cons_iff.mp h.list).2
  · rename_i hhead
    have hhead : s.processList ≠ some p := hhead
    have hprocess := Frame.process_of_leaving hf
    refine ⟨l, rest, h.change (g := .unlink p oldCurrent s.processList) hs hprocess.symm ?_
      hf.symm (.inr rfl) ⟨l, l.suffix_refl, h.head?_eq, fun hp => ?_⟩ s.processCurrent⟩
    · cases f <;> first | rfl | cases hf
    · -- The first process of the list is another one.
      cases l with
      | nil => exact hp
      | cons q l =>
          refine (List.mem_cons.mp hp).resolve_left ?_
          rintro rfl
          exact hhead h.head?_eq

/-- `exit_process` of a process without a call. -/
theorem exitProcess (h : KernelInv s l rest) (hwaits : TopWaits s.stack)
    (hboot : s.stack = [] → s.main = .boot) (hnot : p ∉ s.stack.filterMap Frame.process)
    (fromprocess : Option π) : ∃ l rest, KernelInv (s.exitProcess p fromprocess) l rest := by
  have hmain : ∀ f, f.process = some p → MainOk s.main (f :: s.stack) := by
    intro f hf
    by_cases hnil : s.stack = []
    · exact .inl (hboot hnil)
    · exact (h.main hnil).congr (bottom_cons hnil)
  unfold Kernel.exitProcess
  split
  · rename_i hp
    exact ⟨l, rest, h.list, h.stack.leave hwaits hnot hp rfl, trivial, fun _ => hmain _ rfl,
      h.walk.push hboot l.suffix_refl, h.needs, h.pending, h.asleep⟩
  · rename_i hp
    have hp : s.state p = .none := by simpa using hp
    have hl : p ∉ l := by
      intro hl
      obtain ⟨f, hf, hfp⟩ := List.mem_filterMap.mp (h.stack.ended p hl hp)
      exact hnot (List.mem_filterMap.mpr ⟨f, hf, Frame.process_of_leaving hfp⟩)
    have hhead : s.processList ≠ some p := by
      intro hhead
      rw [h.head?_eq] at hhead
      exact hl (List.mem_of_head? hhead)
    rw [Kernel.remove, if_neg hhead]
    exact ⟨l, rest, h.list, h.stack.leaveEnded hwaits hnot hp _ _,
      ⟨l, l.suffix_refl, h.head?_eq, fun hmem => absurd hmem hl⟩, fun _ => hmain _ rfl,
      h.walk.push hboot l.suffix_refl, h.needs, h.pending, h.asleep⟩

/-- `process_start` of a process that is not in the list. -/
theorem startProcess (h : KernelInv s l rest) (hwaits : TopWaits s.stack)
    (hboot : s.stack = [] → s.main = .boot) (hp : p ∉ l) :
    KernelInv (s.startProcess p) (p :: l) rest where
  list := h.list.push hp
  stack := (h.stack.start hwaits hp).push hwaits rfl
  top := trivial
  main _ := by
    by_cases hnil : s.stack = []
    · exact .inl (hboot hnil)
    · exact (h.main hnil).congr (bottom_cons hnil)
  walk := h.walk.push hboot (List.suffix_cons p l)
  needs q hq := by
    have hq : Function.update s.polled p false q = true := hq
    by_cases hqp : q = p
    · rw [hqp, Function.update_self] at hq
      cases hq
    · rw [Function.update_of_ne hqp] at hq
      exact h.needs q hq
  pending q hq hpolled := by
    have hpolled : Function.update s.polled p false q = true := hpolled
    by_cases hqp : q = p
    · rw [hqp, Function.update_self] at hpolled
      cases hpolled
    · rw [Function.update_of_ne hqp] at hpolled
      exact h.pending q ((List.mem_cons.mp hq).resolve_left hqp) hpolled
  asleep := h.asleep

/-! ### The steps of the kernel -/

omit [DecidableEq π] in
/-- `process_start` has looked at `q`, which is another process. The rest of the list is still to be
looked at. -/
theorem frameCode_search {arg : ProcessData π} {q : π} (h : KernelInv s l rest)
    (hs : s.stack = .search p arg (some q) :: stack) (hqp : q ≠ p) :
    KernelInv { s with stack := .search p arg (s.next q) :: stack } l rest := by
  have htop := h.top
  rw [hs] at htop
  obtain ⟨post, hpost, hq, hmem⟩ := htop
  obtain ⟨post, rfl⟩ := List.head?_eq_some_iff.mp hq.symm
  refine h.change (g := .search p arg (s.next q)) hs rfl rfl rfl (.inl rfl)
    ⟨post, (List.suffix_cons q post).trans hpost, h.list.next_eq_head? hpost, fun hp => ?_⟩
    s.processCurrent
  exact (List.mem_cons.mp (hmem hp)).resolve_left (Ne.symm hqp)

/-- `process_start` has found that the process is not in the list. It starts it, and calls it. -/
theorem frameCode_start {arg : ProcessData π} (h : KernelInv s l rest)
    (hs : s.stack = .search p arg none :: stack) :
    KernelInv (({ s with stack := stack }.startProcess p).callProcess p processEventInit arg)
      (p :: l) rest := by
  have hstack := h.stack
  have htop := h.top
  rw [hs] at htop hstack
  obtain ⟨post, _, hq, hmem⟩ := htop
  obtain rfl := List.head?_eq_none_iff.mp hq.symm
  have hp : p ∉ l := fun hp => by cases hmem hp
  have hboot : stack = [] → s.main = .boot := by
    rintro rfl
    have hmain := h.main (by simp [hs])
    rw [hs] at hmain
    exact hmain.resolve_right fun hsome => (by cases hsome.2)
  have hstart :=
    (h.pop hs rfl s.processCurrent).startProcess (p := p) hstack.topWaits_tail hboot hp
  exact hstart.callProcess (topWaits_cons hstack.topWaits_tail rfl)
    (fun hnil => (by cases hnil)) _ _

/-- `exit_process` tells `q` that the process exits. -/
theorem frameCode_exiting {fromprocess oldCurrent : Option π} {q : π} (h : KernelInv s l rest)
    (hs : s.stack = .exiting p fromprocess oldCurrent (some q) :: stack) :
    KernelInv ({ s with stack := .exitCall p fromprocess oldCurrent q :: stack }.callProcess q
      processEventExited (.process p)) l rest := by
  have hstack := h.stack
  rw [hs] at hstack
  have hcall := h.change (g := .exitCall p fromprocess oldCurrent q) hs rfl rfl rfl
    (.inl rfl) trivial s.processCurrent
  exact hcall.callProcess (topWaits_cons hstack.topWaits_tail rfl) (fun hnil => (by cases hnil)) _ _

/-- `exit_process` has found the process behind `q` and takes it out of the list. -/
theorem frameCode_bypass {oldCurrent : Option π} {q : π} (h : KernelInv s l rest)
    (hs : s.stack = .unlink p oldCurrent (some q) :: stack) (hqp : s.next q = some p) :
    ∃ l rest, KernelInv ({ s with
      next := Function.update s.next q (s.next p)
      stack := stack }.exited oldCurrent) l rest := by
  have htop := h.top
  rw [hs] at htop
  obtain ⟨post, hpost, hq, -⟩ := htop
  obtain ⟨post, rfl⟩ := List.head?_eq_some_iff.mp hq.symm
  have hnext := h.list.next_eq_head? hpost
  rw [hqp] at hnext
  obtain ⟨post, rfl⟩ := List.head?_eq_some_iff.mp hnext.symm
  obtain ⟨pre, rfl⟩ := hpost
  have hnodup := h.list.nodup
  obtain ⟨_, htail, hdisjoint⟩ := List.nodup_append.mp hnodup
  obtain ⟨hq, htail⟩ := List.nodup_cons.mp htail
  have hpq : p ≠ q := fun hpq => hq (hpq ▸ List.mem_cons_self)
  have hpre : p ∉ pre := fun hp => hdisjoint p hp p (by simp) rfl
  refine ⟨_, _, (h.removed hs rfl ?_ (Function.update_of_ne hpq _ _) oldCurrent).resume⟩
  -- The process is in the list once, so the filter takes out just this place.
  have hfilter : (pre ++ q :: p :: post).filter (· ≠ p) = pre ++ q :: post := by
    rw [List.filter_append, filter_ne_eq_self hpre,
      List.filter_cons_of_pos (by simpa using Ne.symm hpq), List.filter_cons_of_neg (by simp),
      filter_ne_eq_self (List.nodup_cons.mp htail).1]
  rw [hfilter]
  exact h.list.bypass hnodup

omit [DecidableEq π] in
/-- `exit_process` has looked behind `q`, and another process is there. -/
theorem frameCode_unlink {oldCurrent : Option π} {q : π} (h : KernelInv s l rest)
    (hs : s.stack = .unlink p oldCurrent (some q) :: stack) (hqp : s.next q ≠ some p) :
    KernelInv { s with stack := .unlink p oldCurrent (s.next q) :: stack } l rest := by
  have htop := h.top
  rw [hs] at htop
  obtain ⟨post, hpost, hq, hmem⟩ := htop
  obtain ⟨post, rfl⟩ := List.head?_eq_some_iff.mp hq.symm
  have hnext := h.list.next_eq_head? hpost
  refine h.change (g := .unlink p oldCurrent (s.next q)) hs rfl rfl rfl (.inl rfl)
    ⟨post, (List.suffix_cons q post).trans hpost, hnext, fun hp => ?_⟩ s.processCurrent
  cases post with
  | nil => exact hmem hp
  | cons r post =>
      refine (List.mem_cons.mp (hmem hp)).resolve_left ?_
      rintro rfl
      exact hqp hnext

/-- `exit_process` has come to the end: the process was not in the list. -/
theorem frameCode_unlinkEnd {oldCurrent : Option π} (h : KernelInv s l rest)
    (hs : s.stack = .unlink p oldCurrent none :: stack) :
    ∃ l rest, KernelInv ({ s with stack := stack }.exited oldCurrent) l rest := by
  have htop := h.top
  rw [hs] at htop
  obtain ⟨post, _, hq, hmem⟩ := htop
  obtain rfl := List.head?_eq_none_iff.mp hq.symm
  have hp : p ∉ l := fun hp => by cases hmem hp
  refine ⟨_, _, (h.removed hs rfl ?_ rfl oldCurrent).resume⟩
  rw [filter_ne_eq_self hp]
  exact h.list

/-- A step of the function on top of the stack, one lemma for each place. -/
theorem frameCode {t : Kernel π} (h : KernelInv s l rest) (hst : s.frameCode = some t) :
    ∃ l rest, KernelInv t l rest := by
  unfold Kernel.frameCode at hst
  split at hst
  · -- `process_start` looks at `q`.
    rename_i p arg q stack hs
    split at hst
    · cases hst
      exact ⟨l, rest, h.pop hs rfl s.processCurrent⟩
    · rename_i hqp
      cases hst
      exact ⟨l, rest, h.frameCode_search hs hqp⟩
  · cases hst
    exact ⟨_, _, h.frameCode_start (by assumption)⟩
  · -- `exit_process` looks at `q`.
    rename_i p fromprocess oldCurrent q stack hs
    split at hst
    · cases hst
      exact ⟨l, rest, h.change (g := .exiting p fromprocess oldCurrent (s.next q)) hs rfl rfl rfl
        (.inl rfl) trivial s.processCurrent⟩
    · cases hst
      exact ⟨l, rest, h.frameCode_exiting hs⟩
  · -- It has told everyone.
    rename_i p fromprocess oldCurrent stack hs
    split at hst
    · cases hst
      exact ⟨l, rest, h.change (g := .exitThread p oldCurrent) hs rfl rfl rfl (.inl rfl) trivial
        (some p)⟩
    · cases hst
      exact h.remove hs rfl
  · -- It looks at `q`, which may be in front of the process.
    rename_i p oldCurrent q stack hs
    split at hst
    · rename_i hqp
      cases hst
      exact h.frameCode_bypass hs hqp
    · rename_i hqp
      cases hst
      exact ⟨l, rest, h.frameCode_unlink hs hqp⟩
  · cases hst
    exact h.frameCode_unlinkEnd (by assumption)
  · cases hst

/-- The thread on top of the stack returns. -/
theorem threadReturns {t : Kernel π} {exited : Bool} (h : KernelInv s l rest)
    (hst : s.threadReturns exited = some t) : ∃ l rest, KernelInv t l rest := by
  unfold Kernel.threadReturns at hst
  split at hst
  · rename_i p ev data stack hs
    have hne : s.stack ≠ [] := by simp [hs]
    obtain ⟨hlist, hstack, _, hmain, hwalk, hneeds, hpending, hasleep⟩ := h
    have hmain := hmain hne
    rw [hs] at hstack hwalk hmain
    have hstate : s.state p = .called := (hstack.called p).mpr List.mem_cons_self
    have hret := hstack.ret
    split at hst
    · -- The process exits.
      cases hst
      have hp : ({ s with stack := stack } : Kernel π).state p ≠ .none := by
        show s.state p ≠ .none
        rw [hstate]
        decide
      rw [Kernel.exitProcess, if_pos hp]
      have hleave := hret.leave (f := .exiting p (some p) s.processCurrent s.processList)
        hstack.topWaits_tail (hstack.not_mem_tail rfl) (by rw [Function.update_self]; decide) rfl
      -- The return and the exit both write the state, the second one wins.
      rw [Function.update_idem] at hleave
      have hbottom : bottom (Frame.exiting p (some p) s.processCurrent s.processList :: stack) =
          bottom (Frame.thread p ev data :: stack) := by
        cases stack with
        | nil => rfl
        | cons e stack =>
            rw [bottom_cons (List.cons_ne_nil e stack), bottom_cons (List.cons_ne_nil e stack)]
      exact ⟨l, rest, hlist, hleave, trivial, fun _ => hmain.congr hbottom,
        hwalk.congr (List.cons_ne_nil _ _) (List.cons_ne_nil _ _) hbottom l.suffix_refl, hneeds,
        hpending, hasleep⟩
    · cases hst
      -- It returns to the call below it.
      refine ⟨l, rest, KernelInv.resume ⟨hlist, hret, topOk_of_topWaits hstack.topWaits_tail,
        fun hne => hmain.congr (bottom_cons hne).symm, hwalk.pop hlist, hneeds, hpending,
        hasleep⟩⟩
  · rename_i p oldCurrent stack hs
    cases hst
    exact h.remove hs rfl
  · cases hst

/-- `process_poll`. -/
theorem processPoll (h : KernelInv s l rest) (hmain : s.main ≠ .asleep) (p : π) :
    KernelInv (s.processPoll p) l rest := by
  unfold Kernel.processPoll
  split
  · refine ⟨h.list, h.stack, h.top, h.main, h.walk, fun q hq => ?_, fun q hq _ => .inl rfl,
      fun hasleep => absurd hasleep hmain⟩
    have hq : Function.update s.polled p true q = true := hq
    show Function.update s.needspoll p true q = true
    rw [Function.update_apply] at hq ⊢
    split at hq
    · rename_i hqp
      rw [if_pos hqp]
    · rename_i hqp
      rw [if_neg hqp]
      exact h.needs q hq
  · exact h

/-- An interrupt. -/
theorem interrupt (h : KernelInv s l rest) (p : π) : KernelInv (s.interrupt p) l rest := by
  have hwake : KernelInv { s with main := if s.main = .asleep then .run else s.main } l rest := by
    split
    · rename_i hasleep
      have hwalk := h.walk
      rw [hasleep] at hwalk
      refine ⟨h.list, h.stack, h.top, fun hne => ?_, hwalk, h.needs, h.pending,
        fun heq => (by cases heq)⟩
      have hmain := (h.main hne).waits
      rw [hasleep] at hmain
      cases hmain
    · exact h
  have hne : (if s.main = .asleep then .run else s.main) ≠ MainPc.asleep := by
    split
    · intro heq
      cases heq
    · assumption
  -- The handler polls before it wakes the processor, which makes no difference.
  have hcomm : s.interrupt p =
      { s with main := if s.main = MainPc.asleep then .run else s.main }.processPoll p := by
    unfold Kernel.interrupt Kernel.processPoll
    split <;> rfl
  rw [hcomm]
  exact hwake.processPoll hne p

/-! ### The main loop

`mainCode` has one lemma for each place of the main loop, `MainPc`. Its steps are taken with no call
on the stack. Most of them only go on to another place (`goto`), and the others call a process. -/

section MainLoop

variable (h : KernelInv s l rest) (hs : s.stack = [])

include h hs

omit [DecidableEq π] in
/-- With no call on the stack the main loop goes on to `pc`. What `do_poll` has before it has to be
known there, and the processor does not fall asleep. -/
theorem goto {pc : MainPc π} (hwalk : Walk pc [] s.next l rest) (hpc : pc ≠ .asleep) :
    KernelInv { s with main := pc } l rest := by
  refine ⟨h.list, h.stack, h.top, fun hne => absurd hs hne, ?_, h.needs, h.pending,
    fun heq => absurd heq hpc⟩
  rw [hs]
  exact hwalk

omit [DecidableEq π] in
/-- What `do_poll` has before it, at the place where the main loop is. -/
theorem walk_of {pc : MainPc π} (hpc : s.main = pc) : Walk pc [] s.next l rest := by
  have hwalk := h.walk
  rw [hpc, hs] at hwalk
  exact hwalk

omit [DecidableEq π] in
/-- No call is on the stack, so a process that has not ended is not being called either. -/
theorem running_of_ne_none (hp : s.state p ≠ .none) : s.state p = .running := by
  cases hstate : s.state p with
  | running => rfl
  | none => exact absurd hstate hp
  | called =>
      have hmem := (h.stack.called p).mp hstate
      rw [hs] at hmem
      cases hmem

omit [DecidableEq π] in
/-- The processes in the list have not ended: one that has is there only while the call that ended
it is on the stack. -/
theorem running_of_listed (hp : p ∈ l) : s.state p = .running := by
  refine h.running_of_ne_none hs fun hnone => ?_
  have hmem := h.stack.ended p hp hnone
  rw [hs] at hmem
  cases hmem

/-- `do_event`. The receiver of the event is not called for `PROCESS_EVENT_INIT`, which
`process_start` does by a call of its own, so its state stays as it is before the call. -/
theorem doEvent (hmain : s.main = .doEvent)
    (hinit : 0 < s.nevents → (s.events s.fevent).p ≠ none →
      (s.events s.fevent).ev ≠ processEventInit) : KernelInv s.doEvent l rest := by
  have hnil : rest = [] := h.walk_of hs hmain
  unfold Kernel.doEvent
  split
  · rename_i hpos
    have htake : KernelInv s.takeEvent l rest :=
      ⟨h.list, h.stack, h.top, h.main, h.walk, h.needs, h.pending, fun heq => by
        rw [show s.takeEvent.main = .doEvent from hmain] at heq
        cases heq⟩
    dsimp only
    split
    · have hgoto := htake.goto hs (show Walk (.broadcast (s.events s.fevent).ev
        (s.events s.fevent).data s.processList) [] s.next l rest from hnil) (nofun)
      exact ⟨hgoto.list, hgoto.stack, hgoto.top, hgoto.main, hgoto.walk, hgoto.needs,
        hgoto.pending, hgoto.asleep⟩
    · rename_i p hp
      have hne : (s.events s.fevent).p ≠ none := by
        rw [hp]
        exact Option.some_ne_none p
      rw [if_neg (hinit hpos hne)]
      have hgoto : KernelInv { s.takeEvent with main := .eventCall } l rest :=
        htake.goto hs hnil (nofun)
      exact hgoto.callProcess (topWaits_of_nil hs) (fun _ => ⟨rfl, hnil, nofun⟩) _ _
  · exact h.goto hs hnil (nofun)

omit [DecidableEq π] in
/-- `process_run` reads `poll_requested`, and calls `do_poll` first when it is set. -/
theorem mainCode_run (hpc : s.main = .run) :
    KernelInv { s with main := if s.pollRequested then .doPoll .event else .doEvent } l rest := by
  have hnil : rest = [] := h.walk_of hs hpc
  split
  · exact h.goto hs hnil (nofun)
  · exact h.goto hs hnil (nofun)

omit [DecidableEq π] in
/-- `do_poll` clears `poll_requested`, and begins at the head of the list: every process that waits
for its poll is before it. -/
theorem mainCode_doPoll {after : AfterPoll π} :
    KernelInv { s with pollRequested := false, main := .poll after s.processList } l l :=
  ⟨h.list, h.stack, h.top, fun hne => absurd hs hne, ⟨l.suffix_refl, h.head?_eq⟩, h.needs,
    fun _ hp _ => .inr hp, nofun⟩

omit [DecidableEq π] in
/-- `do_poll` has come to the end of the list. -/
theorem mainCode_pollEnd {after : AfterPoll π} (hpc : s.main = .poll after none) :
    KernelInv { s with main := after.pc } l rest := by
  have hwalk : rest <:+ l ∧ none = rest.head? := h.walk_of hs hpc
  have hnil : rest = [] := List.head?_eq_none_iff.mp hwalk.2.symm
  cases after with
  | event => exact h.goto hs hnil (nofun)
  | broadcast => exact h.goto hs hnil (nofun)

omit [DecidableEq π] in
/-- `do_poll` looks at `p`. It goes past a process that does not need a poll, and such a one was not
polled, so it is not among those that the rest of the list has to cover. -/
theorem mainCode_poll {after : AfterPoll π} (hpc : s.main = .poll after (some p)) :
    ∃ rest, KernelInv { s with
      main := if s.needspoll p then .pollNow after p else .poll after (s.next p) } l rest := by
  obtain ⟨hsuffix, hhead⟩ : rest <:+ l ∧ some p = rest.head? := h.walk_of hs hpc
  obtain ⟨rest, rfl⟩ := List.head?_eq_some_iff.mp hhead.symm
  cases hneeds : s.needspoll p with
  | true => exact ⟨p :: rest, h.goto hs ⟨hsuffix, hhead⟩ (nofun)⟩
  | false =>
      refine ⟨rest, h.list, h.stack, h.top, fun hne => absurd hs hne,
        ⟨(List.suffix_cons p rest).trans hsuffix, h.list.next_eq_head? hsuffix⟩, h.needs,
        fun q hq hpolled => ?_, nofun⟩
      refine (h.pending q hq hpolled).imp_right fun hmem => ?_
      refine (List.mem_cons.mp hmem).resolve_left ?_
      rintro rfl
      rw [h.needs q hpolled] at hneeds
      cases hneeds

/-- `do_poll` calls `p`, whose poll is served with that. Those behind `p` are still before it. -/
theorem mainCode_pollNow {after : AfterPoll π} (hpc : s.main = .pollNow after p) :
    ∃ rest, KernelInv ({ s with
      state := Function.update s.state p .running
      needspoll := Function.update s.needspoll p false
      polled := Function.update s.polled p false
      main := .pollCall after p }.callProcess p processEventPoll .null) l rest := by
  obtain ⟨hsuffix, hhead⟩ : rest <:+ l ∧ some p = rest.head? := h.walk_of hs hpc
  obtain ⟨rest, rfl⟩ := List.head?_eq_some_iff.mp hhead.symm
  have hrunning := h.running_of_listed hs (hsuffix.subset List.mem_cons_self)
  have hbottom : bottom (.thread p processEventPoll .null :: s.stack) = some p := by
    rw [hs]
    rfl
  rw [← hrunning, Function.update_eq_self, Kernel.callProcess, if_pos hrunning]
  refine ⟨rest, h.list, h.stack.call (topWaits_of_nil hs) hrunning _ _, trivial,
    fun _ => .inr ⟨rfl, by rw [hbottom]; rfl⟩,
    ⟨fun hnil => (by cases hnil), fun _ => ⟨hbottom, hsuffix⟩⟩, fun q hq => ?_,
    fun q hq hpolled => ?_, nofun⟩
  · -- A poll of another process stays, with its flag.
    have hq : Function.update s.polled p false q = true := hq
    show Function.update s.needspoll p false q = true
    rw [Function.update_apply] at hq ⊢
    split at hq
    · cases hq
    · rename_i hqp
      rw [if_neg hqp]
      exact h.needs q hq
  · have hpolled : Function.update s.polled p false q = true := hpolled
    rw [Function.update_apply] at hpolled
    split at hpolled
    · cases hpolled
    · rename_i hqp
      -- Who waits for its poll is behind the walk, and `p` is not.
      exact (h.pending q hq hpolled).imp_right fun hmem =>
        (List.mem_cons.mp hmem).resolve_left hqp

omit [DecidableEq π] in
/-- The loop of `do_event` reads `poll_requested` before each receiver of a broadcast. -/
theorem mainCode_broadcast {ev : UInt8} {data : ProcessData π}
    (hpc : s.main = .broadcast ev data (some p)) :
    KernelInv { s with main :=
      if s.pollRequested then .doPoll (.broadcast ev data p) else .deliver ev data p } l rest := by
  have hnil : rest = [] := h.walk_of hs hpc
  split
  · exact h.goto hs hnil (nofun)
  · exact h.goto hs hnil (nofun)

/-- The loop of `do_event` calls the receiver `p`. -/
theorem mainCode_deliver {ev : UInt8} {data : ProcessData π} (hpc : s.main = .deliver ev data p) :
    KernelInv ({ s with
      main := .broadcastCall ev data p
      heard := if s.state p = ProcessState.running then s.heard ++ [p] else s.heard
      }.callProcess p ev data) l rest := by
  have hnil : rest = [] := h.walk_of hs hpc
  have hcall : KernelInv { s with
      main := .broadcastCall ev data p
      heard := if s.state p = .running then s.heard ++ [p] else s.heard } l rest :=
    ⟨h.list, h.stack, h.top, fun hne => absurd hs hne, hnil, h.needs, h.pending, nofun⟩
  exact hcall.callProcess (topWaits_of_nil hs) (fun _ => ⟨rfl, hnil, nofun⟩) _ _

omit [DecidableEq π] in
/-- `process_run` returns, and the main loop calls it again while there is something to do. -/
theorem mainCode_ran (hpc : s.main = .ran) :
    KernelInv { s with main := if 0 < s.nevents ∨ s.pollRequested then .run else .idle } l
      rest := by
  have hnil : rest = [] := h.walk_of hs hpc
  split
  · exact h.goto hs hnil (nofun)
  · exact h.goto hs hnil (nofun)

/-- A step of the main loop. -/
theorem mainCode {t : Kernel π}
    (hinit : 0 < s.nevents → (s.events s.fevent).p ≠ none →
      (s.events s.fevent).ev ≠ processEventInit) (hst : s.mainCode = some t) :
    ∃ l rest, KernelInv t l rest := by
  rw [Kernel.mainCode] at hst
  cases hpc : s.main with
  -- Here the main loop waits for a call, for the interrupt or for the boot.
  | boot | pollCall | broadcastCall | eventCall | idle | asleep =>
      rw [hpc] at hst
      cases hst
  | run =>
      rw [hpc] at hst
      cases hst
      exact ⟨l, rest, h.mainCode_run hs hpc⟩
  | doPoll after =>
      rw [hpc] at hst
      cases hst
      exact ⟨l, l, h.mainCode_doPoll hs⟩
  | poll after c =>
      rw [hpc] at hst
      cases c with
      | none =>
          cases hst
          exact ⟨l, rest, h.mainCode_pollEnd hs hpc⟩
      | some p =>
          cases hst
          exact ⟨l, h.mainCode_poll hs hpc⟩
  | pollNow after p =>
      rw [hpc] at hst
      cases hst
      exact ⟨l, h.mainCode_pollNow hs hpc⟩
  | doEvent =>
      rw [hpc] at hst
      cases hst
      exact ⟨l, rest, h.doEvent hs hpc hinit⟩
  | broadcast ev data c =>
      rw [hpc] at hst
      cases c with
      | none =>
          cases hst
          -- The broadcast has come to the end of the list.
          have hnil : rest = [] := h.walk_of hs hpc
          exact ⟨l, rest, h.goto hs hnil (nofun)⟩
      | some p =>
          cases hst
          exact ⟨l, rest, h.mainCode_broadcast hs hpc⟩
  | deliver ev data p =>
      rw [hpc] at hst
      cases hst
      exact ⟨l, rest, h.mainCode_deliver hs hpc⟩
  | ran =>
      rw [hpc] at hst
      cases hst
      exact ⟨l, rest, h.mainCode_ran hs hpc⟩

end MainLoop

end KernelInv

/-! ### The queue of the events -/

namespace Kernel

variable {s t : Kernel π}

/-- The events in the queue, the first one first. -/
def contents (s : Kernel π) : List (ProcessEvent π) :=
  ringContents s.events processConfNumevents s.fevent s.nevents

/-- The variables of the queue, and its records. -/
def queue (s : Kernel π) :
    (Nat → ProcessEvent π) × Nat × Nat × List (ProcessEvent π) × List (ProcessEvent π) :=
  (s.events, s.fevent, s.nevents, s.posted, s.taken)

/-- The queue is not touched when a call returns. -/
@[simp] theorem queue_resume (s : Kernel π) : s.resume.queue = s.queue := by
  unfold resume
  split <;> try rfl
  split <;> rfl

variable [DecidableEq π]

/-- `call_process` calls a thread, which may post events in steps of its own. -/
@[simp] theorem queue_callProcess (s : Kernel π) (p : π) (ev : UInt8) (data : ProcessData π) :
    (s.callProcess p ev data).queue = s.queue := by
  unfold callProcess
  split
  · rfl
  · exact s.queue_resume

/-- `exit_process` unlinks the process and leaves the events for it in the queue. -/
@[simp] theorem queue_remove (s : Kernel π) (p : π) (oldCurrent : Option π) :
    (s.remove p oldCurrent).queue = s.queue := by
  unfold remove exited
  split
  · exact queue_resume _
  · rfl

/-- The first step of `exit_process` does not touch the queue either. -/
@[simp] theorem queue_exitProcess (s : Kernel π) (p : π) (fromprocess : Option π) :
    (s.exitProcess p fromprocess).queue = s.queue := by
  unfold exitProcess
  split
  · rfl
  · exact queue_remove _ _ _

/-- A poll is a flag of the process and not an event. -/
@[simp] theorem queue_processPoll (s : Kernel π) (p : π) : (s.processPoll p).queue = s.queue := by
  unfold processPoll
  split <;> rfl

/-- The steps of the functions on the stack leave the queue as it is. -/
theorem queue_frameCode (h : s.frameCode = some t) : t.queue = s.queue := by
  unfold frameCode at h
  split at h
  · split at h <;> cases h <;> rfl
  · cases h
    exact queue_callProcess _ _ _ _
  · split at h
    · cases h
      rfl
    · cases h
      exact queue_callProcess _ _ _ _
  · split at h
    · cases h
      rfl
    · cases h
      exact queue_remove _ _ _
  · split at h
    · cases h
      exact queue_resume _
    · cases h
      rfl
  · cases h
    exact queue_resume _
  · cases h

/-- So does the return of a thread. -/
theorem queue_threadReturns {exited : Bool} (h : s.threadReturns exited = some t) :
    t.queue = s.queue := by
  unfold threadReturns at h
  split at h
  · split at h
    · cases h
      exact queue_exitProcess _ _ _
    · cases h
      exact queue_resume _
  · cases h
    exact queue_remove _ _ _
  · cases h

/-- Only `do_event` takes events. -/
theorem queue_mainCode (hmain : s.main ≠ .doEvent) (h : s.mainCode = some t) :
    t.queue = s.queue := by
  unfold mainCode at h
  split at h <;> try cases h <;> first | rfl | exact queue_callProcess _ _ _ _
  · rename_i hpc
    exact absurd hpc hmain

/-- `do_event` takes one event from a queue that is not empty, before it calls anybody. -/
theorem queue_doEvent (s : Kernel π) :
    s.doEvent.queue = if 0 < s.nevents then s.takeEvent.queue else s.queue := by
  unfold doEvent
  split
  · dsimp only
    split
    · rfl
    · split <;> exact queue_callProcess _ _ _ _
  · rfl

end Kernel

/-- The events go through the queue in their order, and no process is sent `PROCESS_EVENT_INIT`. -/
structure QueueInv (s : Kernel π) : Prop where
  fevent : s.fevent < processConfNumevents
  nevents : s.nevents ≤ processConfNumevents
  order : s.taken ++ s.contents = s.posted
  noInit : ∀ e ∈ s.posted, e.p ≠ none → e.ev ≠ processEventInit

namespace QueueInv

variable {s t : Kernel π}

/-- The invariant is about the queue and its records only. -/
theorem congr (h : QueueInv s) (hst : t.queue = s.queue) : QueueInv t := by
  simp only [Kernel.queue, Prod.mk.injEq] at hst
  obtain ⟨hevents, hfevent, hnevents, hposted, htaken⟩ := hst
  refine ⟨hfevent ▸ h.fevent, hnevents ▸ h.nevents, ?_, hposted ▸ h.noInit⟩
  rw [Kernel.contents, hevents, hfevent, hnevents, hposted, htaken]
  exact h.order

/-- The first event. -/
theorem first (h : QueueInv s) (hpos : 0 < s.nevents) :
    s.taken ++ [s.events s.fevent] ++ s.takeEvent.contents = s.posted := by
  have horder := h.order
  obtain ⟨n, hn⟩ : ∃ n, s.nevents = n + 1 := ⟨s.nevents - 1, by omega⟩
  rw [Kernel.contents, hn, ringContents_pop, Nat.mod_eq_of_lt h.fevent] at horder
  rw [← horder, Kernel.contents, List.append_assoc]
  show _ ++ ([_] ++ ringContents s.events processConfNumevents _ (s.nevents - 1)) = _
  rw [hn]
  rfl

/-- `do_event` does not find `PROCESS_EVENT_INIT` for a process. -/
theorem first_ne_init (h : QueueInv s) (hpos : 0 < s.nevents)
    (hp : (s.events s.fevent).p ≠ none) : (s.events s.fevent).ev ≠ processEventInit := by
  refine h.noInit _ ?_ hp
  rw [← h.first hpos]
  simp

/-- The event that is taken goes from the contents to the record of the taken ones, so that both
together stay what was posted. -/
theorem takeEvent (h : QueueInv s) (hpos : 0 < s.nevents) : QueueInv s.takeEvent where
  fevent := Nat.mod_lt _ (by decide)
  nevents := Nat.le_trans (Nat.sub_le _ _) h.nevents
  order := h.first hpos
  noInit := h.noInit

/-- `process_post`. -/
theorem processPost (h : QueueInv s) {p : Option π} {ev : UInt8} (data : ProcessData π)
    (hinit : p ≠ none → ev ≠ processEventInit) : QueueInv (s.processPost p ev data) := by
  unfold Kernel.processPost
  split
  · exact h
  · rename_i hne
    have hlt : s.nevents < processConfNumevents := Nat.lt_of_le_of_ne h.nevents hne
    refine ⟨h.fevent, hlt, ?_, ?_⟩
    · show s.taken ++ ringContents _ _ _ _ = s.posted ++ _
      rw [ringContents_push s.events hlt, ← List.append_assoc]
      exact congrArg (· ++ _) h.order
    · intro e he
      rcases List.mem_append.mp he with he | he
      · exact h.noInit e he
      · rw [List.mem_singleton.mp he]
        exact hinit

variable [DecidableEq π]

/-- `do_event` takes one event, or none from an empty queue. -/
theorem doEvent (h : QueueInv s) : QueueInv s.doEvent := by
  have hqueue := s.queue_doEvent
  split at hqueue
  · rename_i hpos
    exact (h.takeEvent hpos).congr hqueue
  · exact h.congr hqueue

end QueueInv

/-! ### Runs -/

variable [DecidableEq π]

/-- `process_exit` is not called for a process that has a call on the stack, and
`PROCESS_EVENT_INIT` is not posted to a process. -/
def Orderly (s : Kernel π) : KernelLabel π → Prop
  | .exit p => p ∉ s.stack.filterMap Frame.process
  | .post (some _) ev _ => ev ≠ processEventInit
  | _ => True

instance (s : Kernel π) (a : KernelLabel π) : Decidable (Orderly s a) := by
  unfold Orderly
  split <;> infer_instance

/-- The invariant of the kernel with its queue. -/
def KernelSound (s : Kernel π) : Prop := (∃ l rest, KernelInv s l rest) ∧ QueueInv s

omit [DecidableEq π] in
/-- At the start no process is in the list, and the queue is empty. -/
theorem kernelSound_init : KernelSound (Kernel.init : Kernel π) := by
  refine ⟨⟨[], [], .nil _, ?_, trivial, fun hne => absurd rfl hne, rfl, ?_, ?_, ?_⟩, ?_⟩
  · constructor
    case nodup => exact List.nodup_nil
    case called => exact fun p => ⟨fun h => (by cases h), fun h => (by cases h)⟩
    case listed => exact fun p hp => absurd rfl hp
    all_goals exact fun p hp => by cases hp
  · exact fun p hp => by cases hp
  · exact fun p hp => by cases hp
  · exact fun hmain => by cases hmain
  · exact ⟨Nat.succ_pos 7, Nat.zero_le _, rfl, fun e he => (by cases he)⟩

/-- The frames below a thread that runs wait. -/
theorem KernelInv.of_runs {s : Kernel π} {l rest : List π} (h : KernelInv s l rest)
    (hruns : s.runs = true) :
    TopWaits s.stack ∧ (s.stack = [] → s.main = .boot) ∧ s.main ≠ .asleep := by
  have hstack := h.stack
  have hmain := h.main
  unfold Kernel.runs at hruns
  split at hruns
  · rename_i p ev data stack hs
    rw [hs] at hstack hmain ⊢
    refine ⟨topWaits_cons hstack.topWaits_tail rfl, fun hnil => (by cases hnil), fun heq => ?_⟩
    have hwaits := (hmain (List.cons_ne_nil _ _)).waits
    rw [heq] at hwaits
    cases hwaits
  · rename_i p oldCurrent stack hs
    rw [hs] at hstack hmain ⊢
    refine ⟨topWaits_cons hstack.topWaits_tail rfl, fun hnil => (by cases hnil), fun heq => ?_⟩
    have hwaits := (hmain (List.cons_ne_nil _ _)).waits
    rw [heq] at hwaits
    cases hwaits
  · rename_i hs
    have hboot : s.main = .boot := by simpa using hruns
    refine ⟨fun f hf => ?_, fun _ => hboot, fun heq => ?_⟩
    · rw [hs] at hf
      cases hf
    · rw [hboot] at heq
      cases heq
  · cases hruns

omit [DecidableEq π] in
/-- The end of the main loop: the node goes to sleep when there is nothing left to do. -/
theorem KernelInv.sleep {s : Kernel π} {l rest : List π} (h : KernelInv s l rest)
    (hs : s.stack = []) (hmain : s.main = .idle) (uart1Active : Bool) :
    KernelInv (s.sleep uart1Active) l rest := by
  have hwalk := h.walk
  rw [hmain] at hwalk
  refine ⟨h.list, h.stack, h.top, fun hne => absurd hs hne, ?_, h.needs, h.pending, fun heq => ?_⟩
  · show Walk (if _ then _ else _) _ _ _ _
    split <;> exact hwalk
  · have heq : (if s.nevents ≠ 0 ∨ s.pollRequested = true ∨ uart1Active = true then
        MainPc.run else .asleep) = .asleep := heq
    split at heq
    · cases heq
    · rename_i hnone
      simp only [not_or, ne_eq, not_not, Bool.not_eq_true] at hnone
      exact ⟨hnone.1, hnone.2.1⟩

omit [DecidableEq π] in
/-- `process_post` writes to the event queue, or fails. The node is not asleep, since a process or
the start of the node calls it. -/
theorem KernelInv.processPost {s : Kernel π} {l rest : List π} (h : KernelInv s l rest)
    (hasleep : s.main ≠ .asleep) (p : Option π) (ev : UInt8) (data : ProcessData π) :
    KernelInv (s.processPost p ev data) l rest := by
  unfold Kernel.processPost
  split
  · exact h
  · exact ⟨h.list, h.stack, h.top, h.main, h.walk, h.needs, h.pending,
      fun heq => absurd heq hasleep⟩

/-- An orderly step keeps the invariant. -/
theorem KernelSound.step {s t : Kernel π} {a : KernelLabel π} (h : KernelSound s)
    (ha : Orderly s a) (hst : s.step a = some t) : KernelSound t := by
  obtain ⟨⟨l, rest, h⟩, hqueue⟩ := h
  cases a with
  | interrupt p =>
      cases hst
      exact ⟨⟨l, rest, h.interrupt p⟩, hqueue.congr (s.queue_processPoll p)⟩
  | code =>
      have hst : (if s.stack = [] then s.mainCode else s.frameCode) = some t := hst
      split at hst
      · rename_i hs
        refine ⟨h.mainCode hs hqueue.first_ne_init hst, ?_⟩
        -- Only `do_event` takes an event out of the queue.
        by_cases hmain : s.main = .doEvent
        · rw [Kernel.mainCode, hmain] at hst
          cases hst
          exact hqueue.doEvent
        · exact hqueue.congr (Kernel.queue_mainCode hmain hst)
      · exact ⟨h.frameCode hst, hqueue.congr (Kernel.queue_frameCode hst)⟩
  | idle uart1Active =>
      obtain ⟨⟨hs, hmain⟩, ⟨⟩⟩ := Option.ite_none_right_eq_some.mp hst
      exact ⟨⟨l, rest, h.sleep hs hmain uart1Active⟩, hqueue.congr rfl⟩
  | booted =>
      obtain ⟨⟨hs, hmain⟩, ⟨⟩⟩ := Option.ite_none_right_eq_some.mp hst
      have hnil : rest = [] := h.walk_of hs hmain
      exact ⟨⟨l, rest, h.goto hs hnil (nofun)⟩, hqueue.congr rfl⟩
  | start p arg =>
      obtain ⟨hruns, ⟨⟩⟩ := Option.ite_none_right_eq_some.mp hst
      obtain ⟨hwaits, hboot, _⟩ := h.of_runs hruns
      exact ⟨⟨l, rest, h.push hwaits hboot rfl ⟨l, l.suffix_refl, h.head?_eq, id⟩⟩,
        hqueue.congr rfl⟩
  | exit p =>
      obtain ⟨hruns, ⟨⟩⟩ := Option.ite_none_right_eq_some.mp hst
      obtain ⟨hwaits, hboot, _⟩ := h.of_runs hruns
      exact ⟨h.exitProcess hwaits hboot ha s.processCurrent,
        hqueue.congr (s.queue_exitProcess p s.processCurrent)⟩
  | post p ev data =>
      obtain ⟨hruns, ⟨⟩⟩ := Option.ite_none_right_eq_some.mp hst
      obtain ⟨_, _, hasleep⟩ := h.of_runs hruns
      refine ⟨⟨l, rest, h.processPost hasleep p ev data⟩, hqueue.processPost data fun hp => ?_⟩
      cases p with
      -- A broadcast may be any event, an event for one process is not the first one of a thread.
      | none => exact absurd rfl hp
      | some p => exact ha
  | postSynch p ev data =>
      obtain ⟨hruns, ⟨⟩⟩ := Option.ite_none_right_eq_some.mp hst
      obtain ⟨hwaits, hboot, _⟩ := h.of_runs hruns
      have hpush := h.push (f := .postSynch s.processCurrent) hwaits hboot rfl trivial
      exact ⟨⟨l, rest, hpush.callProcess (topWaits_cons hwaits rfl) (fun hnil => (by cases hnil))
        ev data⟩, hqueue.congr (Kernel.queue_callProcess _ _ _ _)⟩
  | poll p =>
      obtain ⟨hruns, ⟨⟩⟩ := Option.ite_none_right_eq_some.mp hst
      obtain ⟨_, _, hasleep⟩ := h.of_runs hruns
      exact ⟨⟨l, rest, h.processPoll hasleep p⟩, hqueue.congr (s.queue_processPoll p)⟩
  | ret exited =>
      exact ⟨h.threadReturns hst, hqueue.congr (Kernel.queue_threadReturns hst)⟩

/-- The invariant holds in every orderly run. -/
theorem kernelSound {s : Kernel π} (h : (kernel π).ReachableIf Orderly s) : KernelSound s :=
  h.invariant KernelSound kernelSound_init fun _ _ _ hs ha hst => hs.step ha hst

/-- **No lost wake-up.** When the processor sleeps, every event that was posted has been taken out
of the queue, and no running process waits for a poll. -/
theorem asleep_served {s : Kernel π} (h : (kernel π).ReachableIf Orderly s)
    (hasleep : s.main = .asleep) :
    s.taken = s.posted ∧ ∀ p, s.state p ≠ .none → s.polled p = false := by
  obtain ⟨⟨l, rest, hinv⟩, hqueue⟩ := kernelSound h
  obtain ⟨hnevents, hrequested⟩ := hinv.asleep hasleep
  constructor
  · have horder := hqueue.order
    rw [Kernel.contents, hnevents, ringContents_zero, List.append_nil] at horder
    exact horder
  · intro p hp
    have hwalk := hinv.walk
    rw [hasleep] at hwalk
    obtain rfl : rest = [] := hwalk
    rw [← Bool.not_eq_true]
    intro hpolled
    rcases hinv.pending p (hinv.stack.listed p hp) hpolled with hreq | hmem
    · rw [hrequested] at hreq
      cases hreq
    · cases hmem

/-- **No re-entrance.** No process is called while one of its calls is on the stack, and the
processes in the list are those that run and those that are about to leave it. -/
theorem runs_once {s : Kernel π} (h : (kernel π).ReachableIf Orderly s) :
    (s.stack.filterMap Frame.process).Nodup ∧
      ∃ l, Segment s.next s.processList l none ∧
        ∀ p, s.state p ≠ .none ↔ p ∈ l ∧ p ∉ s.stack.filterMap Frame.leaving := by
  obtain ⟨⟨l, rest, hinv⟩, _⟩ := kernelSound h
  refine ⟨hinv.stack.nodup, l, hinv.list, fun p => ⟨fun hp => ⟨hinv.stack.listed p hp, ?_⟩, ?_⟩⟩
  · intro hmem
    exact hp (hinv.stack.leaving p hmem)
  · rintro ⟨hp, hnot⟩ hstate
    exact hnot (hinv.stack.ended p hp hstate)

/-! ### A run -/

/-- Two processes are started, and the second one posts a broadcast. -/
def twoProcesses : List (KernelLabel Bool) :=
  [.start true .null, .code, .ret false, .start false .null, .code, .code,
    .post none 0x88 .null, .ret false, .booted]

/-- The broadcast. The first process is polled while the second one runs. -/
def broadcastRun : List (KernelLabel Bool) :=
  [.code, .code, .code, .code, .interrupt true, .ret false, .code, .code, .code, .code, .code,
    .ret false, .code, .code, .ret false]

/-- After the broadcast the processor sleeps. -/
theorem asleep_served_twoProcesses : ∃ s : Kernel Bool,
    (kernel Bool).ReachableIf Orderly s ∧ s.main = .asleep ∧ s.posted.length = 1 ∧
      s.taken = s.posted ∧ ∀ p, s.state p ≠ .none → s.polled p = false := by
  have hend : ((kernel Bool).runIf Orderly Kernel.init
      (twoProcesses ++ broadcastRun ++ [.code, .code, .idle false])).map
        (fun s => (s.main, s.posted.length)) = some (.asleep, 1) := by
    decide
  obtain ⟨s, hs, hf⟩ := Machine.exists_reachableIf_of_runIf (M := kernel Bool) hend
  simp only [Prod.mk.injEq] at hf
  exact ⟨s, hs, hf.1, hf.2, asleep_served hs hf.1⟩

/-- While a process runs it is in the list, and nobody leaves. -/
theorem runs_once_twoProcesses : ∃ s : Kernel Bool,
    s.stack.filterMap Frame.process = [false] ∧
      (s.stack.filterMap Frame.process).Nodup ∧ ∃ l, Segment s.next s.processList l none ∧
        ∀ p, s.state p ≠ .none ↔ p ∈ l ∧ p ∉ s.stack.filterMap Frame.leaving := by
  have hend : ((kernel Bool).runIf Orderly Kernel.init
      (twoProcesses ++ broadcastRun.take 4)).map
        (fun s => s.stack.filterMap Frame.process) = some [false] := by
    decide
  obtain ⟨s, hs, hf⟩ := Machine.exists_reachableIf_of_runIf (M := kernel Bool) hend
  exact ⟨s, hf, runs_once hs⟩

/-- A process that makes the one that called it exit calls this one again. -/
theorem reentrance_reachable : ∃ s : Kernel Bool,
    (kernel Bool).Reachable s ∧ s.stack.filterMap Frame.process = [true, false, true] := by
  have hend : ((kernel Bool).run
      (twoProcesses ++ [.code, .code, .code, .code, .ret false, .code, .code,
        .postSynch false 0x89 .null, .exit true, .code, .code, .code])).map
        (fun s => s.stack.filterMap Frame.process) = some [true, false, true] := by
    decide
  exact Machine.exists_reachable_of_run hend

end PTunes.Core
