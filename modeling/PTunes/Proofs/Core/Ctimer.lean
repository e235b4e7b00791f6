import PTunes.Core.Ctimer
import PTunes.Proofs.Core.Etimer

/-!
# `PTunes.Proofs.Core.Ctimer`: when a callback comes

`callbacks_ok`: in every run, with the clock interrupt at any point, a callback comes only for a
timer that was started since its last callback or stop. So there is at most one for each start, and
none after a stop. It has the function of the last `ctimer_set`, and it does not come before the
interval has passed.

The last part needs that no event of the timer was in the queue when it was set. `ctimer_stop` and
`ctimer_set` leave such an event there, and it is then taken for the one of the new interval.
-/

set_option autoImplicit false

namespace PTunes.Core

namespace Ctimers

variable {κ ε π φ : Type} [DecidableEq κ]

/-! ### What the record says of a timer -/

/-- The timer was started, and neither stopped nor called back since. -/
def running (c : κ) : List (CtimerEvent κ φ) → Bool
  | [] => false
  | .set c' .. :: h | .reset c' _ :: h => c' == c || running c h
  | .stop c' :: h | .callback c' .. :: h => c' != c && running c h

/-- The function of the last `ctimer_set`. -/
def lastFunction (c : κ) : List (CtimerEvent κ φ) → Option φ
  | [] => none
  | .set c' _ _ f _ :: h => if c' = c then f else lastFunction c h
  | _ :: h => lastFunction c h

/-- The time and the interval of the last start, if it was a `ctimer_set` with no event of the timer
in the queue. -/
def lastStart (c : κ) : List (CtimerEvent κ φ) → Option (Nat × UInt16)
  | [] => none
  | .set c' time t _ stale :: h =>
    if c' = c then (if stale then none else some (time, t)) else lastStart c h
  | .reset c' _ :: h => if c' = c then none else lastStart c h
  | _ :: h => lastStart c h

/-- A callback is one of a running timer, with its function, and not early. -/
def CallbackOk (c : κ) (f : Option φ) (time : Nat) (h : List (CtimerEvent κ φ)) : Prop :=
  running c h ∧ f = lastFunction c h ∧
    ∀ start t, lastStart c h = some (start, t) → start + t.toNat ≤ time

/-- Every callback is. -/
def CallbacksOk : List (CtimerEvent κ φ) → Prop
  | [] => True
  | .callback c f time :: h => CallbackOk c f time h ∧ CallbacksOk h
  | _ :: h => CallbacksOk h

/-- What follows an event holds of it. -/
theorem CallbacksOk.of_append {h₁ h₂ : List (CtimerEvent κ φ)} {e : CtimerEvent κ φ}
    (h : CallbacksOk (h₁ ++ e :: h₂)) : CallbacksOk (e :: h₂) := by
  induction h₁ with
  | nil => exact h
  | cons e' h₁ ih =>
      refine ih ?_
      cases e' with
      | callback => exact h.2
      | _ => exact h

end Ctimers

/-- The other event timers are set by processes. -/
def OthersCalledByProcess {κ ε π φ : Type} (_ : Ctimers κ ε π φ) : CtimerLabel κ ε π φ → Prop
  | .other caller _ => caller ≠ none
  | _ => True

instance {κ ε π φ : Type} [DecidableEq π] (s : Ctimers κ ε π φ) (a : CtimerLabel κ ε π φ) :
    Decidable (OthersCalledByProcess s a) := by
  cases a <;> unfold OthersCalledByProcess <;> infer_instance

namespace Ctimers

variable {κ ε π φ : Type} [DecidableEq κ] [DecidableEq ε]

/-- The timers on the list are the running ones, their functions are the last ones, and an event in
the queue is one of a timer that is due. -/
structure Inv (s : Ctimers κ ε π φ) : Prop where
  etimers : s.etimers.Inv
  nodup : s.ctimerList.Nodup
  mem_iff : ∀ c, c ∈ s.ctimerList ↔ running c s.log
  function : ∀ c, s.f c = lastFunction c s.log
  started : ∀ c start t, lastStart c s.log = some (start, t) →
    Etimers.lastSet (.inl c) s.etimers.events = some (start, t)
  queued : ∀ c ∈ s.queue, ∀ start t, lastStart c s.log = some (start, t) →
    start + t.toNat ≤ s.etimers.time
  callbacks : CallbacksOk s.log

variable {s s' : Ctimers κ ε π φ} {e : Etimers (κ ⊕ ε) π} {c : κ}

omit [DecidableEq ε] in
/-- What is in the list after `list_remove` and `list_add`, as a test. It is the form in which the
record of the calls says which timers are running. -/
theorem mem_relist (h : s.ctimerList.Nodup) (x : κ) :
    x ∈ s.relist c ↔ (c == x || decide (x ∈ s.ctimerList)) = true := by
  rw [relist, List.mem_append, h.mem_erase_iff, List.mem_singleton]
  by_cases hx : x = c
  · simp [hx]
  · simp [hx, Ne.symm hx]

omit [DecidableEq ε] in
/-- The timer comes to the end of the list, and its old place is gone. -/
theorem nodup_relist (h : s.ctimerList.Nodup) : (s.relist c).Nodup := by
  rw [relist, List.nodup_append]
  refine ⟨h.erase c, List.nodup_singleton c, fun x hx y hy => ?_⟩
  rw [List.mem_singleton.mp hy]
  exact (h.mem_erase_iff.mp hx).1

omit [DecidableEq ε] in
/-- What is in the list after `list_remove`, as a test. -/
theorem mem_erase (h : s.ctimerList.Nodup) (x : κ) :
    x ∈ s.ctimerList.erase c ↔ (c != x && decide (x ∈ s.ctimerList)) = true := by
  rw [h.mem_erase_iff]
  by_cases hx : x = c
  · simp [hx]
  · simp [hx, Ne.symm hx]

variable [DecidableEq π]

/-- The interrupt, the kernel and the functions start no timer. -/
theorem lastSet_step {a : EtimerLabel (κ ⊕ ε) π} (ha : ∀ caller call, a ≠ .call caller call)
    (hstep : s.etimers.step a = some e) :
    (∀ t, Etimers.lastSet t e.events = Etimers.lastSet t s.etimers.events) ∧
      s.etimers.time ≤ e.time := by
  cases a with
  | call caller call => exact absurd rfl (ha caller call)
  | code posted =>
      obtain ⟨_, _, htime, hevents⟩ := Etimers.code_fields hstep
      refine ⟨fun t => ?_, Nat.le_of_eq htime.symm⟩
      rcases hevents with hev | ⟨et, hev | hev⟩ | ⟨t', u, _, hev⟩ <;> rw [hev] <;> rfl
  | poll | exited p =>
      rw [Etimers.step] at hstep
      split at hstep
      · cases hstep
        exact ⟨fun _ => rfl, Nat.le_refl _⟩
      · cases hstep
  | tick late =>
      cases hstep
      rw [Etimers.timera1]
      dsimp only
      split <;> exact ⟨fun _ => rfl, by simp only; omega⟩

omit [DecidableEq π] in
/-- A step of the event timers that starts none of the callback timers. -/
theorem Inv.keep (h : s.Inv) (hetimers : e.Inv)
    (hset : ∀ c, Etimers.lastSet (.inl c) e.events = Etimers.lastSet (.inl c) s.etimers.events)
    (htime : s.etimers.time ≤ e.time) {queue : List κ}
    (hqueue : ∀ c ∈ queue, c ∈ s.queue ∨ ∀ start t, Etimers.lastSet (.inl c) e.events =
      some (start, t) → start + t.toNat ≤ e.time) :
    ({ s with etimers := e, queue := queue } : Ctimers κ ε π φ).Inv where
  etimers := hetimers
  nodup := h.nodup
  mem_iff := h.mem_iff
  function := h.function
  started c start t hstart := (hset c).trans (h.started c start t hstart)
  queued c hc start t hstart := by
    rcases hqueue c hc with hold | hnew
    · exact Nat.le_trans (h.queued c hold start t hstart) htime
    · exact hnew start t ((hset c).trans (h.started c start t hstart))
  callbacks := h.callbacks

/-- The event of a callback timer is posted when it is due. -/
theorem due_of_posted {ctimerProcess : π} {posted : Bool} (he : e.Inv)
    (hstep : s.etimers.step (.code posted) = some e)
    (hc : c ∈ postedTimer ctimerProcess s.etimers e) (start : Nat) (t : UInt16)
    (hset : Etimers.lastSet (.inl c) e.events = some (start, t)) : start + t.toNat ≤ e.time := by
  obtain ⟨_, _, htime, hevents⟩ := Etimers.code_fields hstep
  have hposts := he.posts
  rcases hevents with hev | ⟨et, hev | hev⟩ | ⟨t', u, _, hev⟩
  · -- Nothing is recorded.
    rw [postedTimer, hev] at hc
    split at hc
    · rw [if_neg (by simp)] at hc
      cases hc
    · cases hc
  · rw [postedTimer, hev] at hc
    cases hc
  · rw [postedTimer, hev] at hc
    cases hc
  · rw [postedTimer, hev] at hc
    cases t' with
    | inr et => cases hc
    | inl c' =>
        dsimp only at hc
        split at hc
        · obtain rfl := List.mem_singleton.mp hc
          rw [hev] at hset hposts
          rw [htime]
          exact hposts.1.2.2.2 start t hset
        · cases hc

omit [DecidableEq π] in
/-- The delivery of an event. -/
theorem Inv.deliver (h : s.Inv) {queue : List κ} (hq : s.queue = c :: queue) :
    (callback { s with queue := queue } c).Inv := by
  have hsub : ∀ x ∈ queue, x ∈ s.queue := by
    intro x hx
    rw [hq]
    exact List.mem_cons_of_mem c hx
  rw [callback]
  split
  · rename_i hmem
    refine ⟨h.etimers, h.nodup.erase c, fun x => ?_, h.function, h.started, fun x hx => ?_, ?_⟩
    · rw [mem_erase h.nodup, running, Bool.and_eq_true, Bool.and_eq_true, decide_eq_true_eq,
        h.mem_iff x]
    · exact h.queued x (hsub x hx)
    · refine ⟨⟨(h.mem_iff c).mp hmem, h.function c, ?_⟩, h.callbacks⟩
      exact h.queued c (by rw [hq]; exact List.mem_cons_self)
  · exact ⟨h.etimers, h.nodup, h.mem_iff, h.function, h.started,
      fun x hx => h.queued x (hsub x hx), h.callbacks⟩

/-- A call of an event timer, which has its first step when no function is running. -/
theorem step_call {caller : Option π} {call : EtimerCall (κ ⊕ ε)}
    (hstep : s.etimers.step (.call caller call) = some e) : e = s.etimers.call caller call := by
  rw [Etimers.step] at hstep
  split at hstep
  · exact (Option.some.inj hstep).symm
  · cases hstep

omit [DecidableEq π] in
/-- The calls of the other event timers leave the callback timers alone. -/
theorem lastSet_other (caller : Option π) (call : EtimerCall ε) (c : κ) :
    Etimers.lastSet (.inl c) (s.etimers.call caller call.other).events =
      Etimers.lastSet (.inl c) s.etimers.events := by
  cases call with
  | set | reset | restart | adjust => exact if_neg (by simp)
  | stop et =>
      rw [EtimerCall.other, Etimers.call]
      split <;> rfl

omit [DecidableEq π] in
/-- A call takes no time. Time passes in the ticks only. -/
theorem call_other_time (caller : Option π) (call : EtimerCall ε) :
    (s.etimers.call caller call.other).time = s.etimers.time := by
  cases call with
  | set | reset | restart | adjust => rfl
  | stop et =>
      rw [EtimerCall.other, Etimers.call]
      split <;> rfl

omit [DecidableEq π] in
/-- `ctimer_set`. An event of the timer in the queue makes the start stale, so nothing is said of
when the callback comes. -/
theorem Inv.set (h : s.Inv) (t : UInt16) (f : Option φ) {caller : Option π}
    (he : (s.etimers.call caller (.set (.inl c) t)).Inv) :
    ({ s with
      etimers := s.etimers.call caller (.set (.inl c) t)
      ctimerList := s.relist c
      f := Function.update s.f c f
      log := .set c s.etimers.time t f (c ∈ s.queue) :: s.log } : Ctimers κ ε π φ).Inv := by
  refine ⟨he, nodup_relist h.nodup, fun x => ?_, fun x => ?_, fun x start i hx => ?_,
    fun x hx start i hstart => ?_, h.callbacks⟩
  · -- The fields of the invariant in their order: the list, the callbacks, the starts, the queue.
    rw [mem_relist h.nodup, running, Bool.or_eq_true, Bool.or_eq_true, decide_eq_true_eq,
      h.mem_iff x]
  · by_cases hcx : c = x
    · subst hcx
      rw [lastFunction, if_pos rfl]
      exact Function.update_self ..
    · rw [lastFunction, if_neg hcx]
      exact (Function.update_of_ne (Ne.symm hcx) _ _).trans (h.function x)
  · by_cases hcx : c = x
    · subst hcx
      rw [lastStart, if_pos rfl] at hx
      split at hx
      · cases hx
      · cases hx
        -- The start of the callback timer is that of its event timer.
        simp [Etimers.call, Etimers.lastSet]
    · rw [lastStart, if_neg hcx] at hx
      rw [Etimers.call, Etimers.lastSet, if_neg (by simpa using hcx)]
      exact h.started x start i hx
  · by_cases hcx : c = x
    · subst hcx
      -- Its event is in the queue, so the start is stale.
      rw [lastStart, if_pos rfl, if_pos (by simpa using hx)] at hstart
      cases hstart
    · rw [lastStart, if_neg hcx] at hstart
      exact h.queued x hx start i hstart

omit [DecidableEq π] in
/-- `ctimer_reset`. Nothing is said of when the callback comes after it. -/
theorem Inv.reset (h : s.Inv) {caller : Option π}
    (he : (s.etimers.call caller (.reset (.inl c))).Inv) :
    ({ s with
      etimers := s.etimers.call caller (.reset (.inl c))
      ctimerList := s.relist c
      log := .reset c (c ∈ s.queue) :: s.log } : Ctimers κ ε π φ).Inv := by
  have hne : ∀ x start i, lastStart x (.reset c (c ∈ s.queue) :: s.log) = some (start, i) →
      c ≠ x ∧ lastStart x s.log = some (start, i) := by
    intro x start i hx
    rw [lastStart] at hx
    split at hx
    · cases hx
    · exact ⟨by assumption, hx⟩
  refine ⟨he, nodup_relist h.nodup, fun x => ?_, h.function, fun x start i hx => ?_,
    fun x hx start i hstart => h.queued x hx start i (hne x start i hstart).2, h.callbacks⟩
  · rw [mem_relist h.nodup, running, Bool.or_eq_true, Bool.or_eq_true, decide_eq_true_eq,
      h.mem_iff x]
  · obtain ⟨hcx, hx⟩ := hne x start i hx
    rw [Etimers.call, Etimers.lastSet, if_neg (by simpa using hcx)]
    exact h.started x start i hx

omit [DecidableEq π] in
/-- `ctimer_stop`. The timer leaves the list, and an event of it stays in the queue. -/
theorem Inv.stop (h : s.Inv) {caller : Option π}
    (he : (s.etimers.call caller (.stop (.inl c))).Inv) :
    ({ s with
      etimers := s.etimers.call caller (.stop (.inl c))
      ctimerList := s.ctimerList.erase c
      log := .stop c :: s.log } : Ctimers κ ε π φ).Inv := by
  have hsame : ∀ x, Etimers.lastSet (.inl x) (s.etimers.call caller (.stop (.inl c))).events =
        Etimers.lastSet (.inl x) s.etimers.events ∧
      (s.etimers.call caller (.stop (.inl c))).time = s.etimers.time := by
    intro x
    rw [Etimers.call]
    split <;> exact ⟨rfl, rfl⟩
  refine ⟨he, h.nodup.erase c, fun x => ?_, h.function, fun x start i hx => ?_,
    fun x hx start i hstart => ?_, h.callbacks⟩
  · rw [mem_erase h.nodup, running, Bool.and_eq_true, Bool.and_eq_true, decide_eq_true_eq,
      h.mem_iff x]
  · exact (hsame x).1.trans (h.started x start i hx)
  · rw [(hsame x).2]
    exact h.queued x hx start i hstart

/-- A step of the event timers by which no event of a callback timer is posted. -/
theorem Inv.quiet {a : EtimerLabel (κ ⊕ ε) π} (h : s.Inv) (he : e.Inv)
    (ha : ∀ caller call, a ≠ .call caller call) (hstep : s.etimers.step a = some e) :
    ({ s with etimers := e } : Ctimers κ ε π φ).Inv := by
  obtain ⟨hset, htime⟩ := lastSet_step ha hstep
  exact h.keep he (fun x => hset _) htime fun _ hx => .inl hx

/-- Every step keeps the invariant. -/
theorem Inv.step {ctimerProcess : π} (h : s.Inv) {a : CtimerLabel κ ε π φ}
    (ha : OthersCalledByProcess s a) (hstep : s.step ctimerProcess a = some s') : s'.Inv := by
  have hproc : (some ctimerProcess : Option π) ≠ none := by simp
  cases a with
  | set c t f =>
      obtain ⟨e, he, rfl⟩ := Option.map_eq_some_iff.mp hstep
      have hinv : e.Inv := h.etimers.step (by exact hproc) he
      obtain rfl := step_call he
      exact h.set t f hinv
  | reset c =>
      obtain ⟨e, he, rfl⟩ := Option.map_eq_some_iff.mp hstep
      have hinv : e.Inv := h.etimers.step (by exact hproc) he
      obtain rfl := step_call he
      exact h.reset hinv
  | stop c =>
      obtain ⟨e, he, rfl⟩ := Option.map_eq_some_iff.mp hstep
      have hinv : e.Inv := h.etimers.step (by exact hproc) he
      obtain rfl := step_call he
      exact h.stop hinv
  | other caller call =>
      obtain ⟨e, he, rfl⟩ := Option.map_eq_some_iff.mp hstep
      have hinv : e.Inv := h.etimers.step (by exact ha) he
      obtain rfl := step_call he
      exact h.keep hinv (lastSet_other caller call)
        (Nat.le_of_eq (call_other_time caller call).symm) fun _ hx => .inl hx
  | code posted =>
      obtain ⟨e, he, rfl⟩ := Option.map_eq_some_iff.mp hstep
      have hinv : e.Inv := h.etimers.step (by trivial) he
      -- An event posted now is of a timer that is due now.
      obtain ⟨hset, htime⟩ := lastSet_step (by simp) he
      refine h.keep hinv (fun x => hset _) htime fun x hx => ?_
      rcases List.mem_append.mp hx with hx | hx
      · exact .inl hx
      · exact .inr fun start t => due_of_posted hinv he hx start t
  | poll =>
      obtain ⟨e, he, rfl⟩ := Option.map_eq_some_iff.mp hstep
      -- No timer is set or posted.
      exact h.quiet (h.etimers.step (by trivial) he) (by simp) he
  | exited p =>
      rw [Ctimers.step] at hstep
      split at hstep
      · cases hstep
      · obtain ⟨e, he, rfl⟩ := Option.map_eq_some_iff.mp hstep
        exact h.quiet (h.etimers.step (by trivial) he) (by simp) he
  | tick late =>
      rw [Ctimers.step] at hstep
      obtain ⟨e, he, rfl⟩ := Option.map_eq_some_iff.mp hstep
      exact h.quiet (h.etimers.step (by trivial) he) (by simp) he
  | deliver =>
      rw [Ctimers.step] at hstep
      split at hstep
      · split at hstep
        · cases hstep
        · rename_i c queue hq
          cases hstep
          exact h.deliver hq
      · cases hstep

omit [DecidableEq π] in
/-- At the start no timer is running, and nothing was recorded. -/
theorem Inv.init : (Ctimers.init : Ctimers κ ε π φ).Inv where
  etimers := .init
  nodup := List.nodup_nil
  mem_iff c := by simp [Ctimers.init, running]
  function _ := rfl
  started c start t h := by cases h
  queued c hc := by cases hc
  callbacks := trivial

end Ctimers

variable {κ ε π φ : Type} [DecidableEq κ] [DecidableEq ε] [DecidableEq π]

/-- **Every callback belongs to one start of its timer.** The timer was started after its last
callback or stop, the function is the one of the last `ctimer_set`, and if no event of the timer
was in the queue then, the interval has passed. -/
theorem callbacks_ok {ctimerProcess : π} {s : Ctimers κ ε π φ}
    (h : (ctimers κ ε π φ ctimerProcess).ReachableIf OthersCalledByProcess s)
    {later earlier : List (CtimerEvent κ φ)} {c : κ} {f : Option φ} {time : Nat}
    (hlog : s.log = later ++ .callback c f time :: earlier) :
    Ctimers.CallbackOk c f time earlier := by
  have hinv : s.Inv := h.invariant Ctimers.Inv .init fun _ _ _ hs ha hstep => hs.step ha hstep
  have hcallbacks := hinv.callbacks
  rw [hlog] at hcallbacks
  exact hcallbacks.of_append.1

/-- A callback timer of three ticks, up to its callback. -/
def threeTicksCallback : List (CtimerLabel Unit Empty Bool Bool) :=
  [.set () 3 (some true), .code true, .code true, .code true, .code true, .poll, .code true,
    .code true, .tick atOnce, .tick atOnce, .tick atOnce, .poll, .code true, .code true,
    .code true, .code true, .deliver]

/-- `callbacks_ok` for the callback. -/
theorem callbacks_ok_threeTicks : ∃ s : Ctimers Unit Empty Bool Bool,
    s.log = [.callback () (some true) 3, .set () 0 3 (some true) false] ∧
      Ctimers.CallbackOk () (some true) 3 [.set () 0 3 (some true) false] := by
  have hend : ((ctimers Unit Empty Bool Bool true).runIf OthersCalledByProcess Ctimers.init
      threeTicksCallback).map (fun s => s.log) =
      some [.callback () (some true) 3, .set () 0 3 (some true) false] := by
    decide
  obtain ⟨s, hs, hlog⟩ :=
    Machine.exists_reachableIf_of_runIf (M := ctimers Unit Empty Bool Bool true) hend
  have hsplit : s.log = [] ++ .callback () (some true) 3 :: [.set () 0 3 (some true) false] := hlog
  exact ⟨s, hlog, callbacks_ok hs hsplit⟩

/-- With a stale event in the queue the callback comes at once: the timer is set again for 100 ticks
when its event is on its way. -/
theorem early_callback_reachable : ∃ s : Ctimers Unit Empty Bool Bool,
    (ctimers Unit Empty Bool Bool true).Reachable s ∧
      s.log = [.callback () (some false) 3, .set () 3 100 (some false) true,
        .set () 0 3 (some true) false] := by
  have hend : ((ctimers Unit Empty Bool Bool true).run (threeTicksCallback.take 16 ++
      [.set () 100 (some false), .code true, .code true, .code true, .code true, .deliver])).map
      (fun s => s.log) = some [.callback () (some false) 3, .set () 3 100 (some false) true,
        .set () 0 3 (some true) false] := by
    decide
  exact Machine.exists_reachable_of_run hend

end PTunes.Core
