import Mathlib.Data.Fintype.Basic
import PTunes.Proofs.Core.Etimer

/-!
# `PTunes.Proofs.Core.EtimerPolling`: no timer that has run out is overlooked

The interrupt compares `count` with `next_expiration` only, and `etimer_process` looks at the timers
only when it was polled. `expired_polled`: whenever no function is running and a pending timer has
expired, the process has been polled.

This is so in runs (`InTime`) in which no call is `etimer_adjust`, no process ends with a timer
pending, and no timer waits so long for its event that the 16-bit clock goes past its start again.
The first two are holes of the code: `etimer_adjust` does not poll, and the end of a process takes
timers off the list without a new `next_expiration`.
-/

set_option autoImplicit false

namespace PTunes.Core

variable {κ π : Type} [DecidableEq κ]

namespace Etimers

/-- The ticks since the start of the timer. -/
def elapsed (s : Etimers κ π) (t : κ) : Nat := (s.clockTime - s.start t).toNat

/-- The ticks until the timer expires. -/
def remaining (s : Etimers κ π) (t : κ) : Nat :=
  (s.start t + s.interval t - s.clockTime).toNat

/-- The ticks until `next_expiration`. -/
def toNext (s : Etimers κ π) : Nat := (s.nextExpiration - s.clockTime).toNat

end Etimers

/-- No timer is adjusted, no process ends with a timer pending, and the clock does not go past the
start of a pending timer. -/
def InTime (s : Etimers κ π) : EtimerLabel κ π → Prop
  | .call caller c => caller ≠ none ∧ ∀ et timediff, c ≠ .adjust et timediff
  | .exited p => ∀ t, s.p t ≠ some p
  | .tick late => ∀ t, s.p t ≠ none → s.elapsed t + late + 1 < 65536
  | _ => True

instance [Fintype κ] [DecidableEq π] (s : Etimers κ π) (a : EtimerLabel κ π) :
    Decidable (InTime s a) :=
  match a with
  | .call caller (.adjust et timediff) => isFalse fun h => h.2 et timediff rfl
  | .call caller (.set ..) | .call caller (.reset _) | .call caller (.restart _)
  | .call caller (.stop _) =>
    decidable_of_iff (caller ≠ none) ⟨fun h => ⟨h, fun _ _ hc => by cases hc⟩, And.left⟩
  | .exited p => inferInstanceAs (Decidable (∀ t, s.p t ≠ some p))
  | .tick late => inferInstanceAs (Decidable (∀ t, s.p t ≠ none → s.elapsed t + late + 1 < 65536))
  | .code _ | .poll => isTrue trivial

namespace Etimers

variable {s s' : Etimers κ π} {l l' : List κ} {t : κ} {late : Fin 256}

/-! ### The clock -/

omit [DecidableEq κ] in
/-- The test of `timer_expired` in natural numbers: the interval is not longer than what has
passed. -/
theorem timerExpired_iff : s.timerExpired t ↔ (s.interval t).toNat ≤ s.elapsed t :=
  UInt16.le_iff_toNat_le

omit [DecidableEq κ] in
/-- A timer that has not expired expires when the rest of its interval has passed. -/
theorem remaining_eq (h : ¬ s.timerExpired t) :
    s.remaining t = (s.interval t).toNat - s.elapsed t := by
  rw [timerExpired_iff, elapsed] at h
  rw [remaining, elapsed]
  have hint := (s.interval t).toNat_lt
  have hclock := s.clockTime.toNat_lt
  have hstart := (s.start t).toNat_lt
  simp only [UInt16.toNat_sub, UInt16.toNat_add] at h ⊢
  omega

omit [DecidableEq κ] in
/-- The ticks until the timer expires, as they were at an earlier time `now` after its start. -/
theorem distance_eq (h : ¬ s.timerExpired t) {now : UInt16}
    (hnow : (s.clockTime - now).toNat ≤ s.elapsed t) :
    (s.start t + s.interval t - now).toNat = s.remaining t + (s.clockTime - now).toNat := by
  rw [remaining_eq h]
  rw [timerExpired_iff] at h
  rw [elapsed] at h hnow ⊢
  have hint := (s.interval t).toNat_lt
  have hclock := s.clockTime.toNat_lt
  have hstart := (s.start t).toNat_lt
  have hnow' := now.toNat_lt
  simp only [UInt16.toNat_sub, UInt16.toNat_add] at h hnow ⊢
  omega

omit [DecidableEq κ] in
/-- The interrupt changes the time and the poll. -/
theorem timera1_fields (s : Etimers κ π) (late : Fin 256) :
    (s.timera1 late).next = s.next ∧ (s.timera1 late).timerlist = s.timerlist ∧
      (s.timera1 late).p = s.p ∧ (s.timera1 late).start = s.start ∧
      (s.timera1 late).interval = s.interval ∧ (s.timera1 late).pc = s.pc ∧
      (s.timera1 late).nextExpiration = s.nextExpiration ∧
      (s.timera1 late).time = s.time + (late + 1) := by
  rw [timera1]
  dsimp only
  split <;> simp [Nat.add_assoc]

omit [DecidableEq κ] in
/-- The clock after the interrupt. -/
theorem clockTime_timera1 : (s.timera1 late).clockTime = s.clockTime + UInt16.ofNat (late + 1) := by
  rw [clockTime, (timera1_fields _ _).2.2.2.2.2.2.2, clockTime, UInt16.ofNat_add]

omit [DecidableEq κ] in
/-- The ticks of the interrupt, as a number of 16 bits. -/
theorem toNat_ticks (late : Fin 256) : (UInt16.ofNat (late.val + 1)).toNat = late + 1 := by
  rw [UInt16.toNat_ofNat']
  omega

omit [DecidableEq κ] in
/-- The ticks of the interrupt have passed since the start. The sum stays below `2 ^ 16`, so the
16-bit difference does not start again. -/
theorem elapsed_timera1 (h : s.elapsed t + late + 1 < 65536) :
    (s.timera1 late).elapsed t = s.elapsed t + late + 1 := by
  rw [elapsed] at h
  rw [elapsed, elapsed, clockTime_timera1, (timera1_fields _ _).2.2.2.1]
  have hticks := toNat_ticks late
  have hstart := (s.start t).toNat_lt
  have hclock := s.clockTime.toNat_lt
  simp only [UInt16.toNat_sub, UInt16.toNat_add] at h ⊢
  omega

omit [DecidableEq κ] in
/-- A timer that has expired stays so until the clock goes past its start. -/
theorem timerExpired_timera1 (h : s.elapsed t + late + 1 < 65536) :
    (s.timera1 late).timerExpired t ↔ (s.interval t).toNat ≤ s.elapsed t + late + 1 := by
  rw [timerExpired_iff, elapsed_timera1 h, (timera1_fields _ _).2.2.2.2.1]

omit [DecidableEq κ] in
/-- A timer that has not expired after the interrupt had not expired before, and lacks fewer ticks
by those of the interrupt. -/
theorem remaining_timera1 (h : s.elapsed t + late + 1 < 65536)
    (hexp : ¬ (s.timera1 late).timerExpired t) :
    (s.timera1 late).remaining t + late + 1 = s.remaining t := by
  have hbefore : ¬ s.timerExpired t := by
    rw [timerExpired_timera1 h] at hexp
    rw [timerExpired_iff]
    omega
  rw [remaining_eq hexp, remaining_eq hbefore, elapsed_timera1 h, (timera1_fields _ _).2.2.2.2.1]
  rw [timerExpired_timera1 h] at hexp
  omega

omit [DecidableEq κ] in
/-- While `next_expiration` is not passed, it comes closer by the ticks of the interrupt. -/
theorem toNext_timera1 (s : Etimers κ π) (late : Fin 256) (h : late + 1 ≤ s.toNext) :
    (s.timera1 late).toNext + late + 1 = s.toNext := by
  rw [toNext] at h
  rw [toNext, toNext, clockTime_timera1, (timera1_fields _ _).2.2.2.2.2.2.1]
  have hticks := toNat_ticks late
  have hnext := s.nextExpiration.toNat_lt
  have hclock := s.clockTime.toNat_lt
  simp only [UInt16.toNat_sub, UInt16.toNat_add] at h ⊢
  omega

omit [DecidableEq κ] in
/-- The interrupt keeps a poll. -/
theorem needspoll_timera1 (h : s.needspoll) : (s.timera1 late).needspoll := by
  rw [timera1]
  dsimp only
  split
  · rfl
  · exact h

omit [DecidableEq κ] in
/-- The interrupt polls the process when the clock comes to `next_expiration`, or goes past it. -/
theorem timera1_polls (hlist : s.timerlist ≠ none) (h : s.toNext ≤ late + 1) :
    (s.timera1 late).needspoll := by
  rw [timera1]
  dsimp only
  rw [if_pos]
  refine ⟨Option.isSome_iff_ne_none.mpr hlist, ?_⟩
  rw [etimerNextExpirationTime, if_pos (by exact Option.isSome_iff_ne_none.mpr hlist)]
  have hclock : ({ s with time := s.time + late + 1 } : Etimers κ π).clockTime =
      s.clockTime + UInt16.ofNat (late + 1) := by
    rw [clockTime, clockTime, Nat.add_assoc, UInt16.ofNat_add]
  rw [hclock, UInt16.lt_iff_toNat_lt]
  rw [toNext] at h
  have hticks := toNat_ticks late
  have hnext := s.nextExpiration.toNat_lt
  have hclock' := s.clockTime.toNat_lt
  have hone : (1 : UInt16).toNat = 1 := rfl
  have hmax : maxTicks.toNat = 32767 := rfl
  simp only [UInt16.toNat_sub, UInt16.toNat_add, hone, hmax, hticks] at h ⊢
  omega

/-! ### What the code knows of the next expiration -/

/-- None of the timers has expired. -/
def NoneExpired (s : Etimers κ π) (l : List κ) : Prop := ∀ t ∈ l, ¬ s.timerExpired t

omit [DecidableEq κ] in
/-- Some timer has expired, in the form in which it can be named. -/
theorem not_noneExpired : ¬ s.NoneExpired l ↔ ∃ t ∈ l, s.timerExpired t := by
  simp [NoneExpired]

/-- `next_expiration` is the time at which the first of the timers expires. -/
def Exact (s : Etimers κ π) (l : List κ) : Prop :=
  (∀ t ∈ l, s.toNext ≤ s.remaining t) ∧ (l ≠ [] → ∃ t ∈ l, s.toNext = s.remaining t)

/-- `next_expiration` is ahead, and none of the timers expires before it. -/
def Early (s : Etimers κ π) (l : List κ) : Prop :=
  ∀ t ∈ l, ¬ s.timerExpired t ∧ 1 ≤ s.toNext ∧ s.toNext ≤ s.remaining t

/-- When no timer has expired, `next_expiration` is right. -/
def Right (s : Etimers κ π) (l : List κ) : Prop := s.NoneExpired l → s.Exact l

/-- `update_time` is at the timer `t`, and `tdist` is the least distance so far. -/
def Walk (s : Etimers κ π) (l : List κ) (now tdist : UInt16) (t : Option κ) : Prop :=
  (∀ x ∈ l, (s.clockTime - now).toNat ≤ s.elapsed x) ∧
    ∃ l₁ l₂, s.At l t l₁ l₂ ∧ (∀ x ∈ l₁, tdist ≤ s.start x + s.interval x - now) ∧
      ∃ x ∈ l₁, tdist = s.start x + s.interval x - now

/-- Why no expired timer is overlooked while `update_time` runs: the process was polled, or the old
`next_expiration` is still good, or the timers are looked at again. -/
def Updating (s : Etimers κ π) (l : List κ) : EtimerReturn κ → Prop
  | .caller => s.needspoll
  | .stop _ => s.needspoll ∨ s.Early l
  | .again => True

/-- Why no expired timer is overlooked. -/
def Watched (s : Etimers κ π) (l : List κ) : EtimerPc κ π → Prop
  | .idle | .stopWalk .. | .stopEnd _ => (s.needspoll ∨ s.NoneExpired l) ∧ s.Right l
  | .exitedHead p | .exitedWalk p _ =>
    ((s.needspoll ∨ s.NoneExpired l) ∧ s.Right l) ∧ ∀ t, s.p t ≠ some p
  | .addTimer _ => True
  | .addWalk .. | .link _ => s.needspoll
  | .updateTime ret => s.Updating l ret
  | .updateWalk now tdist t ret => s.Updating l ret ∧ s.Walk l now tdist t
  | .scan t _ =>
    (s.needspoll ∨ s.NoneExpired l ∨
      ∃ l₁ l₂, s.At l t l₁ l₂ ∧ ∃ x ∈ l₂, s.timerExpired x) ∧ s.Right l
  | .expired t _ => s.timerExpired t

/-- Every timer with a process is on the list, and none that has expired is overlooked. -/
structure Attentive (s : Etimers κ π) (l : List κ) : Prop where
  pending : ∀ t, s.p t ≠ none → t ∈ l ∨ s.pc.moving = some t
  watched : s.Watched l s.pc

/-! ### The interrupt -/

/-- The clock does not go past the start of a timer of the list. -/
def NoWrap (s : Etimers κ π) (l : List κ) (late : Fin 256) : Prop :=
  ∀ t ∈ l, s.elapsed t + late + 1 < 65536

section Tick

variable (hchain : Segment s.next s.timerlist l none) (hwrap : s.NoWrap l late)

omit [DecidableEq κ] in
include hchain in
/-- With a timer on it the list has a head, which is what the interrupt tests before it compares. -/
theorem timerlist_ne_none (ht : t ∈ l) : s.timerlist ≠ none := by
  intro hnone
  rw [hnone] at hchain
  cases l with
  | nil => cases ht
  | cons a l => cases (Segment.cons_iff.mp hchain).1

omit [DecidableEq κ] in
include hwrap in
/-- A timer that has expired stays so through the interrupt. -/
theorem exists_expired_timera1 (h : ¬ s.NoneExpired l) : ¬ (s.timera1 late).NoneExpired l := by
  obtain ⟨t, ht, hexp⟩ := not_noneExpired.mp h
  refine not_noneExpired.mpr ⟨t, ht, (timerExpired_timera1 (hwrap t ht)).mpr ?_⟩
  have hexp' := timerExpired_iff.mp hexp
  omega

omit [DecidableEq κ] in
include hchain hwrap in
/-- `next_expiration` stays right, and when a timer expires, the process is polled. -/
theorem Exact.tick (h : s.Exact l) (hnone : s.NoneExpired l) :
    ((s.timera1 late).needspoll ∨ (s.timera1 late).NoneExpired l) ∧
      (s.timera1 late).Right l := by
  obtain ⟨hle, hex⟩ := h
  constructor
  · by_cases hnone' : (s.timera1 late).NoneExpired l
    · exact .inr hnone'
    · obtain ⟨t, ht, hexp⟩ := not_noneExpired.mp hnone'
      -- The timer expires within these ticks, and `next_expiration` comes no later.
      rw [timerExpired_timera1 (hwrap t ht)] at hexp
      have hrem := remaining_eq (hnone t ht)
      have hnext := hle t ht
      exact .inl (timera1_polls (timerlist_ne_none hchain ht) (by omega))
  · intro hnone'
    have hrem : ∀ t ∈ l, (s.timera1 late).remaining t + late + 1 = s.remaining t :=
      fun t ht => remaining_timera1 (hwrap t ht) (hnone' t ht)
    refine ⟨fun t ht => ?_, fun hl => ?_⟩
    · obtain ⟨x, hx, hnext⟩ := hex (List.ne_nil_of_mem ht)
      have hnext' := toNext_timera1 s late (by have := hrem x hx; omega)
      have hlet := hle t ht
      have hremt := hrem t ht
      omega
    · obtain ⟨x, hx, hnext⟩ := hex hl
      have hremx := hrem x hx
      have hnext' := toNext_timera1 s late (by omega)
      exact ⟨x, hx, by omega⟩

omit [DecidableEq κ] in
include hchain hwrap in
/-- Right or polled, the process stays so. -/
theorem attended_tick (h : (s.needspoll ∨ s.NoneExpired l) ∧ s.Right l) :
    ((s.timera1 late).needspoll ∨ (s.timera1 late).NoneExpired l) ∧
      (s.timera1 late).Right l := by
  by_cases hnone : s.NoneExpired l
  · exact (h.2 hnone).tick hchain hwrap hnone
  · refine ⟨.inl (needspoll_timera1 (h.1.resolve_right hnone)), fun hnone' => ?_⟩
    exact absurd hnone' (exists_expired_timera1 hwrap hnone)

omit [DecidableEq κ] in
include hchain hwrap in
/-- `next_expiration` stays ahead, or the interrupt comes to it and polls. No timer expires before
it, so none is missed in between. -/
theorem Early.tick (h : s.Early l) :
    (s.timera1 late).needspoll ∨ (s.timera1 late).Early l := by
  by_cases hnext : s.toNext ≤ late + 1
  · by_cases hl : ∃ t, t ∈ l
    · obtain ⟨t, ht⟩ := hl
      exact .inl (timera1_polls (timerlist_ne_none hchain ht) hnext)
    · exact .inr fun t ht => absurd ⟨t, ht⟩ hl
  · refine .inr fun t ht => ?_
    obtain ⟨hexp, _, hle⟩ := h t ht
    have hrem := remaining_eq hexp
    have hexp' : ¬ (s.timera1 late).timerExpired t := by
      rw [timerExpired_timera1 (hwrap t ht)]
      omega
    have hrem' := remaining_timera1 (hwrap t ht) hexp'
    have hnext' := toNext_timera1 s late (by omega)
    exact ⟨hexp', by omega, by omega⟩

omit [DecidableEq κ] in
include hchain hwrap in
/-- Whatever `update_time` relies on while it runs is still so after the interrupt. -/
theorem Updating.tick {ret : EtimerReturn κ} (h : s.Updating l ret) :
    (s.timera1 late).Updating l ret := by
  cases ret with
  | caller => exact needspoll_timera1 h
  | again => trivial
  | stop et =>
      rcases h with h | h
      · exact .inl (needspoll_timera1 h)
      · exact h.tick hchain hwrap

omit [DecidableEq κ] in
include hwrap in
/-- The distances are taken from the time at which the walk began, so the interrupt does not change
the least one. -/
theorem Walk.tick {now tdist : UInt16} {t : Option κ} (h : s.Walk l now tdist t) :
    (s.timera1 late).Walk l now tdist t := by
  obtain ⟨hnow, l₁, l₂, hwalk, hle, x, hx, hdist⟩ := h
  obtain ⟨hnext, _, _, hstart, hinterval, _⟩ := timera1_fields s late
  refine ⟨fun y hy => ?_, l₁, l₂, ?_, ?_, x, hx, ?_⟩
  · have hy' := hnow y hy
    have hwy := hwrap y hy
    rw [elapsed_timera1 hwy, clockTime_timera1]
    have hticks := toNat_ticks late
    have hclock := s.clockTime.toNat_lt
    have hnow' := now.toNat_lt
    simp only [UInt16.toNat_sub, UInt16.toNat_add] at hy' ⊢
    omega
  · rwa [At, hnext]
  · rwa [hstart, hinterval]
  · rwa [hstart, hinterval]

end Tick

/-- The interrupt overlooks no timer. -/
theorem Attentive.tick (hl : s.Linked l) (h : s.Attentive l) (hwrap : s.NoWrap l late) :
    (s.timera1 late).Attentive l := by
  obtain ⟨hpending, hwatched⟩ := h
  obtain ⟨hnext, _, hp, _, _, hpc', _⟩ := timera1_fields s late
  refine ⟨fun t ht => ?_, ?_⟩
  · rw [hp] at ht
    rw [hpc']
    exact hpending t ht
  rw [hpc']
  cases hpc : s.pc with
  | idle | stopWalk | stopEnd =>
      rw [hpc] at hwatched
      exact attended_tick hl.chain hwrap hwatched
  | exitedHead p | exitedWalk p t =>
      rw [hpc] at hwatched
      exact ⟨attended_tick hl.chain hwrap hwatched.1, by rw [hp]; exact hwatched.2⟩
  | addTimer => trivial
  | addWalk | link =>
      rw [hpc] at hwatched
      exact needspoll_timera1 hwatched
  | updateTime ret =>
      rw [hpc] at hwatched
      exact Updating.tick hl.chain hwrap hwatched
  | updateWalk now tdist t ret =>
      rw [hpc] at hwatched
      exact ⟨Updating.tick hl.chain hwrap hwatched.1, Walk.tick hwrap hwatched.2⟩
  | scan t u =>
      rw [hpc] at hwatched
      obtain ⟨hscan, hright⟩ := hwatched
      -- Where none has expired, the time to the next one is right and the interrupt acts on it.
      by_cases hnone : s.NoneExpired l
      · obtain ⟨hpoll, hright'⟩ := (hright hnone).tick hl.chain hwrap hnone
        exact ⟨hpoll.imp_right .inl, hright'⟩
      · refine ⟨?_, fun hnone' => absurd hnone' (exists_expired_timera1 hwrap hnone)⟩
        -- An expired timer ahead of the scan stays expired, the time does not wrap.
        rcases hscan with hpoll | hnone' | ⟨l₁, l₂, hwalk, x, hx, hexp⟩
        · exact .inl (needspoll_timera1 hpoll)
        · exact absurd hnone' hnone
        · refine .inr (.inr ⟨l₁, l₂, ?_, x, hx, ?_⟩)
          · rwa [At, hnext]
          · rw [timerExpired_timera1 (hwrap x (by rw [hwalk.1]; simp [hx]))]
            have hexp' := timerExpired_iff.mp hexp
            omega
  | expired t u =>
      rw [hpc] at hwatched
      have hplace := hl.place
      rw [hpc] at hplace
      obtain ⟨_, l₁, l₂, hwalk, _⟩ := hplace
      have hexp := timerExpired_iff.mp hwatched
      exact (timerExpired_timera1 (hwrap t hwalk.mem)).mpr (by omega)

/-! ### `update_time` -/

omit [DecidableEq κ] in
/-- What `update_time` leaves behind: the new `next_expiration` is right. -/
theorem Walk.exact {now tdist : UInt16} (h : s.Walk l now tdist none)
    (hn : s'.nextExpiration = now + tdist) (htime : s'.time = s.time) (hstart : s'.start = s.start)
    (hinterval : s'.interval = s.interval) : s'.Right l := by
  obtain ⟨hnow, l₁, l₂, hwalk, hle, x, hx, hdist⟩ := h
  obtain ⟨_, rfl⟩ := hwalk.end_eq
  intro hnone
  have hclock : s'.clockTime = s.clockTime := by rw [clockTime, htime, clockTime]
  have hexp : ∀ t ∈ l, ¬ s.timerExpired t := by
    intro t ht
    have := hnone t ht
    rwa [timerExpired, hstart, hinterval, hclock] at this
  -- The least distance is the one of `x`.
  have hnext : s'.toNext = s.remaining x := by
    have hdx := distance_eq (hexp x hx) (hnow x hx)
    have hdist' := congrArg UInt16.toNat hdist
    rw [toNext, hn, hclock]
    have hcl := s.clockTime.toNat_lt
    have hnow' := now.toNat_lt
    have htd := tdist.toNat_lt
    have hrem : s.remaining x < 65536 := UInt16.toNat_lt _
    simp only [UInt16.toNat_sub, UInt16.toNat_add] at hdx hdist' ⊢
    omega
  have hrem : ∀ t, s'.remaining t = s.remaining t := by
    intro t
    rw [remaining, remaining, hstart, hinterval, hclock]
  refine ⟨fun t ht => ?_, fun _ => ⟨x, hx, by rw [hnext, hrem]⟩⟩
  have hlt := UInt16.le_iff_toNat_le.mp (hle t ht)
  rw [hdist, distance_eq (hexp t ht) (hnow t ht), distance_eq (hexp x hx) (hnow x hx)] at hlt
  rw [hnext, hrem]
  omega

/-- The end of `update_time`. -/
theorem Updating.return {ret : EtimerReturn κ} (h : s.Updating l ret) (hl : s.Linked l)
    (hright : s'.Right l) (hpc : s'.pc = s.returnTo ret) (hpoll : s'.needspoll = s.needspoll)
    (hexp : ∀ t, s'.timerExpired t ↔ s.timerExpired t) (hnext : s'.next = s.next) :
    s'.Watched l s'.pc := by
  rw [hpc]
  cases ret with
  | caller => exact ⟨.inl (hpoll ▸ h), hright⟩
  | stop et =>
      refine ⟨?_, hright⟩
      rcases h with h | h
      · exact .inl (hpoll ▸ h)
      · exact .inr fun t ht hc => (h t ht).1 ((hexp t).mp hc)
  | again =>
      refine ⟨?_, hright⟩
      by_cases hnone : s'.NoneExpired l
      · exact .inr (.inl hnone)
      · refine .inr (.inr ⟨[], l, ?_, not_noneExpired.mp hnone⟩)
        rw [At, hnext]
        exact at_head hl.chain

omit [DecidableEq κ] in
/-- A step that changes no timer and neither the list nor the time. -/
theorem Attentive.keep (h : s.Attentive l) (hp : s'.p = s.p)
    (hmoving : ∀ t, s.pc.moving = some t → s'.pc.moving = some t ∨ t ∈ l)
    (hwatched : s'.Watched l s'.pc) : s'.Attentive l where
  pending t ht := by
    rw [hp] at ht
    rcases h.pending t ht with hmem | hmov
    · exact .inl hmem
    · exact (hmoving t hmov).symm
  watched := hwatched

/-- `etimer_stop` takes the timer off the list. The old `next_expiration` is good for the rest. -/
theorem Attentive.unlink (h : s.Attentive l) {et : κ} (hpc : s.pc.moving = none)
    (hold : (s.needspoll ∨ s.NoneExpired l) ∧ s.Right l)
    (hl' : ∀ x, x ∈ l' ↔ x ∈ l ∧ x ≠ et) (hp : s'.p = s.p) (hpoll : s'.needspoll = s.needspoll)
    (hn : s'.nextExpiration = s.nextExpiration) (htime : s'.time = s.time)
    (hstart : s'.start = s.start) (hinterval : s'.interval = s.interval)
    (hpc' : s'.pc = .updateTime (.stop et)) : s'.Attentive l' where
  pending t ht := by
    rw [hp] at ht
    rcases h.pending t ht with hmem | hmov
    · -- The one that is taken off is on its way until `etimer_stop` returns.
      by_cases hte : t = et
      · exact .inr (by rw [hpc', hte]; rfl)
      · exact .inl ((hl' t).mpr ⟨hmem, hte⟩)
    · rw [hpc] at hmov
      cases hmov
  watched := by
    rw [hpc']
    obtain ⟨hnone, hright⟩ := hold
    have hclock : s'.clockTime = s.clockTime := by rw [clockTime, htime, clockTime]
    rcases hnone with hpolled | hnone
    · exact .inl (hpoll ▸ hpolled)
    · refine .inr fun t ht => ?_
      -- The least distance of the longer list is not above any of the shorter one.
      have hmem := ((hl' t).mp ht).1
      have hexp := hnone t hmem
      have hle := (hright hnone).1 t hmem
      obtain ⟨x, hx, hnext⟩ := (hright hnone).2 (List.ne_nil_of_mem hmem)
      have hx' := timerExpired_iff.not.mp (hnone x hx)
      have hrem := remaining_eq (hnone x hx)
      refine ⟨?_, ?_, ?_⟩
      · rwa [timerExpired, hinterval, hstart, hclock]
      · rw [toNext, hn, hclock]
        show 1 ≤ s.toNext
        omega
      · rw [toNext, hn, hclock, remaining, hstart, hinterval, hclock]
        exact hle

omit [DecidableEq κ] in
/-- A step along the list: the same timer is on the move as before, or none was. -/
theorem Attentive.move (h : s.Attentive l) (hp : s'.p = s.p)
    (hmoving : s.pc.moving = none ∨ s'.pc.moving = s.pc.moving)
    (hwatched : s'.Watched l s'.pc) : s'.Attentive l := by
  refine h.keep hp (fun t ht => ?_) hwatched
  rcases hmoving with hnone | hsame
  · rw [hnone] at ht
    cases ht
  · rw [hsame]
    exact .inl ht

omit [DecidableEq κ] in
/-- What is known of the next expiration, at the place where the running function is. -/
theorem Attentive.watched_of (h : s.Attentive l) {pc : EtimerPc κ π} (hpc : s.pc = pc) :
    s.Watched l pc := by
  rw [← hpc]
  exact h.watched

omit [DecidableEq κ] in
/-- While no timer is on the move, every one with a process is on the list. -/
theorem Attentive.mem (h : s.Attentive l) (hmov : s.pc.moving = none) (ht : s.p t ≠ none) :
    t ∈ l := by
  rcases h.pending t ht with hmem | hm
  · exact hmem
  · rw [hmov] at hm
    cases hm

omit [DecidableEq κ] in
/-- A timer with a process is on the list when it is not the one on the move. -/
theorem Attentive.mem_of_ne (h : s.Attentive l) {et : κ} (hmov : s.pc.moving = some et)
    (hne : t ≠ et) (ht : s.p t ≠ none) : t ∈ l := by
  rcases h.pending t ht with hmem | hm
  · exact hmem
  · rw [hmov] at hm
    exact absurd (Option.some.inj hm).symm hne

omit [DecidableEq κ] in
/-- The timer that `etimer_stop` has unlinked is on the move when `update_time` returns, too. -/
theorem moving_returnTo (s : Etimers κ π) (ret : EtimerReturn κ) :
    (s.returnTo ret).moving = ret.moving := by
  cases ret <;> rfl

omit [DecidableEq κ] in
/-- A step of `update_time` leaves the poll and `next_expiration` as they are. -/
theorem Updating.of_pc {ret : EtimerReturn κ} (h : s.Updating l ret) (pc : EtimerPc κ π) :
    ({ s with pc := pc } : Etimers κ π).Updating l ret := by
  cases ret with
  | caller | stop | again => exact h

/-- A call overlooks no timer. -/
theorem Attentive.call (hl : s.Linked l) (h : s.Attentive l) (hpc : s.pc = .idle)
    {caller : Option π} {c : EtimerCall κ} (hc : ∀ et timediff, c ≠ .adjust et timediff) :
    ∃ l', Segment (s.call caller c).next (s.call caller c).timerlist l' none ∧
      (s.call caller c).Attentive l' := by
  have hwatched := h.watched_of hpc
  have hmov : s.pc.moving = none := by rw [hpc]; rfl
  cases c with
  | adjust et timediff => exact absurd rfl (hc et timediff)
  | set | reset | restart => exact ⟨l, hl.chain, fun t ht => .inl (h.mem hmov ht), trivial⟩
  | stop et =>
      rw [Etimers.call]
      split
      · rename_i hhead
        have hwalk : s.At l (some et) [] l := hhead ▸ at_head hl.chain
        obtain ⟨l', hl', _, hseg⟩ := hwalk.remove hl.chain rfl
        exact ⟨l', hseg, h.unlink hmov hwatched hl' rfl rfl rfl rfl rfl rfl rfl⟩
      · exact ⟨l, hl.chain, fun t ht => .inl (h.mem hmov ht), hwatched⟩

/-! ### The steps of the functions -/

/-- The timers on the list after a step, none of which is overlooked. -/
def StillAttentive (s : Etimers κ π) : Prop :=
  ∃ l, Segment s.next s.timerlist l none ∧ s.Attentive l

section Code

variable [DecidableEq π] {posted : Bool}

/-- `add_timer` polls the process at once. -/
theorem Attentive.code_addTimer (hl : s.Linked l) (h : s.Attentive l) {timer : κ}
    (hpc : s.pc = .addTimer timer) (hstep : s.code posted = some s') : s'.StillAttentive := by
  rw [Etimers.code, hpc] at hstep
  cases hstep
  refine ⟨l, hl.chain, h.move rfl (.inr ?_) ?_⟩
  · rw [hpc]
    dsimp only
    split <;> rfl
  · dsimp only
    split <;> rfl

/-- The loop of `add_timer` finds the timer on the list, or goes on with it to be linked. -/
theorem Attentive.code_addWalk (hl : s.Linked l) (h : s.Attentive l) {timer : κ} {u : Option κ}
    (hpc : s.pc = .addWalk timer u) (hstep : s.code posted = some s') : s'.StillAttentive := by
  obtain ⟨_, l₁, l₂, hwalk, _⟩ := hl.place_of hpc
  have hwatched : s.needspoll := h.watched_of hpc
  rw [Etimers.code, hpc] at hstep
  cases u with
  | none =>
      cases hstep
      exact ⟨l, hl.chain, h.move rfl (.inr (by rw [hpc]; rfl)) hwatched⟩
  | some t =>
      cases hstep
      by_cases ht : t = timer
      · subst ht
        refine ⟨l, hl.chain, h.keep rfl (fun x hx => .inr ?_) ?_⟩
        · rw [hpc] at hx
          cases hx
          exact hwalk.mem
        · dsimp only
          rw [if_pos rfl]
          exact hwatched
      · refine ⟨l, hl.chain, h.move rfl (.inr ?_) ?_⟩
        · rw [hpc]
          dsimp only
          rw [if_neg ht]
          rfl
        · dsimp only
          rw [if_neg ht]
          exact hwatched

/-- The timer is linked, and gets its process. -/
theorem Attentive.code_link (hl : s.Linked l) (h : s.Attentive l) {timer : κ}
    (hpc : s.pc = .link timer) (hstep : s.code posted = some s') : s'.StillAttentive := by
  obtain ⟨_, hnot⟩ := hl.place_of hpc
  have hwatched : s.needspoll := h.watched_of hpc
  rw [Etimers.code, hpc] at hstep
  cases hstep
  refine ⟨timer :: l, hl.chain.push hnot, fun t ht => .inl ?_, hwatched⟩
  by_cases hte : t = timer
  · exact List.mem_cons.mpr (.inl hte)
  · have ht' : s.p t ≠ none := by
      rw [← Function.update_of_ne hte s.processCurrent s.p]
      exact ht
    exact List.mem_cons_of_mem _ (h.mem_of_ne (by rw [hpc]; rfl) hte ht')

/-- `update_time` starts with the distance of the head of the list. Of an empty list there is
nothing to say. -/
theorem Attentive.code_updateTime (hl : s.Linked l) (h : s.Attentive l) {ret : EtimerReturn κ}
    (hpc : s.pc = .updateTime ret) (hstep : s.code posted = some s') : s'.StillAttentive := by
  have hwatched : s.Updating l ret := h.watched_of hpc
  rw [Etimers.code, hpc] at hstep
  dsimp only at hstep
  split at hstep
  · rename_i hnil
    cases hstep
    -- Without a head there is no timer.
    obtain rfl : l = [] := by
      have hchain := hl.chain
      rw [hnil] at hchain
      cases l with
      | nil => rfl
      | cons a l => cases (Segment.cons_iff.mp hchain).1
    refine ⟨[], hl.chain, h.move rfl (.inr (by rw [hpc]; exact moving_returnTo s ret)) ?_⟩
    refine hwatched.return hl (fun _ => ⟨?_, fun hne => absurd rfl hne⟩) rfl rfl
      (fun _ => Iff.rfl) rfl
    intro t ht
    cases ht
  · rename_i t hhead
    cases hstep
    -- The walk starts with the distance of the head.
    have hwalk : s.At l (some t) [] l := hhead ▸ at_head hl.chain
    obtain ⟨l₃, rfl, hwalk'⟩ := hwalk.next
    refine ⟨_, hl.chain, h.move rfl (.inr (by rw [hpc]; rfl)) ⟨hwatched.of_pc _, ?_⟩⟩
    refine ⟨fun x _ => ?_, [t], l₃, hwalk', fun x hx => ?_, t, by simp, rfl⟩
    · show (s.clockTime - s.clockTime).toNat ≤ _
      rw [UInt16.sub_self]
      exact Nat.zero_le _
    · rw [List.mem_singleton.mp hx]
      exact UInt16.le_refl _

/-- The loop of `update_time` takes the smaller one of two distances. At the end of the list it has
the least one. -/
theorem Attentive.code_updateWalk (hl : s.Linked l) (h : s.Attentive l) {now tdist : UInt16}
    {u : Option κ} {ret : EtimerReturn κ} (hpc : s.pc = .updateWalk now tdist u ret)
    (hstep : s.code posted = some s') : s'.StillAttentive := by
  obtain ⟨hret, hwalk⟩ := h.watched_of hpc
  rw [Etimers.code, hpc] at hstep
  cases u with
  | none =>
      cases hstep
      exact ⟨l, hl.chain, h.move rfl (.inr (by rw [hpc]; exact moving_returnTo s ret))
        (hret.return hl (hwalk.exact rfl rfl rfl rfl) rfl rfl (fun _ => Iff.rfl) rfl)⟩
  | some t =>
      cases hstep
      obtain ⟨hnow, l₁, l₂, hat, hle, x, hx, hdist⟩ := hwalk
      obtain ⟨l₃, rfl, hat'⟩ := hat.next
      refine ⟨l, hl.chain, h.move rfl (.inr (by rw [hpc]; rfl))
        ⟨hret.of_pc _, hnow, _, l₃, hat', ?_⟩⟩
      show (∀ x ∈ l₁ ++ [t], _ ≤ s.start x + s.interval x - now) ∧
        ∃ x ∈ l₁ ++ [t], _ = s.start x + s.interval x - now
      split
      · -- The new distance is the smaller one, and so below all those before.
        rename_i hlt
        refine ⟨fun y hy => ?_, t, by simp, rfl⟩
        rcases List.mem_append.mp hy with hy | hy
        · exact UInt16.le_trans (UInt16.le_of_lt hlt) (hle y hy)
        · rw [List.mem_singleton.mp hy]
          exact UInt16.le_refl _
      · -- The old one stays.
        rename_i hge
        refine ⟨fun y hy => ?_, x, by simp [hx], hdist⟩
        rcases List.mem_append.mp hy with hy | hy
        · exact hle y hy
        · rw [List.mem_singleton.mp hy]
          exact UInt16.not_lt.mp hge

/-- The loop of `etimer_stop` takes the timer off the list. -/
theorem Attentive.code_stopWalk (hl : s.Linked l) (h : s.Attentive l) {et : κ} {u : Option κ}
    (hpc : s.pc = .stopWalk et u) (hstep : s.code posted = some s') : s'.StillAttentive := by
  obtain ⟨l₁, l₂, hwalk, _, _⟩ := hl.place_of hpc
  have hwatched := h.watched_of hpc
  have hmov : s.pc.moving = none := by rw [hpc]; rfl
  rw [Etimers.code, hpc] at hstep
  cases u with
  | none =>
      cases hstep
      exact ⟨l, hl.chain, h.move rfl (.inl hmov) hwatched⟩
  | some t =>
      dsimp only at hstep
      split at hstep
      · rename_i hnext
        cases hstep
        obtain ⟨l₃, rfl, hwalk'⟩ := hwalk.next
        obtain ⟨l', hl', _, hseg⟩ := (hnext ▸ hwalk').remove hl.chain rfl
        rw [List.getLast?_concat] at hseg
        exact ⟨l', hseg, h.unlink hmov hwatched hl' rfl rfl rfl rfl rfl rfl rfl⟩
      · cases hstep
        exact ⟨l, hl.chain, h.move rfl (.inl hmov) hwatched⟩

/-- The timer that was stopped has no process any more. -/
theorem Attentive.code_stopEnd (hl : s.Linked l) (h : s.Attentive l) {et : κ}
    (hpc : s.pc = .stopEnd et) (hstep : s.code posted = some s') : s'.StillAttentive := by
  have hnot : et ∉ l := hl.place_of hpc
  have hwatched := h.watched_of hpc
  rw [Etimers.code, hpc] at hstep
  cases hstep
  refine ⟨l, hl.chain.update hnot, fun t ht => .inl ?_, hwatched⟩
  by_cases hte : t = et
  · subst hte
    exact absurd (Function.update_self ..) ht
  · have ht' : s.p t ≠ none := by
      rw [← Function.update_of_ne hte none s.p]
      exact ht
    exact h.mem_of_ne (by rw [hpc]; rfl) hte ht'

/-- The loop of `etimer_process` stops at a timer that has expired. Otherwise the expired one is
still ahead. -/
theorem Attentive.code_scan (hl : s.Linked l) (h : s.Attentive l) {t u : Option κ}
    (hpc : s.pc = .scan t u) (hstep : s.code posted = some s') : s'.StillAttentive := by
  obtain ⟨hscan, hright⟩ := h.watched_of hpc
  have hmov : s.pc.moving = none := by rw [hpc]; rfl
  rw [Etimers.code, hpc] at hstep
  cases t with
  | none =>
      cases hstep
      refine ⟨l, hl.chain, h.move rfl (.inl hmov) ⟨?_, hright⟩⟩
      -- At the end of the list nothing is ahead.
      rcases hscan with hpoll | hnone | ⟨l₁, l₂, hwalk, x, hx, _⟩
      · exact .inl hpoll
      · exact .inr hnone
      · rw [hwalk.end_eq.1] at hx
        cases hx
  | some t =>
      cases hstep
      refine ⟨l, hl.chain, h.move rfl (.inl hmov) ?_⟩
      dsimp only
      split
      · assumption
      · rename_i hexp
        refine ⟨?_, hright⟩
        rcases hscan with hpoll | hnone | ⟨l₁, l₂, hwalk, x, hx, hxexp⟩
        · exact .inl hpoll
        · exact .inr (.inl hnone)
        · obtain ⟨l₃, rfl, hwalk'⟩ := hwalk.next
          refine .inr (.inr ⟨_, l₃, hwalk', x, ?_, hxexp⟩)
          -- The timer gone past has not expired.
          rcases List.mem_cons.mp hx with rfl | hx
          · exact absurd hxexp hexp
          · exact hx

/-- The event queue is full, and the process polls itself. -/
theorem Attentive.code_notPosted (hl : s.Linked l) (h : s.Attentive l) {t : κ} {u : Option κ}
    (hpc : s.pc = .expired t u) (hstep : s.code false = some s') : s'.StillAttentive := by
  obtain ⟨_, l₁, l₂, hwalk, _⟩ := hl.place_of hpc
  have hexp : s.timerExpired t := h.watched_of hpc
  rw [Etimers.code, hpc] at hstep
  cases hstep
  exact ⟨l, hl.chain, h.move rfl (.inl (by rw [hpc]; rfl))
    ⟨.inl rfl, fun hnone => absurd hexp (hnone t hwalk.mem)⟩⟩

/-- The timer whose event was posted has no process any more. Then `update_time` runs, and the
timers are looked at again. -/
theorem Attentive.code_posted (hl : s.Linked l) (h : s.Attentive l) {t : κ} {u : Option κ}
    (hpc : s.pc = .expired t u) (hstep : s.code true = some s') : s'.StillAttentive := by
  obtain ⟨_, l₁, l₂, hwalk, hu⟩ := hl.place_of hpc
  obtain ⟨l', hl', _, hseg⟩ := hwalk.remove hl.chain hu
  have ht : t ∉ l' := fun hmem => ((hl' t).mp hmem).2 rfl
  have hpending : ∀ x, Function.update s.p t none x ≠ none → x ∈ l' := by
    intro x hx
    have hxt : x ≠ t := by
      rintro rfl
      exact hx (Function.update_self ..)
    rw [Function.update_of_ne hxt] at hx
    exact (hl' x).mpr ⟨h.mem (by rw [hpc]; rfl) hx, hxt⟩
  rw [Etimers.code, hpc] at hstep
  cases u with
  | none =>
      cases hstep
      exact ⟨l', hseg.update ht, fun x hx => .inl (hpending x hx), trivial⟩
  | some u =>
      cases hstep
      exact ⟨l', hseg.update ht, fun x hx => .inl (hpending x hx), trivial⟩

/-- The process that has exited has no timer on the list, so none is dropped at its head. -/
theorem Attentive.code_exitedHead (hl : s.Linked l) (h : s.Attentive l) {p : π}
    (hpc : s.pc = .exitedHead p) (hstep : s.code posted = some s') : s'.StillAttentive := by
  obtain ⟨hwatched, hnot⟩ := h.watched_of hpc
  have hmov : s.pc.moving = none := by rw [hpc]; rfl
  rw [Etimers.code, hpc] at hstep
  dsimp only at hstep
  split at hstep
  · cases hstep
    exact ⟨l, hl.chain, h.move rfl (.inl hmov) hwatched⟩
  · rename_i t _
    rw [if_neg (hnot t)] at hstep
    cases hstep
    exact ⟨l, hl.chain, h.move rfl (.inl hmov) ⟨hwatched, hnot⟩⟩

/-- Neither is one behind the head. -/
theorem Attentive.code_exitedWalk (hl : s.Linked l) (h : s.Attentive l) {p : π} {t : κ}
    (hpc : s.pc = .exitedWalk p t) (hstep : s.code posted = some s') : s'.StillAttentive := by
  obtain ⟨hwatched, hnot⟩ := h.watched_of hpc
  have hmov : s.pc.moving = none := by rw [hpc]; rfl
  rw [Etimers.code, hpc] at hstep
  dsimp only at hstep
  split at hstep
  · cases hstep
    exact ⟨l, hl.chain, h.move rfl (.inl hmov) hwatched⟩
  · rename_i n _
    rw [if_neg (hnot n)] at hstep
    cases hstep
    exact ⟨l, hl.chain, h.move rfl (.inl hmov) ⟨hwatched, hnot⟩⟩

/-- A step of a function overlooks no timer. -/
theorem Attentive.code (hl : s.Linked l) (h : s.Attentive l)
    (hstep : s.code posted = some s') : s'.StillAttentive := by
  cases hpc : s.pc with
  | idle =>
      rw [Etimers.code, hpc] at hstep
      cases hstep
  | addTimer timer => exact h.code_addTimer hl hpc hstep
  | addWalk timer t => exact h.code_addWalk hl hpc hstep
  | link timer => exact h.code_link hl hpc hstep
  | updateTime ret => exact h.code_updateTime hl hpc hstep
  | updateWalk now tdist t ret => exact h.code_updateWalk hl hpc hstep
  | stopWalk et t => exact h.code_stopWalk hl hpc hstep
  | stopEnd et => exact h.code_stopEnd hl hpc hstep
  | scan t u => exact h.code_scan hl hpc hstep
  | expired t u =>
      cases posted with
      | false => exact h.code_notPosted hl hpc hstep
      | true => exact h.code_posted hl hpc hstep
  | exitedHead p => exact h.code_exitedHead hl hpc hstep
  | exitedWalk p t => exact h.code_exitedWalk hl hpc hstep

end Code

/-! ### Every run -/

/-- The invariant of the runs `InTime`. -/
def Attended (s : Etimers κ π) : Prop :=
  s.Inv ∧ s.StillAttentive

/-- At the start the list is empty, so no timer can be overlooked. -/
theorem Attended.init : (Etimers.init : Etimers κ π).Attended := by
  refine ⟨.init, [], .nil none, fun t ht => absurd rfl ht, .inr ?_, fun _ => ⟨?_, ?_⟩⟩
  · intro t ht
    cases ht
  · intro t ht
    cases ht
  · intro hne
    exact absurd rfl hne

variable [DecidableEq π]

/-- Every step of a run `InTime` keeps the invariant. -/
theorem Attended.step (h : s.Attended) {a : EtimerLabel κ π} (ha : InTime s a)
    (hstep : s.step a = some s') : s'.Attended := by
  obtain ⟨hinv, l, hchain, hatt⟩ := h
  have hinv' : s'.Inv := by
    refine hinv.step ?_ hstep
    cases a with
    | call caller c => exact ha.1
    | _ => trivial
  obtain ⟨l₁, hl⟩ := hinv.linked
  obtain rfl := hl.chain.unique hchain
  refine ⟨hinv', ?_⟩
  have hmov : s.pc = .idle → ∀ t, s.p t ≠ none → t ∈ l₁ :=
    fun hpc t ht => hatt.mem (by rw [hpc]; rfl) ht
  cases a with
  | call caller c =>
      rw [Etimers.step] at hstep
      split at hstep
      · rename_i hpc
        cases hstep
        exact hatt.call hl hpc ha.2
      · cases hstep
  | code posted => exact hatt.code hl hstep
  | poll =>
      rw [Etimers.step] at hstep
      split at hstep
      · rename_i hpoll
        cases hstep
        have hwatched := hatt.watched_of hpoll.1
        refine ⟨l₁, hl.chain, fun t ht => .inl (hmov hpoll.1 t ht), ?_, hwatched.2⟩
        -- Every timer is looked at.
        by_cases hnone : s.NoneExpired l₁
        · exact .inr (.inl hnone)
        · exact .inr (.inr ⟨[], l₁, at_head hl.chain, not_noneExpired.mp hnone⟩)
      · cases hstep
  | exited p =>
      rw [Etimers.step] at hstep
      split at hstep
      · rename_i hpc
        cases hstep
        have hwatched := hatt.watched_of hpc
        exact ⟨l₁, hl.chain, fun t ht => .inl (hmov hpc t ht), hwatched, ha⟩
      · cases hstep
  | tick late =>
      cases hstep
      obtain ⟨hnext, hlist, _⟩ := timera1_fields s late
      refine ⟨l₁, by rw [hnext, hlist]; exact hl.chain, hatt.tick hl fun t ht => ?_⟩
      exact ha t (hl.owner t ht).1

end Etimers

variable [DecidableEq π]

/-- **No timer that has run out is overlooked.** When no function is running, and the interval of a
timer has passed whose event was not posted, `etimer_process` has been polled. -/
theorem expired_polled {s : Etimers κ π} (h : (etimers κ π).ReachableIf InTime s)
    (hpc : s.pc = .idle) {t : κ} (hpending : ¬ s.etimerExpired t) (hexp : s.timerExpired t) :
    s.needspoll := by
  obtain ⟨_, l, _, hatt⟩ := h.invariant Etimers.Attended .init
    fun _ _ _ hs ha hstep => hs.step ha hstep
  have hwatched := hatt.watched_of hpc
  refine hwatched.1.resolve_right fun hnone => hnone t ?_ hexp
  exact hatt.mem (by rw [hpc]; rfl) hpending

/-- `expired_polled` when the timer of three ticks has run out. -/
theorem expired_polled_threeTicks : ∃ s : Etimers Bool Unit,
    s.pc = .idle ∧ s.timerExpired true ∧ s.needspoll := by
  have hend : ((etimers Bool Unit).runIf InTime Etimers.init (threeTicks.take 11)).map
      (fun s => (s.pc, s.p true, decide (s.timerExpired true))) = some (.idle, some (), true) := by
    decide
  obtain ⟨s, hs, hf⟩ := Machine.exists_reachableIf_of_runIf (M := etimers Bool Unit) hend
  simp only [Prod.mk.injEq, decide_eq_true_eq] at hf
  obtain ⟨hpc, hp, hexp⟩ := hf
  exact ⟨s, hpc, hexp, expired_polled hs hpc (by rw [Etimers.etimerExpired, hp]; simp) hexp⟩

end PTunes.Core
