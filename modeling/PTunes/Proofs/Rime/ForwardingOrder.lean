import PTunes.Proofs.Rime.Forwarding

/-!
# `PTunes.Proofs.Rime.ForwardingOrder`: the forwarding queue is a queue

The node refines the queue of `PTunes.Lib.Fifo`. The queued packets are the pending items,
and the head is handed over while a relunicast transmission is pending (`Tracked`).
`Fifo.inOrder_of_run` then says what the log of a node looks like.

One event breaks the refinement. The completion handlers clear `forwarding`, then update
the route, and only then remove the packet. When the metric was `RTMETRIC_MAX`, the route
update calls `rel_send_queued_packet`, which hands the finished packet over once more. It
is removed nevertheless, and the second completion removes a packet that was never sent.
`NoResend` excludes these completions.
-/

set_option autoImplicit false

namespace PTunes.Rime

/-- The states in which the route update of a completion calls `rel_send_queued_packet`. -/
def resendPoints (C : NodeConf) (s : Node) (a : NodeAction) : List (Env × Node) :=
  match completed C s a with
  | some (env, _, s') => sendPoint env (updateRoute C s')
  | none => []

/-- The route update of a completion does not hand a packet over. -/
def NoResend (C : NodeConf) (s : Node) (a : NodeAction) : Prop :=
  ∀ p ∈ resendPoints C s a, handsOver C p.1 p.2 = false

instance (C : NodeConf) (s : Node) : DecidablePred (NoResend C s) := fun a =>
  inferInstanceAs (Decidable (∀ p ∈ resendPoints C s a, _))

/-- The state of the abstract queue: the queued packets, and whether the head is in
transmission. -/
def Node.fifo (s : Node) : Fifo Nat := ⟨s.queue.uids, s.relunicast.isTx⟩

/-- The log leads the abstract queue to the state of the node, and every packet has its own
number. -/
structure Tracked (s : Node) : Prop where
  run : Fifo.run s.log = some s.fifo
  enqueued : Fifo.enqueued s.log = List.range s.nextUid

/-- The log is empty at first, and so is the queue. -/
theorem tracked_boot : Tracked Node.boot := ⟨rfl, rfl⟩

/-- A quiet step logs nothing, and `enqueue` logs the number of the packet that it adds. -/
theorem stable_tracked : Stable Tracked where
  quiet s s' hq h := by
    refine ⟨?_, ?_⟩
    · rw [Node.fifo, hq.log, hq.uids, hq.isTx]
      exact h.run
    · rw [hq.log, hq.nextUid]
      exact h.enqueued
  enqueue s s' hq h := by
    refine ⟨?_, ?_⟩
    · rw [hq.log]
      refine Fifo.run_concat h.run ?_
      rw [Node.fifo, Node.fifo, hq.uids, hq.isTx]
      rfl
    · rw [hq.log, hq.nextUid, List.range_succ, ← h.enqueued]
      exact Fifo.enqueued_append_enqueue _ _

/-- A transmission that goes on leaves the queue and the log as they are. -/
theorem Tracked.pending {s s' : Node} (h : Tracked s) (hp : Pending s s') : Tracked s' := by
  refine ⟨?_, ?_⟩
  · rw [Node.fifo, hp.log, hp.uids, hp.isTx]
    exact h.run
  · rw [hp.log, hp.nextUid]
    exact h.enqueued

/-- Every call of `rel_send_queued_packet` outside a completion keeps the refinement. -/
theorem relSendQueuedPacket_tracked {C : NodeConf} {env : Env} {s : Node} (h : NodeInv C s)
    (ho : s.opened = true) (ht : Tracked s) : Tracked (relSendQueuedPacket C env s) := by
  obtain ⟨_, _, hcase⟩ := relSendQueuedPacket_spec h ho env
  rcases hcase with ⟨_, hq⟩ | ⟨_, hf, hne, hh⟩
  · exact stable_tracked.quiet _ _ hq ht
  · have htx : s.relunicast.isTx = false := by
      rw [← Bool.not_eq_true]
      intro htx
      rw [h.txFwd htx] at hf
      cases hf
    obtain ⟨u, rest, hu⟩ := List.exists_cons_of_ne_nil hne
    have hrun := ht.run
    rw [Node.fifo, htx] at hrun
    refine ⟨?_, ?_⟩
    · rw [hh.log, Node.fifo, hh.uids, hh.isTx]
      by_cases hcan : CanSend s
      · simp only [hcan, decide_true, if_true, hu, List.take_succ_cons, List.take_zero,
          List.map_cons, List.map_nil]
        exact Fifo.run_concat hrun (by rw [hu]; simp [Fifo.step])
      · simp only [hcan, decide_false, Bool.false_eq_true, if_false, List.append_nil]
        exact hrun
    · rw [hh.log, hh.nextUid, ← ht.enqueued]
      split
      · exact Fifo.enqueued_append_handOver _ _
      · rw [List.append_nil]

/-- A route update that hands nothing over is quiet. -/
theorem relUpdateRtmetric_quiet {C : NodeConf} {env : Env} {s : Node} (h : NodeInv C s)
    (ho : s.opened = true)
    (hno : ∀ p ∈ sendPoint env (updateRoute C s), handsOver C p.1 p.2 = false) :
    Quiet s (relUpdateRtmetric C env s) := by
  refine (relUpdateRtmetric_rule env (fun t => Quiet s t) h ho (Quiet.refl s)
    (fun t t' hq hs => hs.trans hq) ?_).2.2
  intro p hp hinv hopen hq
  obtain ⟨_, _, hcase⟩ := relSendQueuedPacket_spec hinv hopen p.1
  rcases hcase with ⟨_, hq'⟩ | ⟨hover, _⟩
  · exact hq.trans hq'
  · rw [hno p hp] at hover
    cases hover

/-- What an event that `NoResend` admits keeps. -/
theorem tracked_handle {C : NodeConf} {s : Node} {a : NodeAction} (h : NodeInv C s)
    (ht : Tracked s) (he : enabled C s a = true) (hno : NoResend C s a) :
    NodeInv C (handle C s a) ∧ Tracked (handle C s a) := by
  refine handle_rule stable_tracked h ht he ?_ ?_ ?_
  · intro p _ hinv ho htr
    exact relSendQueuedPacket_tracked hinv ho htr
  · intro _ _ hp
    exact ht.pending hp
  · intro env env' s' hc hinv hcomp
    rw [NoResend, resendPoints, hc] at hno
    have hq := relUpdateRtmetric_quiet hinv hcomp.opened hno
    obtain ⟨hupd, _, _⟩ := relUpdateRtmetric_rule env (fun _ => True) hinv
      hcomp.opened trivial (fun _ _ _ _ => trivial) (fun _ _ _ _ _ => trivial)
    obtain ⟨_, _, hdeq⟩ := hupd.dequeueForwarding
    -- Before the event the head was in transmission, and up to the removal only the flags
    -- have changed.
    have huids := hq.uids.trans hcomp.uids
    have hlog := hq.log.trans hcomp.log
    have hrun := ht.run
    rw [Node.fifo, hcomp.wasTx] at hrun
    obtain ⟨u, hu⟩ := (Fifo.tracks_of_run hrun).head rfl
    obtain ⟨rest, hr⟩ := List.head?_eq_some_iff.mp hu
    simp only at hr
    refine ⟨?_, ?_⟩
    · rw [hdeq.log, Node.fifo, hdeq.uids, hdeq.isTx, hq.isTx, hcomp.isTx, hlog, huids, hr]
      simp only [List.take_succ_cons, List.take_zero, List.map_cons, List.map_nil,
        List.tail_cons]
      exact Fifo.run_concat hrun (by rw [hr]; simp [Fifo.step])
    · rw [hdeq.log, hdeq.nextUid, hlog, hq.nextUid, hcomp.nextUid, ← ht.enqueued]
      exact Fifo.enqueued_append_dequeue _ _

/-- In every run whose events all satisfy `NoResend`: a removed packet is the one that the
completed `relunicast_send` was called with, it was handed over exactly once, packets are
handed over in the order in which they were enqueued, and the packets that are not removed
are still queued. -/
theorem forwarding_inOrder (C : NodeConf) (s : Node)
    (h : (nodeMachine C).ReachableIf (NoResend C) s) :
    Fifo.InOrder s.log ∧ Fifo.enqueued s.log = Fifo.dequeued s.log ++ s.queue.uids := by
  have hinv : NodeInv C s ∧ Tracked s := by
    refine h.invariant (fun s => NodeInv C s ∧ Tracked s) ⟨nodeInv_boot C, tracked_boot⟩ ?_
    intro s a s' hs hno hst
    simp only [nodeMachine] at hst
    split at hst
    · rename_i he
      cases hst
      exact tracked_handle hs.1 hs.2 he hno
    · cases hst
  refine ⟨Fifo.inOrder_of_run hinv.2.run ?_, (Fifo.tracks_of_run hinv.2.run).enqueued⟩
  rw [hinv.2.enqueued]
  exact List.nodup_range

/-- X-MAC gets no acknowledgement, or gets one. -/
def attempt (acked : Bool) : NodeAction := .sendTimer id acked sampleEnv sampleEnv

/-- Two packets, of which the first is acknowledged. -/
theorem forwarding_inOrder_sample :
    ∃ s, (nodeMachine sampleNode).ReachableIf (NoResend sampleNode) s ∧
      s.log = [.enqueue 0, .handOver 0, .enqueue 1, .dequeue 0, .handOver 1] ∧
      Fifo.InOrder s.log ∧ Fifo.enqueued s.log = Fifo.dequeued s.log ++ s.queue.uids := by
  have hrun := Machine.reachableIf_of_runIf (M := nodeMachine sampleNode) (NoResend sampleNode)
    [.relcollectOpen, hear 0, sendOwn 3, sendOwn 3, attempt false, attempt true] rfl
  exact ⟨_, hrun, by decide +kernel, forwarding_inOrder sampleNode _ hrun⟩

/-- The parent raises its metric until that of the node is exactly `RTMETRIC_MAX`. The
completion after sixteen retransmissions changes the ETX of the parent, so it sends the
finished packet again, and the next completion removes a packet that was never sent. -/
theorem not_forall_forwarding_inOrder :
    ¬ ∀ (C : NodeConf) (s : Node), (nodeMachine C).Reachable s →
      Fifo.InOrder s.log ∧ Fifo.enqueued s.log = Fifo.dequeued s.log ++ s.queue.uids := by
  intro h
  refine Machine.not_forall_reachable
    ([.relcollectOpen, hear 100, sendOwn 16, sendOwn 16, hear 254] ++
      List.replicate 16 (attempt false) ++ [attempt true, attempt true]) rfl ?_ (h sampleNode)
  intro hs
  have hlast := hs.1.completed
    [.enqueue 0, .handOver 0, .enqueue 1, .handOver 0, .dequeue 0] 1 [] (by decide +kernel)
  exact absurd hlast (by decide)

end PTunes.Rime
