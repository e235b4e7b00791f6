import PTunes.Proofs.Rime.Events

/-!
# `PTunes.Proofs.Rime.Forwarding`: when the forwarding flag is a promise

`rel_send_queued_packet` sets `forwarding` and then calls `relunicast_send`, whose result it
ignores. `relunicast_send` fails when it finds no queue buffer. It frees the buffer of the
last packet first, so this happens only while the connection has no buffer yet and the
pool is exhausted. LPP has a second way to lose the completion: `send_packet` of `lpp.c` drops
a packet when it has no item or no queue buffer for it, and never calls `post_send` for a
packet to `rimeaddr_null`. `CanForward` excludes the events that reach `relunicast_send` or
LPP in such a state. In every run without them, `forwarding` implies that a transmission is
pending, and that its timer is set or LPP owes the call of `post_send` (`forwarding_isTx`).

`stuck_handle` shows what the excluded events lead to. A node with the flag set, no timer and
nothing owed keeps this state whatever happens to it.
-/

set_option autoImplicit false

namespace PTunes.Rime

/-- While the node is forwarding, a transmission is pending, and its timer is set or LPP owes
its completion. -/
def Live (s : Node) : Prop :=
  s.conn.forwarding = true →
    s.relunicast.isTx = true ∧ (s.relunicast.timer = true ∨ s.macOwes = true)

/-- LPP takes the packet that `send` hands over: there is an item for its list, the pool has a
block, and the packet is for a neighbor. -/
def LppTakes (C : NodeConf) (s : Node) : NodeAction → Prop
  | .sendTimer _ _ env _ =>
    C.mac = .lpp → ¬ s.relunicast.rxmit > s.relunicast.maxRxmit →
      env.lppItem = true ∧ s.pool.queuebufLen.toNat < queuebufNum ∧
        rimeaddrCmp s.relunicast.receiver rimeaddrNull = false
  | _ => True

instance (C : NodeConf) (s : Node) : DecidablePred (LppTakes C s) := fun a =>
  match a with
  | .sendTimer _ _ _ _ => inferInstanceAs (Decidable (_ → _ → _))
  | .relcollectOpen | .setSink _ _ | .relcollectSend _ _ _ | .received _ _ _
  | .recvAdv _ _ _ _ | .removeQueuedPacket _ _ _ _ | .removeBroadcast _ _ | .ipoliteTimer _
  | .advTimer | .neighborPeriodic | .neighborSetLifetime _ | .otherNew _ | .otherFree _ =>
    .isTrue trivial

/-- Wherever the event reaches `relunicast_send`, there is a buffer for the packet, and LPP
takes the packet that the event hands to it. -/
def CanForward (C : NodeConf) (s : Node) (a : NodeAction) : Prop :=
  (∀ p ∈ sendPoints C s a, handsOver C p.1 p.2 = true → CanSend p.2) ∧ LppTakes C s a

instance (C : NodeConf) (s : Node) : DecidablePred (CanForward C s) := fun a =>
  inferInstanceAs (Decidable ((∀ p ∈ sendPoints C s a, _ → _) ∧ _))

/-- A node that boots is not forwarding. -/
theorem live_boot : Live Node.boot := by
  intro hf
  cases hf

/-- `Live` is about the flags of the transmission, which quiet steps and `enqueue` leave. -/
theorem stable_live : Stable Live where
  quiet s s' hq h := by
    unfold Live Node.macOwes
    rw [hq.isTx, hq.timer, hq.lppPacket, hq.forwarding]
    exact h
  enqueue s s' hq h := by
    unfold Live Node.macOwes
    rw [hq.isTx, hq.timer, hq.lppPacket, hq.forwarding]
    exact h

/-- A call of `rel_send_queued_packet` that finds a buffer keeps `Live`. -/
theorem relSendQueuedPacket_live {C : NodeConf} {env : Env} {s : Node} (h : NodeInv C s)
    (ho : s.opened = true) (hcan : handsOver C env s = true → CanSend s) (hl : Live s) :
    Live (relSendQueuedPacket C env s) := by
  obtain ⟨_, _, hcase⟩ := relSendQueuedPacket_spec h ho env
  rcases hcase with ⟨_, hq⟩ | ⟨hover, _, _, hh⟩
  · exact stable_live.quiet _ _ hq hl
  · intro _
    have hsend := decide_eq_true (hcan hover)
    exact ⟨hh.isTx.trans hsend, Or.inl (hh.timer.trans hsend)⟩

/-- A packet that LPP takes is on its list afterwards. -/
theorem macOwes_lppSendPacket {C : NodeConf} {s : Node} (h : NodeInv C s) {env : Env}
    (hitem : env.lppItem = true) (hlen : s.pool.queuebufLen.toNat < queuebufNum)
    (hnull : rimeaddrCmp s.relunicast.receiver rimeaddrNull = false) :
    (Relunicast.lppSendPacket env s).macOwes = true := by
  rcases h.pool.new_cases s.packetbuf with ⟨b, p, hnew, _⟩ | ⟨hfull, _⟩
  · simp only [Relunicast.lppSendPacket, hitem, if_true, hnew, hnull, Bool.false_eq_true,
      if_false]
    rfl
  · rw [h.pool.len, hfull] at hlen
    exact absurd hlen (Nat.lt_irrefl _)

/-- A transmission that goes on keeps `Live`: X-MAC sets the timer again, LPP takes the packet,
and after `post_send` without an acknowledgement the timer is set. -/
theorem handleEvent_live {C : NodeConf} {s : Node} {a : NodeAction} (h : NodeInv C s)
    (he : enabled C s a = true) (hc : completed C s a = none) (ha : isAttempt a = true)
    (htakes : LppTakes C s a) : Live (handleEvent C s a) := by
  intro _
  obtain ⟨_, hp⟩ := handleEvent_pending h he hc ha
  refine ⟨hp.isTx.trans (h.pending he ha).2.2, ?_⟩
  cases a with
  | sendTimer mac acked env env' =>
      have hlpp := h.once (Bool.and_eq_true_iff.mp he).2
      simp only [completed] at hc
      split at hc
      · cases hc
      · rename_i hr
        split at hc
        · cases hc
        · rename_i hx
          simp only [handleEvent, Relunicast.send, if_neg hr]
          cases hmac : C.mac with
          | xmac =>
              have hacked : acked = false := by simpa [hmac] using hx
              simp only [hacked, Bool.false_eq_true, if_false]
              -- The timer is set again.
              exact Or.inl rfl
          | lpp =>
              -- LPP has taken the packet, so it owes its end.
              obtain ⟨hitem, hlen, hnull⟩ := htakes hmac hr
              have hsent : NodeInv C { s with
                  packetbuf := mac ((Relunicast.loadPacket C s).setAddr .receiver
                    s.relunicast.receiver)
                  relunicast := { s.relunicast with
                    rxmit := s.relunicast.rxmit + 1, timer := false } } :=
                h.timerFired (h.pending he ha).2.2 _ _
              exact Or.inr (macOwes_lppSendPacket hsent hitem hlen hnull)
  | removeQueuedPacket acked env env' env'' =>
      simp only [completed] at hc
      split at hc
      · cases hc
      · rename_i hacked
        simp only [handleEvent, removeQueuedPacket, Relunicast.postSend, if_neg hacked]
        exact Or.inl rfl
  | _ => cases ha

/-- What an event that `CanForward` admits keeps. -/
theorem live_handle {C : NodeConf} {s : Node} {a : NodeAction} (h : NodeInv C s)
    (hl : Live s) (he : enabled C s a = true) (hcan : CanForward C s a) :
    NodeInv C (handle C s a) ∧ Live (handle C s a) := by
  refine handle_rule stable_live h hl he ?_ ?_ ?_
  · intro p hp hinv ho hlive
    exact relSendQueuedPacket_live hinv ho (hcan.1 p hp) hlive
  · intro hc ha _
    exact handleEvent_live h he hc ha hcan.2
  · intro env env' s' hc hinv hcomp
    -- The completion has cleared the flag.
    have hlive : Live s' := by
      intro hf
      rw [hcomp.forwarding] at hf
      cases hf
    have hpoints : ∀ p ∈ sendPoint env (updateRoute C s'), p ∈ sendPoints C s a := by
      intro p hp
      rw [sendPoints, innerPoints_completed hc]
      exact List.mem_append_left _ (List.mem_append_left _ hp)
    obtain ⟨hupd, _, hlive'⟩ := relUpdateRtmetric_rule env Live hinv hcomp.opened hlive
      stable_live.quiet fun p hp hinv' ho hl' =>
        relSendQueuedPacket_live hinv' ho (hcan.1 p (hpoints p hp)) hl'
    obtain ⟨_, _, hdeq⟩ := hupd.dequeueForwarding
    unfold Live Node.macOwes
    rw [hdeq.forwarding, hdeq.isTx, hdeq.timer, hdeq.lppPacket]
    exact hlive'

/-- In every run whose events all satisfy `CanForward`: while the node is forwarding, a
relunicast transmission is pending, and its timer is set or the MAC owes its completion. -/
theorem forwarding_isTx (C : NodeConf) (s : Node)
    (h : (nodeMachine C).ReachableIf (CanForward C) s) (hf : s.conn.forwarding = true) :
    s.relunicast.isTx = true ∧ (s.relunicast.timer = true ∨ s.macOwes = true) := by
  have hinv : NodeInv C s ∧ Live s := by
    refine h.invariant (fun s => NodeInv C s ∧ Live s) ⟨nodeInv_boot C, live_boot⟩ ?_
    intro s a s' hs hcan hst
    simp only [nodeMachine] at hst
    split at hst
    · rename_i he
      cases hst
      exact live_handle hs.1 hs.2 he hcan
    · cases hst
  exact hinv.2 hf

/-! ### The deadlock -/

/-- The flag is set, the timer is not, and LPP owes nothing. -/
def Stuck (s : Node) : Prop :=
  s.conn.forwarding = true ∧ s.relunicast.timer = false ∧ s.lppPacket = none

/-- So is `Stuck`: nothing but a completion or a call of `relunicast_send` gets out of it. -/
theorem stable_stuck : Stable Stuck where
  quiet _ _ hq h :=
    ⟨hq.forwarding.trans h.1, hq.timer.trans h.2.1, hq.lppPacket.trans h.2.2⟩
  enqueue _ _ hq h :=
    ⟨hq.forwarding.trans h.1, hq.timer.trans h.2.1, hq.lppPacket.trans h.2.2⟩

/-- A stuck node has no event about the packet in transmission. -/
theorem Stuck.not_attempt {C : NodeConf} {s : Node} {a : NodeAction} (hs : Stuck s)
    (h : NodeInv C s) (he : enabled C s a = true) : isAttempt a = false := by
  rw [← Bool.not_eq_true]
  intro ha
  rcases (h.pending he ha).2.1 with htimer | howes
  · rw [hs.2.1] at htimer
    cases htimer
  · rw [Node.macOwes, hs.2.2] at howes
    cases howes

/-- No event ends the deadlock. -/
theorem stuck_handle {C : NodeConf} {s : Node} {a : NodeAction} (h : NodeInv C s)
    (hs : Stuck s) (he : enabled C s a = true) : Stuck (handle C s a) := by
  have hno := hs.not_attempt h he
  refine (handle_rule stable_stuck h hs he ?_ ?_ ?_).2
  · intro p _ hinv ho hstuck
    obtain ⟨_, _, hcase⟩ := relSendQueuedPacket_spec hinv ho p.1
    rcases hcase with ⟨_, hq⟩ | ⟨_, hf, _, _⟩
    · exact stable_stuck.quiet _ _ hq hstuck
    · rw [hstuck.1] at hf
      cases hf
  · intro _ ha
    rw [hno] at ha
    cases ha
  · intro env env' s' hc _ _
    rw [isAttempt_of_completed hc] at hno
    cases hno

/-- A node and an environment for concrete runs. -/
def sampleNode : NodeConf where
  addr := ⟨1, 0⟩
  mac := .xmac
  platform := ⟨0x1100, rimeaddrNull⟩
  channels := 128

/-- The outside of the samples: the clocks stand at 0 and LPP has room. -/
def sampleEnv : Env where
  clockTime := 0
  glossyTime := 0
  lppQueueIsEmpty := true
  lppItem := true

/-- A neighbor announces its routing metric to the sample node. -/
def hear (value : UInt16) : NodeAction :=
  .recvAdv ⟨2, 0⟩ (announcementMsg sampleNode.channels value) (fun _ _ => 0) fun _ => sampleEnv

/-- The application of the sample node sends an empty packet. -/
def sendOwn (rexmits : UInt16) : NodeAction :=
  .relcollectSend Packetbuf.clear rexmits sampleEnv

/-- A node with one neighbor forwards its first packet. -/
theorem forwarding_isTx_sample :
    ∃ s, (nodeMachine sampleNode).ReachableIf (CanForward sampleNode) s ∧
      s.conn.forwarding = true ∧
      s.relunicast.isTx = true ∧ (s.relunicast.timer = true ∨ s.macOwes = true) := by
  have hrun := Machine.reachableIf_of_runIf (M := nodeMachine sampleNode)
    (CanForward sampleNode) [.relcollectOpen, hear 0, sendOwn 3] rfl
  exact ⟨_, hrun, by decide +kernel,
    forwarding_isTx sampleNode _ hrun (by decide +kernel)⟩

/-- Twenty-one packets without a neighbor and the announcement of the node fill the pool.
The first announcement heard then sets the flag, and `relunicast_send` finds no buffer. -/
theorem not_forall_forwarding_isTx :
    ¬ ∀ (C : NodeConf) (s : Node), (nodeMachine C).Reachable s → s.conn.forwarding = true →
      s.relunicast.isTx = true ∧ (s.relunicast.timer = true ∨ s.macOwes = true) := by
  intro h
  refine Machine.not_forall_reachable
    (.relcollectOpen :: List.replicate 21 (sendOwn 3) ++ [hear 0]) rfl ?_ (h sampleNode)
  intro hs
  exact absurd (hs (by decide +kernel)).1 (by decide +kernel)

end PTunes.Rime
