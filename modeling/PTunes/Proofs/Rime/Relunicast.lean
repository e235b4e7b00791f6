import PTunes.Rime.Connection

/-!
# `PTunes.Proofs.Rime.Relunicast`: completion of accepted packets

A packet that `relunicast_send` accepts is attempted at most `max_rxmit + 1` times, and then
one callback reports it, as long as the attempts fit into the 8 bits of `rxmit`. With
`max_rxmit` 255 the test `rxmit > max_rxmit` is never true. The counter wraps to 0 with the
256th attempt, and the packet is attempted again and again (`not_forall_completes`). In the
runs without a 257th attempt every packet is completed (`completes_of_reachableIf`).

The invariant `ConnInv` says what the connection knows of the open job: `rxmit` is the number
of its attempts, and none of them succeeded.
-/

set_option autoImplicit false

namespace PTunes.Rime

open Retry (Trace Job attemptsOf)

/-- The record follows the rules: each accepted packet has at most `max_rxmit + 1` attempts
and then one callback, with the number of attempts after the first. A packet is open exactly
while `is_tx` is set, and then the timer is set. -/
def Completes (r : Recorded) : Prop :=
  ∃ job, Trace r.events job ∧ r.node.relunicast.isTx = job.isSome ∧
    r.node.relunicast.timer = job.isSome

/-- With `max_rxmit` 255, the timer does not expire after the 256th attempt. -/
def WithinCounter (r : Recorded) : Recorded.Action → Prop
  | .timer _ _ _ => r.node.relunicast.maxRxmit = 255 → attemptsOf r.events < 256
  | .client _ => True

instance (r : Recorded) (a : Recorded.Action) : Decidable (WithinCounter r a) :=
  match a with
  | .timer _ _ _ => inferInstanceAs (Decidable (_ → _))
  | .client _ => inferInstanceAs (Decidable True)

/-! ### The invariant -/

/-- What the connection knows of the open job. -/
structure JobInv (c : RelunicastConn) (job : Job) : Prop where
  isTx : c.isTx = true
  timer : c.timer = true
  limit : c.maxRxmit.toNat = job.limit
  rxmit : c.rxmit.toNat = job.attempts.length % 256
  failed : true ∉ job.attempts

/-- What the connection knows of the record. -/
def ConnInv (r : Recorded) : Prop :=
  match r.node.relunicast.isTx with
  | true => ∃ job, Trace r.events (some job) ∧ JobInv r.node.relunicast job
  | false => Trace r.events none ∧ r.node.relunicast.timer = false

/-- The invariant of a connection without an open job. -/
theorem connInv_idle {r : Recorded} (htrace : Trace r.events none)
    (hisTx : r.node.relunicast.isTx = false) (htimer : r.node.relunicast.timer = false) :
    ConnInv r := by
  simp only [ConnInv, hisTx]
  exact ⟨htrace, htimer⟩

/-- The invariant of a connection with an open job. -/
theorem connInv_open {r : Recorded} {job : Job} (htrace : Trace r.events (some job))
    (h : JobInv r.node.relunicast job) : ConnInv r := by
  simp only [ConnInv, h.isTx]
  exact ⟨job, htrace, h⟩

/-- Under the invariant the record follows the rules. -/
theorem ConnInv.completes {r : Recorded} (h : ConnInv r) : Completes r := by
  cases hisTx : r.node.relunicast.isTx with
  | true =>
      simp only [ConnInv, hisTx] at h
      obtain ⟨job, htrace, hjob⟩ := h
      exact ⟨some job, htrace, hisTx, hjob.timer⟩
  | false =>
      simp only [ConnInv, hisTx] at h
      exact ⟨none, h.1, hisTx, h.2⟩

/-! ### The client -/

/-- `relunicast_send` accepts a packet only on an idle connection, and sets the timer. -/
theorem relunicastSend_accepted {C : NodeConf} {env : Env} {s s' : Node} {receiver : RimeAddr}
    {maxRetransmissions : UInt8} {esender : RimeAddr}
    (h : relunicastSend C env s receiver maxRetransmissions esender = (true, s')) :
    s.relunicast.isTx = false ∧ s'.relunicast.isTx = true ∧ s'.relunicast.timer = true ∧
      s'.relunicast.maxRxmit = maxRetransmissions ∧ s'.relunicast.rxmit = 0 := by
  simp only [relunicastSend] at h
  split at h
  · cases h
  · rename_i hisTx
    split at h
    · cases h
    · cases h
      have hidle := Bool.eq_false_iff.mpr hisTx
      refine ⟨hidle, ?_⟩
      unfold scheduleSend setTime
      split <;> exact ⟨rfl, rfl, rfl, rfl⟩

/-- A packet that `relunicast_send` refuses changes at most the buffer of an idle
connection. -/
theorem relunicastSend_refused {C : NodeConf} {env : Env} {s s' : Node} {receiver : RimeAddr}
    {maxRetransmissions : UInt8} {esender : RimeAddr}
    (h : relunicastSend C env s receiver maxRetransmissions esender = (false, s')) :
    s' = s ∨ s.relunicast.isTx = false ∧ s'.relunicast.isTx = false ∧
      s'.relunicast.timer = s.relunicast.timer := by
  simp only [relunicastSend] at h
  split at h
  · cases h
    exact .inl rfl
  · rename_i hisTx
    have hidle := Bool.eq_false_iff.mpr hisTx
    split at h
    · cases h
      exact .inr ⟨hidle, hidle, rfl⟩
    · cases h

/-- `relunicast_send` is refused, or it opens a job. -/
theorem ConnInv.call {C : NodeConf} {r : Recorded} (h : ConnInv r) (a : SendCall) :
    ConnInv (Recorded.call C r a) := by
  rw [Recorded.call]
  rcases hsend : relunicastSend C a.env r.node a.receiver a.maxRetransmissions a.esender
    with ⟨_ | _, s⟩
  · rcases relunicastSend_refused hsend with rfl | ⟨hidle, hisTx, htimer⟩
    · exact h
    · simp only [ConnInv, hidle] at h
      exact connInv_idle h.1 hisTx (htimer.trans h.2)
  · obtain ⟨hidle, hisTx, htimer, hmax, hrxmit⟩ := relunicastSend_accepted hsend
    simp only [ConnInv, hidle] at h
    apply connInv_open (h.1.accepted a.maxRetransmissions.toNat)
    exact ⟨hisTx, htimer, congrArg UInt8.toNat hmax, congrArg UInt8.toNat hrxmit, by simp⟩

/-- The steps of a client keep the invariant. -/
theorem ConnInv.client {C : NodeConf} {r : Recorded} (h : ConnInv r)
    (steps : List ClientStep) : ConnInv (Recorded.client C r steps) := by
  induction steps generalizing r with
  | nil => exact h
  | cons step steps ih =>
      apply ih
      cases step with
      | call a => exact h.call a
      | other f => exact h

/-! ### The timer -/

/-- The connection reports the end of the open job and is ready for the next one, which the
client may send at once. -/
theorem connInv_report {C : NodeConf} {r : Recorded} (steps : List ClientStep)
    {event : Nat → Retry.Event}
    (htrace : Trace (r.events ++ [event (r.node.relunicast.rxmit - 1).toNat]) none) :
    ConnInv (Recorded.report C steps r event) :=
  ConnInv.client (connInv_idle htrace rfl rfl) steps

/-- `rxmit` without the attempt that succeeded, or with the test that failed. -/
theorem toNat_sub_one {x : UInt8} {n : Nat} (h : x.toNat = n) (hn : 0 < n) :
    (x - 1).toNat + 1 = n := by
  have hlt := x.toNat_lt
  rw [UInt8.toNat_sub, show (1 : UInt8).toNat = 1 from rfl]
  omega

/-- The timer expires: an attempt follows, or the job ends. The counter wraps with the 256th
attempt, which is the last one for a job whose limit is 255. -/
theorem ConnInv.send {C : NodeConf} {r : Recorded} (h : ConnInv r)
    (htimer : r.node.relunicast.timer = true)
    (hcounter : r.node.relunicast.maxRxmit = 255 → attemptsOf r.events < 256)
    (steps : List ClientStep) (mac : Packetbuf → Packetbuf) (acked : Bool) :
    ConnInv (Recorded.send C steps r mac acked) := by
  cases hisTx : r.node.relunicast.isTx with
  | false =>
      simp only [ConnInv, hisTx] at h
      rw [htimer] at h
      exact absurd h.2 (by decide)
  | true =>
      simp only [ConnInv, hisTx] at h
      obtain ⟨job, htrace, hjob⟩ := h
      have hle := htrace.attempts_le
      have hmax := r.node.relunicast.maxRxmit.toNat_lt
      have hlimit := hjob.limit
      -- The number of attempts so far fits into the counter.
      have hlt : job.attempts.length < 256 := by
        by_cases h255 : r.node.relunicast.maxRxmit = 255
        · have hlast := hcounter h255
          rw [htrace.attemptsOf_eq] at hlast
          exact hlast
        · have hne : r.node.relunicast.maxRxmit.toNat ≠ 255 :=
            fun heq => h255 (UInt8.toNat_inj.mp heq)
          omega
      have hrxmit : r.node.relunicast.rxmit.toNat = job.attempts.length := by
        rw [hjob.rxmit, Nat.mod_eq_of_lt hlt]
      rw [Recorded.send]
      by_cases hover : r.node.relunicast.rxmit > r.node.relunicast.maxRxmit
      · rw [if_pos hover]
        have hover' := UInt8.lt_iff_toNat_lt.mp hover
        exact connInv_report steps
          (htrace.gaveUp hjob.failed (toNat_sub_one hrxmit (by omega)))
      · rw [if_neg hover]
        have hover' : ¬ r.node.relunicast.maxRxmit.toNat < r.node.relunicast.rxmit.toNat :=
          fun hlt => hover (UInt8.lt_iff_toNat_lt.mpr hlt)
        have hattempt := htrace.attempt acked (by omega)
        have hnext : (r.node.relunicast.rxmit + 1).toNat = (job.attempts.length + 1) % 256 := by
          rw [UInt8.toNat_add, hrxmit]
          rfl
        cases acked with
        | true =>
            have hback : r.node.relunicast.rxmit + 1 - 1 = r.node.relunicast.rxmit := by
              rw [UInt8.add_sub_cancel]
            apply connInv_report steps
            show Trace (_ ++ [Retry.Event.succeeded
              (r.node.relunicast.rxmit + 1 - 1).toNat]) none
            rw [hback]
            exact hattempt.succeeded (by simp) (by simp [hrxmit])
        | false =>
            apply connInv_open hattempt
            refine ⟨hisTx, rfl, hlimit, ?_, by simpa using hjob.failed⟩
            rw [List.length_append]
            exact hnext

/-- One step of the connection keeps the invariant. -/
theorem ConnInv.step {C : NodeConf} {r t : Recorded} {a : Recorded.Action} (h : ConnInv r)
    (hok : WithinCounter r a) (hstep : (Recorded.machine C).step r a = some t) : ConnInv t := by
  cases a with
  | client step =>
      cases hstep
      exact h.client [step]
  | timer mac acked steps =>
      simp only [Recorded.machine] at hstep
      split at hstep
      · rename_i htimer
        cases hstep
        exact h.send htimer hok steps mac acked
      · cases hstep

/-- On every connection, with every client and all results of the MAC: in a run without a
257th attempt, each accepted packet has at most `max_rxmit + 1` attempts and one callback. -/
theorem completes_of_reachableIf {C : NodeConf} {r : Recorded}
    (h : (Recorded.machine C).ReachableIf WithinCounter r) : Completes r :=
  (Machine.ReachableIf.invariant ConnInv (connInv_idle .nil rfl rfl)
    (fun _ _ _ hinv hok hstep => hinv.step hok hstep) h).completes

/-! ### The counter at its limit -/

/-- A configuration with X-MAC. -/
def xmacConf : NodeConf := ⟨⟨1, 0⟩, .xmac, ⟨0x1100, rimeaddrNull⟩, 131⟩

/-- A packet for node 2. -/
def xmacCall (maxRetransmissions : UInt8) : SendCall :=
  ⟨⟨0, 0, true, true⟩, ⟨2, 0⟩, maxRetransmissions, ⟨1, 0⟩⟩

/-- A packet that is acknowledged the second time, and is followed by another one that the
client sends in the callback. -/
theorem completes_of_reachableIf_sample :
    ∃ r, ((Recorded.machine xmacConf).runIf WithinCounter Recorded.boot
        [.client (.call (xmacCall 3)), .timer id false [],
          .timer id true [.call (xmacCall 0)]]) = some r ∧
      r.events = [.accepted 3, .attempt false, .attempt true, .succeeded 1, .accepted 0] ∧
      Completes r := by
  obtain ⟨r, hr⟩ : ∃ r, ((Recorded.machine xmacConf).runIf WithinCounter Recorded.boot
      [.client (.call (xmacCall 3)), .timer id false [],
        .timer id true [.call (xmacCall 0)]]) = some r :=
    Option.isSome_iff_exists.mp (by decide)
  have hend : ((Recorded.machine xmacConf).runIf WithinCounter Recorded.boot
      [.client (.call (xmacCall 3)), .timer id false [],
        .timer id true [.call (xmacCall 0)]]).map Recorded.events =
      some [.accepted 3, .attempt false, .attempt true, .succeeded 1, .accepted 0] := by
    decide
  rw [hr, Option.map_some, Option.some.injEq] at hend
  exact ⟨r, hr, hend, completes_of_reachableIf (Machine.reachableIf_of_runIf _ _ hr)⟩

/-- After a packet with 255 retransmissions, the timer expires again and again without an
acknowledgment, and each time the packet is attempted: `rxmit` is never above 255. -/
theorem exists_attempts (n : Nat) : ∃ r, (Recorded.machine xmacConf).Reachable r ∧
    r.node.relunicast.isTx = true ∧ r.node.relunicast.timer = true ∧
    r.node.relunicast.maxRxmit = 255 ∧ attemptsOf r.events = n ∧
    ∀ limit, Retry.Event.accepted limit ∈ r.events → limit = 255 := by
  induction n with
  | zero =>
      have hend : ((Recorded.machine xmacConf).run [.client (.call (xmacCall 255))]).map
          (fun r => (r.node.relunicast.isTx, r.node.relunicast.timer,
            r.node.relunicast.maxRxmit, r.events)) = some (true, true, 255, [.accepted 255]) := by
        decide
      obtain ⟨r, hreach, hr⟩ := Machine.exists_reachable_of_run hend
      simp only [Prod.mk.injEq] at hr
      obtain ⟨hisTx, htimer, hmax, hevents⟩ := hr
      refine ⟨r, hreach, hisTx, htimer, hmax, ?_, ?_⟩
      · rw [hevents]
        rfl
      · simp [hevents]
  | succ n ih =>
      obtain ⟨r, hreach, hisTx, htimer, hmax, hattempts, hlimit⟩ := ih
      -- An 8-bit counter is never above 255.
      have hnot : ¬ r.node.relunicast.rxmit > r.node.relunicast.maxRxmit := by
        have hlt := r.node.relunicast.rxmit.toNat_lt
        rw [hmax, gt_iff_lt, UInt8.lt_iff_toNat_lt, show (255 : UInt8).toNat = 255 from rfl]
        omega
      have hstep : (Recorded.machine xmacConf).step r (.timer id false []) =
          some (Recorded.send xmacConf [] r id false) := if_pos htimer
      have hsend : Recorded.send xmacConf [] r id false =
          ⟨scheduleSend (Recorded.attempt xmacConf r id false).node,
            r.events ++ [.attempt false]⟩ := by
        rw [Recorded.send, if_neg hnot]
        rfl
      rw [hsend] at hstep
      refine ⟨_, hreach.step trivial hstep, hisTx, rfl, hmax, ?_, ?_⟩
      · rw [Retry.attemptsOf_attempt, hattempts]
      · intro limit hmem
        exact hlimit limit (by simpa using hmem)

/-- With 255 retransmissions and no acknowledgment, a packet is attempted 257 times. -/
theorem not_forall_completes :
    ¬ ∀ (C : NodeConf) (r : Recorded), C.mac = .xmac →
        (Recorded.machine C).Reachable r → Completes r := by
  intro hall
  obtain ⟨r, hreach, hisTx, _, _, hattempts, hlimit⟩ := exists_attempts 257
  obtain ⟨job, htrace, hjob, _⟩ := hall xmacConf r rfl hreach
  rw [hisTx] at hjob
  obtain ⟨job, rfl⟩ := Option.isSome_iff_exists.mp hjob.symm
  have hle := htrace.attempts_le
  have h255 := hlimit _ htrace.accepted_mem
  rw [← htrace.attemptsOf_eq, hattempts, h255] at hle
  exact absurd hle (by decide)

/-! ### The client of the collection protocol -/

/-- A client takes the node from `s` to `s'`. -/
def ByClient (C : NodeConf) (s s' : Node) : Prop :=
  ∃ steps, (Recorded.client C ⟨s, []⟩ steps).node = s'

section ByClient

variable {C : NodeConf} {s s' s'' : Node}

/-- A change that leaves the connection alone. -/
theorem byClient_of_eq (h : s'.relunicast = s.relunicast) : ByClient C s s' :=
  ⟨[.other fun _ => s'], congrArg Recorded.node (Recorded.client_other C ⟨s, []⟩ h)⟩

/-- One client after another. -/
theorem ByClient.trans (h : ByClient C s s') (h' : ByClient C s' s'') : ByClient C s s'' := by
  obtain ⟨steps, hsteps⟩ := h
  obtain ⟨steps', hsteps'⟩ := h'
  refine ⟨steps ++ steps', ?_⟩
  rw [Recorded.client, List.foldl_append]
  exact (Recorded.client_node C steps' hsteps).trans hsteps'

/-- A call of `relunicast_send`. -/
theorem byClient_of_relunicastSend {env : Env} {receiver : RimeAddr}
    {maxRetransmissions : UInt8} {esender : RimeAddr} {accepted : Bool}
    (h : relunicastSend C env s receiver maxRetransmissions esender = (accepted, s')) :
    ByClient C s s' := by
  refine ⟨[.call ⟨env, receiver, maxRetransmissions, esender⟩], ?_⟩
  show (Recorded.call C _ _).node = s'
  simp only [Recorded.call, h]
  cases accepted with
  | true => rfl
  | false => rfl

/-- The functions that `rel_send_queued_packet` calls before `relunicast_send` leave the
connection alone. -/
theorem relunicast_nextHop (C : NodeConf) (s : Node) :
    (nextHop C s).2.relunicast = s.relunicast := by
  simp only [nextHop]
  split
  · rfl
  · split <;> rfl

/-- Noting the parent leaves the connection. -/
theorem relunicast_noteParent (C : NodeConf) (s : Node) (n : NeighborPtr) :
    (noteParent C s n).relunicast = s.relunicast := by
  unfold noteParent
  split <;> rfl

/-- `rel_send_queued_packet` calls `relunicast_send` at most once. -/
theorem byClient_forwardTo (C : NodeConf) (env : Env) (s : Node) (i : PacketqueueItemPtr)
    (n : NeighborPtr) : ByClient C s (forwardTo C env s i n) := by
  simp only [forwardTo]
  generalize hprep : ({ updateQueuingStats C env (noteParent C s n) i with
    conn := { (updateQueuingStats C env (noteParent C s n) i).conn with forwarding := true } } :
      Node) = prep
  have hsame : prep.relunicast = s.relunicast := by
    rw [← hprep]
    exact relunicast_noteParent C s n
  apply (byClient_of_eq hsame).trans
  split
  · rename_i s' heq
    exact (byClient_of_relunicastSend heq).trans (byClient_of_eq rfl)
  · rename_i s' heq
    exact byClient_of_relunicastSend heq

/-- `rel_send_queued_packet` uses the connection through `relunicast_send` only. -/
theorem byClient_relSendQueuedPacket (C : NodeConf) (env : Env) (s : Node) :
    ByClient C s (relSendQueuedPacket C env s) := by
  rw [relSendQueuedPacket]
  split
  · exact byClient_of_eq rfl
  · rename_i i q _
    have hhop := relunicast_nextHop C { s with packetbuf := queuebufToPacketbuf s.pool q }
    split
    · rename_i s' heq
      rw [heq] at hhop
      exact byClient_of_eq hhop
    · rename_i n s' heq
      rw [heq] at hhop
      have hsame : s'.relunicast = s.relunicast := hhop
      exact (byClient_of_eq hsame).trans (byClient_forwardTo C env s' i n)

/-- So does the route update. -/
theorem byClient_relUpdateRtmetric (C : NodeConf) (env : Env) (s : Node) :
    ByClient C s (relUpdateRtmetric C env s) := by
  have hroute : (updateRoute C s).2.relunicast = s.relunicast := by
    simp only [updateRoute]
    split
    · rfl
    · split
      · rfl
      · split <;> rfl
  rw [relUpdateRtmetric, sendIf]
  split
  · exact (byClient_of_eq hroute).trans (byClient_relSendQueuedPacket C env _)
  · exact byClient_of_eq hroute

/-- So does the end of a transmission. -/
theorem byClient_completePacket (C : NodeConf) (env env' : Env) (s : Node) :
    ByClient C s (completePacket C env env' s) := by
  have hupdate := byClient_relUpdateRtmetric C env s
  have hdequeue : ByClient C (relUpdateRtmetric C env s)
      (dequeueForwarding (relUpdateRtmetric C env s)) := byClient_of_eq rfl
  exact (hupdate.trans hdequeue).trans (byClient_relSendQueuedPacket C env' _)

/-- `rel_node_packet_sent` and `rel_node_packet_timedout`, the callbacks of the collection
protocol, do what a client may do. -/
theorem byClient_relunicastCallbacks (C : NodeConf) (env env' : Env) (s : Node)
    (receiver : RimeAddr) (retransmissions : UInt8) :
    ByClient C s ((relunicastCallbacks C env env').sent s receiver retransmissions) ∧
    ByClient C s ((relunicastCallbacks C env env').timedout s receiver retransmissions) := by
  constructor
  · have hnote : ByClient C s (noteCompletion neighborUpdateEtx receiver retransmissions s) :=
      byClient_of_eq rfl
    exact hnote.trans (byClient_completePacket C env env' _)
  · have hnote : ByClient C s (noteCompletion neighborTimedoutEtx receiver retransmissions s) :=
      byClient_of_eq rfl
    exact hnote.trans (byClient_completePacket C env env' _)

end ByClient

end PTunes.Rime
