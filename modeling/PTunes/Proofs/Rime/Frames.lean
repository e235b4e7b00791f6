import PTunes.Proofs.Rime.Events

/-!
# `PTunes.Proofs.Rime.Frames`: what the handlers of a node leave as it is

Two groups of variables are written in few places only. The window of recent packets
(`Node.recent`) is written by the reception of a packet. The routing metric is written by the
route update, by `relcollect_set_sink` and by `relcollect_open`. `Node.kept` joins both.

The lemmas say, function by function, that everything else leaves `Node.kept` as it is.
`recent_relUpdateRtmetric` is the frame of the route update, which leaves the window alone.
-/

set_option autoImplicit false

namespace PTunes.Rime

namespace Node

/-- The variables of the window of recent packets. -/
def recent (s : Node) : Vector RecentPacket numRecentPackets × UInt8 :=
  (s.recentPackets, s.recentPacketPtr)

/-- The window of recent packets and the routing metric. Neither the hand-over of a packet nor
the forwarding queue touches them. -/
def kept (s : Node) : (Vector RecentPacket numRecentPackets × UInt8) × UInt16 :=
  (s.recent, s.conn.rtmetric)

/-- What is kept includes the window of recent packets. -/
theorem recent_of_kept {s s' : Node} (h : s'.kept = s.kept) : s'.recent = s.recent :=
  congrArg Prod.fst h

/-- It includes the routing metric. -/
theorem rtmetric_of_kept {s s' : Node} (h : s'.kept = s.kept) :
    s'.conn.rtmetric = s.conn.rtmetric :=
  congrArg Prod.snd h

variable (C : NodeConf) (env env' : Env) (s : Node)

/-! ### The hand-over of a packet -/

/-- `relunicast_send` is about the connection and the packet. -/
@[simp] theorem kept_relunicastSend (receiver : RimeAddr) (maxRetransmissions : UInt8)
    (esender : RimeAddr) :
    (relunicastSend C env s receiver maxRetransmissions esender).2.kept = s.kept := by
  unfold relunicastSend
  split
  · rfl
  · simp only
    split <;> rfl

/-- The choice of the parent writes the neighbor table at most. -/
@[simp] theorem kept_nextHop : (nextHop C s).2.kept = s.kept := by
  obtain ⟨t, ht⟩ := nextHop_eq C s
  rw [ht]
  rfl

/-- The hand-over of a packet, whether `relunicast_send` takes it or not. -/
@[simp] theorem kept_forwardTo (i : PacketqueueItemPtr) (n : NeighborPtr) :
    (forwardTo C env s i n).kept = s.kept := by
  obtain ⟨parentId, parentId', pb, st, hprep⟩ := prepare_eq C env s i n
  simp only [forwardTo, hprep]
  split
  · rename_i t hsend
    have ht := congrArg (fun r => r.2.kept) hsend
    rw [kept_relunicastSend] at ht
    exact ht.symm
  · rename_i t hsend
    have ht := congrArg (fun r => r.2.kept) hsend
    rw [kept_relunicastSend] at ht
    exact ht.symm

/-- `rel_send_queued_packet` hands the first packet of the queue over. -/
@[simp] theorem kept_relSendQueuedPacket :
    (relSendQueuedPacket C env s).kept = s.kept := by
  unfold relSendQueuedPacket
  split
  · rfl
  · rename_i i q _
    have hnext := kept_nextHop C { s with packetbuf := queuebufToPacketbuf s.pool q }
    split
    · rename_i t ht
      rw [ht] at hnext
      exact hnext
    · rename_i n t ht
      rw [ht] at hnext
      rw [kept_forwardTo]
      exact hnext

/-- So it does after an accepted packet. -/
@[simp] theorem kept_sendIf (r : Bool × Node) : (sendIf C env r).kept = r.2.kept := by
  unfold sendIf
  split
  · rw [kept_relSendQueuedPacket]
  · rfl

/-! ### The forwarding queue -/

/-- A packet is put into the queue, or counted as dropped. -/
@[simp] theorem kept_enqueueOrDrop : (enqueueOrDrop env s).2.kept = s.kept := by
  unfold enqueueOrDrop enqueueForwarding
  split <;> rfl

/-- The decision about a received packet reads the metric and does not write it. -/
@[simp] theorem kept_acceptReceived : (acceptReceived env s).2.kept = s.kept := by
  unfold acceptReceived
  split
  · rfl
  · split
    · exact kept_enqueueOrDrop env s
    · rfl

/-- So does the decision about an own packet. -/
@[simp] theorem kept_acceptOwn : (acceptOwn env s).2.kept = s.kept := by
  unfold acceptOwn
  split
  · rfl
  · exact kept_enqueueOrDrop env _

/-- After the route update of a completion, the removal of the packet and the last call of
`rel_send_queued_packet` leave both groups alone. -/
theorem kept_completePacket :
    (completePacket C env env' s).kept = (relUpdateRtmetric C env s).kept := by
  rw [completePacket, kept_relSendQueuedPacket]
  rfl

/-! ### Announcements, LPP and the other protocols -/

/-- An announcement that is heard may cancel the one that waits. -/
@[simp] theorem kept_ipoliteRecv : (ipoliteRecv s).kept = s.kept := by
  unfold ipoliteRecv
  split
  · split <;> rfl
  · rfl

/-- The announcement that waits is sent. -/
@[simp] theorem kept_ipoliteTimer (pb : Packetbuf) : (ipoliteTimer s pb).kept = s.kept := by
  unfold ipoliteTimer
  split <;> rfl

/-- LPP takes the packet or drops it. -/
@[simp] theorem kept_lppSendPacket : (Relunicast.lppSendPacket env s).kept = s.kept := by
  rcases lppSendPacket_cases env s with ⟨p, he, _⟩ | ⟨b, p, _, _, ⟨_, he⟩ | ⟨_, he⟩⟩ <;>
    rw [he] <;> rfl

/-- Another protocol takes a queue buffer. -/
@[simp] theorem kept_otherNew (pb : Packetbuf) : (otherNew s pb).kept = s.kept := by
  unfold otherNew
  split <;> rfl

/-- The first part of a completion, up to the ETX update, leaves both groups alone. -/
theorem kept_of_completed {a : NodeAction} {s' : Node}
    (hc : completed C s a = some (env, env', s')) : s'.kept = s.kept := by
  cases a with
  | sendTimer mac acked e e' =>
      simp only [completed] at hc
      split at hc
      · cases hc
        rfl
      · split at hc
        · cases hc
          rfl
        · cases hc
  | removeQueuedPacket acked e e' e'' =>
      simp only [completed] at hc
      split at hc
      · cases hc
        rfl
      · cases hc
  | _ => cases hc

/-- A transmission that goes on leaves both groups alone. -/
theorem kept_of_not_completed {a : NodeAction} (hc : completed C s a = none)
    (ha : isAttempt a = true) : (handleEvent C s a).kept = s.kept := by
  cases a with
  | sendTimer mac acked env env' =>
      simp only [completed] at hc
      split at hc
      · cases hc
      · rename_i hr
        split at hc
        · cases hc
        · rename_i hx
          simp only [handleEvent, Relunicast.send, if_neg hr]
          cases hmac : C.mac with
          | xmac =>
              have hacked : acked = false := by simpa [hmac] using hx
              simp only [hacked, Bool.false_eq_true, if_false]
              rfl
          | lpp => exact kept_lppSendPacket env _
  | removeQueuedPacket acked env env' env'' =>
      simp only [completed] at hc
      split at hc
      · cases hc
      · rename_i hacked
        simp only [handleEvent, removeQueuedPacket, Relunicast.postSend, if_neg hacked]
        rfl
  | _ => cases ha

/-- The last call of `remove_queued_packet` leaves both groups alone. -/
theorem kept_handle (a : NodeAction) : (handle C s a).kept = (handleEvent C s a).kept := by
  unfold handle
  split
  · exact kept_relSendQueuedPacket C _ _
  · rfl

/-! ### The window and the route update -/

/-- The route update writes the metric, but not the window. -/
@[simp] theorem recent_updateRoute : (updateRoute C s).2.recent = s.recent := by
  rcases updateRoute_cases C s with
    ⟨_, he⟩ | ⟨_, _, he⟩ | ⟨_, i, _, rtmetric, _, _, he⟩ | ⟨_, i, _, _, he⟩ <;> rw [he] <;> rfl

/-- Nor does the call of `rel_send_queued_packet` after it. -/
@[simp] theorem recent_relUpdateRtmetric : (relUpdateRtmetric C env s).recent = s.recent :=
  (recent_of_kept (kept_sendIf C env _)).trans (recent_updateRoute C s)

end Node

end PTunes.Rime
