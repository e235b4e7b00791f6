import PTunes.Proofs.Rime.NodeInv
import PTunes.Rime.BufferOwners

/-!
# `PTunes.Proofs.Rime.BufferOwners`: which blocks are freed

Consider the runs in which no operation frees a block to which the `buf` of a closed
connection is left over (`FreesNoStale`). `Inv` holds of all their states: the connections
whose `buf` is not left over, the items of the queue and the other protocols refer to
pairwise different blocks, and these are exactly the allocated ones.

Main results:

* `freesOwn_iff_of_reachableIf`: in the states of these runs `queuebuf_len` is the number of
  allocated blocks, and the next operation frees only an allocated block to which no other
  owner refers exactly when it frees no block with a left-over pointer.
* `not_lenCounts_and_freesOwn`: without the condition this fails. A relcollect connection is
  closed and opened again after its packet has been sent, and another packet is enqueued and
  sent. Then `relunicast_send` frees a block that is not allocated, and `queuebuf_len` is 1
  with two blocks allocated.
-/

set_option autoImplicit false

namespace PTunes.Rime

open PTunes.Core

namespace BufferOwners

variable {ι : Type} {C : NodeConf} {s : BufferOwners ι} {holders : List ι}

/-! ### The invariant -/

/-- The blocks of the connections in `holders`, of the queue and of the other protocols. -/
def owned (s : BufferOwners ι) (holders : List ι) : List QueuebufPtr :=
  holders.filterMap (fun i => (s.conns i).buf) ++ (s.queue.bufs ++ s.others)

/-- The connections in `holders` are those with a `buf` that is not left over. Their blocks
and those of the other owners are pairwise different and exactly the allocated ones. -/
structure Inv (holders : List ι) (s : BufferOwners ι) : Prop where
  nodup : holders.Nodup
  holds : ∀ i, i ∈ holders ↔ ∃ b, (s.conns i).buf = some b ∧ s.stale i = false
  pool : s.pool.Owns (s.owned holders)
  queue : s.queue.Inv

/-- All connections are closed at first, and no block is allocated. -/
theorem inv_boot : Inv [] (boot : BufferOwners ι) where
  nodup := List.nodup_nil
  holds i := by simp [boot, Node.boot]
  pool := QueuebufPool.owns_queuebufInit
  queue := Packetqueue.inv_zero

/-- `queuebuf_len` is the number of owned blocks, and these are the allocated ones. -/
theorem Inv.lenCounts (h : Inv holders s) : s.LenCounts := by
  rw [LenCounts, h.pool.len, h.pool.blocks.allocated_eq]

/-! ### What the owners refer to -/

/-- The owner is not a connection with a left-over pointer. -/
def Live (s : BufferOwners ι) : BufferOwner ι → Prop
  | .conn i => s.stale i = false
  | .item _ => True
  | .other => True

/-- The owned blocks, each with its owner. -/
def holdings (s : BufferOwners ι) (holders : List ι) : List (BufferOwner ι × QueuebufPtr) :=
  holders.filterMap (fun i => (s.conns i).buf.map fun b => (.conn i, b)) ++
    (s.queue.list.filterMap (fun k =>
      (packetqueueQueuebuf s.queue k).map fun b => (.item k, b)) ++
    s.others.map fun b => (.other, b))

/-- The blocks of the holdings are the owned blocks. -/
theorem map_holdings (s : BufferOwners ι) (holders : List ι) :
    (s.holdings holders).map Prod.snd = s.owned holders := by
  simp [holdings, owned, Packetqueue.bufs, packetqueueQueuebuf, List.map_filterMap,
    Function.comp_def]

/-- An owned block belongs to an owner that refers to it, and whose pointer is not left over. -/
theorem Inv.mem_holdings (h : Inv holders s) (o : BufferOwner ι) (b : QueuebufPtr) :
    (o, b) ∈ s.holdings holders ↔ s.Live o ∧ s.Refers o b := by
  cases o with
  | conn i =>
      simp only [holdings, Live, Refers, List.mem_append, List.mem_filterMap, h.holds,
        Option.map_eq_some_iff, List.mem_map, Prod.mk.injEq, BufferOwner.conn.injEq]
      grind
  | item k => simp [holdings, Live, Refers]
  | other => simp [holdings, Live, Refers]

/-- The allocated blocks are those that a live owner refers to. -/
theorem Inv.allocated_iff (h : Inv holders s) (b : QueuebufPtr) :
    s.pool.bufmem.count[b] ≠ 0 ↔ ∃ o, s.Live o ∧ s.Refers o b := by
  rw [h.pool.blocks.count_ne_zero, ← map_holdings, List.mem_map]
  constructor
  · rintro ⟨⟨o, b'⟩, hmem, rfl⟩
    exact ⟨o, (h.mem_holdings o b').mp hmem⟩
  · rintro ⟨o, ho⟩
    exact ⟨(o, b), (h.mem_holdings o b).mpr ho, rfl⟩

/-- Two live owners do not refer to the same block. -/
theorem Inv.owner_unique (h : Inv holders s) {o o' : BufferOwner ι} {b : QueuebufPtr}
    (ho : s.Live o ∧ s.Refers o b) (ho' : s.Live o' ∧ s.Refers o' b) : o = o' := by
  have hnodup : ((s.holdings holders).map Prod.snd).Nodup := by
    rw [map_holdings]
    exact h.pool.blocks.nodup
  have hpair := List.inj_on_of_nodup_map hnodup ((h.mem_holdings o b).mpr ho)
    ((h.mem_holdings o' b).mpr ho') rfl
  exact congrArg Prod.fst hpair

/-- An owner that refers to a block without a left-over pointer is live. -/
theorem live_of_refers {o : BufferOwner ι} {b : QueuebufPtr} (hr : s.Refers o b)
    (hb : ∀ i, s.stale i = true → (s.conns i).buf ≠ some b) : s.Live o := by
  cases o with
  | conn i =>
      have hne : ¬ s.stale i = true := fun hs => hb i hs hr
      simpa [Live] using hne
  | item k => trivial
  | other => trivial

/-- The operation frees no left-over pointer of its own connection. -/
theorem FreesNoStale.of_conn {a : BufferAction ι} {i : ι} (hclean : s.FreesNoStale a)
    (hf : s.frees a = (s.conns i).buf.map fun b => (.conn i, b)) (b : QueuebufPtr)
    (hb : (s.conns i).buf = some b) : s.stale i = false := by
  rw [hb] at hf
  have hne : ¬ s.stale i = true := fun hs => hclean (.conn i, b) hf i hs hb
  simpa using hne

/-! ### The queue and the other protocols -/

/-- `packetqueue_enqueue_packetbuf` takes a block that is free, for an item that is free. -/
theorem Inv.enqueue (h : Inv holders s) (pb : Packetbuf) (clockTime : UInt16) (uid : Nat) :
    Inv holders (s.enqueue pb clockTime uid) := by
  rcases Packetqueue.enqueue_cases h.queue h.pool pb clockTime uid with
    ⟨q', p', b, he, hq, _, hbufs, hp, _⟩ | ⟨q', he, hq, _, hbufs⟩
  · rw [BufferOwners.enqueue, he]
    refine ⟨h.nodup, h.holds, ?_, hq⟩
    simp only [owned, hbufs, List.append_assoc]
    exact hp.perm (owned_perm_queue _ [] _ _ _)
  · rw [BufferOwners.enqueue, he]
    refine ⟨h.nodup, h.holds, ?_, hq⟩
    simp only [owned, hbufs]
    exact h.pool

/-- `packetqueue_dequeue` frees the block of the first item, which no other owner has. -/
theorem Inv.dequeue (h : Inv holders s) : Inv holders s.dequeue := by
  cases hl : s.queue.list with
  | nil =>
      have hsame : s.dequeue = s := by
        simp only [BufferOwners.dequeue, packetqueueDequeue, hl]
      rw [hsame]
      exact h
  | cons k rest =>
      obtain ⟨q', b, he, hq, _, hbufs⟩ := Packetqueue.dequeue_cons (p := s.pool) h.queue hl
      have hown := h.pool
      rw [owned, hbufs] at hown
      rw [BufferOwners.dequeue, he]
      exact ⟨h.nodup, h.holds, (hown.perm (owned_perm_queue _ [] [] _ _).symm).free, hq⟩

/-- Another protocol takes a block that is free. -/
theorem Inv.otherNew (h : Inv holders s) (pb : Packetbuf) : Inv holders (s.otherNew pb) := by
  rcases h.pool.new_cases pb with ⟨b, p', hnew, hp', _, _⟩ | ⟨_, hnew⟩
  · rw [BufferOwners.otherNew, hnew]
    exact ⟨h.nodup, h.holds, hp'.perm (owned_perm_queue _ [] _ _ _), h.queue⟩
  · rw [BufferOwners.otherNew, hnew]
    exact ⟨h.nodup, h.holds, h.pool, h.queue⟩

/-- It frees a block of its own. -/
theorem Inv.otherFree (h : Inv holders s) {b : QueuebufPtr} (hb : b ∈ s.others) :
    Inv holders (s.otherFree b) := by
  have hperm := ((List.perm_cons_erase hb).append_left s.queue.bufs).append_left
    (holders.filterMap fun i => (s.conns i).buf)
  exact ⟨h.nodup, h.holds,
    ((h.pool.perm hperm).perm (owned_perm_queue _ [] _ _ _).symm).free, h.queue⟩

variable [DecidableEq ι]

/-! ### What is freed -/

/-- The owner that frees a block refers to it. -/
theorem refers_of_frees {a : BufferAction ι} {t : BufferOwners ι}
    (hst : s.step C a = some t) {o : BufferOwner ι} {b : QueuebufPtr}
    (hf : s.frees a = some (o, b)) : s.Refers o b := by
  cases a with
  | send i env pb receiver maxRetransmissions esender =>
      obtain ⟨_, hmap⟩ := Option.ite_none_left_eq_some.mp hf
      obtain ⟨_, hbuf, ⟨⟩⟩ := Option.map_eq_some_iff.mp hmap
      exact hbuf
  | close i =>
      obtain ⟨_, hbuf, ⟨⟩⟩ := Option.map_eq_some_iff.mp hf
      exact hbuf
  | dequeue =>
      obtain ⟨k, hfirst, hmap⟩ := Option.bind_eq_some_iff.mp hf
      obtain ⟨_, hbuf, ⟨⟩⟩ := Option.map_eq_some_iff.mp hmap
      exact ⟨List.mem_of_head? hfirst, hbuf⟩
  | otherFree b' =>
      obtain ⟨hmem, _⟩ := Option.ite_none_right_eq_some.mp hst
      cases hf
      exact hmem
  | open_ i => cases hf
  | transmit i => cases hf
  | schedule i => cases hf
  | complete i => cases hf
  | enqueue pb clockTime uid => cases hf
  | otherNew pb => cases hf

/-- An operation frees a block of its own exactly when no closed connection has a pointer to
the block left over. -/
theorem Inv.freesOwn_iff (h : Inv holders s) {a : BufferAction ι} {t : BufferOwners ι}
    (hst : s.step C a = some t) : s.FreesOwn a ↔ s.FreesNoStale a := by
  constructor
  · rintro hown ⟨o, b⟩ hf i hstale hbuf
    obtain ⟨hcount, halone⟩ := hown _ hf
    -- The block is allocated, so it has a live owner, and this is not the connection `i`.
    obtain ⟨o', hlive, hrefers⟩ := (h.allocated_iff b).mp hcount
    have ho' : o' = o := by
      by_contra hne
      exact halone o' hne hrefers
    have hi : BufferOwner.conn i = o := by
      by_contra hne
      exact halone (.conn i) hne hbuf
    rw [ho', ← hi] at hlive
    exact Bool.false_ne_true (hlive.symm.trans hstale)
  · rintro hclean ⟨o, b⟩ hf
    -- No pointer to the block is left over, so every owner that refers to it is live.
    have hrefers := refers_of_frees hst hf
    have hlive := live_of_refers hrefers (hclean _ hf)
    refine ⟨(h.allocated_iff b).mpr ⟨o, hlive, hrefers⟩, fun o' hne hrefers' => hne ?_⟩
    exact h.owner_unique ⟨live_of_refers hrefers' (hclean _ hf), hrefers'⟩ ⟨hlive, hrefers⟩

/-! ### The connections -/

/-- A connection that is not among the holders can change without any effect on their
blocks. -/
theorem filterMap_update (conns : ι → RelunicastConn) {i : ι} {l : List ι} (hi : i ∉ l)
    (c : RelunicastConn) :
    l.filterMap (fun j => (Function.update conns i c j).buf) =
      l.filterMap fun j => (conns j).buf := by
  refine List.filterMap_congr fun j hj => ?_
  have hne : j ≠ i := fun hc => hi (hc ▸ hj)
  rw [Function.update_of_ne hne]

/-- A connection whose `buf` is not left over gives up its block, if it has one. -/
theorem Inv.release (h : Inv holders s) (i : ι)
    (hstale : ∀ b, (s.conns i).buf = some b → s.stale i = false) :
    (Node.freeIfSet s.pool (s.conns i).buf).Owns (s.owned (holders.erase i)) := by
  cases hb : (s.conns i).buf with
  | none =>
      have hi : i ∉ holders := by
        rw [h.holds, hb]
        simp
      rw [List.erase_of_not_mem hi]
      exact h.pool
  | some b =>
      have hi : i ∈ holders := (h.holds i).mpr ⟨b, hb, hstale b hb⟩
      have hperm := (List.perm_cons_erase hi).filterMap fun j => (s.conns j).buf
      simp only [List.filterMap_cons, hb] at hperm
      exact (h.pool.perm (hperm.append_right _)).free

/-- A connection with a new `buf`: `q` is its block, and there is none when the pointer is
left over. -/
theorem Inv.replace (h : Inv holders s) (i : ι) (c : RelunicastConn) (stale : Bool)
    {p : QueuebufPool} {q : Option QueuebufPtr} (hq : q = if stale then none else c.buf)
    (hp : p.Owns (q.toList ++ s.owned (holders.erase i))) :
    ∃ holders', Inv holders' { s with
      pool := p
      conns := Function.update s.conns i c
      stale := Function.update s.stale i stale } := by
  have hnot : i ∉ holders.erase i := h.nodup.not_mem_erase
  have hother : ∀ j, j ≠ i → (j ∈ holders.erase i ↔
      ∃ b, (Function.update s.conns i c j).buf = some b ∧
        Function.update s.stale i stale j = false) := by
    intro j hj
    rw [Function.update_of_ne hj, Function.update_of_ne hj, h.nodup.mem_erase_iff, ← h.holds]
    simp [hj]
  cases q with
  | none =>
      refine ⟨holders.erase i, h.nodup.erase i, fun j => ?_, ?_, h.queue⟩
      · by_cases hj : j = i
        · subst hj
          -- The connection has no `buf`, or it is left over.
          refine iff_of_false hnot ?_
          rintro ⟨b, hb, hs⟩
          simp only [Function.update_self] at hb hs
          rw [hs, if_neg Bool.false_ne_true, hb] at hq
          cases hq
        · exact hother j hj
      · rw [owned, filterMap_update s.conns hnot]
        exact hp
  | some b =>
      obtain ⟨hs, hb⟩ : stale = false ∧ c.buf = some b := by
        cases stale <;> simp_all
      refine ⟨i :: holders.erase i, List.nodup_cons.mpr ⟨hnot, h.nodup.erase i⟩,
        fun j => ?_, ?_, h.queue⟩
      · by_cases hj : j = i
        · subst hj
          simp [hb, hs]
        · rw [List.mem_cons, hother j hj]
          simp [hj]
      · simp only [owned, List.filterMap_cons, Function.update_self, hb,
          filterMap_update s.conns hnot]
        exact hp

/-- A connection whose `buf` stays. -/
theorem Inv.setConn (h : Inv holders s) (i : ι) {c : RelunicastConn}
    (hc : c.buf = (s.conns i).buf) : Inv holders (s.setConn i c) := by
  have hbuf : ∀ j, ((s.setConn i c).conns j).buf = (s.conns j).buf := by
    intro j
    by_cases hj : j = i
    · subst hj
      simp [BufferOwners.setConn, hc]
    · simp [BufferOwners.setConn, hj]
  refine ⟨h.nodup, fun j => ?_, ?_, h.queue⟩
  · rw [hbuf]
    exact h.holds j
  · simp only [owned, hbuf]
    exact h.pool

/-- A connection is closed. A block that it has not given back is no longer owned by it, so its
pointer is left over. -/
theorem Inv.close (h : Inv holders s) {i : ι} (hclean : s.FreesNoStale (.close i)) :
    ∃ holders', Inv holders' (s.close i) := by
  have hp := h.release i (hclean.of_conn rfl)
  refine h.replace (q := none) i _ _ ?_ hp
  -- `relunicast_close` keeps the pointer, so a connection with a block has it left over now.
  cases hb : (s.conns i).buf with
  | none => simp [relunicastClose, hb]
  | some b => simp

/-- What `relunicast_send` does while no transmission is pending: the old buffer is freed,
and the connection gets a new one or none. -/
theorem send_of_idle {i : ι} (htx : (s.conns i).isTx = false) (env : Env) (pb : Packetbuf)
    (receiver : RimeAddr) (maxRetransmissions : UInt8) (esender : RimeAddr) :
    ∃ pb' c, s.send C i env pb receiver maxRetransmissions esender = { s with
        pool := (queuebufNewFromPacketbuf (Node.freeIfSet s.pool (s.conns i).buf) pb').2
        conns := Function.update s.conns i c
        stale := Function.update s.stale i false } ∧
      c.buf = (queuebufNewFromPacketbuf (Node.freeIfSet s.pool (s.conns i).buf) pb').1 := by
  refine ⟨pb.setAttr .packetId (s.conns i).sndnxt.toUInt16, ?_⟩
  simp only [send, sendNode, relunicastSend, htx, Bool.false_eq_true, if_false]
  rcases queuebufNewFromPacketbuf (Node.freeIfSet s.pool (s.conns i).buf)
    (pb.setAttr .packetId (s.conns i).sndnxt.toUInt16) with ⟨_ | b, p⟩
  · -- `buf` is NULL, and the block that was freed is forgotten.
    exact ⟨_, rfl, rfl⟩
  · refine ⟨_, rfl, ?_⟩
    obtain ⟨_, _, htime⟩ := setTime_eq C env { s.conns i with
      buf := some b, maxRxmit := maxRetransmissions, rxmit := 0, isTx := true,
      esender := esender, receiver := receiver }
    simp only [scheduleSend, htime]

/-- `relunicast_send` frees the block of the connection and takes a new one, unless a packet is in
transmission. -/
theorem Inv.send (h : Inv holders s) {i : ι} {env : Env} {pb : Packetbuf} {receiver : RimeAddr}
    {maxRetransmissions : UInt8} {esender : RimeAddr}
    (hclean : s.FreesNoStale (.send i env pb receiver maxRetransmissions esender)) :
    ∃ holders', Inv holders' (s.send C i env pb receiver maxRetransmissions esender) := by
  cases htx : (s.conns i).isTx with
  | true =>
      -- A send during a transmission is refused.
      have hsame : s.send C i env pb receiver maxRetransmissions esender = s := by
        simp [BufferOwners.send, relunicastSend, sendNode, htx]
      rw [hsame]
      exact ⟨holders, h⟩
  | false =>
      obtain ⟨pb', c, hsend, hc⟩ :=
        send_of_idle (C := C) htx env pb receiver maxRetransmissions esender
      have hp := h.release i (hclean.of_conn (by simp [frees, htx]))
      rw [hsend]
      rcases hp.new_cases pb' with ⟨b, p', hnew, hp', _, _⟩ | ⟨_, hnew⟩
      · rw [hnew] at hc ⊢
        exact h.replace i c false hc.symm hp'
      · rw [hnew] at hc ⊢
        exact h.replace i c false hc.symm hp

/-- An operation that frees no block with a left-over pointer keeps the invariant. -/
theorem Inv.step {t : BufferOwners ι} {a : BufferAction ι} (h : Inv holders s)
    (hclean : s.FreesNoStale a) (hst : s.step C a = some t) : ∃ holders', Inv holders' t := by
  cases a with
  | open_ i =>
      cases hst
      -- The pointer of the connection stays as it is.
      exact ⟨holders, h.setConn i rfl⟩
  | send i env pb receiver maxRetransmissions esender =>
      cases hst
      exact h.send hclean
  | transmit i =>
      cases hst
      exact ⟨holders, h.setConn i rfl⟩
  | schedule i =>
      cases hst
      exact ⟨holders, h.setConn i rfl⟩
  | complete i =>
      cases hst
      exact ⟨holders, h.setConn i rfl⟩
  | close i =>
      cases hst
      exact h.close hclean
  | enqueue pb clockTime uid =>
      cases hst
      exact ⟨holders, h.enqueue pb clockTime uid⟩
  | dequeue =>
      cases hst
      exact ⟨holders, h.dequeue⟩
  | otherNew pb =>
      cases hst
      exact ⟨holders, h.otherNew pb⟩
  | otherFree b =>
      obtain ⟨hmem, ⟨⟩⟩ := Option.ite_none_right_eq_some.mp hst
      exact ⟨holders, h.otherFree hmem⟩

/-- The invariant of the runs that free no block with a left-over pointer. -/
theorem inv_of_reachableIf (h : (machine ι C).ReachableIf FreesNoStale s) :
    ∃ holders, Inv holders s :=
  h.invariant (fun s => ∃ holders, Inv holders s) ⟨[], inv_boot⟩
    fun _ _ _ ⟨_, hs⟩ hclean hst => hs.step hclean hst

/-! ### The result -/

/-- In the runs that free no block with a left-over pointer, `queuebuf_len` is the number of
allocated blocks. The next operation frees only an allocated block to which no other owner
refers, exactly when it frees no block with a left-over pointer. -/
theorem freesOwn_iff_of_reachableIf (h : (machine ι C).ReachableIf FreesNoStale s) :
    s.LenCounts ∧
      ∀ a t, (machine ι C).step s a = some t → (s.FreesOwn a ↔ s.FreesNoStale a) := by
  obtain ⟨holders, hinv⟩ := inv_of_reachableIf h
  exact ⟨hinv.lenCounts, fun _ _ hst => hinv.freesOwn_iff hst⟩

/-- A node with X-MAC. -/
def bufferConf : NodeConf := ⟨⟨1, 0⟩, .xmac, ⟨0x1100, rimeaddrNull⟩, 131⟩

/-- An own packet for the node 2.0, with 3 retransmissions. -/
def sendPacket (i : ι) : BufferAction ι :=
  .send i ⟨0, 0, true, true⟩ Packetbuf.clear ⟨2, 0⟩ 3 bufferConf.addr

/-- The result at a state with a left-over pointer: the connection `false` has been closed
after its packet, and its block is now that of the connection `true`. -/
theorem freesOwn_iff_after_close : ∃ s,
    ((machine Bool bufferConf).ReachableIf FreesNoStale s ∧
      s.stale false = true ∧ (s.conns false).buf = some 0 ∧ (s.conns true).buf = some 0) ∧
    s.LenCounts ∧
      ∀ a t, (machine Bool bufferConf).step s a = some t →
        (s.FreesOwn a ↔ s.FreesNoStale a) := by
  let run : List (BufferAction Bool) :=
    [sendPacket false, .enqueue Packetbuf.clear 0 0, .complete false, .dequeue, .close false,
      .open_ false, sendPacket true]
  have hend : ((machine Bool bufferConf).runIf FreesNoStale boot run).map
      (fun s => (s.stale false, (s.conns false).buf, (s.conns true).buf)) =
        some (true, some 0, some 0) := by
    decide +kernel
  obtain ⟨s, hreach, hs⟩ := Machine.exists_reachableIf_of_runIf hend
  simp only [Prod.mk.injEq] at hs
  exact ⟨s, ⟨hreach, hs⟩, freesOwn_iff_of_reachableIf hreach⟩

/-- Without the condition the blocks get mixed up. The connection keeps the pointer to the
block that the close has freed, and the next `relunicast_send` frees it once more. -/
theorem not_lenCounts_and_freesOwn : ¬ ∀ s : BufferOwners Unit,
    (machine Unit bufferConf).Reachable s →
      s.LenCounts ∧ ∀ a t, (machine Unit bufferConf).step s a = some t → s.FreesOwn a := by
  intro hall
  let run : List (BufferAction Unit) :=
    [.open_ (), .enqueue Packetbuf.clear 0 0, sendPacket (), .complete (), .dequeue, .close (),
      .open_ (), .enqueue Packetbuf.clear 0 1, sendPacket ()]
  have hend : ((machine Unit bufferConf).run run).map
      (fun s => (s.pool.queuebufLen.toNat, s.pool.bufmem.allocated)) = some (1, 2) := by
    decide +kernel
  obtain ⟨s, hreach, hs⟩ := Machine.exists_reachable_of_run hend
  simp only [Prod.mk.injEq] at hs
  have hlen := (hall s hreach).1
  rw [LenCounts, hs.1, hs.2] at hlen
  exact absurd hlen (by decide)

end BufferOwners

end PTunes.Rime
