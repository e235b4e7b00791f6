import Mathlib.Data.List.GetD
import PTunes.Rime.Relcollect

/-!
# `PTunes.Proofs.Rime.AdvLoop`: the loop of `adv_packet_received`

The loop reads the number of announcements and its entry from the packet buffer in every turn,
and the callback of `announcement_heard` can write into that buffer. So the number of turns
is not known when the loop starts.

* `advPacketReceived_rule`: what one call of `announcement_heard` keeps, the loop keeps.
* `advPacketReceived_rel`: two loops that read the same memory go through the same turns.
* `advPacketReceived_of_num_ne`, `advPacketReceived_of_num_eq` and `advPacketReceived_of_once`:
  a message with another number than 1 is ignored. For the number 1 the first entry is heard,
  and it is the only one when the number is at most 1 after it.
* `advLoop_turns`: the bound on the number of turns does not matter.

The rest is about the bytes: `read16_write` reads what has been written, and
`read16_overwrite_le` says when a written packet leaves the number at most 1.
-/

set_option autoImplicit false

namespace PTunes.Rime

/-! ### The loop -/

section Loop

variable {σ τ : Type} {adata : σ → Memory} {heard : σ → UInt16 → UInt16 → σ}
  {adata' : τ → Memory} {heard' : τ → UInt16 → UInt16 → τ}

/-- What `announcement_heard` keeps, the loop keeps from any turn on. The induction is on the
bound of the turns. -/
theorem advLoop_rule {P : σ → Prop} (hheard : ∀ s id value, P s → P (heard s id value))
    (turns : Nat) : ∀ (i : UInt16) (s : σ), P s → P (advLoop adata heard turns i s) := by
  induction turns with
  | zero =>
      intro i s hs
      exact hs
  | succ turns ih =>
      intro i s hs
      unfold advLoop
      split
      · exact ih _ _ (hheard _ _ _ hs)
      · exact hs

/-- What `announcement_heard` keeps, `adv_packet_received` keeps. -/
theorem advPacketReceived_rule {P : σ → Prop}
    (hheard : ∀ s id value, P s → P (heard s id value)) {s : σ} (hs : P s) :
    P (advPacketReceived adata heard s) := by
  unfold advPacketReceived
  split
  · exact advLoop_rule hheard _ _ _ hs
  · exact hs

/-- Two loops stay related when related states show them the same memory, and when
`announcement_heard` with the same arguments keeps the relation. -/
theorem advLoop_rel {R : σ → τ → Prop} (hadata : ∀ s t, R s t → adata s = adata' t)
    (hheard : ∀ s t id value, R s t → R (heard s id value) (heard' t id value))
    (turns : Nat) : ∀ (i : UInt16) (s : σ) (t : τ), R s t →
      R (advLoop adata heard turns i s) (advLoop adata' heard' turns i t) := by
  induction turns with
  | zero =>
      intro i s t h
      exact h
  | succ turns ih =>
      intro i s t h
      unfold advLoop
      rw [hadata s t h]
      split
      · exact ih _ _ _ (hheard _ _ _ _ h)
      · exact h

/-- The relation of `advLoop_rel`, for `adv_packet_received` as a whole. -/
theorem advPacketReceived_rel {R : σ → τ → Prop} (hadata : ∀ s t, R s t → adata s = adata' t)
    (hheard : ∀ s t id value, R s t → R (heard s id value) (heard' t id value))
    {s : σ} {t : τ} (h : R s t) :
    R (advPacketReceived adata heard s) (advPacketReceived adata' heard' t) := by
  unfold advPacketReceived
  rw [hadata s t h]
  split
  · exact advLoop_rel hadata hheard _ _ _ _ h
  · exact h

/-- A message with another number than 1 is ignored. -/
theorem advPacketReceived_of_num_ne {s : σ} (h : (adata s).read16 0 ≠ 1) :
    advPacketReceived adata heard s = s := by
  rw [advPacketReceived, if_neg h]

/-- For the number 1 the first entry is heard, and the loop goes on after it. -/
theorem advPacketReceived_of_num_eq {s : σ} (h : (adata s).read16 0 = 1) :
    advPacketReceived adata heard s =
      advLoop adata heard 65535 1 (heard s ((adata s).read16 2) ((adata s).read16 4)) := by
  have hlt : (0 : UInt16) < (adata s).read16 0 := by
    rw [h]
    decide
  rw [advPacketReceived, if_pos h, advLoop, if_pos hlt]
  rfl

/-- For the number 1 the first entry is heard, and the loop is over when the number that it
reads then is at most 1. -/
theorem advPacketReceived_of_once {s s' : σ} (h : (adata s).read16 0 = 1)
    (hs' : heard s ((adata s).read16 2) ((adata s).read16 4) = s')
    (hnum : (adata s').read16 0 ≤ 1) : advPacketReceived adata heard s = s' := by
  have hend : ¬ (1 : UInt16) < (adata s').read16 0 := UInt16.not_lt.mpr hnum
  rw [advPacketReceived_of_num_eq h, hs', advLoop, if_neg hend]

/-- Any two bounds that let the counter reach 65535 give the same result: the number has 16
bits, so the loop is over at the latest then. -/
theorem advLoop_turns (turns turns' : Nat) : ∀ (i : UInt16) (s : σ),
    65535 ≤ i.toNat + turns → 65535 ≤ i.toNat + turns' →
      advLoop adata heard turns i s = advLoop adata heard turns' i s := by
  -- At the counter 65535 the loop is over, whatever the bound.
  have hover : ∀ (turns : Nat) (i : UInt16) (s : σ), 65535 ≤ i.toNat →
      advLoop adata heard turns i s = s := by
    intro turns i s hi
    cases turns with
    | zero => rfl
    | succ turns =>
        have hlt : ¬ i < (adata s).read16 0 := by
          have hnum := ((adata s).read16 0).toNat_lt
          rw [UInt16.lt_iff_toNat_lt]
          omega
        rw [advLoop, if_neg hlt]
  induction turns generalizing turns' with
  | zero =>
      intro i s h h'
      rw [hover 0 i s h, hover turns' i s h]
  | succ turns ih =>
      intro i s h h'
      cases turns' with
      | zero => rw [hover (turns + 1) i s h', hover 0 i s h']
      | succ turns' =>
          unfold advLoop
          split
          · next hlt =>
              have hnum := ((adata s).read16 0).toNat_lt
              rw [UInt16.lt_iff_toNat_lt] at hlt
              have hnext : (i + 1).toNat = i.toNat + 1 := by
                rw [UInt16.toNat_add]
                show (i.toNat + 1) % 65536 = i.toNat + 1
                omega
              exact ih turns' _ _ (by omega) (by omega)
          · rfl

end Loop

/-! ### The bytes -/

namespace Memory

/-- A byte that has been written, seen from the start of the written bytes. -/
theorem write_apply (m : Memory) (start : UInt16) (data : List UInt8) (i : UInt16) :
    m.write start data i = data.getD (i - start).toNat (m i) := rfl

/-- Reading where a message starts gives the 16-bit value at that place of the message. -/
theorem read16_write {m : Memory} {data : List UInt8} {i : UInt16}
    (h : i.toNat + 1 < data.length) (hi : i.toNat + 1 < 65536) :
    (m.write 0 data).read16 i = readLe16 data i.toNat := by
  have hnext : (i + 1).toNat = i.toNat + 1 := by
    rw [UInt16.toNat_add]
    exact Nat.mod_eq_of_lt hi
  have hget : ∀ (j : Nat) (b c : UInt8), j < data.length → data.getD j b = data.getD j c := by
    intro j b c hj
    rw [List.getD_eq_getElem _ _ hj, List.getD_eq_getElem _ _ hj]
  rw [read16, readLe16, write_apply, write_apply, UInt16.sub_zero, UInt16.sub_zero, hnext,
    hget _ (m i) 0 (by omega), hget _ (m (i + 1)) 0 h]

/-- A 16-bit value is at most 1 exactly when its high byte is 0 and its low byte at most 1. -/
theorem read16_le_one_iff (m : Memory) (i : UInt16) :
    m.read16 i ≤ 1 ↔ m i ≤ 1 ∧ m (i + 1) = 0 := by
  have hlow := (m i).toNat_lt
  have hhigh := (m (i + 1)).toNat_lt
  rw [UInt16.le_iff_toNat_le, UInt8.le_iff_toNat_le, ← UInt8.toNat_inj]
  show ((m i).toNat + 256 * (m (i + 1)).toNat) % 65536 ≤ 1 ↔ (m i).toNat ≤ 1 ∧ _ = 0
  omega

end Memory

/-- The value of two bytes is at most 1 exactly when the high one is 0 and the low one at
most 1. -/
theorem readLe16_le_one_iff (data : List UInt8) (i : Nat) :
    readLe16 data i ≤ 1 ↔ data.getD i 0 ≤ 1 ∧ data.getD (i + 1) 0 = 0 :=
  Memory.read16_le_one_iff (fun j => if j = 0 then data.getD i 0 else data.getD (i + 1) 0) 0

/-- A written packet ends ten bytes after the number or it covers the number with its bytes 10
and 11. So a number of at most 1 stays at most 1, when each packet has such a value there. -/
theorem read16_overwrite_le {outside m : Memory} {packets : List (List UInt8)}
    (hnum : m.read16 0 ≤ 1) (h : ∀ packet ∈ packets, readLe16 packet 10 ≤ 1) :
    (overwrite outside packets m).read16 0 ≤ 1 := by
  -- The number lies in the packet buffer.
  have hinside : (overwrite outside packets m).read16 0 =
      (packets.foldl (fun m packet => m.write (0 - payloadOffset) packet) m).read16 0 := rfl
  rw [hinside]
  clear hinside
  induction packets generalizing m with
  | nil => exact hnum
  | cons packet packets ih =>
      refine ih ?_ fun p hp => h p (List.mem_cons_of_mem _ hp)
      obtain ⟨hlow, hhigh⟩ := (Memory.read16_le_one_iff m 0).mp hnum
      obtain ⟨hlow', hhigh'⟩ := (readLe16_le_one_iff packet 10).mp (h packet List.mem_cons_self)
      refine (Memory.read16_le_one_iff _ 0).mpr ⟨?_, ?_⟩
      · show packet.getD 10 (m 0) ≤ 1
        by_cases hlen : 10 < packet.length
        · rwa [List.getD_eq_getElem _ _ hlen] at hlow' ⊢
        · rwa [List.getD_eq_default _ _ (by omega)]
      · show packet.getD 11 (m 1) = 0
        by_cases hlen : 11 < packet.length
        · rwa [List.getD_eq_getElem _ _ hlen] at hhigh' ⊢
        · rwa [List.getD_eq_default _ _ (by omega)]

end PTunes.Rime
