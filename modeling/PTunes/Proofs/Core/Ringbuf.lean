import Mathlib.Tactic.Ring
import PTunes.Core.Ringbuf
import PTunes.Lib.Ring

/-!
# `PTunes.Proofs.Core.Ringbuf`: the ring buffer is a queue

A ring buffer of `2 ^ k` bytes is a first-in first-out queue of at most `2 ^ k - 1` bytes.

* `contents_put`, `contents_get`: what the two functions do to the queue.
* `length_contents`, `Sized.size`: what `ringbuf_elements` and `ringbuf_size` count.
* `ringbufCalls_eq`: so every sequence of calls has the results of a queue with that many places.
* `contents_store`, `contents_advancePut`: the two steps of `ringbuf_put` one by one. The byte is
  in the queue only after the second one.
-/

set_option autoImplicit false

namespace PTunes.Core.Ringbuf

/-- The buffer has `2 ^ k` places, and the indices are places. -/
structure Sized (r : Ringbuf) (k : Nat) : Prop where
  mask_eq : r.mask.toNat = 2 ^ k - 1
  put_lt : r.putPtr.toNat < 2 ^ k
  get_lt : r.getPtr.toNat < 2 ^ k

/-- The bytes in the queue, the first one first. -/
def contents (r : Ringbuf) : List UInt8 :=
  ringContents (fun i => r.data (UInt8.ofNat i)) (r.mask.toNat + 1) r.getPtr.toNat
    r.ringbufElements.toNat

variable {r : Ringbuf} {k : Nat}

/-- The size is a power of two that fits in the 8-bit mask, so it is at most 256. -/
theorem Sized.le_256 (h : r.Sized k) : 2 ^ k ≤ 256 := by
  have hmask := r.mask.toNat_lt
  have heq := h.mask_eq
  omega

/-- It divides 256: the 8-bit pointers wrap where the ring does. -/
theorem Sized.dvd_256 (h : r.Sized k) : 2 ^ k ∣ 256 := by
  have hk : k ≤ 8 := by
    have hle : 2 ^ k ≤ 2 ^ 8 := h.le_256
    exact (Nat.pow_le_pow_iff_right (by decide)).mp hle
  exact Nat.pow_dvd_pow 2 hk

/-- The mask takes the remainder. -/
theorem Sized.toNat_and_mask (h : r.Sized k) (x : UInt8) :
    (x &&& r.mask).toNat = x.toNat % 2 ^ k := by
  rw [UInt8.toNat_and, h.mask_eq, Nat.and_two_pow_sub_one_eq_mod]

/-- The number of places, which `ringbuf_size` returns. -/
theorem Sized.size (h : r.Sized k) : r.mask.toNat + 1 = 2 ^ k := by
  rw [h.mask_eq]
  have := Nat.two_pow_pos k
  omega

/-- The number of bytes in the queue. -/
theorem Sized.toNat_elements (h : r.Sized k) : r.ringbufElements.toNat =
    if r.getPtr.toNat ≤ r.putPtr.toNat then r.putPtr.toNat - r.getPtr.toNat
    else r.putPtr.toNat + 2 ^ k - r.getPtr.toNat := by
  rw [ringbufElements, h.toNat_and_mask, UInt8.toNat_sub]
  have hput := h.put_lt
  have hget := h.get_lt
  have hle := h.le_256
  obtain ⟨m, hm⟩ := h.dvd_256
  split
  · rename_i hcmp
    rw [show 2 ^ 8 - r.getPtr.toNat + r.putPtr.toNat = (r.putPtr.toNat - r.getPtr.toNat) + 256 by
      omega, Nat.add_mod_right, Nat.mod_eq_of_lt (by omega), Nat.mod_eq_of_lt (by omega)]
  · rename_i hcmp
    -- The byte has gone around, and 256 is a multiple of the size.
    obtain ⟨m, rfl⟩ : ∃ j, m = j + 1 := ⟨m - 1, by
      have : m ≠ 0 := by
        rintro rfl
        omega
      omega⟩
    have hwrap : 2 ^ 8 - r.getPtr.toNat + r.putPtr.toNat =
        2 ^ k * m + (r.putPtr.toNat + 2 ^ k - r.getPtr.toNat) := by
      rw [Nat.mul_add, Nat.mul_one] at hm
      omega
    rw [Nat.mod_eq_of_lt (by omega : 2 ^ 8 - r.getPtr.toNat + r.putPtr.toNat < 2 ^ 8), hwrap,
      Nat.mul_add_mod, Nat.mod_eq_of_lt (by omega)]

/-- The place for the next byte is the one behind the last one. -/
theorem Sized.put_eq (h : r.Sized k) :
    r.putPtr.toNat = (r.getPtr.toNat + r.ringbufElements.toNat) % 2 ^ k := by
  rw [h.toNat_elements]
  have hput := h.put_lt
  have hget := h.get_lt
  split
  · rw [Nat.add_sub_cancel' (by assumption), Nat.mod_eq_of_lt hput]
  · rw [show r.getPtr.toNat + (r.putPtr.toNat + 2 ^ k - r.getPtr.toNat) =
      r.putPtr.toNat + 2 ^ k by omega, Nat.add_mod_right, Nat.mod_eq_of_lt hput]

/-- Fewer bytes are in the ring than it has places. One place stays free, so that a full ring and an
empty one can be told apart. -/
theorem Sized.elements_lt (h : r.Sized k) : r.ringbufElements.toNat < 2 ^ k := by
  rw [h.toNat_elements]
  have hput := h.put_lt
  have hget := h.get_lt
  split <;> omega

/-- `ringbuf_elements` counts the queue, whatever the size. -/
theorem length_contents (r : Ringbuf) : r.contents.length = r.ringbufElements.toNat :=
  length_ringContents ..

/-! ### The steps -/

/-- The test of `ringbuf_put`: one place stays free. -/
theorem Sized.isFull_iff (h : r.Sized k) : r.isFull ↔ r.contents.length + 1 = 2 ^ k := by
  rw [length_contents, isFull, beq_iff_eq, ← UInt8.toNat_inj, h.mask_eq]
  show r.ringbufElements.toNat = _ ↔ _
  have := Nat.two_pow_pos k
  omega

/-- The test of `ringbuf_get`. -/
theorem elements_pos_iff : 0 < (r.putPtr - r.getPtr) &&& r.mask ↔ r.contents ≠ [] := by
  rw [← List.length_pos_iff, length_contents, UInt8.lt_iff_toNat_lt]
  exact Iff.rfl

/-- The next place. -/
theorem Sized.toNat_next (h : r.Sized k) (x : UInt8) :
    ((x + 1) &&& r.mask).toNat = (x.toNat + 1) % 2 ^ k := by
  rw [h.toNat_and_mask, UInt8.toNat_add]
  rw [Nat.mod_mod_of_dvd _ h.dvd_256]
  rfl

/-- Storing a byte does not move a pointer. -/
theorem Sized.store (h : r.Sized k) (c : UInt8) : (r.store c).Sized k :=
  ⟨h.mask_eq, h.put_lt, h.get_lt⟩

/-- `put_ptr` moves under the mask. -/
theorem Sized.advancePut (h : r.Sized k) : r.advancePut.Sized k := by
  refine ⟨h.mask_eq, ?_, h.get_lt⟩
  show ((r.putPtr + 1) &&& r.mask).toNat < 2 ^ k
  rw [h.toNat_next]
  exact Nat.mod_lt _ (Nat.two_pow_pos k)

/-- `get_ptr` moves under the mask. -/
theorem Sized.advanceGet (h : r.Sized k) : r.advanceGet.Sized k := by
  refine ⟨h.mask_eq, h.put_lt, ?_⟩
  show ((r.getPtr + 1) &&& r.mask).toNat < 2 ^ k
  rw [h.toNat_next]
  exact Nat.mod_lt _ (Nat.two_pow_pos k)

/-- The byte that is stored is not in the queue yet. -/
theorem Sized.contents_store (h : r.Sized k) (c : UInt8) : (r.store c).contents = r.contents := by
  refine ringContents_congr fun i hi => Function.update_of_ne (fun heq => ?_) _ _
  have hsize : (r.store c).mask.toNat + 1 = 2 ^ k := h.size
  have hplace := (UInt8.toNat_inj.mpr heq).trans h.put_eq
  rw [hsize] at hplace
  rw [UInt8.toNat_ofNat', Nat.mod_eq_of_lt
    (Nat.lt_of_lt_of_le (Nat.mod_lt _ (Nat.two_pow_pos k)) h.le_256)] at hplace
  exact ring_place_ne h.elements_lt hi hplace

/-- The index is advanced: the byte that was stored is the last one. -/
theorem Sized.contents_advancePut (h : r.Sized k) (hfull : ¬ r.isFull) :
    r.advancePut.contents = r.contents ++ [r.data r.putPtr] := by
  rw [h.isFull_iff, length_contents] at hfull
  have hlt := h.elements_lt
  have hput := h.put_lt
  have hget := h.get_lt
  have hcount : r.advancePut.ringbufElements.toNat = r.ringbufElements.toNat + 1 := by
    have hnext : r.advancePut.putPtr.toNat = (r.putPtr.toNat + 1) % 2 ^ k := h.toNat_next _
    have hsame : r.advancePut.getPtr = r.getPtr := rfl
    rw [h.advancePut.toNat_elements, hnext, hsame]
    rw [h.toNat_elements] at hfull ⊢
    by_cases hwrap : r.putPtr.toNat + 1 = 2 ^ k
    · rw [hwrap, Nat.mod_self]
      split at hfull <;> split <;> omega
    · rw [Nat.mod_eq_of_lt (by omega)]
      split at hfull <;> split <;> omega
  rw [contents, hcount]
  have hsize : r.advancePut.mask.toNat + 1 = 2 ^ k := h.size
  rw [hsize, ringContents_succ, contents, h.size]
  refine congrArg₂ (· ++ ·) rfl (congrArg (fun b => [b]) ?_)
  show r.data (UInt8.ofNat ((r.getPtr.toNat + r.ringbufElements.toNat) % 2 ^ k)) = _
  rw [← h.put_eq, UInt8.ofNat_toNat]

/-- The index is advanced: the first byte is gone. -/
theorem Sized.contents_advanceGet (h : r.Sized k) (hne : r.contents ≠ []) :
    r.contents = r.data r.getPtr :: r.advanceGet.contents := by
  have hpos := List.length_pos_iff.mpr hne
  rw [length_contents] at hpos
  have hput := h.put_lt
  have hget := h.get_lt
  have hcount : r.ringbufElements.toNat = r.advanceGet.ringbufElements.toNat + 1 := by
    have hnext : r.advanceGet.getPtr.toNat = (r.getPtr.toNat + 1) % 2 ^ k := h.toNat_next _
    have hsame : r.advanceGet.putPtr = r.putPtr := rfl
    rw [h.advanceGet.toNat_elements, hnext, hsame]
    rw [h.toNat_elements] at hpos ⊢
    by_cases hwrap : r.getPtr.toNat + 1 = 2 ^ k
    · rw [hwrap, Nat.mod_self]
      split at hpos <;> split <;> try split
      all_goals omega
    · rw [Nat.mod_eq_of_lt (by omega)]
      split at hpos <;> split <;> try split
      all_goals omega
  have hnext : r.advanceGet.getPtr.toNat = (r.getPtr.toNat + 1) % 2 ^ k := h.toNat_next _
  have hsize : r.advanceGet.mask.toNat + 1 = 2 ^ k := h.size
  rw [contents, hcount, h.size, ringContents_pop, contents, hnext, hsize]
  refine congrArg₂ List.cons ?_ rfl
  show r.data (UInt8.ofNat (r.getPtr.toNat % 2 ^ k)) = _
  rw [Nat.mod_eq_of_lt hget, UInt8.ofNat_toNat]

/-! ### The functions -/

/-- `ringbuf_put` adds the byte, unless one place only is free. -/
theorem Sized.contents_put (h : r.Sized k) (c : UInt8) :
    (r.ringbufPut c).2.Sized k ∧
      ((r.ringbufPut c).1 ↔ r.contents.length + 1 < 2 ^ k) ∧
      (r.ringbufPut c).2.contents =
        if r.contents.length + 1 < 2 ^ k then r.contents ++ [c] else r.contents := by
  have hlt := h.elements_lt
  rw [← length_contents] at hlt
  have hiff := h.isFull_iff
  rw [ringbufPut]
  split
  · rename_i hfull
    have hlen := hiff.mp hfull
    exact ⟨h, by simp; omega, by rw [if_neg (by omega)]⟩
  · rename_i hfull
    have hlen : r.contents.length + 1 < 2 ^ k := by
      have hne : ¬ r.contents.length + 1 = 2 ^ k := fun hc => hfull (hiff.mpr hc)
      omega
    refine ⟨(h.store c).advancePut, by simp [hlen], ?_⟩
    rw [if_pos hlen, (h.store c).contents_advancePut hfull, h.contents_store]
    exact congrArg (r.contents ++ [·]) (Function.update_self ..)

/-- `ringbuf_get` takes the first byte out, if there is one. -/
theorem Sized.contents_get (h : r.Sized k) :
    r.ringbufGet.2.Sized k ∧ r.ringbufGet.1 = r.contents.head? ∧
      r.ringbufGet.2.contents = r.contents.tail := by
  rw [ringbufGet]
  split
  · rename_i hpos
    have hcons := h.contents_advanceGet (elements_pos_iff.mp hpos)
    refine ⟨h.advanceGet, ?_, ?_⟩ <;> rw [hcons] <;> rfl
  · rename_i hpos
    have hnil : r.contents = [] := by
      by_contra hne
      exact hpos (elements_pos_iff.mpr hne)
    refine ⟨h, ?_, ?_⟩ <;> rw [hnil] <;> rfl

/-- The empty buffer. A size of 0 stands for 256. -/
theorem sized_init (dataptr : UInt8 → UInt8) {size : UInt8}
    (hsize : (size - 1).toNat + 1 = 2 ^ k) :
    (ringbufInit dataptr size).Sized k ∧ (ringbufInit dataptr size).contents = [] := by
  refine ⟨⟨?_, Nat.two_pow_pos k, Nat.two_pow_pos k⟩, ?_⟩
  · show (size - 1).toNat = _
    omega
  · rw [contents]
    have hnone : (ringbufInit dataptr size).ringbufElements.toNat = 0 := by
      simp [ringbufElements, ringbufInit]
    rw [hnone, ringContents_zero]

/-! ### Sequences of calls -/

/-- A queue with `places` places: what a call does, and what it returns. The size is that of the
buffer, which has one place more. -/
def Call.spec (places : Nat) (q : List UInt8) : Call → List UInt8 × Result
  | .put c => if q.length < places then (q ++ [c], .put true) else (q, .put false)
  | .get => (q.tail, .get q.head?)
  | .size => (q, .size (places + 1))
  | .elements => (q, .elements q.length)

/-- What a sequence of calls does to the queue, and what it returns. -/
def specs (places : Nat) (q : List UInt8) : List Call → List UInt8 × List Result
  | [] => (q, [])
  | c :: cs =>
    ((specs places (c.spec places q).1 cs).1,
      (c.spec places q).2 :: (specs places (c.spec places q).1 cs).2)

/-- A call does to the contents, and returns, what it would with a list of at most `2 ^ k - 1`
bytes. So does a sequence of calls, by induction. -/
theorem Sized.call (h : r.Sized k) (c : Call) :
    (r.call c).1.Sized k ∧ (r.call c).1.contents = (c.spec (2 ^ k - 1) r.contents).1 ∧
      (r.call c).2 = (c.spec (2 ^ k - 1) r.contents).2 := by
  cases c with
  | put c =>
      obtain ⟨hsized, hstored, hcontents⟩ := h.contents_put c
      refine ⟨hsized, ?_⟩
      rw [Ringbuf.call, Call.spec, hcontents]
      by_cases hlt : r.contents.length + 1 < 2 ^ k
      · rw [if_pos hlt, if_pos (by omega), hstored.mpr hlt]
        exact ⟨rfl, rfl⟩
      · rw [if_neg hlt, if_neg (by omega), Bool.eq_false_iff.mpr (hstored.not.mpr hlt)]
        exact ⟨rfl, rfl⟩
  | get =>
      obtain ⟨hsized, hhead, htail⟩ := h.contents_get
      exact ⟨hsized, htail, congrArg Result.get hhead⟩
  | size =>
      have hpos := Nat.two_pow_pos k
      have hplaces : r.ringbufSize = 2 ^ k - 1 + 1 := by
        rw [ringbufSize, h.size]
        omega
      exact ⟨h, rfl, congrArg Result.size hplaces⟩
  | elements => exact ⟨h, rfl, congrArg Result.elements (length_contents r).symm⟩

/-- A sequence of calls. The ring keeps its size, so the bound is the same for each of them. -/
theorem Sized.calls (h : r.Sized k) (cs : List Call) :
    (r.calls cs).1.contents = (specs (2 ^ k - 1) r.contents cs).1 ∧
      (r.calls cs).2 = (specs (2 ^ k - 1) r.contents cs).2 := by
  induction cs generalizing r with
  | nil => exact ⟨rfl, rfl⟩
  | cons c cs ih =>
      obtain ⟨hsized, hcontents, hresult⟩ := h.call c
      obtain ⟨hcontents', hresults⟩ := ih hsized
      rw [Ringbuf.calls, specs, ← hcontents, ← hresult]
      exact ⟨hcontents', congrArg _ hresults⟩

/-- **The ring buffer is a queue.** Every sequence of calls of `ringbuf_put`, `ringbuf_get`,
`ringbuf_size` and `ringbuf_elements` has the results of a queue that has one place less than the
buffer. -/
theorem ringbufCalls_eq (dataptr : UInt8 → UInt8) {size : UInt8}
    (hsize : (size - 1).toNat + 1 = 2 ^ k) (cs : List Call) :
    ((ringbufInit dataptr size).calls cs).2 = (specs (2 ^ k - 1) [] cs).2 := by
  obtain ⟨hsized, hnil⟩ := sized_init dataptr hsize
  rw [(hsized.calls cs).2, hnil]

/-- `ringbufCalls_eq` at a buffer of four places, of which three can be used. -/
theorem ringbufCalls_eq_four :
    ((ringbufInit (fun _ => 0) 4).calls
      [.put 1, .put 2, .elements, .get, .put 3, .put 4, .put 5, .elements, .size, .get]).2 =
      [.put true, .put true, .elements 2, .get (some 1), .put true, .put true, .put false,
        .elements 3, .size 4, .get (some 2)] := by
  have hsize : ((4 : UInt8) - 1).toNat + 1 = 2 ^ 2 := rfl
  exact ringbufCalls_eq (fun _ => 0) hsize
    [.put 1, .put 2, .elements, .get, .put 3, .put 4, .put 5, .elements, .size, .get]

end PTunes.Core.Ringbuf
