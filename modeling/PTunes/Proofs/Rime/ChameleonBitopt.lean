import PTunes.Lib.Bits
import PTunes.Rime.ChameleonBitopt

/-!
# `PTunes.Proofs.Rime.ChameleonBitopt`: headers come back

`pack_header` clears the header and puts the fields in with a disjunction, so a field comes back
when its bits do not reach into the bits of others. They do not when the value fits into the
field. A value that does not fit is harmless when its field starts with a byte, as the bits that
are too many are shifted out.

* `Places.setBits`: `set_bits` writes the bits of the field and no others.
* `getBits_short`, `getBits_whole`: `get_bits` reads the field back.
* `holds_packFields`, `agrees_unpackFields`: the two loops.
* `unpackHeader_copyto`: the whole way, for a header of less than 256 bits.
-/

set_option autoImplicit false

namespace PTunes.Rime

/-! ### One byte -/

/-- The bits of the mask. -/
theorem testBit_bitmask {n j : Nat} (hn : n ≤ 8) (hj : j < 8) :
    (bitmask n).testBit j = decide (8 - n ≤ j) := by
  have h : ∀ n < 9, ∀ j < 8, (bitmask n).testBit j = decide (8 - n ≤ j) := by decide
  exact h n (by omega) j hj

/-- The bits that `get_bits_in_byte` reads. -/
theorem testBit_getBitsInByte (m : Nat → UInt8) {ptr bitpos n i : Nat} (hpos : bitpos ≤ 7)
    (hn : n ≤ 8) (hi : i < 8) :
    (getBitsInByte m ptr bitpos n).toNat.testBit i =
      (decide (i < n) && bitAt m (8 * ptr + bitpos + n - 1 - i)) := by
  have hhigh : ∀ (b : UInt8) {j : Nat}, 8 ≤ j → b.toNat.testBit j = false := by
    intro b j hj
    have hle : 2 ^ 8 ≤ 2 ^ j := Nat.pow_le_pow_right (by decide) hj
    exact Nat.testBit_lt_two_pow (Nat.lt_of_lt_of_le b.toNat_lt hle)
  rw [getBitsInByte, UInt8.toNat_ofNat', Nat.testBit_mod_two_pow,
    Nat.testBit_shiftRight, Nat.testBit_and, Nat.testBit_shiftRight,
    show (65536 : Nat) = 2 ^ 16 from rfl, Nat.testBit_mod_two_pow, Nat.testBit_shiftLeft,
    Nat.testBit_or, Nat.testBit_shiftLeft]
  by_cases hin : i < n
  · rw [testBit_bitmask hn (by omega)]
    have hpos' : bitpos ≤ 8 + (8 - n + i) := by omega
    have hword : 8 + (8 - n + i) < 16 := by omega
    have hmask : 8 - n ≤ 8 - n + i := by omega
    by_cases hfirst : bitpos + n - 1 - i < 8
    · -- The bit is in the first byte.
      rw [show 8 * ptr + bitpos + n - 1 - i = 8 * ptr + (bitpos + n - 1 - i) by omega,
        bitAt_eq m hfirst, hhigh (m (ptr + 1)) (show 8 ≤ 8 + (8 - n + i) - bitpos by omega),
        show 8 + (8 - n + i) - bitpos - 8 = 7 - (bitpos + n - 1 - i) by omega]
      have hshift : 8 ≤ 8 + (8 - n + i) - bitpos := by omega
      simp [hi, hin, hpos', hword, hmask, hshift]
    · -- The bit is in the second byte.
      rw [show 8 * ptr + bitpos + n - 1 - i = 8 * (ptr + 1) + (bitpos + n - 1 - i - 8) by omega,
        bitAt_eq m (by omega),
        show 8 + (8 - n + i) - bitpos = 7 - (bitpos + n - 1 - i - 8) by omega]
      have hlow : ¬ 8 ≤ 7 - (bitpos + n - 1 - i - 8) := by omega
      simp [hi, hin, hpos', hword, hmask, hlow]
  · have hmask : (bitmask n).testBit (8 - n + i) = false := by
      have hlt : bitmask n < 2 ^ 8 := by
        have h : ∀ n < 9, bitmask n < 2 ^ 8 := by decide
        exact h n (by omega)
      exact Nat.testBit_lt_two_pow
        (Nat.lt_of_lt_of_le hlt (Nat.pow_le_pow_right (by decide) (by omega)))
    rw [hmask]
    simp [hin]

/-- The bits that `set_bits_in_byte` sets, also when the value is too large. -/
theorem bitAt_setBitsInByte (m : Nat → UInt8) {ptr bitpos n : Nat} (hpos : bitpos ≤ 7)
    (hn : n ≤ 8) (val : UInt8) (k : Nat) :
    bitAt (setBitsInByte m ptr bitpos val n) k =
      (bitAt m k || (decide (8 * ptr ≤ k ∧ k < 8 * ptr + bitpos + n) &&
        val.toNat.testBit (8 * ptr + bitpos + n - 1 - k))) := by
  have hlow : ∀ x i : Nat, i < 8 → (UInt8.ofNat x).toNat.testBit i = x.testBit i := by
    intro x i hi
    rw [UInt8.toNat_ofNat', Nat.testBit_mod_two_pow]
    simp [hi]
  rw [setBitsInByte, bitAt_update_or, bitAt_update_or, hlow _ _ (by omega), hlow _ _ (by omega),
    Nat.testBit_shiftRight, show (65536 : Nat) = 2 ^ 16 from rfl, Nat.testBit_mod_two_pow,
    show (256 : Nat) = 2 ^ 8 from rfl, Nat.testBit_mod_two_pow, Nat.testBit_mod_two_pow,
    Nat.testBit_shiftLeft, Nat.testBit_shiftLeft, Bool.or_assoc]
  congr 1
  by_cases hfirst : k / 8 = ptr
  · -- The high byte of the 16-bit word goes to the byte at `ptr`.
    have hsecond : ¬ k / 8 = ptr + 1 := by omega
    by_cases hk : k < 8 * ptr + bitpos + n
    · have hle : 8 - bitpos + 8 - n ≤ 8 + (7 - k % 8) := by omega
      have hge : 8 * ptr ≤ k := by omega
      have hword : 8 + (7 - k % 8) < 16 := by omega
      rw [show 8 + (7 - k % 8) - (8 - bitpos + 8 - n) = 8 * ptr + bitpos + n - 1 - k by omega]
      simp [hfirst, hle, hk, hge, hword]
    · have hgt : ¬ 8 - bitpos + 8 - n ≤ 8 + (7 - k % 8) := by omega
      simp [hfirst, hgt, hk]
  · by_cases hsecond : k / 8 = ptr + 1
    · -- Its low byte goes to the next one.
      by_cases hk : k < 8 * ptr + bitpos + n
      · have hle : 8 - bitpos + 8 - n ≤ 7 - k % 8 := by omega
        have hge : 8 * ptr ≤ k := by omega
        have hbyte : 7 - k % 8 < 8 := by omega
        have hword : 7 - k % 8 < 16 := by omega
        rw [show 7 - k % 8 - (8 - bitpos + 8 - n) = 8 * ptr + bitpos + n - 1 - k by omega]
        simp [hsecond, hle, hk, hge, hbyte, hword]
      · have hgt : ¬ 8 - bitpos + 8 - n ≤ 7 - k % 8 := by omega
        simp [hsecond, hgt, hk]
    · have hout : ¬ (8 * ptr ≤ k ∧ k < 8 * ptr + bitpos + n) := by omega
      simp [hfirst, hsecond, hout]

/-! ### One field -/

/-- Bit `j` of a field of `n` bits whose value lies at the beginning of `val`. -/
def fieldBit (val : Nat → UInt8) (n j : Nat) : Bool :=
  if n < 8 then (val 0).toNat.testBit (n - 1 - j) else bitAt val j

/-- The bits of the memory from `start` on are zero. -/
def Cleared (m : Nat → UInt8) (start len : Nat) : Prop :=
  ∀ k, start ≤ k → k < start + len → bitAt m k = false

/-- Bits that are not set are replaced by those of the value, when the value fits or the field
starts with a byte. -/
theorem Places.setBitsInByte {m : Nat → UInt8} {ptr bitpos n : Nat} (hpos : bitpos ≤ 7)
    (hn : n ≤ 8) {val : UInt8} (hval : bitpos = 0 ∨ val.toNat < 2 ^ n)
    (hclear : Cleared m (8 * ptr + bitpos) n) :
    Places m (setBitsInByte m ptr bitpos val n) (8 * ptr + bitpos) n
      (fun j => val.toNat.testBit (n - 1 - j)) := by
  intro k
  rw [bitAt_setBitsInByte m hpos hn]
  by_cases hk : 8 * ptr + bitpos ≤ k ∧ k < 8 * ptr + bitpos + n
  · rw [if_pos hk, hclear k hk.1 hk.2]
    show _ = val.toNat.testBit (n - 1 - (k - (8 * ptr + bitpos)))
    rw [show n - 1 - (k - (8 * ptr + bitpos)) = 8 * ptr + bitpos + n - 1 - k by omega]
    have hge : 8 * ptr ≤ k := by omega
    simp [hge, hk.2]
  · rw [if_neg hk]
    by_cases hbyte : 8 * ptr ≤ k ∧ k < 8 * ptr + bitpos + n
    · -- The bits in front of the field.
      have hlt : val.toNat < 2 ^ n := hval.resolve_left (by omega)
      have hzero : val.toNat.testBit (8 * ptr + bitpos + n - 1 - k) = false :=
        Nat.testBit_lt_two_pow
          (Nat.lt_of_lt_of_le hlt (Nat.pow_le_pow_right (by decide) (by omega)))
      rw [hzero, Bool.and_false, Bool.or_false]
    · simp [hbyte]

/-- A write leaves the bits behind it clear. -/
theorem Cleared.of_places {m m' : Nat → UInt8} {start len len' : Nat} {bits : Nat → Bool}
    (h : Cleared m start (len + len')) (hm : Places m m' start len bits) :
    Cleared m' (start + len) len' := by
  intro k hge hlt
  rw [hm.outside (Or.inr hge)]
  exact h k (by omega) (by omega)

/-- When the bits of two fields are clear, those of the first one are. -/
theorem Cleared.left {m : Nat → UInt8} {start len len' : Nat} (h : Cleared m start (len + len')) :
    Cleared m start len :=
  fun k hge hlt => h k hge (by omega)

/-- Whole bytes, within bytes. -/
theorem Places.setBytes {m : Nat → UInt8} {ptr bitpos : Nat} (hpos : bitpos ≤ 7)
    (val : Nat → UInt8) {i : Nat} (hclear : Cleared m (8 * ptr + bitpos) (8 * i)) :
    Places m (setBytes m ptr bitpos val i) (8 * ptr + bitpos) (8 * i) (bitAt val) := by
  induction i with
  | zero => exact Places.refl m _ _
  | succ i ih =>
      rw [show 8 * (i + 1) = 8 * i + 8 by omega] at hclear ⊢
      have hi := ih hclear.left
      -- The first `i` bytes leave the bits of the next one clear.
      have hstart : 8 * (ptr + i) + bitpos = 8 * ptr + bitpos + 8 * i := by omega
      have hclear' := hclear.of_places hi
      rw [← hstart] at hclear'
      have hnext := Places.setBitsInByte hpos (Nat.le_refl 8) (Or.inr (val i).toNat_lt) hclear'
      rw [hstart] at hnext
      refine hi.append hnext fun j hj => ?_
      rw [bitAt_eq val hj]

/-- Whole bytes, from the beginning of a byte on. -/
theorem Places.copyBytes (m : Nat → UInt8) (ptr : Nat) (val : Nat → UInt8) (i : Nat) :
    Places m (copyBytes m ptr val i) (8 * ptr) (8 * i) (bitAt val) := by
  induction i with
  | zero => exact Places.refl m _ _
  | succ i ih =>
      intro k
      rw [Rime.copyBytes, bitAt_update, ih k]
      by_cases hk : k / 8 = ptr + i
      · rw [if_pos hk, if_pos (by omega), show k - 8 * ptr = 8 * i + k % 8 by omega,
          bitAt_eq val (Nat.mod_lt k (by omega))]
      · rw [if_neg hk]
        by_cases hin : 8 * ptr ≤ k ∧ k < 8 * ptr + 8 * i
        · rw [if_pos hin, if_pos (by omega)]
        · rw [if_neg hin, if_neg (by omega)]

/-- `set_bits` writes the bits of the field and no others. -/
theorem Places.setBits {m : Nat → UInt8} {ptr bitpos n : Nat} (hpos : bitpos ≤ 7)
    (hn : n < 8 ∨ n % 8 = 0) {val : Nat → UInt8}
    (hval : n < 8 → bitpos = 0 ∨ (val 0).toNat < 2 ^ n)
    (hclear : Cleared m (8 * ptr + bitpos) n) :
    Places m (setBits m ptr bitpos val n) (8 * ptr + bitpos) n (fieldBit val n) := by
  rw [Rime.setBits]
  by_cases hshort : n < 8
  · -- One write, which may cross into the next byte.
    rw [if_pos hshort]
    refine (Places.setBitsInByte hpos (by omega) (hval hshort) hclear).congr fun j _ => ?_
    rw [fieldBit, if_pos hshort]
  · have hmod : n % 8 = 0 := hn.resolve_left hshort
    have hlen : 8 * (n / 8) = n := by omega
    have hbits : ∀ j < n, bitAt val j = fieldBit val n j := fun j _ => by
      rw [fieldBit, if_neg hshort]
    rw [if_neg hshort]
    simp only [hmod, ne_eq, not_true_eq_false, if_false]
    by_cases hzero : bitpos = 0
    · -- The bytes are copied.
      rw [if_pos hzero]
      have hcopy := Places.copyBytes m ptr val (n / 8)
      rw [hlen] at hcopy
      rw [hzero, Nat.add_zero]
      exact hcopy.congr hbits
    · -- Every byte is divided between two.
      rw [if_neg hzero]
      rw [← hlen] at hclear
      have hset := Places.setBytes hpos val hclear
      rw [hlen] at hset
      exact hset.congr hbits

/-- What `getBytes` leaves in the bytes of the value and behind them. -/
theorem getBytes_apply (to_ m : Nat → UInt8) (ptr bitpos i j : Nat) :
    getBytes to_ m ptr bitpos i j =
      if j < i then getBitsInByte m (ptr + j) bitpos 8 else to_ j := by
  induction i with
  | zero => rfl
  | succ i ih =>
      rw [getBytes, Function.update_apply, ih]
      by_cases hj : j = i
      · rw [if_pos hj, if_pos (by omega), hj]
      · rw [if_neg hj]
        by_cases hlt : j < i
        · rw [if_pos hlt, if_pos (by omega)]
        · rw [if_neg hlt, if_neg (by omega)]

/-- What `copyBytes` leaves in the bytes of the value and behind them. -/
theorem copyBytes_apply (to_ val : Nat → UInt8) (i j : Nat) :
    copyBytes to_ 0 val i j = if j < i then val j else to_ j := by
  induction i with
  | zero => rfl
  | succ i ih =>
      rw [copyBytes, Function.update_apply, ih, Nat.zero_add]
      by_cases hj : j = i
      · rw [if_pos hj, if_pos (by omega), hj]
      · rw [if_neg hj]
        by_cases hlt : j < i
        · rw [if_pos hlt, if_pos (by omega)]
        · rw [if_neg hlt, if_neg (by omega)]

/-- `get_bits` reads a short field back, when the value fits. -/
theorem getBits_short {to_ m val : Nat → UInt8} {ptr bitpos n : Nat} (hpos : bitpos ≤ 7)
    (hn : n < 8) (hval : (val 0).toNat < 2 ^ n)
    (hm : ∀ j < n, bitAt m (8 * ptr + bitpos + j) = fieldBit val n j) :
    getBits to_ m ptr bitpos n = Function.update to_ 0 (val 0) := by
  rw [getBits, if_pos hn]
  refine congrArg (Function.update to_ 0) (byte_ext fun i hi => ?_)
  rw [testBit_getBitsInByte m hpos (by omega) hi]
  by_cases hin : i < n
  · have hbit := hm (n - 1 - i) (by omega)
    rw [fieldBit, if_pos hn, show n - 1 - (n - 1 - i) = i by omega,
      show 8 * ptr + bitpos + (n - 1 - i) = 8 * ptr + bitpos + n - 1 - i by omega] at hbit
    simp [hin, hbit]
  · have hzero : (val 0).toNat.testBit i = false :=
      Nat.testBit_lt_two_pow
        (Nat.lt_of_lt_of_le hval (Nat.pow_le_pow_right (by decide) (by omega)))
    simp [hin, hzero]

/-- `get_bits` reads a field of whole bytes back. -/
theorem getBits_whole {to_ m val : Nat → UInt8} {ptr bitpos n : Nat} (hpos : bitpos ≤ 7)
    (hn : 8 ≤ n) (hmod : n % 8 = 0)
    (hm : ∀ j < n, bitAt m (8 * ptr + bitpos + j) = fieldBit val n j) (i : Nat) :
    getBits to_ m ptr bitpos n i = if i < n / 8 then val i else to_ i := by
  have hfield : ∀ j < n, bitAt m (8 * ptr + bitpos + j) = bitAt val j := by
    intro j hj
    rw [hm j hj, fieldBit, if_neg (by omega)]
  rw [getBits, if_neg (by omega)]
  simp only [hmod, ne_eq, not_true_eq_false, if_false]
  by_cases hzero : bitpos = 0
  · rw [if_pos hzero, copyBytes_apply]
    by_cases hi : i < n / 8
    · rw [if_pos hi, if_pos hi]
      refine eq_of_bitAt fun j hj => ?_
      rw [show 8 * (ptr + i) + j = 8 * ptr + bitpos + (8 * i + j) by omega,
        hfield _ (by omega)]
    · rw [if_neg hi, if_neg hi]
  · rw [if_neg hzero, getBytes_apply]
    by_cases hi : i < n / 8
    · rw [if_pos hi, if_pos hi]
      refine byte_ext fun j hj => ?_
      have hbit := hfield (8 * i + (7 - j)) (by omega)
      rw [bitAt_eq val (by omega), show 7 - (7 - j) = j by omega,
        show 8 * ptr + bitpos + (8 * i + (7 - j)) = 8 * (ptr + i) + bitpos + 8 - 1 - j by omega]
        at hbit
      rw [testBit_getBitsInByte m hpos (Nat.le_refl 8) hj, hbit]
      simp [hj]
    · rw [if_neg hi, if_neg hi]

/-! ### The loop of `pack_header` -/

variable {α : Type}

/-- The value of a field as a number. -/
def fieldValue (b : PacketbufMem α) (type : HeaderType α) : Nat :=
  match type with
  | .attr type => (b.attrs type).toNat
  | .addr type => (b.addrs type).u8_0.toNat + 256 * (b.addrs type).u8_1.toNat

/-- The value fits into the field. -/
def Fits (b : PacketbufMem α) (a : PacketbufAttrlist α) : Prop :=
  fieldValue b a.type < 2 ^ a.len.toNat

/-- A field has less than 8 bits or whole bytes. -/
def WidthOk (a : PacketbufAttrlist α) : Prop := a.len.toNat < 8 ∨ a.len.toNat % 8 = 0

/-- A field of less than 8 bits starts with a byte, or its value fits. -/
def Tame (b : PacketbufMem α) (bitptr : Nat) (a : PacketbufAttrlist α) : Prop :=
  a.len.toNat < 8 → bitptr % 8 = 0 ∨ Fits b a

/-- This holds of all fields of a list. -/
def AllTame (b : PacketbufMem α) : Nat → List (PacketbufAttrlist α) → Prop
  | _, [] => True
  | bitptr, a :: rest => Tame b bitptr a ∧ AllTame b (bitptr + a.len.toNat) rest

/-- The bits of the memory from the byte `hdrptr` on are those of the fields. -/
def Holds (m : Nat → UInt8) (hdrptr : Nat) (b : PacketbufMem α) (beyond : Nat → Nat → UInt8) :
    Nat → List (PacketbufAttrlist α) → Prop
  | _, [] => True
  | bitptr, a :: rest =>
    (∀ j < a.len.toNat, bitAt m (8 * hdrptr + bitptr + j) =
      fieldBit (fieldMemory b a.type (beyond bitptr)) a.len.toNat j) ∧
    Holds m hdrptr b beyond (bitptr + a.len.toNat) rest

/-- Values that fit their fields can be written whatever bit a field starts with. -/
theorem allTame_of_fits {b : PacketbufMem α} {l : List (PacketbufAttrlist α)}
    (h : ∀ a ∈ l, Fits b a) (bitptr : Nat) : AllTame b bitptr l := by
  induction l generalizing bitptr with
  | nil => trivial
  | cons a rest ih =>
      exact ⟨fun _ => Or.inr (h a List.mem_cons_self),
        ih (fun a' ha' => h a' (List.mem_cons_of_mem _ ha')) _⟩

/-- The size of a header is the sum of the widths of its fields. -/
theorem headerSize_cons (a : PacketbufAttrlist α) (rest : List (PacketbufAttrlist α)) :
    headerSize (a :: rest) = a.len.toNat + headerSize rest := rfl

/-- The low byte of a value is not larger than the value. -/
theorem fieldMemory_zero_le (b : PacketbufMem α) (type : HeaderType α) (beyond : Nat → UInt8) :
    (fieldMemory b type beyond 0).toNat ≤ fieldValue b type := by
  cases type with
  | attr type =>
      show (UInt8.ofNat ((b.attrs type).toNat % 256)).toNat ≤ (b.attrs type).toNat
      rw [UInt8.toNat_ofNat']
      omega
  | addr type => exact Nat.le_add_right _ _

/-- The header that the loop of `pack_header` leaves, and what it does not touch. -/
theorem holds_packFields {b : PacketbufMem α} {beyond : Nat → Nat → UInt8} {hdrptr : Nat}
    {l : List (PacketbufAttrlist α)} (hwidth : ∀ a ∈ l, WidthOk a) {bitptr : Nat}
    (htame : AllTame b bitptr l) {m : Nat → UInt8}
    (hclear : Cleared m (8 * hdrptr + bitptr) (headerSize l)) :
    Holds (packFields b beyond hdrptr bitptr l m) hdrptr b beyond bitptr l ∧
      ∀ k, k < 8 * hdrptr + bitptr ∨ 8 * hdrptr + bitptr + headerSize l ≤ k →
        bitAt (packFields b beyond hdrptr bitptr l m) k = bitAt m k := by
  induction l generalizing bitptr m with
  | nil => exact ⟨trivial, fun _ _ => rfl⟩
  | cons a rest ih =>
      obtain ⟨htame, hrest⟩ := htame
      rw [headerSize_cons] at hclear ⊢
      have hstart : 8 * (hdrptr + bitptr / 8) + bitptr % 8 = 8 * hdrptr + bitptr := by omega
      have hval : a.len.toNat < 8 → bitptr % 8 = 0 ∨
          (fieldMemory b a.type (beyond bitptr) 0).toNat < 2 ^ a.len.toNat := fun hlt =>
        (htame hlt).imp_right fun hfits =>
          Nat.lt_of_le_of_lt (fieldMemory_zero_le b a.type _) hfits
      have hclear' : Cleared m (8 * (hdrptr + bitptr / 8) + bitptr % 8) a.len.toNat :=
        hstart ▸ hclear.left
      have hset := Places.setBits (show bitptr % 8 ≤ 7 by omega)
        (hwidth a List.mem_cons_self) hval hclear'
      rw [hstart] at hset
      have hclear'' := hclear.of_places hset
      rw [Nat.add_assoc] at hclear''
      obtain ⟨hholds, hframe⟩ :=
        ih (fun a' ha' => hwidth a' (List.mem_cons_of_mem _ ha')) hrest hclear''
      rw [packFields]
      refine ⟨⟨fun j hj => ?_, hholds⟩, fun k hk => ?_⟩
      · -- The fields behind this one leave it alone.
        rw [hframe _ (Or.inl (by omega)), hset.inside hj]
      · rw [hframe k (by omega), hset.outside (by omega)]

/-- A copy of the header holds the same fields. -/
theorem Holds.copy {m m' : Nat → UInt8} {hdrptr hdrptr' : Nat} {b : PacketbufMem α}
    {beyond : Nat → Nat → UInt8} {l : List (PacketbufAttrlist α)} {bitptr : Nat}
    (h : Holds m hdrptr b beyond bitptr l)
    (hcopy : ∀ j < bitptr + headerSize l,
      bitAt m' (8 * hdrptr' + j) = bitAt m (8 * hdrptr + j)) :
    Holds m' hdrptr' b beyond bitptr l := by
  induction l generalizing bitptr with
  | nil => trivial
  | cons a rest ih =>
      rw [headerSize_cons] at hcopy
      refine ⟨fun j hj => ?_, ih h.2 fun j hj => hcopy j (by omega)⟩
      have hbit := h.1 j hj
      rw [Nat.add_assoc] at hbit ⊢
      rw [hcopy (bitptr + j) (by omega), hbit]

/-! ### The loop of `unpack_header` -/

/-- An attribute or an address has its original value. -/
def Agrees (b orig : PacketbufMem α) : HeaderType α → Prop
  | .attr type => b.attrs type = orig.attrs type
  | .addr type => b.addrs type = orig.addrs type

/-- An address field has room for an address. -/
def AddrOk (a : PacketbufAttrlist α) : Prop :=
  ∀ type, a.type = .addr type → 16 ≤ a.len.toNat

/-- The bytes of a value that fits into a field of one byte. -/
theorem attr_of_low {v : UInt16} {n : Nat} (hn : n ≤ 8) (hv : v.toNat < 2 ^ n) :
    UInt16.ofNat ((UInt8.ofNat (v.toNat % 256)).toNat + 256 * (UInt8.ofNat 0).toNat) = v := by
  have hle : 2 ^ n ≤ 2 ^ 8 := Nat.pow_le_pow_right (by decide) hn
  rw [← UInt16.toNat_inj, UInt16.toNat_ofNat', UInt8.toNat_ofNat']
  show (v.toNat % 256 % 256 + 256 * 0) % 65536 = v.toNat
  omega

/-- The two bytes of a value. -/
theorem attr_of_both (v : UInt16) :
    UInt16.ofNat ((UInt8.ofNat (v.toNat % 256)).toNat +
      256 * (UInt8.ofNat (v.toNat / 256)).toNat) = v := by
  have hlt := v.toNat_lt
  rw [← UInt16.toNat_inj, UInt16.toNat_ofNat', UInt8.toNat_ofNat', UInt8.toNat_ofNat']
  omega

variable [DecidableEq α]

/-- What a turn of the loop does not change. -/
theorem unpackField_frame (stack : Nat → UInt8) (hdrptr bitptr : Nat) (a : PacketbufAttrlist α)
    (b : PacketbufMem α) :
    (unpackField stack hdrptr bitptr a b).packetbuf = b.packetbuf ∧
      (unpackField stack hdrptr bitptr a b).bufptr = b.bufptr ∧
      (unpackField stack hdrptr bitptr a b).buflen = b.buflen ∧
      ∀ orig type, type ≠ a.type → Agrees b orig type →
        Agrees (unpackField stack hdrptr bitptr a b) orig type := by
  obtain ⟨type, len⟩ := a
  cases type with
  | addr type =>
      refine ⟨rfl, rfl, rfl, fun orig type' hne hagrees => ?_⟩
      cases type' with
      | attr type' => exact hagrees
      | addr type' =>
          have hne' : type' ≠ type := fun heq => hne (congrArg HeaderType.addr heq)
          exact (Function.update_of_ne hne' _ _).trans hagrees
  | attr type =>
      refine ⟨rfl, rfl, rfl, fun orig type' hne hagrees => ?_⟩
      cases type' with
      | addr type' => exact hagrees
      | attr type' =>
          have hne' : type' ≠ type := fun heq => hne (congrArg HeaderType.attr heq)
          exact (Function.update_of_ne hne' _ _).trans hagrees

/-- A turn of the loop restores the value of a field in which it fits. -/
theorem agrees_unpackField {orig b : PacketbufMem α} {beyond stack : Nat → UInt8}
    {hdrptr bitptr : Nat} {a : PacketbufAttrlist α} (hwidth : WidthOk a) (haddr : AddrOk a)
    (hfits : Fits orig a)
    (hm : ∀ j < a.len.toNat, bitAt b.packetbuf (8 * hdrptr + bitptr + j) =
      fieldBit (fieldMemory orig a.type beyond) a.len.toNat j) :
    Agrees (unpackField stack hdrptr bitptr a b) orig a.type := by
  have hpos : bitptr % 8 ≤ 7 := by omega
  have hm' : ∀ j < a.len.toNat,
      bitAt b.packetbuf (8 * (hdrptr + bitptr / 8) + bitptr % 8 + j) =
        fieldBit (fieldMemory orig a.type beyond) a.len.toNat j := by
    intro j hj
    rw [show 8 * (hdrptr + bitptr / 8) + bitptr % 8 = 8 * hdrptr + bitptr by omega, hm j hj]
  obtain ⟨type, len⟩ := a
  cases type with
  | addr type =>
      have hlen : 16 ≤ len.toNat := haddr type rfl
      have hmod : len.toNat % 8 = 0 := hwidth.resolve_left (show ¬ len.toNat < 8 by omega)
      have hread := fun i => @getBits_whole stack b.packetbuf _ _ _ len.toNat hpos
        (by omega) hmod hm' i
      show Function.update b.addrs type _ type = orig.addrs type
      rw [Function.update_self, hread 0, hread 1, if_pos (by omega), if_pos (by omega)]
      rfl
  | attr type =>
      have hval : (orig.attrs type).toNat < 2 ^ len.toNat := hfits
      show Function.update b.attrs type _ type = orig.attrs type
      rw [Function.update_self]
      by_cases hshort : len.toNat < 8
      · have hlow : (fieldMemory orig (.attr type) beyond 0).toNat < 2 ^ len.toNat :=
          Nat.lt_of_le_of_lt (fieldMemory_zero_le orig (.attr type) beyond) hval
        rw [getBits_short hpos hshort hlow hm']
        exact attr_of_low (Nat.le_of_lt hshort) hval
      · have hmod : len.toNat % 8 = 0 := hwidth.resolve_left hshort
        have hread := fun i => @getBits_whole (attrMemory 0 stack) b.packetbuf _ _ _ len.toNat hpos
          (by omega) hmod hm' i
        rw [hread 0, hread 1, if_pos (by omega)]
        by_cases hbyte : len.toNat = 8
        · rw [if_neg (by omega)]
          exact attr_of_low (Nat.le_of_eq hbyte) hval
        · rw [if_pos (by omega)]
          exact attr_of_both (orig.attrs type)

/-- The loop of `unpack_header` restores every declared value that fits into its fields. -/
theorem agrees_unpackFields {orig b : PacketbufMem α} {beyond stack : Nat → Nat → UInt8}
    {hdrptr bitptr : Nat} {l : List (PacketbufAttrlist α)} (hwidth : ∀ a ∈ l, WidthOk a)
    (haddr : ∀ a ∈ l, AddrOk a) (hholds : Holds b.packetbuf hdrptr orig beyond bitptr l) :
    (unpackFields stack hdrptr bitptr l b).packetbuf = b.packetbuf ∧
      (unpackFields stack hdrptr bitptr l b).bufptr = b.bufptr ∧
      (unpackFields stack hdrptr bitptr l b).buflen = b.buflen ∧
      ∀ type, (∀ a ∈ l, a.type = type → Fits orig a) →
        Agrees b orig type ∨ (∃ a ∈ l, a.type = type) →
        Agrees (unpackFields stack hdrptr bitptr l b) orig type := by
  induction l generalizing bitptr b with
  | nil =>
      refine ⟨rfl, rfl, rfl, fun type _ hagrees => hagrees.resolve_right ?_⟩
      rintro ⟨a, ha, _⟩
      exact nomatch ha
  | cons a rest ih =>
      obtain ⟨hfield, hrest⟩ := hholds
      obtain ⟨hmem, hptr, hlen, hother⟩ :=
        unpackField_frame (stack bitptr) hdrptr bitptr a b
      rw [← hmem] at hrest
      obtain ⟨hmem', hptr', hlen', hagrees⟩ :=
        ih (fun a' ha' => hwidth a' (List.mem_cons_of_mem _ ha'))
          (fun a' ha' => haddr a' (List.mem_cons_of_mem _ ha')) hrest
      rw [unpackFields]
      refine ⟨hmem'.trans hmem, hptr'.trans hptr, hlen'.trans hlen, fun type hfits hcase => ?_⟩
      refine hagrees type (fun a' ha' => hfits a' (List.mem_cons_of_mem _ ha')) ?_
      by_cases htype : a.type = type
      · -- The field restores the value, and a later one only does so again.
        left
        rw [← htype]
        exact agrees_unpackField (hwidth a List.mem_cons_self) (haddr a List.mem_cons_self)
          (hfits a List.mem_cons_self htype) hfield
      · rcases hcase with hcase | ⟨a', ha', htype'⟩
        · exact Or.inl (hother orig type (Ne.symm htype) hcase)
        · rcases List.mem_cons.mp ha' with rfl | ha'
          · exact absurd htype' htype
          · exact Or.inr ⟨a', ha', htype'⟩

/-! ### From one packet buffer to the other -/

/-- A list that is written in one part and in two parts. -/
theorem map_range_append {β : Type} {n k l : Nat} {f g h : Nat → β}
    (heq : (List.range n).map f = (List.range k).map g ++ (List.range l).map h) :
    n = k + l ∧ (∀ i < k, f i = g i) ∧ ∀ i < l, f (k + i) = h i := by
  have hlen : n = k + l := by simpa using congrArg List.length heq
  have hget : ∀ i < n, some (f i) = if i < k then some (g i) else some (h (i - k)) := by
    intro i hi
    have hi' := congrArg (·[i]?) heq
    simp only [List.getElem?_append, List.length_map, List.length_range, List.getElem?_map] at hi'
    rw [List.getElem?_range hi] at hi'
    split at hi'
    · rename_i hlt
      rw [List.getElem?_range hlt] at hi'
      rw [if_pos hlt]
      exact hi'
    · rename_i hge
      rw [List.getElem?_range (by omega)] at hi'
      rw [if_neg hge]
      exact hi'
  refine ⟨hlen, fun i hi => ?_, fun i hi => ?_⟩
  · have hi' := hget i (by omega)
    rw [if_pos hi] at hi'
    exact Option.some.inj hi'
  · have hi' := hget (k + i) (by omega)
    rw [if_neg (by omega), Nat.add_sub_cancel_left] at hi'
    exact Option.some.inj hi'

omit [DecidableEq α] in
/-- `hdrsize` holds the size of the header when it has less than 256 bits. -/
theorem hdrbytesize_ofAttributes {l : List (PacketbufAttrlist α)} (hsize : headerSize l < 256)
    (channelno : UInt16) :
    headerSize l ≤ 8 * (Channel.ofAttributes channelno l).hdrbytesize ∧
      (Channel.ofAttributes channelno l).hdrbytesize ≤ 32 := by
  have hnat : (UInt8.ofNat (headerSize l)).toNat = headerSize l := by
    rw [UInt8.toNat_ofNat']
    exact Nat.mod_eq_of_lt hsize
  rw [Channel.hdrbytesize, Channel.ofAttributes, hnat]
  split <;> omega

omit [DecidableEq α] in
/-- The packed buffer: `pack_header` puts the channel in front of the fields, and the fields in
front of the payload. -/
theorem packHeader_spec {c : Channel α} {b : PacketbufMem α} (beyond : Nat → Nat → UInt8)
    (hwidth : ∀ a ∈ c.attrlist, WidthOk a) (htame : AllTame b 0 c.attrlist)
    (hhdr : b.hdrptr = 64) (hbytes : headerSize c.attrlist ≤ 8 * c.hdrbytesize)
    (hle : c.hdrbytesize ≤ 32) :
    ∃ m, packHeader beyond c b =
        { b with
          packetbuf := Function.update
            (Function.update m (62 - c.hdrbytesize) (UInt8.ofNat (c.channelno.toNat % 256)))
            (62 - c.hdrbytesize + 1) (UInt8.ofNat (c.channelno.toNat / 256))
          hdrptr := 62 - c.hdrbytesize } ∧
      Holds m (64 - c.hdrbytesize) b beyond 0 c.attrlist ∧
      ∀ i, 64 ≤ i → m i = b.packetbuf i := by
  generalize hB : c.hdrbytesize = B at *
  obtain ⟨m, hm⟩ : ∃ m,
      packFields b beyond (64 - B) 0 c.attrlist (memset b.packetbuf (64 - B) B) = m := ⟨_, rfl⟩
  have hclear : Cleared (memset b.packetbuf (64 - B) B) (8 * (64 - B) + 0)
      (headerSize c.attrlist) := by
    intro k hge hlt
    rw [bitAt, memset, if_pos (by omega)]
    exact Nat.zero_testBit _
  obtain ⟨hholds, houtside⟩ :=
    @holds_packFields _ b beyond (64 - B) c.attrlist hwidth 0 htame _ hclear
  rw [hm] at hholds houtside
  refine ⟨m, ?_, hholds, ?_⟩
  · have hptr : (b.hdralloc B).hdrptr = 64 - B := by
      rw [PacketbufMem.hdralloc, hhdr, if_pos (by omega)]
    have halloc : ∀ b' : PacketbufMem α, b'.hdrptr = 64 - B →
        b'.hdralloc 2 = { b' with hdrptr := 62 - B } := by
      intro b' hb'
      rw [PacketbufMem.hdralloc, hb', if_pos (by omega), show 64 - B - 2 = 62 - B by omega]
    rw [packHeader]
    simp only [hB, hptr, hm]
    rw [halloc _ rfl]
  · -- The fields end in front of the payload.
    intro i hi
    refine eq_of_bitAt fun j hj => ?_
    rw [houtside _ (Or.inr (by omega)), bitAt_eq _ hj, bitAt_eq _ hj, memset, if_neg (by omega)]

omit [DecidableEq α] in
/-- The bytes of a frame in the buffer of the receiver: the channel, the header and the
payload. -/
theorem bytes_of_copyto {b rb : PacketbufMem α} {m : Nat → UInt8} {B : Nat} {lo hi : UInt8}
    (hle : B ≤ 32) (hpayload : ∀ i, 64 ≤ i → m i = b.packetbuf i)
    (hframe : rb.data = { b with
      packetbuf := Function.update (Function.update m (62 - B) lo) (62 - B + 1) hi
      hdrptr := 62 - B }.copyto) :
    rb.buflen = 2 + B + b.buflen ∧ rb.packetbuf rb.dataptr = lo ∧
      rb.packetbuf (rb.dataptr + 1) = hi ∧
      (∀ i < B, rb.packetbuf (rb.dataptr + 2 + i) = m (64 - B + i)) ∧
      ∀ i < b.buflen, rb.packetbuf (rb.dataptr + 2 + B + i) = b.packetbuf (b.dataptr + i) := by
  rw [PacketbufMem.copyto, PacketbufMem.data, PacketbufMem.data] at hframe
  obtain ⟨hlen, hhead, htail⟩ := map_range_append hframe
  simp only [packetbufHdrSize] at hlen hhead htail
  refine ⟨by omega, ?_, ?_, fun i hi => ?_, fun i hi => ?_⟩
  · have h : rb.packetbuf rb.dataptr = Function.update (Function.update m _ _) _ _ (62 - B) :=
      hhead 0 (by omega)
    rw [Function.update_of_ne (by omega), Function.update_self] at h
    exact h
  · have h := hhead 1 (by omega)
    rw [Function.update_self] at h
    exact h
  · have h := hhead (2 + i) (by omega)
    rw [Function.update_of_ne (by omega), Function.update_of_ne (by omega), ← Nat.add_assoc,
      show 62 - B + (2 + i) = 64 - B + i by omega] at h
    exact h
  · have h := htail i hi
    have hge : 64 ≤ b.bufptr + 64 + i := by omega
    rw [show rb.dataptr + (64 - (62 - B) + i) = rb.dataptr + 2 + B + i by omega] at h
    rw [h]
    show Function.update (Function.update m _ _) _ _ (b.bufptr + 64 + i) =
      b.packetbuf (b.bufptr + 64 + i)
    rw [Function.update_of_ne (by omega), Function.update_of_ne (by omega), hpayload _ hge]

/-- `unpack_header` finds the channel, takes off the header and reads the fields. -/
theorem unpackHeader_eq {lookup : UInt16 → Option (Channel α)} {c : Channel α}
    (hlookup : lookup c.channelno = some c) (stack : Nat → Nat → UInt8) {rb : PacketbufMem α}
    {len : Nat} (hlen : rb.buflen = 2 + c.hdrbytesize + len)
    (hlo : rb.packetbuf rb.dataptr = UInt8.ofNat (c.channelno.toNat % 256))
    (hhi : rb.packetbuf (rb.dataptr + 1) = UInt8.ofNat (c.channelno.toNat / 256)) :
    unpackHeader lookup stack rb = (some c, unpackFields stack (rb.dataptr + 2) 0 c.attrlist
      { rb with bufptr := rb.bufptr + 2 + c.hdrbytesize, buflen := len }) := by
  have hno : UInt16.ofNat (((rb.packetbuf (rb.dataptr + 1)).toNat <<< 8) +
      (rb.packetbuf rb.dataptr).toNat) = c.channelno := by
    have hlt := c.channelno.toNat_lt
    rw [hlo, hhi, ← UInt16.toNat_inj, UInt16.toNat_ofNat', UInt8.toNat_ofNat',
      UInt8.toNat_ofNat', Nat.shiftLeft_eq]
    omega
  have hreduce : (rb.hdrreduce 2).dataptr = rb.dataptr + 2 ∧
      (rb.hdrreduce 2).hdrreduce c.hdrbytesize =
        { rb with bufptr := rb.bufptr + 2 + c.hdrbytesize, buflen := len } := by
    have hfirst : rb.hdrreduce 2 =
        { rb with bufptr := rb.bufptr + 2, buflen := rb.buflen - 2 } := by
      rw [PacketbufMem.hdrreduce, if_neg (by omega)]
    rw [hfirst]
    refine ⟨?_, ?_⟩
    · show rb.bufptr + 2 + 64 = rb.bufptr + 64 + 2
      omega
    · rw [PacketbufMem.hdrreduce]
      simp only
      rw [if_neg (by omega), show rb.buflen - 2 - c.hdrbytesize = len by omega]
  simp only [unpackHeader, hno, hlookup, hreduce]

/-- The whole way of a packet: its header is packed, the frame is copied to another packet
buffer, and there the header is unpacked. -/
theorem unpackHeader_copyto {l : List (PacketbufAttrlist α)} (hwidth : ∀ a ∈ l, WidthOk a)
    (haddr : ∀ a ∈ l, AddrOk a) (hsize : headerSize l < 256)
    {lookup : UInt16 → Option (Channel α)} {channelno : UInt16}
    (hlookup : lookup channelno = some (Channel.ofAttributes channelno l))
    (stack beyond : Nat → Nat → UInt8) {b rb : PacketbufMem α} (hhdr : b.hdrptr = 64)
    (htame : AllTame b 0 l)
    (hframe : rb.data = (packHeader beyond (Channel.ofAttributes channelno l) b).copyto) :
    (unpackHeader lookup stack rb).1 = some (Channel.ofAttributes channelno l) ∧
      (∀ a ∈ l, (∀ a' ∈ l, a'.type = a.type → Fits b a') →
        Agrees (unpackHeader lookup stack rb).2 b a.type) ∧
      (unpackHeader lookup stack rb).2.data = b.data := by
  obtain ⟨hbytes, hle⟩ := hdrbytesize_ofAttributes hsize channelno
  generalize hc : Channel.ofAttributes channelno l = c at *
  obtain rfl : c.attrlist = l := by rw [← hc]; rfl
  obtain rfl : c.channelno = channelno := by rw [← hc]; rfl
  obtain ⟨m, hpack, hholds, hpayload⟩ :=
    packHeader_spec beyond hwidth htame hhdr hbytes hle
  rw [hpack] at hframe
  obtain ⟨hlen, hlo, hhi, hheader, hdata⟩ := bytes_of_copyto hle hpayload hframe
  rw [unpackHeader_eq hlookup stack hlen hlo hhi]
  have hholds' : Holds rb.packetbuf (rb.dataptr + 2) b beyond 0 c.attrlist := by
    refine hholds.copy fun j hj => ?_
    rw [bitAt, bitAt, show (8 * (rb.dataptr + 2) + j) / 8 = rb.dataptr + 2 + j / 8 by omega,
      show (8 * (64 - c.hdrbytesize) + j) / 8 = 64 - c.hdrbytesize + j / 8 by omega,
      hheader _ (by omega), show (8 * (rb.dataptr + 2) + j) % 8 = j % 8 by omega,
      show (8 * (64 - c.hdrbytesize) + j) % 8 = j % 8 by omega]
  obtain ⟨hmem, hptr, hlen', hagrees⟩ := @agrees_unpackFields _ _ b
    { rb with bufptr := rb.bufptr + 2 + c.hdrbytesize, buflen := b.buflen } beyond stack _ 0
    c.attrlist hwidth haddr hholds'
  refine ⟨rfl, fun a ha hfits => hagrees a.type hfits (Or.inr ⟨a, ha, rfl⟩), ?_⟩
  -- The payload begins behind the header.
  generalize unpackFields stack (rb.dataptr + 2) 0 c.attrlist _ = r at hmem hptr hlen' ⊢
  show r.data = b.data
  rw [PacketbufMem.data, PacketbufMem.data, hlen']
  refine List.map_congr_left fun i hi => ?_
  rw [hmem, ← hdata i (List.mem_range.mp hi)]
  show rb.packetbuf (r.bufptr + 64 + i) = rb.packetbuf (rb.bufptr + 64 + 2 + c.hdrbytesize + i)
  rw [hptr]
  refine congrArg rb.packetbuf ?_
  show rb.bufptr + 2 + c.hdrbytesize + 64 + i = rb.bufptr + 64 + 2 + c.hdrbytesize + i
  omega

end PTunes.Rime
