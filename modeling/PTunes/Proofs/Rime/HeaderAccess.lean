import PTunes.Rime.ChameleonBitopt

/-!
# `PTunes.Proofs.Rime.HeaderAccess`: which bytes the header codec touches

`pack_header` hands `set_bits` a pointer to the value of a field and the width that the
attribute list gives to it, and `unpack_header` hands `get_bits` a pointer to a variable of the
same kind. Neither looks at the size of the object, which is 2 bytes for an attribute and 2
bytes for an address.

The traced functions are the functions of the model with the offsets of the bytes they touch:
`setBitsTraced_fst` and its companions say that they compute the same.
`setBits_congr` and `getBits_outside` say that the trace is complete: the result depends on no
other byte of the value, and no other byte of the destination changes.

The offsets follow from the width alone (`mem_packHeaderReads`, `mem_unpackHeaderWrites`), so
the codec stays inside its objects exactly for the lists with no field of more than 16 bits
(`codecInside_iff`). The list of relcollect has two fields of 32 bits when packets carry a time.
-/

set_option autoImplicit false

namespace PTunes.Rime

variable {α : Type}

/-! ### Traces -/

/-- The bytes that a field of `vallen` bits takes up at its value: the first one for a field of
less than 8 bits, and otherwise the whole bytes and the one that the rest is in. -/
def fieldBytes (vallen : Nat) : List Nat :=
  if vallen < 8 then [0]
  else List.range (vallen / 8) ++ if vallen % 8 ≠ 0 then [vallen / 8] else []

/-- `set_bits`, with the offsets of the bytes of `val` that it reads. -/
def setBitsTraced (m : Nat → UInt8) (ptr bitpos : Nat) (val : Nat → UInt8) (vallen : Nat) :
    (Nat → UInt8) × List Nat :=
  if vallen < 8 then (setBitsInByte m ptr bitpos (val 0) vallen, [0])
  else
    let i := vallen / 8
    let bits := vallen % 8
    if bitpos = 0 then
      let m := copyBytes m ptr val i
      if bits ≠ 0 then
        (setBitsInByte m (ptr + i) 0 (val i >>> UInt8.ofNat (8 - bits)) bits,
          List.range i ++ [i])
      else (m, List.range i)
    else
      let m := setBytes m ptr bitpos val i
      if bits ≠ 0 then
        (setBitsInByte m (ptr + i) 0
          (UInt8.ofNat ((val i).toNat >>> (8 - bits + bitpos))) bits, List.range i ++ [i])
      else (m, List.range i)

/-- `get_bits`, with the offsets of the bytes of `to_` that it writes. -/
def getBitsTraced (to_ m : Nat → UInt8) (from_ bitpos vallen : Nat) :
    (Nat → UInt8) × List Nat :=
  if vallen < 8 then (Function.update to_ 0 (getBitsInByte m from_ bitpos vallen), [0])
  else
    let i := vallen / 8
    let bits := vallen % 8
    if bitpos = 0 then
      let to_ := copyBytes to_ 0 (fun i => m (from_ + i)) i
      if bits ≠ 0 then
        (Function.update to_ i (getBitsInByte m (from_ + i) 0 bits), List.range i ++ [i])
      else (to_, List.range i)
    else
      let to_ := getBytes to_ m from_ bitpos i
      if bits ≠ 0 then
        (Function.update to_ i (getBitsInByte m (from_ + i) bitpos bits), List.range i ++ [i])
      else (to_, List.range i)

/-- The loop of `pack_header`, with the bytes of the values that it reads. -/
def packFieldsTraced (b : PacketbufMem α) (beyond : Nat → Nat → UInt8) (hdrptr : Nat) :
    Nat → List (PacketbufAttrlist α) → (Nat → UInt8) →
      (Nat → UInt8) × List (HeaderType α × Nat)
  | _, [], m => (m, [])
  | bitptr, a :: rest, m =>
    let set := setBitsTraced m (hdrptr + bitptr / 8) (bitptr % 8)
      (fieldMemory b a.type (beyond bitptr)) a.len.toNat
    let fields := packFieldsTraced b beyond hdrptr (bitptr + a.len.toNat) rest set.1
    (fields.1, set.2.map (fun k => (a.type, k)) ++ fields.2)

/-- The bytes that `pack_header` reads through `set_bits`. -/
def packHeaderReads (beyond : Nat → Nat → UInt8) (c : Channel α) (b : PacketbufMem α) :
    List (HeaderType α × Nat) :=
  let hdrptr := (b.hdralloc c.hdrbytesize).hdrptr
  let m := memset b.packetbuf hdrptr c.hdrbytesize
  (packFieldsTraced b beyond hdrptr 0 c.attrlist m).2

/-- The bytes that one turn of the loop of `unpack_header` writes through `get_bits`. -/
def unpackFieldWrites (stack : Nat → UInt8) (hdrptr bitptr : Nat) (a : PacketbufAttrlist α)
    (b : PacketbufMem α) : List Nat :=
  match a.type with
  | .addr _ =>
    (getBitsTraced stack b.packetbuf (hdrptr + bitptr / 8) (bitptr % 8) a.len.toNat).2
  | .attr _ =>
    (getBitsTraced (attrMemory 0 stack) b.packetbuf (hdrptr + bitptr / 8) (bitptr % 8)
      a.len.toNat).2

/-- The loop of `unpack_header`, with the bytes that it writes. -/
def unpackFieldsTraced [DecidableEq α] (stack : Nat → Nat → UInt8) (hdrptr : Nat) :
    Nat → List (PacketbufAttrlist α) → PacketbufMem α →
      PacketbufMem α × List (HeaderType α × Nat)
  | _, [], b => (b, [])
  | bitptr, a :: rest, b =>
    let fields := unpackFieldsTraced stack hdrptr (bitptr + a.len.toNat) rest
      (unpackField (stack bitptr) hdrptr bitptr a b)
    (fields.1, (unpackFieldWrites (stack bitptr) hdrptr bitptr a b).map (fun k => (a.type, k))
      ++ fields.2)

/-- The bytes that `unpack_header` writes through `get_bits`. -/
def unpackHeaderWrites [DecidableEq α] (lookup : UInt16 → Option (Channel α))
    (stack : Nat → Nat → UInt8) (b : PacketbufMem α) : List (HeaderType α × Nat) :=
  let hdr := b.dataptr
  let channelno := UInt16.ofNat
    (((b.packetbuf (hdr + 1)).toNat <<< 8) + (b.packetbuf hdr).toNat)
  let b := b.hdrreduce 2
  match lookup channelno with
  | none => []
  | some c =>
    (unpackFieldsTraced stack b.dataptr 0 c.attrlist (b.hdrreduce c.hdrbytesize)).2

/-! ### The traced functions compute the same -/

/-- The trace does not change what `set_bits` writes. -/
theorem setBitsTraced_fst (m : Nat → UInt8) (ptr bitpos : Nat) (val : Nat → UInt8)
    (vallen : Nat) :
    (setBitsTraced m ptr bitpos val vallen).1 = setBits m ptr bitpos val vallen := by
  unfold setBitsTraced setBits
  by_cases hshort : vallen < 8
  · simp [hshort]
  · by_cases hpos : bitpos = 0 <;> by_cases hbits : vallen % 8 = 0 <;>
      simp [hshort, hpos, hbits]

/-- Nor does it change what `get_bits` writes. -/
theorem getBitsTraced_fst (to_ m : Nat → UInt8) (ptr bitpos vallen : Nat) :
    (getBitsTraced to_ m ptr bitpos vallen).1 = getBits to_ m ptr bitpos vallen := by
  unfold getBitsTraced getBits
  by_cases hshort : vallen < 8
  · simp [hshort]
  · by_cases hpos : bitpos = 0 <;> by_cases hbits : vallen % 8 = 0 <;>
      simp [hshort, hpos, hbits]

/-- The bytes that `set_bits` reads depend on the width of the field alone, not on the position in
the header. -/
theorem setBitsTraced_snd (m : Nat → UInt8) (ptr bitpos : Nat) (val : Nat → UInt8)
    (vallen : Nat) : (setBitsTraced m ptr bitpos val vallen).2 = fieldBytes vallen := by
  unfold setBitsTraced fieldBytes
  by_cases hshort : vallen < 8
  · simp [hshort]
  · by_cases hpos : bitpos = 0 <;> by_cases hbits : vallen % 8 = 0 <;>
      simp [hshort, hpos, hbits]

/-- So do the bytes that `get_bits` writes. -/
theorem getBitsTraced_snd (to_ m : Nat → UInt8) (ptr bitpos vallen : Nat) :
    (getBitsTraced to_ m ptr bitpos vallen).2 = fieldBytes vallen := by
  unfold getBitsTraced fieldBytes
  by_cases hshort : vallen < 8
  · simp [hshort]
  · by_cases hpos : bitpos = 0 <;> by_cases hbits : vallen % 8 = 0 <;>
      simp [hshort, hpos, hbits]

/-- The loop of `pack_header` with a trace writes the same header. -/
theorem packFieldsTraced_fst (b : PacketbufMem α) (beyond : Nat → Nat → UInt8)
    (hdrptr bitptr : Nat) (l : List (PacketbufAttrlist α)) (m : Nat → UInt8) :
    (packFieldsTraced b beyond hdrptr bitptr l m).1 = packFields b beyond hdrptr bitptr l m := by
  induction l generalizing bitptr m with
  | nil => rfl
  | cons a rest ih => simp only [packFieldsTraced, packFields, setBitsTraced_fst, ih]

/-- The loop of `unpack_header` with a trace fills the same fields. -/
theorem unpackFieldsTraced_fst [DecidableEq α] (stack : Nat → Nat → UInt8) (hdrptr bitptr : Nat)
    (l : List (PacketbufAttrlist α)) (b : PacketbufMem α) :
    (unpackFieldsTraced stack hdrptr bitptr l b).1 = unpackFields stack hdrptr bitptr l b := by
  induction l generalizing bitptr b with
  | nil => rfl
  | cons a rest ih => simp only [unpackFieldsTraced, unpackFields, ih]

/-! ### The traces are complete -/

/-- Only the bytes that are copied matter. -/
theorem copyBytes_congr (m : Nat → UInt8) (ptr : Nat) {val val' : Nat → UInt8} {i : Nat}
    (h : ∀ k < i, val k = val' k) : copyBytes m ptr val i = copyBytes m ptr val' i := by
  induction i with
  | zero => rfl
  | succ i ih =>
      rw [copyBytes, copyBytes, ih fun k hk => h k (by omega), h i (by omega)]

/-- Only the bytes that are written into the header matter. -/
theorem setBytes_congr (m : Nat → UInt8) (ptr bitpos : Nat) {val val' : Nat → UInt8} {i : Nat}
    (h : ∀ k < i, val k = val' k) : setBytes m ptr bitpos val i = setBytes m ptr bitpos val' i := by
  induction i with
  | zero => rfl
  | succ i ih =>
      rw [setBytes, setBytes, ih fun k hk => h k (by omega), h i (by omega)]

/-- `set_bits` depends on no byte of the value that is not in the trace. -/
theorem setBits_congr (m : Nat → UInt8) (ptr bitpos vallen : Nat) {val val' : Nat → UInt8}
    (h : ∀ k ∈ fieldBytes vallen, val k = val' k) :
    setBits m ptr bitpos val vallen = setBits m ptr bitpos val' vallen := by
  unfold fieldBytes at h
  unfold setBits
  by_cases hshort : vallen < 8
  · have h0 : val 0 = val' 0 := h 0 (by simp [hshort])
    simp [hshort, h0]
  · have hwhole : ∀ k < vallen / 8, val k = val' k := by
      intro k hk
      exact h k (by simp [hshort, hk])
    have hcopy := copyBytes_congr m ptr hwhole
    have hset := setBytes_congr m ptr bitpos hwhole
    by_cases hbits : vallen % 8 = 0
    · simp [hshort, hbits, hcopy, hset]
    · have hlast : val (vallen / 8) = val' (vallen / 8) := h _ (by simp [hshort, hbits])
      simp [hshort, hbits, hcopy, hset, hlast]

/-- The bytes behind the copied ones stay. -/
theorem copyBytes_outside (to_ : Nat → UInt8) (val : Nat → UInt8) {i k : Nat} (h : i ≤ k) :
    copyBytes to_ 0 val i k = to_ k := by
  induction i with
  | zero => rfl
  | succ i ih =>
      rw [copyBytes, Function.update_of_ne (by omega), ih (by omega)]

/-- The bytes behind those that are read stay. -/
theorem getBytes_outside (to_ m : Nat → UInt8) (ptr bitpos : Nat) {i k : Nat} (h : i ≤ k) :
    getBytes to_ m ptr bitpos i k = to_ k := by
  induction i with
  | zero => rfl
  | succ i ih =>
      rw [getBytes, Function.update_of_ne (by omega), ih (by omega)]

/-- `get_bits` changes no byte of the destination that is not in the trace. -/
theorem getBits_outside (to_ m : Nat → UInt8) (ptr bitpos vallen : Nat) {k : Nat}
    (h : k ∉ fieldBytes vallen) : getBits to_ m ptr bitpos vallen k = to_ k := by
  unfold fieldBytes at h
  unfold getBits
  by_cases hshort : vallen < 8
  · have h0 : k ≠ 0 := by simpa [hshort] using h
    simp [hshort, h0]
  · by_cases hbits : vallen % 8 = 0
    · have hk : vallen / 8 ≤ k := by simpa [hshort, hbits] using h
      by_cases hpos : bitpos = 0 <;>
        simp [hshort, hbits, hpos, copyBytes_outside to_ _ hk, getBytes_outside to_ m ptr _ hk]
    · have hk : vallen / 8 ≤ k ∧ k ≠ vallen / 8 := by
        simpa [hshort, hbits] using h
      by_cases hpos : bitpos = 0 <;>
        simp [hshort, hbits, hpos, hk.2, copyBytes_outside to_ _ hk.1,
          getBytes_outside to_ m ptr _ hk.1]

/-! ### What is touched -/

/-- An access belongs to the field whose offsets are traced. -/
theorem mem_map_pair {type : HeaderType α} {offsets : List Nat} {x : HeaderType α × Nat} :
    x ∈ offsets.map (fun k => (type, k)) ↔ type = x.1 ∧ x.2 ∈ offsets := by
  rw [List.mem_map]
  constructor
  · rintro ⟨k, hk, rfl⟩
    exact ⟨rfl, hk⟩
  · rintro ⟨rfl, hk⟩
    exact ⟨x.2, hk, rfl⟩

/-- The loop reads of each field the bytes that its width covers. -/
theorem mem_packFieldsTraced {b : PacketbufMem α} {beyond : Nat → Nat → UInt8}
    {hdrptr bitptr : Nat} {l : List (PacketbufAttrlist α)} {m : Nat → UInt8}
    {x : HeaderType α × Nat} :
    x ∈ (packFieldsTraced b beyond hdrptr bitptr l m).2 ↔
      ∃ a ∈ l, a.type = x.1 ∧ x.2 ∈ fieldBytes a.len.toNat := by
  induction l generalizing bitptr m with
  | nil => simp [packFieldsTraced]
  | cons a rest ih =>
      simp only [packFieldsTraced, setBitsTraced_snd, List.mem_append, mem_map_pair, ih,
        List.mem_cons, exists_eq_or_imp]

/-- So does `pack_header`. -/
theorem mem_packHeaderReads {beyond : Nat → Nat → UInt8} {c : Channel α} {b : PacketbufMem α}
    {x : HeaderType α × Nat} :
    x ∈ packHeaderReads beyond c b ↔
      ∃ a ∈ c.attrlist, a.type = x.1 ∧ x.2 ∈ fieldBytes a.len.toNat :=
  mem_packFieldsTraced

/-- An address and an attribute are written alike: by the width of the field. -/
theorem unpackFieldWrites_eq (stack : Nat → UInt8) (hdrptr bitptr : Nat)
    (a : PacketbufAttrlist α) (b : PacketbufMem α) :
    unpackFieldWrites stack hdrptr bitptr a b = fieldBytes a.len.toNat := by
  unfold unpackFieldWrites
  split <;> exact getBitsTraced_snd _ _ _ _ _

/-- The loop writes of each field the bytes that its width covers. -/
theorem mem_unpackFieldsTraced [DecidableEq α] {stack : Nat → Nat → UInt8} {hdrptr bitptr : Nat}
    {l : List (PacketbufAttrlist α)} {b : PacketbufMem α} {x : HeaderType α × Nat} :
    x ∈ (unpackFieldsTraced stack hdrptr bitptr l b).2 ↔
      ∃ a ∈ l, a.type = x.1 ∧ x.2 ∈ fieldBytes a.len.toNat := by
  induction l generalizing bitptr b with
  | nil => simp [unpackFieldsTraced]
  | cons a rest ih =>
      simp only [unpackFieldsTraced, unpackFieldWrites_eq, List.mem_append, mem_map_pair, ih,
        List.mem_cons, exists_eq_or_imp]

/-- So does `unpack_header`, for the channel that the frame names. -/
theorem mem_unpackHeaderWrites [DecidableEq α] {lookup : UInt16 → Option (Channel α)}
    {stack : Nat → Nat → UInt8} {b : PacketbufMem α} {x : HeaderType α × Nat} :
    x ∈ unpackHeaderWrites lookup stack b ↔
      ∃ c, (unpackHeader lookup stack b).1 = some c ∧
        ∃ a ∈ c.attrlist, a.type = x.1 ∧ x.2 ∈ fieldBytes a.len.toNat := by
  unfold unpackHeaderWrites unpackHeader
  dsimp only
  cases lookup (UInt16.ofNat
      (((b.packetbuf (b.dataptr + 1)).toNat <<< 8) + (b.packetbuf b.dataptr).toNat)) with
  | none => simp
  | some c => simp [mem_unpackFieldsTraced]

/-! ### Staying inside -/

/-- `sizeof` of the object that a field is packed from and unpacked to: `packetbuf_attr_t` or
`rimeaddr_t`. -/
def sizeofField : HeaderType α → Nat
  | .attr _ => 2
  | .addr _ => 2

/-- Every packet that is packed for or unpacked on a channel with this attribute list is
handled inside the objects: no byte behind a value is read, none behind a variable written. -/
def CodecInside [DecidableEq α] (l : List (PacketbufAttrlist α)) : Prop :=
  (∀ (c : Channel α) (beyond : Nat → Nat → UInt8) (b : PacketbufMem α), c.attrlist = l →
    ∀ x ∈ packHeaderReads beyond c b, x.2 < sizeofField x.1) ∧
  (∀ (lookup : UInt16 → Option (Channel α)) (stack : Nat → Nat → UInt8) (b : PacketbufMem α)
    (c : Channel α), (unpackHeader lookup stack b).1 = some c → c.attrlist = l →
    ∀ x ∈ unpackHeaderWrites lookup stack b, x.2 < sizeofField x.1)

/-- The bytes of a field lie inside its object exactly when it has at most 16 bits. -/
theorem fieldBytes_inside_iff (type : HeaderType α) (vallen : Nat) :
    (∀ k ∈ fieldBytes vallen, k < sizeofField type) ↔ vallen ≤ 16 := by
  have hsize : sizeofField type = 2 := by
    cases type with
    | attr _ => rfl
    | addr _ => rfl
  rw [hsize, fieldBytes]
  by_cases hshort : vallen < 8
  · simp [hshort]
    omega
  · constructor
    · intro h
      by_contra hlong
      -- The third byte is a whole one, or the one with the rest of 17 to 23 bits.
      refine absurd (h 2 ?_) (by decide)
      by_cases hwhole : vallen / 8 = 2
      · have hbits : vallen % 8 ≠ 0 := by omega
        simp [hshort, hbits, hwhole]
      · have hlt : 2 < vallen / 8 := by omega
        simp [hshort, hlt]
    · intro hle k hk
      by_cases hbits : vallen % 8 = 0
      · have hlt : k < vallen / 8 := by simpa [hshort, hbits] using hk
        omega
      · have hlt : k < vallen / 8 ∨ k = vallen / 8 := by simpa [hshort, hbits] using hk
        omega

/-- The codec stays inside its objects exactly for the lists without a field of more than 16
bits. -/
theorem codecInside_iff [DecidableEq α] (l : List (PacketbufAttrlist α)) :
    CodecInside l ↔ ∀ a ∈ l, a.len.toNat ≤ 16 := by
  constructor
  · intro h a ha
    -- Any packet on any channel with the list touches all fields.
    let c : Channel α := ⟨0, l, 0⟩
    let b : PacketbufMem α := ⟨fun _ => 0, 0, 0, 0, fun _ => 0, fun _ => rimeaddrNull⟩
    refine (fieldBytes_inside_iff a.type _).mp fun k hk => ?_
    exact h.1 c (fun _ _ => 0) b rfl (a.type, k) (mem_packHeaderReads.mpr ⟨a, ha, rfl, hk⟩)
  · intro h
    have hinside : ∀ x : HeaderType α × Nat,
        (∃ a ∈ l, a.type = x.1 ∧ x.2 ∈ fieldBytes a.len.toNat) → x.2 < sizeofField x.1 := by
      rintro x ⟨a, ha, _, hk⟩
      exact (fieldBytes_inside_iff x.1 _).mpr (h a ha) x.2 hk
    refine ⟨?_, ?_⟩
    · rintro c beyond b rfl x hx
      exact hinside x (mem_packHeaderReads.mp hx)
    · rintro lookup stack b c hc rfl x hx
      obtain ⟨c', hc', hfield⟩ := mem_unpackHeaderWrites.mp hx
      rw [hc] at hc'
      cases hc'
      exact hinside x hfield

/-- Collection packets are handled inside the objects exactly in the builds in which packets
carry no time. -/
theorem codecInside_relcollectAttributes_iff (queuingStats withTime : Bool) :
    CodecInside (relcollectAttributes queuingStats withTime) ↔ withTime = false := by
  rw [codecInside_iff]
  have h : ∀ q t, (∀ a ∈ relcollectAttributes q t, a.len.toNat ≤ 16) ↔ t = false := by decide
  exact h queuingStats withTime

/-- `unpack_header` writes 4 bytes of the 2-byte variable for `PACKETBUF_ATTR_TIME_HIGH`. -/
theorem not_forall_codecInside_relcollectAttributes :
    ¬ ∀ queuingStats withTime : Bool, CodecInside (relcollectAttributes queuingStats withTime) := by
  intro h
  have hlen := (codecInside_iff _).mp (h true true) ⟨.attr .timeHigh, 32⟩ (by decide)
  exact absurd hlen (by decide)

end PTunes.Rime
