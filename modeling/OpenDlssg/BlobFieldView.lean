import OpenDlssg.CubinParams

/-!
# The located fields as a view of the parameter block

Where the pointer field and the length field are apart, what is written to a
block is read back and nothing else of it changes. The search for the length
does not pass over the pointer's own slots, so a length that stands in the
pointer puts one field on the other.
-/

namespace OpenDlssg.BlobFieldView

open ByteCodec ProcessMemory FatbinContainer CubinParams

/-- How many bytes the length field takes. -/
def sizeWidth (fields : BlobFields) : ℕ := if fields.sizeIs64bit then 8 else 4

/-- The two fields share no byte. -/
def Apart (fields : BlobFields) : Prop :=
  fields.dataOffset + 8 ≤ fields.sizeOffset ∨
    fields.sizeOffset + sizeWidth fields ≤ fields.dataOffset

/-- The two fields are a lawful view of a block: they lie inside it and apart,
what is written is read back, and nothing else changes. -/
structure LawfulView (memory : Memory) (params : ℕ) (fields : BlobFields) : Prop where
  data_inside : 8 ≤ fields.dataOffset ∧ fields.dataOffset + 8 ≤ fields.structSize
  size_inside : 8 ≤ fields.sizeOffset ∧ fields.sizeOffset + sizeWidth fields ≤ fields.structSize
  apart : Apart fields
  readBack : ∀ pointer length, pointer < 2 ^ 64 → length < 2 ^ 32 →
    readBlob (writeBlob memory params fields pointer length) params fields = some (pointer, length)
  frame : ∀ pointer length offset,
    (offset < fields.dataOffset ∨ fields.dataOffset + 8 ≤ offset) →
    (offset < fields.sizeOffset ∨ fields.sizeOffset + sizeWidth fields ≤ offset) →
    (writeBlob memory params fields pointer length).byte (params + offset) =
      memory.byte (params + offset)

/-- Whether the readable 32-bit word at an address is a number. -/
def HoldsWord (memory : Memory) (address value : ℕ) : Prop :=
  (readAt Codec.u32 memory address).map UInt32.toNat = some value

instance (memory : Memory) (address value : ℕ) : Decidable (HoldsWord memory address value) :=
  inferInstanceAs (Decidable (_ = _))

section Reads

variable {α : Type} {codec : Codec α} {memory : Memory} {address : ℕ}

/-- A value is read where its bytes are readable. -/
theorem readAt_eq_some {a : α} : readAt codec memory address = some a ↔
    address ≠ 0 ∧ codec.size ≠ 0 ∧ (∀ i < codec.size, memory.readable (address + i) = true) ∧
      codec.decode (memory.bytes address codec.size) = a := by
  unfold readAt
  rw [Option.map_eq_some_iff]
  constructor
  · rintro ⟨bs, hcopy, rfl⟩
    obtain ⟨haddress, hsize, hread, rfl⟩ := Memory.safeCopy_eq_some.mp hcopy
    exact ⟨haddress, hsize, hread, rfl⟩
  · rintro ⟨haddress, hsize, hread, rfl⟩
    exact ⟨_, Memory.safeCopy_eq_some.mpr ⟨haddress, hsize, hread, rfl⟩, rfl⟩

/-- A number is read where its bytes are readable and hold it. -/
theorem readAt_word_iff {width : ℕ} {toNat : α → ℕ} {ofNat : ℕ → α}
    {hlt : ∀ a, toNat a < 256 ^ width} {hof : ∀ a, ofNat (toNat a) = a}
    {hto : ∀ n, n < 256 ^ width → toNat (ofNat n) = n} {n : ℕ} :
    (readAt (Codec.word width toNat ofNat hlt hof hto) memory address).map toNat = some n ↔
      address ≠ 0 ∧ width ≠ 0 ∧ (∀ i < width, memory.readable (address + i) = true) ∧
        leNat (memory.bytes address width) = n := by
  have hvalue := Codec.toNat_decode_word hlt hof hto (Memory.length_bytes memory address width)
  rw [Option.map_eq_some_iff]
  constructor
  · rintro ⟨a, hread, rfl⟩
    obtain ⟨haddress, hwidth, hreadable, rfl⟩ := readAt_eq_some.mp hread
    exact ⟨haddress, hwidth, hreadable, hvalue.symm⟩
  · rintro ⟨haddress, hwidth, hreadable, rfl⟩
    exact ⟨_, readAt_eq_some.mpr ⟨haddress, hwidth, hreadable, rfl⟩, hvalue⟩

/-- A 32-bit number is read where its bytes are readable and hold it. -/
theorem readAt_u32_iff {n : ℕ} : (readAt Codec.u32 memory address).map UInt32.toNat = some n ↔
    address ≠ 0 ∧ (∀ i < 4, memory.readable (address + i) = true) ∧
      leNat (memory.bytes address 4) = n :=
  readAt_word_iff.trans (and_congr_right fun _ => and_iff_right (by decide))

/-- A 64-bit number is read where its bytes are readable and hold it. -/
theorem readAt_u64_iff {n : ℕ} : (readAt Codec.u64 memory address).map UInt64.toNat = some n ↔
    address ≠ 0 ∧ (∀ i < 8, memory.readable (address + i) = true) ∧
      leNat (memory.bytes address 8) = n :=
  readAt_word_iff.trans (and_congr_right fun _ => and_iff_right (by decide))

/-- The number of a readable 32-bit word. -/
theorem holdsWord_iff {value : ℕ} : HoldsWord memory address value ↔ address ≠ 0 ∧
    (∀ i < 4, memory.readable (address + i) = true) ∧ leNat (memory.bytes address 4) = value :=
  readAt_u32_iff

/-- A readable 64-bit word is a 32-bit number exactly where its low half is the
number and its high half is zero. -/
theorem wide_iff {value : ℕ} (hvalue : value < 2 ^ 32) :
    (readAt Codec.u64 memory address).map UInt64.toNat = some value ↔
      HoldsWord memory address value ∧ HoldsWord memory (address + 4) 0 := by
  have hreadable : (∀ i < 8, memory.readable (address + i) = true) ↔ _ :=
    Memory.readable_add_iff (m := 4) (n := 4)
  have hnumber : leNat (memory.bytes address 8) =
      leNat (memory.bytes address 4) + 2 ^ 32 * leNat (memory.bytes (address + 4) 4) := by
    rw [Memory.bytes_add memory address 4 4, leNat_append, Memory.length_bytes]
    norm_num
  have hlow := leNat_lt (memory.bytes address 4)
  rw [Memory.length_bytes] at hlow
  rw [readAt_u64_iff, holdsWord_iff, holdsWord_iff, hreadable, hnumber]
  constructor
  · rintro ⟨haddress, ⟨hfirst, hsecond⟩, hnat⟩
    exact ⟨⟨haddress, hfirst, by omega⟩, by omega, hsecond, by omega⟩
  · rintro ⟨⟨haddress, hfirst, hnat⟩, _, hsecond, hzero⟩
    exact ⟨haddress, ⟨hfirst, hsecond⟩, by omega⟩

end Reads

section Slots

/-- The first indices of a range are taken up to a bound. -/
theorem takeWhile_range {count bound : ℕ} (h : bound ≤ count) :
    (List.range count).takeWhile (fun i => decide (i < bound)) = List.range bound := by
  obtain ⟨more, rfl⟩ := Nat.exists_eq_add_of_le h
  rw [List.range_add, List.takeWhile_append_of_pos fun i hi => decide_eq_true (List.mem_range.mp hi)]
  cases more with
  | zero => simp
  | succ more => simp [List.range_succ_eq_map]

/-- The slots of a width, counted. -/
theorem fieldOffsets_eq {width : ℕ} (hwidth : 0 < width) (window : ℕ) :
    fieldOffsets width window =
      (List.range ((window - 8) / width)).map fun i => 8 + width * i := by
  have hfits : ∀ i, 8 + width * i + width ≤ window ↔ i < (window - 8) / width := by
    intro i
    rw [Nat.lt_iff_add_one_le, Nat.le_div_iff_mul_le hwidth, Nat.add_mul, Nat.one_mul, Nat.mul_comm i]
    omega
  have hbound : (window - 8) / width ≤ window := (Nat.div_le_self _ _).trans (Nat.sub_le _ _)
  unfold fieldOffsets
  rw [List.takeWhile_map, ← takeWhile_range hbound]
  congr 2
  funext i
  exact decide_eq_decide.mpr (hfits i)

/-- A slot stands at a multiple of its width past the size, inside the window. -/
theorem mem_fieldOffsets {width window offset : ℕ} (hwidth : 0 < width) :
    offset ∈ fieldOffsets width window ↔
      ∃ i, offset = 8 + width * i ∧ offset + width ≤ window := by
  rw [fieldOffsets_eq hwidth, List.mem_map]
  constructor
  · rintro ⟨i, hi, rfl⟩
    refine ⟨i, rfl, ?_⟩
    have hlt := List.mem_range.mp hi
    rw [Nat.lt_iff_add_one_le, Nat.le_div_iff_mul_le hwidth, Nat.add_mul, Nat.one_mul, Nat.mul_comm i] at hlt
    omega
  · rintro ⟨i, rfl, hfits⟩
    refine ⟨i, List.mem_range.mpr ?_, rfl⟩
    rw [Nat.lt_iff_add_one_le, Nat.le_div_iff_mul_le hwidth, Nat.add_mul, Nat.one_mul, Nat.mul_comm i]
    omega

/-- The slot found is the first one. -/
theorem first_of_find {width window offset : ℕ} (hwidth : 0 < width) {test : ℕ → Bool}
    (h : (fieldOffsets width window).find? test = some offset) :
    offset ∈ fieldOffsets width window ∧ test offset = true ∧
      ∀ other ∈ fieldOffsets width window, test other = true → offset ≤ other := by
  refine ⟨List.mem_of_find?_eq_some h, List.find?_some h, ?_⟩
  rw [fieldOffsets_eq hwidth, List.find?_map, Option.map_eq_some_iff] at h
  obtain ⟨i, hfound, rfl⟩ := h
  obtain ⟨_, _, hfirst⟩ := List.find?_range_eq_some.mp hfound
  intro other hother htest
  obtain ⟨j, rfl, _⟩ := (mem_fieldOffsets hwidth).mp hother
  by_contra hlt
  have hj : j < i := by
    have hmul : width * j < width * i := by omega
    exact Nat.lt_of_mul_lt_mul_left hmul
  have hmissed := hfirst j hj
  rw [Function.comp_apply, htest] at hmissed
  cases hmissed

end Slots

/-- What a block holds where its fields are found: a readable pointer, the first
word that is the length, and both halves of a length that is 64 bits wide. -/
structure Found (memory : Memory) (params dataOffset length : ℕ) (fields : BlobFields) : Prop where
  params_ne : params ≠ 0
  length_lt : length < 2 ^ 32
  valid : fields.valid = true
  dataOffset_eq : fields.dataOffset = dataOffset
  data_slot : dataOffset ∈ fieldOffsets 8 fields.structSize
  data_readable : ∀ i < 8, memory.readable (params + dataOffset + i) = true
  size_slot : fields.sizeOffset ∈ fieldOffsets 4 fields.structSize
  size_holds : HoldsWord memory (params + fields.sizeOffset) length
  size_first : ∀ offset ∈ fieldOffsets 4 fields.structSize,
    HoldsWord memory (params + offset) length → fields.sizeOffset ≤ offset
  wide_iff : fields.sizeIs64bit = true ↔ fields.sizeOffset + 8 ≤ fields.structSize ∧
    HoldsWord memory (params + fields.sizeOffset + 4) 0

/-- A container's stated length is a 32-bit number. -/
theorem containerSize_lt (blob : Bytes) : containerSize blob < 2 ^ 32 := by
  unfold containerSize
  cases hheader : containerHeader blob with
  | none => exact Nat.pow_pos (by decide)
  | some header =>
    obtain ⟨_, _, _, _, hfat⟩ := containerHeader_eq_some.mp hheader
    have hsmall := header.headerSize.toNat_lt
    rw [kMaxContainerSize] at hfat
    dsimp only
    omega

/-- What a valid find says of the block. -/
theorem found_of_locateBlob {memory : Memory} {params dataOffset length : ℕ}
    (hvalid : (locateBlob memory params).valid = true)
    (hdata : findDataField memory params (structSize memory params) = some (dataOffset, length)) :
    Found memory params dataOffset length (locateBlob memory params) := by
  have hparams := params_ne_zero_of_locateBlob hvalid
  unfold locateBlob at hvalid ⊢
  dsimp only at hvalid ⊢
  rw [if_neg hparams] at hvalid ⊢
  split at hvalid
  · cases hvalid
  · rename_i hwindow
    rw [if_neg hwindow, hdata]
    rw [hdata] at hvalid
    dsimp only at hvalid ⊢
    cases hsize : findSizeField memory params (structSize memory params) length with
    | none =>
      rw [hsize] at hvalid
      cases hvalid
    | some found =>
      dsimp only
      obtain ⟨offset, hslot, hpointer⟩ := List.exists_of_findSome?_eq_some hdata
      obtain ⟨pointer, hread, hprobe⟩ := Option.bind_eq_some_iff.mp hpointer
      obtain ⟨_, _, hreadable, _⟩ := readAt_eq_some.mp hread
      split at hprobe
      · cases hprobe
      · obtain ⟨probe, _, hcontainer⟩ := Option.bind_eq_some_iff.mp hprobe
        split at hcontainer
        · cases hcontainer
        · cases hcontainer
          obtain ⟨sizeOffset, hfind, rfl⟩ := Option.map_eq_some_iff.mp hsize
          obtain ⟨hin, hholds, hfirst⟩ := first_of_find (by decide) hfind
          have hlength := containerSize_lt probe
          refine ⟨hparams, hlength, rfl, rfl, hslot, hreadable, hin, beq_iff_eq.mp hholds, ?_, ?_⟩
          · exact fun other hother hword => hfirst other hother (beq_iff_eq.mpr hword)
          · dsimp only
            rw [Bool.and_eq_true, decide_eq_true_iff, beq_iff_eq, wide_iff hlength]
            exact and_congr_right fun _ => and_iff_right (beq_iff_eq.mp hholds)

section View

variable {memory : Memory} {params dataOffset length : ℕ} {fields : BlobFields}

/-- Where a pointer and a length are kept apart: the length stands in a slot
clear of the pointer before it, or right before it and its pointer's low half is
not zero, or nowhere before it and in neither half of it. -/
def LengthApart (memory : Memory) (params dataOffset length : ℕ) : Prop :=
  (∃ offset ∈ fieldOffsets 4 dataOffset, offset + 8 ≤ dataOffset ∧
      HoldsWord memory (params + offset) length) ∨
    (∃ offset ∈ fieldOffsets 4 dataOffset, offset + 4 = dataOffset ∧
      HoldsWord memory (params + offset) length ∧ ¬HoldsWord memory (params + dataOffset) 0) ∨
    (∀ offset ∈ fieldOffsets 4 dataOffset, ¬HoldsWord memory (params + offset) length) ∧
      ¬HoldsWord memory (params + dataOffset) length ∧
      ¬HoldsWord memory (params + dataOffset + 4) length

instance (memory : Memory) (params dataOffset length : ℕ) :
    Decidable (LengthApart memory params dataOffset length) :=
  inferInstanceAs (Decidable (_ ∨ _ ∨ _))

/-- A slot before the pointer is a slot of the block. -/
theorem slot_of_before (h : Found memory params dataOffset length fields) {offset : ℕ}
    (hbefore : offset ∈ fieldOffsets 4 dataOffset) : offset ∈ fieldOffsets 4 fields.structSize := by
  obtain ⟨_, _, hin⟩ := (mem_fieldOffsets (by decide)).mp h.data_slot
  obtain ⟨i, hoffset, hfits⟩ := (mem_fieldOffsets (by decide)).mp hbefore
  exact (mem_fieldOffsets (by decide)).mpr ⟨i, hoffset, by omega⟩

/-- The length field takes four bytes or eight. -/
theorem sizeWidth_le (fields : BlobFields) : 4 ≤ sizeWidth fields ∧ sizeWidth fields ≤ 8 := by
  unfold sizeWidth
  split <;> omega

/-- Where the fields found share no byte, pointer and length are kept apart. -/
theorem lengthApart_of_apart (h : Found memory params dataOffset length fields)
    (hapart : Apart fields) : LengthApart memory params dataOffset length := by
  obtain ⟨j, hdata, hin⟩ := (mem_fieldOffsets (by decide)).mp h.data_slot
  obtain ⟨i, hsize, hfits⟩ := (mem_fieldOffsets (by decide)).mp h.size_slot
  have hoffset := h.dataOffset_eq
  obtain ⟨_, hwidth⟩ := sizeWidth_le fields
  unfold Apart at hapart
  by_cases hclear : fields.sizeOffset + 8 ≤ dataOffset
  · refine Or.inl ⟨fields.sizeOffset, ?_, hclear, h.size_holds⟩
    exact (mem_fieldOffsets (by decide)).mpr ⟨i, hsize, by omega⟩
  · by_cases hbehind : dataOffset + 8 ≤ fields.sizeOffset
    · have hfirst : ∀ offset ∈ fieldOffsets 4 fields.structSize, offset < fields.sizeOffset →
          ¬HoldsWord memory (params + offset) length := fun offset hslot hlt hholds =>
        absurd (h.size_first offset hslot hholds) (by omega)
      refine Or.inr (Or.inr ⟨fun offset hbefore => ?_, ?_, ?_⟩)
      · obtain ⟨_, _, hlast⟩ := (mem_fieldOffsets (by decide)).mp hbefore
        exact hfirst offset (slot_of_before h hbefore) (by omega)
      · exact hfirst dataOffset ((mem_fieldOffsets (by decide)).mpr ⟨2 * j, by omega, by omega⟩)
          (by omega)
      · rw [Nat.add_assoc]
        exact hfirst (dataOffset + 4)
          ((mem_fieldOffsets (by decide)).mpr ⟨2 * j + 1, by omega, by omega⟩) (by omega)
    · -- what is left is a narrow length right before the pointer
      have hbefore : fields.sizeOffset + sizeWidth fields ≤ dataOffset := by omega
      have hnarrow : fields.sizeIs64bit ≠ true := by
        intro hwide
        rw [sizeWidth, if_pos hwide] at hbefore
        exact hclear hbefore
      have hright : fields.sizeOffset + 4 = dataOffset := by
        rw [sizeWidth, if_neg hnarrow] at hbefore
        omega
      refine Or.inr (Or.inl ⟨fields.sizeOffset, ?_, hright, h.size_holds, fun hzero => ?_⟩)
      · exact (mem_fieldOffsets (by decide)).mpr ⟨i, hsize, by omega⟩
      · exact hnarrow (h.wide_iff.mpr ⟨by omega, by rw [Nat.add_assoc, hright]; exact hzero⟩)

/-- Where pointer and length are kept apart, the fields found share no byte. -/
theorem apart_of_lengthApart (h : Found memory params dataOffset length fields)
    (hkept : LengthApart memory params dataOffset length) : Apart fields := by
  obtain ⟨j, hdata, _⟩ := (mem_fieldOffsets (by decide)).mp h.data_slot
  obtain ⟨i, hsize, hfits⟩ := (mem_fieldOffsets (by decide)).mp h.size_slot
  have hoffset := h.dataOffset_eq
  obtain ⟨_, hwidth⟩ := sizeWidth_le fields
  unfold Apart
  rcases hkept with ⟨offset, hbefore, hclear, hholds⟩ | ⟨offset, hbefore, hright, hholds, hnonzero⟩ |
    ⟨hnone, hlow, hhigh⟩
  · have hle := h.size_first offset (slot_of_before h hbefore) hholds
    exact Or.inr (by omega)
  · have hle := h.size_first offset (slot_of_before h hbefore) hholds
    obtain ⟨k, hslot, _⟩ := (mem_fieldOffsets (by decide)).mp hbefore
    by_cases hsame : fields.sizeOffset = offset
    · have hnarrow : fields.sizeIs64bit ≠ true := by
        intro hwide
        have hzero := (h.wide_iff.mp hwide).2
        rw [Nat.add_assoc, hsame, hright] at hzero
        exact hnonzero hzero
      right
      rw [sizeWidth, if_neg hnarrow]
      omega
    · exact Or.inr (by omega)
  · left
    by_contra hlt
    have hholds := h.size_holds
    by_cases hbefore : fields.sizeOffset + 4 ≤ dataOffset
    · exact hnone fields.sizeOffset ((mem_fieldOffsets (by decide)).mpr ⟨i, hsize, hbefore⟩) hholds
    · have hin : fields.sizeOffset = dataOffset ∨ fields.sizeOffset = dataOffset + 4 := by omega
      rcases hin with heq | heq
      · rw [heq] at hholds
        exact hlow hholds
      · rw [heq, ← Nat.add_assoc] at hholds
        exact hhigh hholds

/-- Writing to a block makes nothing unreadable. -/
theorem readable_writeBlob (memory : Memory) (params : ℕ) (fields : BlobFields) (pointer size : ℕ) :
    (writeBlob memory params fields pointer size).readable = memory.readable := by
  unfold writeBlob
  split
  · rfl
  · rfl

/-- The length is written last, so it stands as written wherever its field is. -/
theorem bytes_writeBlob_size (memory : Memory) (pointer size : ℕ) (hvalid : fields.valid = true)
    (hparams : params ≠ 0) :
    (writeBlob memory params fields pointer size).bytes (params + fields.sizeOffset)
      (sizeWidth fields) = leBytes (sizeWidth fields) size := by
  have hfields : ¬(fields.valid = false ∨ params = 0) := by
    rw [hvalid]
    exact not_or.mpr ⟨Bool.noConfusion, hparams⟩
  have hback := Memory.bytes_write_self (memory.write (params + fields.dataOffset) (leBytes 8 pointer))
    (params + fields.sizeOffset) (leBytes (sizeWidth fields) size)
  rw [length_leBytes] at hback
  unfold writeBlob
  rw [if_neg hfields]
  exact hback

/-- Fields found apart are read back as written. -/
theorem readBlob_writeBlob (h : Found memory params dataOffset length fields) (hapart : Apart fields)
    {pointer size : ℕ} (hpointer : pointer < 2 ^ 64) (hsize : size < 2 ^ 32) :
    readBlob (writeBlob memory params fields pointer size) params fields = some (pointer, size) := by
  have hparams := h.params_ne
  have hsame := readable_writeBlob memory params fields pointer size
  have hfields : ¬(fields.valid = false ∨ params = 0) := by
    rw [h.valid]
    exact not_or.mpr ⟨Bool.noConfusion, hparams⟩
  have hdata : (readAt Codec.u64 (writeBlob memory params fields pointer size)
      (params + fields.dataOffset)).map UInt64.toNat = some pointer := by
    have hwritten : (writeBlob memory params fields pointer size).bytes (params + fields.dataOffset) 8 =
        leBytes 8 pointer := bytes_writeBlob_pointer pointer size h.valid hparams hapart
    refine readAt_u64_iff.mpr ⟨by omega, ?_, by rw [hwritten, leNat_leBytes (by omega)]⟩
    rw [hsame, h.dataOffset_eq]
    exact h.data_readable
  have hwritten := bytes_writeBlob_size memory pointer size h.valid hparams
  obtain ⟨data, hread, rfl⟩ := Option.map_eq_some_iff.mp hdata
  obtain ⟨_, hlow, _⟩ := holdsWord_iff.mp h.size_holds
  unfold readBlob
  rw [if_neg hfields, hread, Option.bind_some]
  split
  · rename_i hwide
    obtain ⟨_, hhigh, _⟩ := holdsWord_iff.mp (h.wide_iff.mp hwide).2
    rw [sizeWidth, if_pos hwide] at hwritten
    have hreadable := Memory.readable_add_iff.mpr ⟨hlow, hhigh⟩
    rw [← hsame] at hreadable
    have hvalue : leNat (leBytes 8 size) = size := leNat_leBytes (by omega)
    rw [← hwritten] at hvalue
    have hnumber := readAt_u64_iff.mpr ⟨by omega, hreadable, hvalue⟩
    obtain ⟨word, hword, rfl⟩ := Option.map_eq_some_iff.mp hnumber
    rw [hword, Option.map_some]
  · rename_i hnarrow
    rw [sizeWidth, if_neg hnarrow] at hwritten
    rw [← hsame] at hlow
    have hvalue : leNat (leBytes 4 size) = size := leNat_leBytes hsize
    rw [← hwritten] at hvalue
    have hnumber := readAt_u32_iff.mpr ⟨by omega, hlow, hvalue⟩
    obtain ⟨word, hword, rfl⟩ := Option.map_eq_some_iff.mp hnumber
    rw [hword, Option.map_some]

/-- A write to a block changes its two fields alone. -/
theorem byte_writeBlob {offset : ℕ} (memory : Memory) (params pointer size : ℕ)
    (hdata : offset < fields.dataOffset ∨ fields.dataOffset + 8 ≤ offset)
    (hsize : offset < fields.sizeOffset ∨ fields.sizeOffset + sizeWidth fields ≤ offset) :
    (writeBlob memory params fields pointer size).byte (params + offset) =
      memory.byte (params + offset) := by
  have hlen : (leBytes (if fields.sizeIs64bit then 8 else 4) size).length = sizeWidth fields :=
    length_leBytes _ size
  have hpointer := length_leBytes 8 pointer
  unfold writeBlob
  split
  · rfl
  · rw [Memory.byte_write_of_not_covered (by omega), Memory.byte_write_of_not_covered (by omega)]

/-- The fields found are a lawful view exactly where they share no byte. -/
theorem lawfulView_iff_apart (h : Found memory params dataOffset length fields) :
    LawfulView memory params fields ↔ Apart fields := by
  obtain ⟨_, hdata, hin⟩ := (mem_fieldOffsets (by decide)).mp h.data_slot
  obtain ⟨_, hsize, hfits⟩ := (mem_fieldOffsets (by decide)).mp h.size_slot
  have hoffset := h.dataOffset_eq
  refine ⟨fun hview => hview.apart, fun hapart => ?_⟩
  refine ⟨by omega, ⟨by omega, ?_⟩, hapart, ?_, ?_⟩
  · unfold sizeWidth
    split
    · rename_i hwide
      exact (h.wide_iff.mp hwide).1
    · exact hfits
  · exact fun pointer size hpointer hnumber => readBlob_writeBlob h hapart hpointer hnumber
  · exact fun pointer size offset houtside houtside' =>
      byte_writeBlob memory params pointer size houtside houtside'

end View

/-- The located fields are a lawful view of a block exactly where the block
keeps the container's pointer and its length apart. -/
theorem lawfulView_iff {memory : Memory} {params dataOffset length : ℕ}
    (hvalid : (locateBlob memory params).valid = true)
    (hdata : findDataField memory params (structSize memory params) = some (dataOffset, length)) :
    LawfulView memory params (locateBlob memory params) ↔
      LengthApart memory params dataOffset length := by
  have hfound := found_of_locateBlob hvalid hdata
  rw [lawfulView_iff_apart hfound]
  exact ⟨lengthApart_of_apart hfound, apart_of_lengthApart hfound⟩

/-- A block of 48 bytes at 0x1000 with a pointer at offset 8 and a number at
offset 16, and a container of 64 KiB at the pointer. -/
def sampleBlock (pointer length : ℕ) : Memory :=
  Memory.write (Memory.write { byte := fun _ => 0, readable := fun _ => true } 0x1000
    (leBytes 8 0x30 ++ leBytes 8 pointer ++ leBytes 8 length)) pointer
      (fileHeader.encode ⟨kMagic, 1, 16, 0xFFF0⟩)

/-- A container below 4 GiB leaves its pointer clear of its length. -/
theorem lawfulView_sampleBlock :
    LawfulView (sampleBlock 0x20000 0x10000) 0x1000 (locateBlob (sampleBlock 0x20000 0x10000) 0x1000) :=
  (lawfulView_iff (by decide +kernel) (by decide +kernel :
    findDataField (sampleBlock 0x20000 0x10000) 0x1000
      (structSize (sampleBlock 0x20000 0x10000) 0x1000) = some (8, 0x10000))).mpr (by decide +kernel)

/-- A container whose pointer's low half is its length takes the replacement's
length into the replacement's pointer. -/
theorem length_in_pointer :
    (locateBlob (sampleBlock 0x100010000 0x10000) 0x1000).valid = true ∧
      readBlob (writeBlob (sampleBlock 0x100010000 0x10000) 0x1000
          (locateBlob (sampleBlock 0x100010000 0x10000) 0x1000) 0x212345678 0x300) 0x1000
          (locateBlob (sampleBlock 0x100010000 0x10000) 0x1000) = some (0x200000300, 0x300) ∧
      ¬LawfulView (sampleBlock 0x100010000 0x10000) 0x1000
        (locateBlob (sampleBlock 0x100010000 0x10000) 0x1000) := by
  have hmixed : readBlob (writeBlob (sampleBlock 0x100010000 0x10000) 0x1000
      (locateBlob (sampleBlock 0x100010000 0x10000) 0x1000) 0x212345678 0x300) 0x1000
      (locateBlob (sampleBlock 0x100010000 0x10000) 0x1000) = some (0x200000300, 0x300) := by
    decide +kernel
  refine ⟨by decide +kernel, hmixed, fun hview => ?_⟩
  have hback := hview.readBack 0x212345678 0x300 (by norm_num) (by norm_num)
  rw [hmixed] at hback
  cases hback

end OpenDlssg.BlobFieldView
