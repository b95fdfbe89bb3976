import OpenDlssg.ProcessMemory
import OpenDlssg.ProviderIndex

/-!
# Finding the image in NVAPI's parameter block

The block's layout is not public. It is searched for a pointer to a container
and for the field that holds the length the container states for itself; where
both stand is the layout. Reading and writing the image need no more of it
than these two places.
-/

namespace OpenDlssg.CubinParams

open ByteCodec ProcessMemory FatbinContainer ProviderIndex

/-- Smallest size a block may declare. -/
def kMinStructSize : ℕ := 0x20

/-- Largest size a block may declare. -/
def kMaxStructSize : ℕ := 0x400

/-- Bytes searched of a block that declares no plausible size. -/
def kFallbackWindow : ℕ := 0x80

/-- Enough of a container to read its header. -/
def kProbeBytes : ℕ := 32

/-- Longest entry-point name read, with its terminator. -/
def kMaxNameBytes : ℕ := 96

/-- Where a block keeps its image. -/
structure BlobFields where
  valid : Bool := false
  structSize : ℕ := 0
  dataOffset : ℕ := 0
  sizeOffset : ℕ := 0
  /-- 0 when the block carries no entry-point name. -/
  nameOffset : ℕ := 0
  sizeIs64bit : Bool := false

/-- An entry-point name: a C identifier of a plausible length, terminated. -/
def looksLikeEntryName (text : Bytes) : Bool :=
  let name := text.takeWhile (· != 0)
  decide (3 ≤ name.length) && decide (name.length < text.length) &&
    name.all isIdentifierByte && !(name.headD 0 |> fun c => decide (48 ≤ c ∧ c ≤ 57))

/-- A value at an address, absent when it cannot be read. -/
def readAt {α : Type} (codec : Codec α) (memory : Memory) (address : ℕ) : Option α :=
  (memory.safeCopy address codec.size).map codec.decode

/-- Bytes of the block to search: the size it declares, a fixed window when
that is not plausible, none when it cannot be read. -/
def structSize (memory : Memory) (params : ℕ) : ℕ :=
  match readAt Codec.u64 memory params with
  | none => 0
  | some declared =>
    if kMinStructSize ≤ declared.toNat ∧ declared.toNat ≤ kMaxStructSize then declared.toNat
    else kFallbackWindow

/-- The offsets past the declared size at which a field of a width may stand. -/
def fieldOffsets (width window : ℕ) : List ℕ :=
  ((List.range window).map fun i => 8 + width * i).takeWhile fun offset =>
    decide (offset + width ≤ window)

/-- The pointer field that points at a container, with the container's length. -/
def findDataField (memory : Memory) (base window : ℕ) : Option (ℕ × ℕ) :=
  (fieldOffsets 8 window).findSome? fun offset =>
    (readAt Codec.u64 memory (base + offset)).bind fun candidate =>
      if candidate = 0 then none
      else
        (memory.safeCopy candidate.toNat kProbeBytes).bind fun probe =>
          if containerSize probe = 0 then none else some (offset, containerSize probe)

/-- Whether the pointer at an address points at an entry-point name. -/
def pointsAtName (memory : Memory) (address : ℕ) : Bool :=
  match readAt Codec.u64 memory address with
  | none => false
  | some candidate =>
    if candidate = 0 then false
    else
      match memory.safeCopy candidate.toNat kMaxNameBytes with
      | none => false
      | some text => looksLikeEntryName text

/-- The pointer field that points at the kernel's entry-point name, 0 without one. -/
def findNameField (memory : Memory) (base window dataOffset : ℕ) : ℕ :=
  ((fieldOffsets 8 window).find? fun offset =>
    offset != dataOffset && pointsAtName memory (base + offset)).getD 0

/-- The field holding the container's length, and whether it is 64 bits wide. -/
def findSizeField (memory : Memory) (base window containerLength : ℕ) : Option (ℕ × Bool) :=
  ((fieldOffsets 4 window).find? fun offset =>
    (readAt Codec.u32 memory (base + offset)).map UInt32.toNat == some containerLength).map
      fun offset => (offset, decide (offset + 8 ≤ window) &&
        (readAt Codec.u64 memory (base + offset)).map UInt64.toNat == some containerLength)

/-- Search a block for the pointer to its container and for its length. -/
def locateBlob (memory : Memory) (params : ℕ) : BlobFields :=
  let window := if params = 0 then 0 else structSize memory params
  if window = 0 then {}
  else
    match findDataField memory params window with
    | none => { structSize := window }
    | some (dataOffset, containerLength) =>
      let located : BlobFields :=
        { structSize := window, dataOffset := dataOffset
          nameOffset := findNameField memory params window dataOffset }
      match findSizeField memory params window containerLength with
      | none => located
      | some (sizeOffset, wide) =>
        { located with valid := true, sizeOffset := sizeOffset, sizeIs64bit := wide }

/-- The image's pointer and length in a block with known fields. -/
def readBlob (memory : Memory) (params : ℕ) (fields : BlobFields) : Option (ℕ × ℕ) :=
  if fields.valid = false ∨ params = 0 then none
  else
    (readAt Codec.u64 memory (params + fields.dataOffset)).bind fun data =>
      if fields.sizeIs64bit then
        (readAt Codec.u64 memory (params + fields.sizeOffset)).map fun size => (data.toNat, size.toNat)
      else
        (readAt Codec.u32 memory (params + fields.sizeOffset)).map fun size => (data.toNat, size.toNat)

/-- The entry-point name in a block with known fields, empty without one. -/
def readName (memory : Memory) (params : ℕ) (fields : BlobFields) : Bytes :=
  if fields.nameOffset = 0 ∨ params = 0 then []
  else
    match readAt Codec.u64 memory (params + fields.nameOffset) with
    | none => []
    | some text =>
      if text = 0 then []
      else
        match memory.safeCopy text.toNat kMaxNameBytes with
        | none => []
        | some buffer => (buffer.take (kMaxNameBytes - 1)).takeWhile (· != 0)

/-- Put another image's pointer and length into a block with known fields. -/
def writeBlob (memory : Memory) (params : ℕ) (fields : BlobFields) (data size : ℕ) : Memory :=
  if fields.valid = false ∨ params = 0 then memory
  else
    (memory.write (params + fields.dataOffset) (leBytes 8 data)).write (params + fields.sizeOffset)
      (leBytes (if fields.sizeIs64bit then 8 else 4) size)

/-- Two finds of the same pointer and length fields; the name serves the log. -/
structure BlobFields.SamePlaces (first second : BlobFields) : Prop where
  valid_eq : first.valid = second.valid
  dataOffset_eq : first.dataOffset = second.dataOffset
  sizeOffset_eq : first.sizeOffset = second.sizeOffset
  sizeIs64bit_eq : first.sizeIs64bit = second.sizeIs64bit

variable {first second : BlobFields}

/-- What a block carries is read through the two places alone. -/
theorem readBlob_congr (h : first.SamePlaces second) (memory : Memory) (params : ℕ) :
    readBlob memory params first = readBlob memory params second := by
  unfold readBlob
  rw [h.valid_eq, h.dataOffset_eq, h.sizeOffset_eq, h.sizeIs64bit_eq]

/-- What a block carries is written through the two places alone. -/
theorem writeBlob_congr (h : first.SamePlaces second) (memory : Memory) (params data size : ℕ) :
    writeBlob memory params first data size = writeBlob memory params second data size := by
  unfold writeBlob
  rw [h.valid_eq, h.dataOffset_eq, h.sizeOffset_eq, h.sizeIs64bit_eq]

/-- The places two finds share are shared both ways. -/
theorem BlobFields.SamePlaces.symm (h : first.SamePlaces second) : second.SamePlaces first :=
  ⟨h.valid_eq.symm, h.dataOffset_eq.symm, h.sizeOffset_eq.symm, h.sizeIs64bit_eq.symm⟩

/-- A located block is one that was passed. -/
theorem params_ne_zero_of_locateBlob {memory : Memory} {params : ℕ}
    (h : (locateBlob memory params).valid = true) : params ≠ 0 := by
  intro hzero
  unfold locateBlob at h
  rw [if_pos hzero] at h
  cases h

/-- A pointer written to a block is the one found there, where the two fields
do not overlap. -/
theorem bytes_writeBlob_pointer {memory : Memory} {params : ℕ} {fields : BlobFields} (data size : ℕ)
    (hvalid : fields.valid = true) (hparams : params ≠ 0)
    (hapart : fields.dataOffset + 8 ≤ fields.sizeOffset ∨
      fields.sizeOffset + (if fields.sizeIs64bit then 8 else 4) ≤ fields.dataOffset) :
    (writeBlob memory params fields data size).bytes (params + fields.dataOffset) 8 =
      leBytes 8 data := by
  have hfields : ¬(fields.valid = false ∨ params = 0) := by
    rw [hvalid]
    exact not_or.mpr ⟨Bool.noConfusion, hparams⟩
  have hlen := length_leBytes (if fields.sizeIs64bit then 8 else 4) size
  have hback := Memory.bytes_write_self memory (params + fields.dataOffset) (leBytes 8 data)
  rw [length_leBytes] at hback
  unfold writeBlob
  rw [if_neg hfields, Memory.bytes_write_of_disjoint (by omega), hback]

/-- A length written to a block is the one found there, as wide as its field. -/
theorem bytes_writeBlob_length {memory : Memory} {params : ℕ} {fields : BlobFields} (data size : ℕ)
    (hvalid : fields.valid = true) (hparams : params ≠ 0) :
    (writeBlob memory params fields data size).bytes (params + fields.sizeOffset)
        (if fields.sizeIs64bit then 8 else 4) =
      leBytes (if fields.sizeIs64bit then 8 else 4) size := by
  have hfields : ¬(fields.valid = false ∨ params = 0) := by
    rw [hvalid]
    exact not_or.mpr ⟨Bool.noConfusion, hparams⟩
  have hback := Memory.bytes_write_self (memory.write (params + fields.dataOffset) (leBytes 8 data))
    (params + fields.sizeOffset) (leBytes (if fields.sizeIs64bit then 8 else 4) size)
  rw [length_leBytes] at hback
  unfold writeBlob
  rw [if_neg hfields, hback]

/-- A write to a block leaves what lies outside the block alone. -/
theorem bytes_writeBlob_of_disjoint {memory : Memory} {params : ℕ} {fields : BlobFields}
    (data size : ℕ) {start length limit : ℕ} (hdata : fields.dataOffset + 8 ≤ limit)
    (hsize : fields.sizeOffset + 8 ≤ limit)
    (h : start + length ≤ params ∨ params + limit ≤ start) :
    (writeBlob memory params fields data size).bytes start length = memory.bytes start length := by
  have hlen := length_leBytes (if fields.sizeIs64bit then 8 else 4) size
  have hwidth : (if fields.sizeIs64bit then 8 else 4) ≤ 8 := by split <;> omega
  unfold writeBlob
  split
  · rfl
  · rw [Memory.bytes_write_of_disjoint (by omega), Memory.bytes_write_of_disjoint
      (by rw [length_leBytes]; omega)]

end OpenDlssg.CubinParams
