import OpenDlssg.ByteCodec

/-!
# Cubins: machine code for one architecture in an ELF64 image

The headers of the System V ABI, read from the image byte for byte, and what
the source takes from them: the architecture, the exact length and the named
sections. Everything is decided by the image's own bytes, so a longer view of
the same image gives the same answers.
-/

namespace OpenDlssg.CubinImage

open ByteCodec

/-- The source's `Elf64_Ehdr`. -/
structure ElfHeader where
  /-- Magic, class and the rest of the identification bytes. -/
  ident : {bs : Bytes // bs.length = 16}
  type : UInt16
  machine : UInt16
  version : UInt32
  entry : UInt64
  programHeadersOffset : UInt64
  sectionHeadersOffset : UInt64
  flags : UInt32
  headerSize : UInt16
  programHeaderSize : UInt16
  programHeaderCount : UInt16
  sectionHeaderSize : UInt16
  sectionHeaderCount : UInt16
  sectionNamesIndex : UInt16

/-- The source's `Elf64_Shdr`. -/
structure SectionHeader where
  /-- Offset into the section-name table. -/
  name : UInt32
  type : UInt32
  flags : UInt64
  address : UInt64
  offset : UInt64
  size : UInt64
  link : UInt32
  info : UInt32
  alignment : UInt64
  entrySize : UInt64

open Codec in
/-- Layout of the ELF header. -/
def elfHeader : Codec ElfHeader :=
  record ((raw 16).prod <| u16.prod <| u16.prod <| u32.prod <| u64.prod <| u64.prod <| u64.prod <|
      u32.prod <| u16.prod <| u16.prod <| u16.prod <| u16.prod <| u16.prod u16)
    { toFun := fun (ident, type, machine, version, entry, programs, sections, flags, headerSize,
          programSize, programCount, sectionSize, sectionCount, namesIndex) =>
        ⟨ident, type, machine, version, entry, programs, sections, flags, headerSize,
          programSize, programCount, sectionSize, sectionCount, namesIndex⟩
      invFun := fun h => (h.ident, h.type, h.machine, h.version, h.entry, h.programHeadersOffset,
        h.sectionHeadersOffset, h.flags, h.headerSize, h.programHeaderSize, h.programHeaderCount,
        h.sectionHeaderSize, h.sectionHeaderCount, h.sectionNamesIndex)
      left_inv := fun _ => rfl
      right_inv := fun _ => rfl }

open Codec in
/-- Layout of a section header. -/
def sectionHeader : Codec SectionHeader :=
  record (u32.prod <| u32.prod <| u64.prod <| u64.prod <| u64.prod <| u64.prod <| u32.prod <|
      u32.prod <| u64.prod u64)
    { toFun := fun (name, type, flags, address, offset, size, link, info, alignment, entrySize) =>
        ⟨name, type, flags, address, offset, size, link, info, alignment, entrySize⟩
      invFun := fun h => (h.name, h.type, h.flags, h.address, h.offset, h.size, h.link, h.info,
        h.alignment, h.entrySize)
      left_inv := fun _ => rfl
      right_inv := fun _ => rfl }

theorem size_elfHeader : elfHeader.size = 64 := rfl

/-- The ELF magic. -/
def kElfMagic : Bytes := [0x7F, 0x45, 0x4C, 0x46]

/-- Index of the class byte in the identification bytes. -/
def kElfClassIndex : ℕ := 4

/-- The 64-bit class. -/
def kElfClass64 : UInt8 := 2

/-- The machine type registered for GPU code. -/
def kMachineCuda : UInt16 := 190

/-- The SM number stands in the low byte of the flags. -/
def kFlagsSmMask : UInt32 := 0xFF

/-- The header of a cubin. Absent when the image is not one. -/
def cubinHeader (image : Bytes) : Option ElfHeader :=
  (read elfHeader image 0).filter fun header =>
    header.ident.1.take kElfMagic.length == kElfMagic &&
      header.ident.1.getD kElfClassIndex 0 == kElfClass64 && header.machine == kMachineCuda

/-- End of a header table. Absent when it does not fit in `limit` bytes. -/
def tableEnd (offset : UInt64) (entrySize count : UInt16) (limit : ℕ) : Option ℕ :=
  let length := entrySize.toNat * count.toNat
  if offset.toNat > limit ∨ length > limit - offset.toNat then none
  else some (offset.toNat + length)

/-- SM number a cubin targets, 0 when the blob is not a cubin. -/
def cubinArch (blob : Bytes) : UInt32 :=
  match cubinHeader blob with
  | none => 0
  | some header => header.flags &&& kFlagsSmMask

/-- Where the section table of an image ends. -/
def ElfHeader.sectionsEnd (header : ElfHeader) (limit : ℕ) : Option ℕ :=
  tableEnd header.sectionHeadersOffset header.sectionHeaderSize header.sectionHeaderCount limit

/-- Where the program table of an image ends. -/
def ElfHeader.programsEnd (header : ElfHeader) (limit : ℕ) : Option ℕ :=
  tableEnd header.programHeadersOffset header.programHeaderSize header.programHeaderCount limit

/-- Length of the cubin at the start of the bytes, taken from its own headers,
or 0 when it is not a cubin that fits in them. -/
def cubinSize (available : Bytes) : ℕ :=
  match cubinHeader available with
  | none => 0
  | some header =>
    match header.sectionsEnd available.length, header.programsEnd available.length with
    | some sections, some programs =>
      let size := max sections programs
      if size > elfHeader.size then size else 0
    | _, _ => 0

/-- A named section of a cubin. -/
@[ext] structure CubinSection where
  /-- Text of the name, up to its terminator. -/
  name : Bytes
  /-- Contents of the section. -/
  data : Bytes
  deriving DecidableEq

/-- The section header at an index of the section table. -/
def sectionHeaderAt (image : Bytes) (header : ElfHeader) (index : ℕ) : Option SectionHeader :=
  read sectionHeader image
    (header.sectionHeadersOffset.toNat + index * header.sectionHeaderSize.toNat)

/-- The section-name table. -/
def sectionNames (image : Bytes) (header : ElfHeader) : Option Bytes :=
  (sectionHeaderAt image header header.sectionNamesIndex.toNat).bind fun names =>
    slice image names.offset.toNat names.size.toNat

/-- One section, absent when its data or its name fall outside the image. -/
def cubinSection (image : Bytes) (header : ElfHeader) (names : Bytes) (index : ℕ) :
    Option CubinSection :=
  (sectionHeaderAt image header index).bind fun entry =>
    if entry.name.toNat ≥ names.length then none
    else (slice image entry.offset.toNat entry.size.toNat).map fun data =>
      ⟨(names.drop entry.name.toNat).takeWhile (· != 0), data⟩

/-- Every section of the image a header describes, named. -/
def imageSections (image : Bytes) : List CubinSection :=
  match cubinHeader image with
  | none => []
  | some header =>
    if header.sectionHeaderSize.toNat < sectionHeader.size ∨
        header.sectionNamesIndex ≥ header.sectionHeaderCount then []
    else
      match sectionNames image header with
      | none => []
      | some names =>
        (List.range header.sectionHeaderCount.toNat).filterMap (cubinSection image header names)

/-- Every section of a cubin, named. Empty when the headers do not validate;
sections whose data or name fall outside the image are left out. -/
def cubinSections (available : Bytes) : List CubinSection :=
  imageSections (available.take (cubinSize available))

/-- A table ends inside the limit, at its offset plus its length. -/
theorem tableEnd_eq_some {offset : UInt64} {entrySize count : UInt16} {limit stop : ℕ} :
    tableEnd offset entrySize count limit = some stop ↔
      stop = offset.toNat + entrySize.toNat * count.toNat ∧ stop ≤ limit := by
  unfold tableEnd
  dsimp only
  split
  · simp only [reduceCtorEq, false_iff]
    omega
  · rw [Option.some.injEq]
    omega

/-- The header is read from the first 64 bytes alone. -/
theorem cubinHeader_take {image : Bytes} {n : ℕ} (hn : 64 ≤ n) :
    cubinHeader (image.take n) = cubinHeader image := by
  by_cases hlong : n ≤ image.length
  · unfold cubinHeader
    rw [read_take (by rw [size_elfHeader]; omega) hlong]
  · rw [List.take_of_length_le (by omega)]

/-- What a positive size says about an image: its headers validate and it ends
with the later of its two tables. -/
theorem cubinSize_eq {available : Bytes} {size : ℕ} (hsize : size ≠ 0) :
    cubinSize available = size ↔ ∃ header sections programs,
      cubinHeader available = some header ∧
      header.sectionsEnd available.length = some sections ∧
      header.programsEnd available.length = some programs ∧
      size = max sections programs ∧ 64 < size := by
  unfold cubinSize
  cases hh : cubinHeader available with
  | none => simp [hsize.symm]
  | some header =>
    cases hs : header.sectionsEnd available.length with
    | none => simp [hs, hsize.symm]
    | some sections =>
      cases hp : header.programsEnd available.length with
      | none => simp [hs, hp, hsize.symm]
      | some programs =>
        simp only [hs, hp, Option.some.injEq, exists_and_left, exists_eq_left']
        have hheader := size_elfHeader
        split <;> omega

/-- A cubin ends inside the bytes it was read from. -/
theorem cubinSize_le (available : Bytes) : cubinSize available ≤ available.length := by
  by_cases hsize : cubinSize available = 0
  · omega
  · obtain ⟨header, sections, programs, _, hs, hp, hmax, _⟩ := (cubinSize_eq hsize).mp rfl
    have hs' := (tableEnd_eq_some.mp hs).2
    have hp' := (tableEnd_eq_some.mp hp).2
    omega

/-- A cubin is longer than its header. -/
theorem cubinSize_gt {available : Bytes} (hsize : cubinSize available ≠ 0) :
    64 < cubinSize available := by
  obtain ⟨_, _, _, _, _, _, _, hlt⟩ := (cubinSize_eq hsize).mp rfl
  exact hlt

/-- An image's length is its own: any view that holds the whole image gives it. -/
theorem cubinSize_take {available : Bytes} {n : ℕ} (hsize : cubinSize available ≠ 0)
    (hn : cubinSize available ≤ n) : cubinSize (available.take n) = cubinSize available := by
  obtain ⟨header, sections, programs, hh, hs, hp, hmax, hlt⟩ := (cubinSize_eq hsize).mp rfl
  obtain ⟨hs₁, hs₂⟩ := tableEnd_eq_some.mp hs
  obtain ⟨hp₁, hp₂⟩ := tableEnd_eq_some.mp hp
  have hlen : (available.take n).length = min n available.length := List.length_take
  refine (cubinSize_eq hsize).mpr ⟨header, sections, programs, ?_, ?_, ?_, hmax, hlt⟩
  · rw [cubinHeader_take (by omega), hh]
  · exact tableEnd_eq_some.mpr ⟨hs₁, by omega⟩
  · exact tableEnd_eq_some.mpr ⟨hp₁, by omega⟩

/-- The image cut at its own length is a cubin of that length. -/
theorem cubinSize_image {available : Bytes} (hsize : cubinSize available ≠ 0) :
    cubinSize (available.take (cubinSize available)) = cubinSize available :=
  cubinSize_take hsize le_rfl

/-- The architecture of an image is read from its own bytes. -/
theorem cubinArch_take {available : Bytes} {n : ℕ} (hn : 64 ≤ n) :
    cubinArch (available.take n) = cubinArch available := by
  unfold cubinArch
  rw [cubinHeader_take hn]

/-- The sections of an image are read from its own bytes. -/
theorem cubinSections_take {available : Bytes} {n : ℕ} (hsize : cubinSize available ≠ 0)
    (hn : cubinSize available ≤ n) : cubinSections (available.take n) = cubinSections available := by
  unfold cubinSections
  rw [cubinSize_take hsize hn, List.take_take, min_eq_left hn]

/-- A blob whose headers do not give a length has no sections. -/
theorem cubinSections_of_size_zero {available : Bytes} (hsize : cubinSize available = 0) :
    cubinSections available = [] := by
  unfold cubinSections
  rw [hsize]
  rfl

end OpenDlssg.CubinImage
