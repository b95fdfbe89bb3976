import OpenDlssg.ByteCodec

/-!
# Fatbin containers: their headers and the walk over their images

A container is a file header followed by images, each an entry header and a
payload. The walk reads entries until one does not fit; every image it
reports lies inside the container, after the ones before it.
-/

namespace OpenDlssg.FatbinContainer

open ByteCodec

/-- Header of a container. -/
structure FileHeader where
  magic : UInt32
  version : UInt16
  headerSize : UInt16
  /-- Bytes of images after the header. -/
  fatSize : UInt64

/-- Header of one image. Fields that are not interpreted are copied through. -/
structure EntryHeader where
  kind : UInt16
  unknown02 : UInt16
  /-- This header, including any bytes after the fields below. -/
  headerSize : UInt32
  /-- Bytes stored after the header. -/
  payloadSize : UInt64
  compressedSize : UInt32
  unknown14 : UInt32
  toolVersion : UInt32
  /-- SM number. -/
  arch : UInt32
  unknown20 : UInt32 × UInt32
  flags : UInt64
  unknown30 : UInt64
  decompressedSize : UInt64

open Codec in
/-- Layout of the container header. -/
def fileHeader : Codec FileHeader :=
  record (u32.prod <| u16.prod <| u16.prod u64)
    { toFun := fun (magic, version, headerSize, fatSize) => ⟨magic, version, headerSize, fatSize⟩
      invFun := fun h => (h.magic, h.version, h.headerSize, h.fatSize)
      left_inv := fun _ => rfl
      right_inv := fun _ => rfl }

open Codec in
/-- Layout of an image header. -/
def entryHeader : Codec EntryHeader :=
  record (u16.prod <| u16.prod <| u32.prod <| u64.prod <| u32.prod <| u32.prod <| u32.prod <|
      u32.prod <| (u32.prod u32).prod <| u64.prod <| u64.prod u64)
    { toFun := fun (kind, unknown02, headerSize, payloadSize, compressedSize, unknown14,
          toolVersion, arch, unknown20, flags, unknown30, decompressedSize) =>
        ⟨kind, unknown02, headerSize, payloadSize, compressedSize, unknown14, toolVersion, arch,
          unknown20, flags, unknown30, decompressedSize⟩
      invFun := fun h => (h.kind, h.unknown02, h.headerSize, h.payloadSize, h.compressedSize,
        h.unknown14, h.toolVersion, h.arch, h.unknown20, h.flags, h.unknown30, h.decompressedSize)
      left_inv := fun _ => rfl
      right_inv := fun _ => rfl }

theorem size_fileHeader : fileHeader.size = 16 := rfl

theorem size_entryHeader : entryHeader.size = 64 := rfl

/-- `FATBIN_MAGIC`. -/
def kMagic : UInt32 := 0xBA55ED50

/-- `FATBIN_2_PTX`. -/
def kKindPtx : UInt16 := 1

/-- `FATBIN_FLAG_COMPRESS`. -/
def kFlagCompressed : UInt64 := 0x2000

/-- Bound that keeps a corrupt entry header length from being trusted. -/
def kMaxEntryHeaderSize : ℕ := 0x200

/-- Bound that keeps a corrupt container length from being trusted. -/
def kMaxContainerSize : ℕ := 2 ^ 28

/-- One image of a container. -/
structure Image where
  isPtx : Bool
  /-- SM number. -/
  arch : UInt32
  compressed : Bool
  headerOffset : ℕ
  payloadOffset : ℕ
  /-- Bytes present in the container. -/
  payloadSize : ℕ
  /-- LZ4 stream within the payload; 0 when uncompressed. -/
  compressedSize : ℕ
  /-- 0 when stored uncompressed. -/
  decompressedSize : ℕ
  deriving DecidableEq

/-- The header of a container. Absent when it does not validate. -/
def containerHeader (data : Bytes) : Option FileHeader :=
  (read fileHeader data 0).filter fun header =>
    header.magic == kMagic && decide (fileHeader.size ≤ header.headerSize.toNat) &&
      header.fatSize != 0 && decide (header.fatSize.toNat ≤ kMaxContainerSize)

/-- Total container length taken from its own header, 0 when it does not validate. -/
def containerSize (blob : Bytes) : ℕ :=
  match containerHeader blob with
  | none => 0
  | some header => header.headerSize.toNat + header.fatSize.toNat

/-- Whether a GPU can run an image: PTX on its own architecture or any newer
one, a cubin on its own major version and the same or a newer minor. -/
def canRun (isPtx : Bool) (image device : UInt32) : Bool :=
  if image = 0 ∨ device = 0 then false
  else if isPtx then decide (image ≤ device)
  else decide (image / 10 = device / 10) && decide (image ≤ device)

/-- The image whose entry header stands at an offset of a container's body. -/
def imageAt (body : Bytes) (offset : ℕ) : Option Image :=
  (read entryHeader body offset).bind fun entry =>
    if entry.headerSize.toNat < entryHeader.size ∨ entry.headerSize.toNat > kMaxEntryHeaderSize ∨
        slice body (offset + entry.headerSize.toNat) entry.payloadSize.toNat = none then none
    else
      let compressed := entry.flags &&& kFlagCompressed != 0
      some
        { isPtx := entry.kind == kKindPtx
          arch := entry.arch
          compressed := compressed
          headerOffset := offset
          payloadOffset := offset + entry.headerSize.toNat
          payloadSize := entry.payloadSize.toNat
          compressedSize := if compressed then entry.compressedSize.toNat else 0
          decompressedSize := if compressed then entry.decompressedSize.toNat else 0 }

/-- The images from an offset on, until an entry does not fit. -/
def imagesFrom (body : Bytes) : ℕ → ℕ → List Image
  | 0, _ => []
  | fuel + 1, offset =>
    match imageAt body offset with
    | none => []
    | some image => image :: imagesFrom body fuel (image.payloadOffset + image.payloadSize)

/-- Every image of a container, absent when it does not parse or holds none.
Each entry takes at least a header, so the body's length bounds their number. -/
def describe (container : Bytes) : Option (List Image) :=
  (containerHeader container).bind fun header =>
    if header.headerSize.toNat > container.length ∨
        header.fatSize.toNat > container.length - header.headerSize.toNat then none
    else
      let stop := header.headerSize.toNat + header.fatSize.toNat
      let images := imagesFrom (container.take stop) (stop + 1) header.headerSize.toNat
      if images.isEmpty then none else some images

/-- What a validated container header says. -/
theorem containerHeader_eq_some {data : Bytes} {header : FileHeader} :
    containerHeader data = some header ↔
      read fileHeader data 0 = some header ∧ header.magic = kMagic ∧
        16 ≤ header.headerSize.toNat ∧ header.fatSize ≠ 0 ∧
        header.fatSize.toNat ≤ kMaxContainerSize := by
  unfold containerHeader
  rw [Option.filter_eq_some_iff]
  simp only [Bool.and_eq_true, beq_iff_eq, decide_eq_true_eq, bne_iff_ne, and_assoc]
  rw [size_fileHeader]

/-- The header is read from the first 16 bytes alone. -/
theorem containerHeader_take {data : Bytes} {n : ℕ} (hn : 16 ≤ n) :
    containerHeader (data.take n) = containerHeader data := by
  by_cases hlong : n ≤ data.length
  · unfold containerHeader
    rw [read_take (by rw [size_fileHeader]; omega) hlong]
  · rw [List.take_of_length_le (by omega)]

/-- A container that states a length is longer than its own header. -/
theorem containerSize_gt {blob : Bytes} (h : containerSize blob ≠ 0) : 16 < containerSize blob := by
  unfold containerSize at h ⊢
  cases hh : containerHeader blob with
  | none =>
    rw [hh] at h
    exact absurd rfl h
  | some header =>
    obtain ⟨_, _, hsize, hfat, _⟩ := containerHeader_eq_some.mp hh
    have hpos : header.fatSize.toNat ≠ 0 := fun hz => hfat (UInt64.toNat_inj.mp hz)
    dsimp only
    omega

/-- A container's length is its own: any view of its header gives it. -/
theorem containerSize_take {blob : Bytes} {n : ℕ} (hn : 16 ≤ n) :
    containerSize (blob.take n) = containerSize blob := by
  unfold containerSize
  rw [containerHeader_take hn]

/-- An image reported at an offset has its header and its payload in the body. -/
theorem imageAt_eq_some {body : Bytes} {offset : ℕ} {image : Image}
    (h : imageAt body offset = some image) :
    image.headerOffset = offset ∧ offset + 64 ≤ image.payloadOffset ∧
      image.payloadOffset + image.payloadSize ≤ body.length ∧
      ∃ entry, read entryHeader body offset = some entry ∧
        image.payloadOffset = offset + entry.headerSize.toNat ∧
        image.isPtx = (entry.kind == kKindPtx) ∧ image.arch = entry.arch ∧
        entry.headerSize.toNat ≤ kMaxEntryHeaderSize := by
  obtain ⟨entry, hread, hentry⟩ := Option.bind_eq_some_iff.mp h
  dsimp only at hentry
  split at hentry
  · cases hentry
  · rename_i hbad
    obtain ⟨hlow, hrest⟩ := not_or.mp hbad
    obtain ⟨hhigh, hslice⟩ := not_or.mp hrest
    obtain ⟨payload, hpayload⟩ := Option.ne_none_iff_exists'.mp hslice
    have hfit := (slice_eq_some.mp hpayload).1
    have hheader := size_entryHeader
    cases hentry
    exact ⟨rfl, by dsimp only; omega, hfit, entry, hread, rfl, rfl, rfl, by omega⟩

/-- Every reported image was read at its own offset, at or after the start. -/
theorem mem_imagesFrom {body : Bytes} {fuel offset : ℕ} {image : Image}
    (h : image ∈ imagesFrom body fuel offset) :
    offset ≤ image.headerOffset ∧ imageAt body image.headerOffset = some image := by
  induction fuel generalizing offset with
  | zero => cases h
  | succ fuel ih =>
    rw [imagesFrom] at h
    cases hi : imageAt body offset with
    | none =>
      rw [hi] at h
      cases h
    | some first =>
      rw [hi] at h
      obtain ⟨hoff, hpay, _⟩ := imageAt_eq_some hi
      rcases List.mem_cons.mp h with rfl | hmem
      · rw [hoff]
        exact ⟨le_rfl, hi⟩
      · obtain ⟨hle, hat⟩ := ih hmem
        exact ⟨by omega, hat⟩

/-- The walk ends by itself: more fuel than bytes left reads no more images. -/
theorem imagesFrom_fuel {body : Bytes} {fuel fuel' offset : ℕ} (hfuel : body.length < fuel + offset)
    (hfuel' : body.length < fuel' + offset) :
    imagesFrom body fuel offset = imagesFrom body fuel' offset := by
  induction fuel generalizing fuel' offset with
  | zero =>
    have hnone : imageAt body offset = none := by
      cases hi : imageAt body offset with
      | none => rfl
      | some image =>
        obtain ⟨_, hpay, hfit, _⟩ := imageAt_eq_some hi
        omega
    cases fuel' with
    | zero => rfl
    | succ fuel' => rw [imagesFrom, imagesFrom, hnone]
  | succ fuel ih =>
    cases hi : imageAt body offset with
    | none =>
      cases fuel' with
      | zero => rw [imagesFrom, imagesFrom, hi]
      | succ fuel' => rw [imagesFrom, imagesFrom, hi]
    | some image =>
      obtain ⟨_, hpay, hfit, _⟩ := imageAt_eq_some hi
      cases fuel' with
      | zero => omega
      | succ fuel' =>
        rw [imagesFrom, imagesFrom, hi]
        dsimp only
        have hnext : imagesFrom body fuel (image.payloadOffset + image.payloadSize) =
            imagesFrom body fuel' (image.payloadOffset + image.payloadSize) :=
          ih (by omega) (by omega)
        rw [hnext]

/-- What an accepted container holds: a validated header, room for the length
it states, and at least one image. -/
theorem describe_eq_some {container : Bytes} {images : List Image} :
    describe container = some images ↔ ∃ header, containerHeader container = some header ∧
      containerSize container ≤ container.length ∧ images ≠ [] ∧
      images = imagesFrom (container.take (containerSize container)) (containerSize container + 1)
        header.headerSize.toNat := by
  unfold describe containerSize
  cases hh : containerHeader container with
  | none => simp
  | some header =>
    rw [Option.bind_some]
    dsimp only
    by_cases hlong : header.headerSize.toNat > container.length ∨
        header.fatSize.toNat > container.length - header.headerSize.toNat
    · rw [if_pos hlong]
      refine ⟨fun h => (by cases h), fun h => ?_⟩
      obtain ⟨_, _, hle, _⟩ := h
      omega
    · rw [if_neg hlong]
      have hle : header.headerSize.toNat + header.fatSize.toNat ≤ container.length := by omega
      simp only [hle, true_and, Option.some.injEq, exists_eq_left']
      split
      · rename_i hempty
        rw [List.isEmpty_iff] at hempty
        rw [hempty]
        refine ⟨fun h => (by cases h), fun h => absurd h.2 h.1⟩
      · rename_i hsome
        rw [List.isEmpty_iff] at hsome
        rw [Option.some.injEq]
        exact ⟨fun h => ⟨h ▸ hsome, h.symm⟩, fun h => h.2.symm⟩

/-- Every image of an accepted container was read inside the length it states. -/
theorem mem_describe {container : Bytes} {images : List Image} {image : Image}
    (h : describe container = some images) (hmem : image ∈ images) :
    imageAt (container.take (containerSize container)) image.headerOffset = some image := by
  obtain ⟨header, _, _, _, rfl⟩ := describe_eq_some.mp h
  exact (mem_imagesFrom hmem).2

/-- The entry header of a reported image is read again at its offset. -/
theorem read_of_mem_describe {container : Bytes} {images : List Image} {image : Image}
    (h : describe container = some images) (hmem : image ∈ images) :
    ∃ entry, read entryHeader container image.headerOffset = some entry ∧
      image.payloadOffset = image.headerOffset + entry.headerSize.toNat ∧
      image.isPtx = (entry.kind == kKindPtx) ∧ image.arch = entry.arch ∧
      64 ≤ entry.headerSize.toNat ∧ entry.headerSize.toNat ≤ kMaxEntryHeaderSize ∧
      image.payloadOffset + image.payloadSize ≤ containerSize container := by
  obtain ⟨_, _, hle, _, _⟩ := describe_eq_some.mp h
  obtain ⟨_, hroom, hfit, entry, hread, hpay, hptx, harch, hmax⟩ :=
    imageAt_eq_some (mem_describe h hmem)
  rw [List.length_take, min_eq_left hle] at hfit
  refine ⟨entry, ?_, hpay, hptx, harch, by omega, hmax, hfit⟩
  rw [← hread, read_take (by rw [size_entryHeader]; omega) hle]

end OpenDlssg.FatbinContainer
