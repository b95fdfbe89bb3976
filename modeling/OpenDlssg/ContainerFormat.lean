import OpenDlssg.FatbinContainer

/-!
# The container format, written and described

A container is serialised from its file header and its entries, each with
the bytes its header keeps past the known fields. The walk's own loop is a
relation between an offset and the images read from there; it ends at the
first entry that does not fit. A serialised container is described entry for
entry, and the images of any accepted blob tile what follows its header.
-/

namespace OpenDlssg.ContainerFormat

open ByteCodec FatbinContainer

/-- An entry as a container stores it. -/
structure StoredEntry where
  header : EntryHeader
  /-- Bytes of the header past its fields. -/
  extra : Bytes
  payload : Bytes
  headerSize_eq : header.headerSize.toNat = 64 + extra.length
  headerSize_le : header.headerSize.toNat ≤ kMaxEntryHeaderSize
  payloadSize_eq : header.payloadSize.toNat = payload.length

namespace StoredEntry

variable (stored : StoredEntry)

/-- The header and the payload behind it. -/
def bytes : Bytes :=
  entryHeader.encode stored.header ++ (stored.extra ++ stored.payload)

/-- What the entry is when its header stands at an offset. -/
def image (offset : ℕ) : Image where
  isPtx := stored.header.kind == kKindPtx
  arch := stored.header.arch
  compressed := stored.header.flags &&& kFlagCompressed != 0
  headerOffset := offset
  payloadOffset := offset + (64 + stored.extra.length)
  payloadSize := stored.payload.length
  compressedSize :=
    if stored.header.flags &&& kFlagCompressed != 0 then stored.header.compressedSize.toNat else 0
  decompressedSize :=
    if stored.header.flags &&& kFlagCompressed != 0 then stored.header.decompressedSize.toNat else 0

@[simp] theorem length_bytes :
    stored.bytes.length = 64 + stored.extra.length + stored.payload.length := by
  simp only [bytes, List.length_append, entryHeader.length_encode, size_entryHeader]
  omega

/-- An entry is read where it was written, whatever stands before and behind it. -/
theorem imageAt_append (front back : Bytes) :
    imageAt (front ++ (stored.bytes ++ back)) front.length = some (stored.image front.length) := by
  have hheader := stored.headerSize_eq
  have hmax := stored.headerSize_le
  have hpayload := stored.payloadSize_eq
  have hlen : (front ++ (stored.bytes ++ back)).length =
      front.length + (64 + stored.extra.length + stored.payload.length + back.length) := by
    rw [List.length_append, List.length_append, length_bytes]
  have hread : read entryHeader (front ++ (stored.bytes ++ back)) front.length =
      some stored.header := by
    refine read_eq_some.mpr ⟨by rw [size_entryHeader]; omega, ?_⟩
    rw [List.drop_left, bytes, List.append_assoc, entryHeader.decode_encode]
  have hslice : slice (front ++ (stored.bytes ++ back))
      (front.length + stored.header.headerSize.toNat) stored.header.payloadSize.toNat ≠ none :=
    Option.ne_none_iff_exists'.mpr ⟨_, slice_eq_some.mpr ⟨by omega, rfl⟩⟩
  unfold imageAt
  rw [hread, Option.bind_some, if_neg]
  · simp only [image, hheader, hpayload]
  · rintro (hlow | hhigh | hnone)
    · rw [size_entryHeader] at hlow
      omega
    · omega
    · exact hslice hnone

end StoredEntry

/-- The images of entries stored one behind the other from an offset on. -/
def layout : ℕ → List StoredEntry → List Image
  | _, [] => []
  | offset, stored :: rest => stored.image offset :: layout (offset + stored.bytes.length) rest

/-- A container with a well-formed header, within the length that is trusted. -/
structure StoredContainer where
  file : FileHeader
  /-- Bytes of the file header past its fields. -/
  extra : Bytes
  entries : List StoredEntry
  magic_eq : file.magic = kMagic
  headerSize_eq : file.headerSize.toNat = 16 + extra.length
  fatSize_eq : file.fatSize.toNat = (entries.flatMap StoredEntry.bytes).length
  fatSize_le : file.fatSize.toNat ≤ kMaxContainerSize
  entries_ne : entries ≠ []

namespace StoredContainer

variable (container : StoredContainer)

/-- The bytes of the container. -/
def bytes : Bytes :=
  (fileHeader.encode container.file ++ container.extra) ++
    container.entries.flatMap StoredEntry.bytes

/-- Its images, in the order they are stored. -/
def images : List Image :=
  layout container.file.headerSize.toNat container.entries

theorem length_header : (fileHeader.encode container.file ++ container.extra).length =
    container.file.headerSize.toNat := by
  rw [List.length_append, fileHeader.length_encode, size_fileHeader, container.headerSize_eq]

theorem length_bytes : container.bytes.length =
    container.file.headerSize.toNat + container.file.fatSize.toNat := by
  rw [bytes, List.length_append, container.length_header, container.fatSize_eq]

end StoredContainer

/-- The walk over a body as the relation its loop computes: from an offset it
reads images until an entry does not fit. A derivation is one finished run. -/
inductive Walk (body : Bytes) : ℕ → List Image → Prop
  | stop {offset : ℕ} (hnone : imageAt body offset = none) : Walk body offset []
  | next {offset : ℕ} {image : Image} {rest : List Image} (hsome : imageAt body offset = some image)
      (hrest : Walk body (image.payloadOffset + image.payloadSize) rest) :
      Walk body offset (image :: rest)

/-- Two finished runs from one offset read the same images. -/
theorem Walk.unique {body : Bytes} {offset : ℕ} {images images' : List Image}
    (h : Walk body offset images) (h' : Walk body offset images') : images = images' := by
  induction h generalizing images' with
  | stop hnone =>
    cases h' with
    | stop _ => rfl
    | next hsome _ => cases hnone.symm.trans hsome
  | next hsome _ ih =>
    cases h' with
    | stop hnone => cases hnone.symm.trans hsome
    | next hsome' hrest' =>
      cases hsome.symm.trans hsome'
      rw [ih hrest']

/-- With more fuel than bytes left, what the walk reads is a finished run. -/
theorem walk_imagesFrom {body : Bytes} {fuel offset : ℕ} (hfuel : body.length < fuel + offset) :
    Walk body offset (imagesFrom body fuel offset) := by
  induction fuel generalizing offset with
  | zero =>
    refine Walk.stop ?_
    cases hi : imageAt body offset with
    | none => rfl
    | some image =>
      obtain ⟨_, hroom, hfit, _⟩ := imageAt_eq_some hi
      omega
  | succ fuel ih =>
    rw [imagesFrom]
    cases hi : imageAt body offset with
    | none => exact Walk.stop hi
    | some image =>
      obtain ⟨_, hroom, _, _⟩ := imageAt_eq_some hi
      exact Walk.next hi (ih (by omega))

/-- Entries stored to the end of a body are walked one by one. -/
theorem walk_flatMap (front : Bytes) (entries : List StoredEntry) :
    Walk (front ++ entries.flatMap StoredEntry.bytes) front.length (layout front.length entries) := by
  induction entries generalizing front with
  | nil =>
    refine Walk.stop ?_
    cases hi : imageAt (front ++ [].flatMap StoredEntry.bytes) front.length with
    | none => rfl
    | some image =>
      obtain ⟨_, hroom, hfit, _⟩ := imageAt_eq_some hi
      rw [List.flatMap_nil, List.append_nil] at hfit
      omega
  | cons stored rest ih =>
    have hbody : front ++ (stored :: rest).flatMap StoredEntry.bytes =
        (front ++ stored.bytes) ++ rest.flatMap StoredEntry.bytes := by
      rw [List.flatMap_cons, List.append_assoc]
    have hhere : imageAt (front ++ (stored :: rest).flatMap StoredEntry.bytes) front.length =
        some (stored.image front.length) := by
      rw [List.flatMap_cons]
      exact stored.imageAt_append front _
    have hnext := ih (front ++ stored.bytes)
    rw [← hbody, List.length_append] at hnext
    refine Walk.next hhere ?_
    have hend : (stored.image front.length).payloadOffset + (stored.image front.length).payloadSize =
        front.length + stored.bytes.length := by
      rw [StoredEntry.length_bytes]
      simp only [StoredEntry.image]
      omega
    rw [hend]
    exact hnext

/-- Images that tile a region from a start on: each header begins where the
payload before it ended, and none reaches past the region's end. -/
def Tiles (stop : ℕ) : ℕ → List Image → Prop
  | _, [] => True
  | start, image :: rest =>
    image.headerOffset = start ∧ image.headerOffset + 64 ≤ image.payloadOffset ∧
      image.payloadOffset + image.payloadSize ≤ stop ∧
      Tiles stop (image.payloadOffset + image.payloadSize) rest

/-- The images of a walk tile the body from where it began. -/
theorem Walk.tiles {body : Bytes} {offset : ℕ} {images : List Image} (h : Walk body offset images) :
    Tiles body.length offset images := by
  induction h with
  | stop _ => exact trivial
  | next hsome _ ih =>
    obtain ⟨hoff, hroom, hfit, _⟩ := imageAt_eq_some hsome
    exact ⟨hoff, hoff ▸ hroom, hfit, ih⟩

namespace StoredContainer

variable (container : StoredContainer)

theorem images_ne : container.images ≠ [] := by
  have hne := container.entries_ne
  unfold images
  cases hentries : container.entries with
  | nil => exact absurd hentries hne
  | cons stored rest => simp only [layout, ne_eq, reduceCtorEq, not_false_eq_true]

theorem fatSize_ne : container.file.fatSize ≠ 0 := by
  intro hzero
  have hfat := container.fatSize_eq
  rw [hzero, UInt64.toNat_zero] at hfat
  cases hentries : container.entries with
  | nil => exact container.entries_ne hentries
  | cons stored rest =>
    rw [hentries, List.flatMap_cons, List.length_append, StoredEntry.length_bytes] at hfat
    omega

/-- The header is validated again, whatever follows the container. -/
theorem containerHeader_bytes (rest : Bytes) :
    containerHeader (container.bytes ++ rest) = some container.file := by
  have hheader := container.headerSize_eq
  have hlen := container.length_bytes
  refine containerHeader_eq_some.mpr
    ⟨?_, container.magic_eq, by omega, container.fatSize_ne, container.fatSize_le⟩
  refine read_eq_some.mpr ⟨by rw [size_fileHeader, List.length_append]; omega, ?_⟩
  rw [List.drop_zero, bytes, List.append_assoc, List.append_assoc, fileHeader.decode_encode]

/-- What was written is described: one image for each entry. -/
theorem describe_bytes (rest : Bytes) :
    describe (container.bytes ++ rest) = some container.images := by
  have hlen := container.length_bytes
  have hheader := container.containerHeader_bytes rest
  have hsize : containerSize (container.bytes ++ rest) = container.bytes.length := by
    unfold containerSize
    rw [hheader]
    exact hlen.symm
  have hwalk : Walk container.bytes container.file.headerSize.toNat container.images := by
    have hentries := walk_flatMap (fileHeader.encode container.file ++ container.extra)
      container.entries
    rw [container.length_header] at hentries
    exact hentries
  have hread : Walk container.bytes container.file.headerSize.toNat
      (imagesFrom container.bytes (container.bytes.length + 1) container.file.headerSize.toNat) :=
    walk_imagesFrom (by omega)
  refine describe_eq_some.mpr ⟨container.file, hheader, ?_, container.images_ne, ?_⟩
  · rw [hsize, List.length_append]
    omega
  · rw [hsize, List.take_left]
    exact hwalk.unique hread

end StoredContainer

/-- A container's images are exactly its entries, and the images of any
accepted blob are those of a finished walk that tiles the length it states. -/
theorem describe_format :
    (∀ (container : StoredContainer) (rest : Bytes),
      describe (container.bytes ++ rest) =
        some (layout container.file.headerSize.toNat container.entries)) ∧
      ∀ (blob : Bytes) (images : List Image), describe blob = some images →
        ∃ header, containerHeader blob = some header ∧
          header.headerSize.toNat + header.fatSize.toNat ≤ blob.length ∧
          Walk (blob.take (header.headerSize.toNat + header.fatSize.toNat))
            header.headerSize.toNat images ∧
          Tiles (header.headerSize.toNat + header.fatSize.toNat) header.headerSize.toNat images := by
  refine ⟨fun container rest => container.describe_bytes rest, fun blob images himages => ?_⟩
  obtain ⟨header, hheader, hfit, _, hfrom⟩ := describe_eq_some.mp himages
  have hsize : containerSize blob = header.headerSize.toNat + header.fatSize.toNat := by
    unfold containerSize
    rw [hheader]
  rw [hsize] at hfit hfrom
  have hbody : (blob.take (header.headerSize.toNat + header.fatSize.toNat)).length =
      header.headerSize.toNat + header.fatSize.toNat := by
    rw [List.length_take, min_eq_left hfit]
  have hwalk : Walk (blob.take (header.headerSize.toNat + header.fatSize.toNat))
      header.headerSize.toNat images := by
    rw [hfrom]
    exact walk_imagesFrom (by omega)
  have htiles := hwalk.tiles
  rw [hbody] at htiles
  exact ⟨header, hheader, hfit, hwalk, htiles⟩

/-- A cubin with four bytes behind its header's fields. -/
def sampleCubin : StoredEntry where
  header := ⟨2, 0, 68, 8, 0, 0, 0, 89, (0, 0), 0, 0, 0⟩
  extra := [1, 2, 3, 4]
  payload := [0x7F, 0x45, 0x4C, 0x46, 0, 0, 0, 0]
  headerSize_eq := rfl
  headerSize_le := (by decide : (68 : UInt32).toNat ≤ kMaxEntryHeaderSize)
  payloadSize_eq := rfl

/-- A compressed module of PTX. -/
def samplePtx : StoredEntry where
  header := ⟨kKindPtx, 0, 64, 8, 5, 0, 0, 120, (0, 0), kFlagCompressed, 0, 40⟩
  extra := []
  payload := [0x50, 0, 0, 0, 0, 0, 0, 0]
  headerSize_eq := rfl
  headerSize_le := (by decide : (64 : UInt32).toNat ≤ kMaxEntryHeaderSize)
  payloadSize_eq := rfl

/-- A container of the two. -/
def cubinAndPtx : StoredContainer where
  file := ⟨kMagic, 1, 18, 148⟩
  extra := [9, 9]
  entries := [sampleCubin, samplePtx]
  magic_eq := rfl
  headerSize_eq := rfl
  fatSize_eq := rfl
  fatSize_le := (by decide : (148 : UInt64).toNat ≤ kMaxContainerSize)
  entries_ne := List.cons_ne_nil _ _

/-- Both are described, and tile the container, with other bytes behind it. -/
theorem describe_format_cubinAndPtx :
    (describe (cubinAndPtx.bytes ++ [1, 2, 3]) =
        some [⟨false, 89, false, 18, 86, 8, 0, 0⟩, ⟨true, 120, true, 94, 158, 8, 5, 40⟩]) ∧
      ∃ header, containerHeader (cubinAndPtx.bytes ++ [1, 2, 3]) = some header ∧
        header.headerSize.toNat + header.fatSize.toNat ≤ (cubinAndPtx.bytes ++ [1, 2, 3]).length ∧
        Walk ((cubinAndPtx.bytes ++ [1, 2, 3]).take
          (header.headerSize.toNat + header.fatSize.toNat)) header.headerSize.toNat
          cubinAndPtx.images ∧
        Tiles (header.headerSize.toNat + header.fatSize.toNat) header.headerSize.toNat
          cubinAndPtx.images :=
  ⟨describe_format.1 cubinAndPtx [1, 2, 3],
    describe_format.2 _ _ (describe_format.1 cubinAndPtx [1, 2, 3])⟩

end OpenDlssg.ContainerFormat
