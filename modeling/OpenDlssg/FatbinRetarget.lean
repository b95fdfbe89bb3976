import OpenDlssg.ByteSearch
import OpenDlssg.ContainerFormat
import OpenDlssg.FatbinContainer

/-!
# Retargeting PTX: rewriting the directive and rebuilding the container

The target directive of a PTX module is rewritten in place, and a container is
rebuilt around the one module that was. The LZ4 decompressor and the order the
standard sort leaves equal architectures in are not this code's: the first is
a parameter, the second any sort that keeps its contract.
-/

namespace OpenDlssg.FatbinRetarget

open ByteCodec ByteSearch FatbinContainer ContainerFormat

/-- What a retargeting attempt learned, for the log and the caller. -/
structure Report where
  images : UInt32 := 0
  /-- Architecture the chosen image was built for. -/
  sourceArch : UInt32 := 0
  alreadyRunnable : Bool := false
  /-- The replacement is one of the runtime's own images, used as shipped. -/
  native : Bool := false

/-- Which PTX a container is retargeted from, when it carries several. -/
inductive PtxSource where
  /-- The lowest architecture above the GPU. -/
  | closest
  /-- The highest architecture with the closest one's kernel interface. -/
  | newest
  deriving DecidableEq

/-- The directive that names a PTX module's architecture. -/
def kTargetDirective : Bytes := ascii ".target sm_"

/-- The directive every PTX module opens with. -/
def kVersionDirective : Bytes := ascii ".version "

/-- The declarations that fix how a module is launched. -/
def kDirectives : List Bytes :=
  [ascii ".visible", ascii ".entry", ascii ".param", ascii ".maxntid", ascii ".reqntid",
    ascii ".minnctapersm", ascii ".maxnreg", ascii ".shared", ascii ".extern", ascii ".global",
    ascii ".const"]

/-- nvcc aligns every payload to 8 bytes. -/
def kPayloadAlignment : ℕ := 8

/-- Opening bytes of a blob in which PTX text is looked for. -/
def kHeaderWindow : ℕ := 4096

/-- A sort of images by architecture, as the standard sort promises it: a
permutation, ascending, with equal architectures in any order. -/
structure ArchSort where
  sort : List Image → List Image
  perm : ∀ images, (sort images).Perm images
  sorted : ∀ images, (sort images).Pairwise fun a b => a.arch ≤ b.arch

/-- Sorting by insertion keeps the contract. -/
def ArchSort.insertion : ArchSort where
  sort := List.insertionSort fun a b => a.arch ≤ b.arch
  perm := List.perm_insertionSort _
  sorted images := by
    have htotal : Std.Total fun a b : Image => a.arch ≤ b.arch := ⟨fun a b => UInt32.le_total a.arch b.arch⟩
    have htrans : IsTrans Image fun a b => a.arch ≤ b.arch := ⟨fun _ _ _ => UInt32.le_trans⟩
    exact List.pairwise_insertionSort _ images

/-- Rewrite the digits of every target directive at or after a position. -/
def rewriteFrom (replacement : Bytes) : ℕ → Bytes → ℕ → Bool → Bytes × Bool
  | 0, text, _, rewritten => (text, rewritten)
  | fuel + 1, text, position, rewritten =>
    match findFrom kTargetDirective text position with
    | none => (text, rewritten)
    | some start =>
      let digits := start + kTargetDirective.length
      let count := (digitRun text digits).length
      if count = 0 then rewriteFrom replacement fuel text digits rewritten
      else
        rewriteFrom replacement fuel
          (text.take digits ++ replacement ++ text.drop (digits + count)) digits true

/-- Rewrite the architecture in a module's target directive, and whether there
was one to rewrite. -/
def rewriteTargetDirective (ptx : Bytes) (arch : UInt32) : Bytes × Bool :=
  rewriteFrom (toDecimal arch.toNat) (ptx.length + 1) ptx 0 false

/-- The launch declarations of a module, one a line. -/
def interface (ptx : Bytes) : Bytes :=
  (ptx.splitOn 10).flatMap fun line =>
    let text := (line.dropWhile fun c => c == 32 || c == 9).rdropWhile fun c =>
      c == 32 || c == 9 || c == 13
    if kDirectives.any fun directive => directive.isPrefixOf text then text ++ [10] else []

section Lz4

-- LZ4 decompression into a buffer of the given capacity: the bytes written,
-- absent when the stream is rejected.
variable (lz4 : Bytes → ℕ → Option Bytes)

/-- Decompress to the exact length an image claims. -/
def decompress (input : Bytes) (outSize : ℕ) : Option Bytes :=
  if input.length > kMaxContainerSize ∨ outSize > kMaxContainerSize then none
  else (lz4 input outSize).filter fun out => decide (out.length = outSize)

/-- The payload of an image, decompressed. -/
def payload (container : Bytes) (image : Image) : Option Bytes :=
  let stored := (container.drop image.payloadOffset).take image.payloadSize
  if image.compressed then
    if image.compressedSize > stored.length then none
    else decompress lz4 (stored.take image.compressedSize) image.decompressedSize
  else some stored

/-- The image and module to rewrite: the closest, or the newest whose launch
declarations are the closest one's. -/
def chosenSource (container : Bytes) (choice : PtxSource) (closest : Image) (newer : List Image)
    (ptx : Bytes) : Image × Bytes :=
  match choice with
  | .closest => (closest, ptx)
  | .newest =>
    (newer.reverse.findSome? fun image =>
      (payload lz4 container image).bind fun text =>
        if interface text = interface ptx then some (image, text) else none).getD (closest, ptx)

end Lz4

/-- Fill a module with zeros up to the payload alignment. -/
def padded (ptx : Bytes) : Bytes :=
  ptx.rightpad
    ((ptx.length + kPayloadAlignment - 1) / kPayloadAlignment * kPayloadAlignment) 0

/-- The source's headers around one uncompressed module for `arch`. -/
def rebuild (container : Bytes) (source : Image) (arch : UInt32) (ptx : Bytes) : Option Bytes :=
  (read entryHeader container source.headerOffset).bind fun entry =>
    (containerHeader container).map fun file =>
      let entryExtra := (container.drop (source.headerOffset + entryHeader.size)).take
        (entry.headerSize.toNat - entryHeader.size)
      let fileExtra := (container.drop fileHeader.size).take
        (file.headerSize.toNat - fileHeader.size)
      let entry' := { entry with
        payloadSize := UInt64.ofNat ptx.length
        compressedSize := 0
        arch := arch
        flags := entry.flags &&& ~~~kFlagCompressed
        decompressedSize := 0 }
      let file' := { file with fatSize := UInt64.ofNat (entry.headerSize.toNat + ptx.length) }
      fileHeader.encode file' ++ fileExtra ++ entryHeader.encode entry' ++ entryExtra ++ ptx

/-- Rebuild a container around a single PTX image for `arch`. Nothing is
produced when it already holds an image the GPU can run, which the report
says, when it holds no PTX, or when it does not parse. -/
def retarget (lz4 : Bytes → ℕ → Option Bytes) (order : ArchSort) (container : Bytes)
    (arch : UInt32) (choice : PtxSource) (report : Report) : Option Bytes × Report :=
  match describe container with
  | none => (none, report)
  | some images =>
    let counted := { report with images := UInt32.ofNat images.length }
    if images.any fun image => canRun image.isPtx image.arch arch then
      (none, { counted with alreadyRunnable := true })
    else
      match order.sort (images.filter (·.isPtx)) with
      | [] => (none, counted)
      | closest :: newer =>
        match payload lz4 container closest with
        | none => (none, counted)
        | some ptx =>
          let source := chosenSource lz4 container choice closest newer ptx
          let chosen := { counted with sourceArch := source.1.arch }
          let rewritten := rewriteTargetDirective source.2 arch
          if rewritten.2 then (rebuild container source.1 arch (padded rewritten.1), chosen)
          else (none, chosen)

/-- The source's `from_chars` into a 32-bit number that starts at 0: a run that
is empty or does not fit leaves it there. -/
def fromChars (text : Bytes) : UInt32 :=
  if decimalValue (digitRun text 0) < 2 ^ 32 then UInt32.ofNat (decimalValue (digitRun text 0))
  else 0

/-- Rewrite plain PTX text for `arch`. Nothing is produced when the GPU can run
it as it is, which the report says, or when the blob is not PTX text. -/
def retargetPtxText (blob : Bytes) (arch : UInt32) (report : Report) : Option Bytes × Report :=
  let head := blob.take kHeaderWindow
  match find kVersionDirective head, find kTargetDirective head with
  | some _, some target =>
    let sourceArch := fromChars (head.drop (target + kTargetDirective.length))
    if sourceArch = 0 then (none, report)
    else
      let counted := { report with images := 1 }
      if canRun true sourceArch arch then (none, { counted with alreadyRunnable := true })
      else
        let rewritten := rewriteTargetDirective blob arch
        if rewritten.2 then (some rewritten.1, { counted with sourceArch := sourceArch })
        else (none, counted)
  | _, _ => (none, report)

/-- Once a directive was rewritten the result stays rewritten. -/
theorem rewriteFrom_rewritten (replacement : Bytes) (fuel : ℕ) (text : Bytes) (position : ℕ) :
    (rewriteFrom replacement fuel text position true).2 = true := by
  induction fuel generalizing text position with
  | zero => rfl
  | succ fuel ih =>
    rw [rewriteFrom]
    split
    · rfl
    · dsimp only
      split
      · exact ih _ _
      · exact ih _ _

/-- The directive is eleven characters long. -/
theorem length_kTargetDirective : kTargetDirective.length = 11 := by decide

/-- A first directive with digits is rewritten. -/
theorem rewriteTargetDirective_of_find {ptx : Bytes} {arch : UInt32} {start : ℕ}
    (hfind : find kTargetDirective ptx = some start)
    (hdigits : digitRun ptx (start + kTargetDirective.length) ≠ []) :
    (rewriteTargetDirective ptx arch).2 = true := by
  have hcount : (digitRun ptx (start + kTargetDirective.length)).length ≠ 0 := fun h =>
    hdigits (List.length_eq_zero_iff.mp h)
  rw [rewriteTargetDirective, rewriteFrom, findFrom_zero, hfind]
  dsimp only
  rw [if_neg hcount]
  exact rewriteFrom_rewritten _ _ _ _

/-- A run of digits ends inside the text. -/
theorem digitRun_room (text : Bytes) (position : ℕ) (h : position ≤ text.length) :
    position + (digitRun text position).length ≤ text.length := by
  have hpart : (digitRun text position).Sublist (text.drop position) := List.takeWhile_sublist _
  have hle := hpart.length_le
  rw [List.length_drop] at hle
  omega

/-- Replacing a run of digits keeps what comes before it in place. -/
theorem length_replaced {text : Bytes} (replacement : Bytes) {digits count : ℕ}
    (h : digits + count ≤ text.length) :
    (text.take digits ++ replacement ++ text.drop (digits + count)).length + count =
      text.length + replacement.length := by
  rw [List.length_append, List.length_append, List.length_take, List.length_drop]
  omega

/-- Every rewritten directive spends more characters than it can add, so the
rewriting ends by itself: fuel beyond what is left changes nothing. -/
theorem rewriteFrom_fuel {replacement : Bytes} (hrep : replacement.length ≤ 10) {fuel fuel' : ℕ}
    {text : Bytes} {position : ℕ} {rewritten : Bool} (hfuel : text.length < fuel + position)
    (hfuel' : text.length < fuel' + position) :
    rewriteFrom replacement fuel text position rewritten =
      rewriteFrom replacement fuel' text position rewritten := by
  induction fuel generalizing fuel' text position rewritten with
  | zero =>
    have hend : findFrom kTargetDirective text position = none := by
      rw [findFrom, if_pos (by omega)]
    cases fuel' with
    | zero => rfl
    | succ fuel' => rw [rewriteFrom, rewriteFrom, hend]
  | succ fuel ih =>
    cases hfind : findFrom kTargetDirective text position with
    | none =>
      cases fuel' with
      | zero => rw [rewriteFrom, rewriteFrom, hfind]
      | succ fuel' => rw [rewriteFrom, rewriteFrom, hfind]
    | some start =>
      have hroom := findFrom_room hfind
      have hlen := length_kTargetDirective
      cases fuel' with
      | zero => omega
      | succ fuel' =>
        rw [rewriteFrom, rewriteFrom, hfind]
        dsimp only
        split
        · exact ih (by omega) (by omega)
        · rename_i hcount
          have hrun := digitRun_room text (start + kTargetDirective.length) (by omega)
          have hnew := length_replaced replacement hrun
          exact ih (by omega) (by omega)

/-- A rewritten text is at most six times as long as the original. -/
theorem length_rewriteFrom_le {replacement : Bytes} (hrep : replacement.length ≤ 10) (fuel : ℕ)
    (text : Bytes) (position : ℕ) (rewritten : Bool) (hpos : position ≤ text.length) :
    (rewriteFrom replacement fuel text position rewritten).1.length ≤
      text.length + 5 * (text.length - position) := by
  induction fuel generalizing text position rewritten with
  | zero => exact Nat.le_add_right _ _
  | succ fuel ih =>
    rw [rewriteFrom]
    cases hfind : findFrom kTargetDirective text position with
    | none =>
      dsimp only
      omega
    | some start =>
      have hroom := findFrom_room hfind
      have hlen := length_kTargetDirective
      dsimp only
      split
      · have hnext := ih text (start + kTargetDirective.length) rewritten (by omega)
        omega
      · rename_i hcount
        have hrun := digitRun_room text (start + kTargetDirective.length) (by omega)
        have hnew := length_replaced replacement hrun
        refine (ih _ (start + kTargetDirective.length) true (by omega)).trans ?_
        omega

/-- A rewritten module is at most six times as long as the original. -/
theorem length_rewriteTargetDirective_le (ptx : Bytes) (arch : UInt32) :
    (rewriteTargetDirective ptx arch).1.length ≤ 6 * ptx.length := by
  have h := length_rewriteFrom_le (length_toDecimal_le arch) (ptx.length + 1) ptx 0 false
    (Nat.zero_le _)
  unfold rewriteTargetDirective
  omega

/-- Padding adds fewer than eight bytes. -/
theorem length_padded_le (ptx : Bytes) : (padded ptx).length ≤ ptx.length + 7 := by
  unfold padded kPayloadAlignment
  rw [List.length_rightpad]
  omega

/-- A container that holds exactly one entry, of kind PTX and for `arch`. -/
structure SinglePtxContainer (arch : UInt32) where
  file : FileHeader
  /-- Bytes of the file header past its fields. -/
  fileExtra : Bytes
  entry : EntryHeader
  /-- Bytes of the entry header past its fields. -/
  entryExtra : Bytes
  /-- The module, stored as it is. -/
  ptx : Bytes
  magic_eq : file.magic = kMagic
  fileHeader_size : file.headerSize.toNat = 16 + fileExtra.length
  fatSize_eq : file.fatSize.toNat = entry.headerSize.toNat + ptx.length
  kind_eq : entry.kind = kKindPtx
  arch_eq : entry.arch = arch
  entryHeader_size : entry.headerSize.toNat = 64 + entryExtra.length
  entryHeader_max : entry.headerSize.toNat ≤ kMaxEntryHeaderSize
  payloadSize_eq : entry.payloadSize.toNat = ptx.length
  stored : entry.flags &&& kFlagCompressed = 0

namespace SinglePtxContainer

variable {arch : UInt32} (container : SinglePtxContainer arch)

/-- The bytes of the container. -/
def bytes : Bytes :=
  fileHeader.encode container.file ++ (container.fileExtra ++
    (entryHeader.encode container.entry ++ (container.entryExtra ++ container.ptx)))

/-- The image a walk over the container reports. -/
def image : Image where
  isPtx := true
  arch := arch
  compressed := false
  headerOffset := container.file.headerSize.toNat
  payloadOffset := container.file.headerSize.toNat + container.entry.headerSize.toNat
  payloadSize := container.ptx.length
  compressedSize := 0
  decompressedSize := 0

theorem length_bytes : container.bytes.length =
    container.file.headerSize.toNat + container.file.fatSize.toNat := by
  have hfile := fileHeader.length_encode container.file
  have hentry := entryHeader.length_encode container.entry
  rw [size_fileHeader] at hfile
  rw [size_entryHeader] at hentry
  have h₁ := container.fileHeader_size
  have h₂ := container.fatSize_eq
  have h₃ := container.entryHeader_size
  simp only [bytes, List.length_append]
  omega

/-- The entry stands right after the file header. -/
theorem drop_bytes : container.bytes.drop container.file.headerSize.toNat =
    entryHeader.encode container.entry ++ (container.entryExtra ++ container.ptx) := by
  have hlen : (fileHeader.encode container.file ++ container.fileExtra).length =
      container.file.headerSize.toNat := by
    rw [List.length_append, fileHeader.length_encode, size_fileHeader, container.fileHeader_size]
  rw [bytes, ← List.append_assoc, List.drop_left' hlen]

/-- Its entry, as any container stores one. -/
def storedEntry : StoredEntry where
  header := container.entry
  extra := container.entryExtra
  payload := container.ptx
  headerSize_eq := container.entryHeader_size
  headerSize_le := container.entryHeader_max
  payloadSize_eq := container.payloadSize_eq

theorem bytes_storedEntry : [container.storedEntry].flatMap StoredEntry.bytes =
    entryHeader.encode container.entry ++ (container.entryExtra ++ container.ptx) := by
  rw [List.flatMap_singleton]
  rfl

theorem fatSize_storedEntry : container.file.fatSize.toNat =
    ([container.storedEntry].flatMap StoredEntry.bytes).length := by
  rw [List.flatMap_singleton, StoredEntry.length_bytes, container.fatSize_eq,
    container.entryHeader_size]
  rfl

/-- The container within the length that is trusted, as one of a single entry. -/
def storedContainer (hmax : container.file.fatSize.toNat ≤ kMaxContainerSize) :
    StoredContainer where
  file := container.file
  extra := container.fileExtra
  entries := [container.storedEntry]
  magic_eq := container.magic_eq
  headerSize_eq := container.fileHeader_size
  fatSize_eq := container.fatSize_storedEntry
  fatSize_le := hmax
  entries_ne := List.cons_ne_nil _ _

/-- The entry is the image described. -/
theorem image_storedEntry :
    container.storedEntry.image container.file.headerSize.toNat = container.image := by
  have hsize := container.entryHeader_size
  simp only [storedEntry, StoredEntry.image, image, container.stored, container.kind_eq,
    container.arch_eq, hsize, beq_self_eq_true, bne_self_eq_false, Bool.false_eq_true, if_false]

/-- What was written is read back: a container within the length limit is
described as its one image. -/
theorem describe_bytes (hmax : container.file.fatSize.toNat ≤ kMaxContainerSize) :
    describe container.bytes = some [container.image] := by
  have hbytes : (container.storedContainer hmax).bytes = container.bytes := by
    dsimp only [StoredContainer.bytes, storedContainer]
    rw [container.bytes_storedEntry, bytes, List.append_assoc]
  have hdescribe := (container.storedContainer hmax).describe_bytes []
  rw [List.append_nil, hbytes] at hdescribe
  have himages : (container.storedContainer hmax).images = [container.image] := by
    dsimp only [StoredContainer.images, storedContainer, layout]
    rw [container.image_storedEntry]
  rw [hdescribe, himages]

end SinglePtxContainer

/-- Clearing the compression flag leaves it clear. -/
theorem flags_stored (flags : UInt64) : flags &&& ~~~kFlagCompressed &&& kFlagCompressed = 0 := by
  rw [UInt64.and_assoc, UInt64.and_comm (~~~kFlagCompressed), UInt64.and_not_self, UInt64.and_zero]

/-- A container rebuilt around a PTX image of an accepted one keeps the input's
headers, but for the fields that describe the one module it holds. -/
theorem rebuild_parts {container ptx out : Bytes} {images : List Image} {source : Image}
    {arch : UInt32} (hdescribe : describe container = some images) (hmem : source ∈ images)
    (hptx : source.isPtx = true) (hlen : ptx.length < 2 ^ 40)
    (hout : rebuild container source arch ptx = some out) :
    ∃ (file : FileHeader) (entry : EntryHeader) (rebuilt : SinglePtxContainer arch),
      read fileHeader container 0 = some file ∧
      read entryHeader container source.headerOffset = some entry ∧ rebuilt.bytes = out ∧
      rebuilt.file = { file with fatSize := rebuilt.file.fatSize } ∧
      rebuilt.fileExtra = (container.drop fileHeader.size).take
        (file.headerSize.toNat - fileHeader.size) ∧
      rebuilt.entry = { entry with
        payloadSize := rebuilt.entry.payloadSize
        compressedSize := 0
        arch := arch
        flags := entry.flags &&& ~~~kFlagCompressed
        decompressedSize := 0 } ∧
      rebuilt.entryExtra = (container.drop (source.headerOffset + entryHeader.size)).take
        (entry.headerSize.toNat - entryHeader.size) ∧ rebuilt.ptx = ptx := by
  obtain ⟨entry, hread, hrest⟩ := Option.bind_eq_some_iff.mp hout
  obtain ⟨file, hfile, hbytes⟩ := Option.map_eq_some_iff.mp hrest
  obtain ⟨entry', hread', hoff, hkind, _, hlow, hmax, hfit⟩ := read_of_mem_describe hdescribe hmem
  have hentry : entry' = entry := Option.some.inj (hread'.symm.trans hread)
  rw [hentry] at hoff hkind hlow hmax
  obtain ⟨_, hsome, hle, _, _⟩ := describe_eq_some.mp hdescribe
  have hsize : containerSize container = file.headerSize.toNat + file.fatSize.toNat := by
    rw [containerSize, hfile]
  obtain ⟨hreadFile, hmagic, hheader, _, _⟩ := containerHeader_eq_some.mp hfile
  have hpayload : (UInt64.ofNat ptx.length).toNat = ptx.length :=
    UInt64.toNat_ofNat_of_lt' (by rw [UInt64.size]; omega)
  have hmax' : entry.headerSize.toNat ≤ 0x200 := hmax
  have hfat : (UInt64.ofNat (entry.headerSize.toNat + ptx.length)).toNat =
      entry.headerSize.toNat + ptx.length :=
    UInt64.toNat_ofNat_of_lt' (by rw [UInt64.size]; omega)
  have hkindPtx : entry.kind = kKindPtx := by
    rw [hptx] at hkind
    exact beq_iff_eq.mp hkind.symm
  refine ⟨file, entry,
    { file := { file with fatSize := UInt64.ofNat (entry.headerSize.toNat + ptx.length) }
      fileExtra := (container.drop fileHeader.size).take (file.headerSize.toNat - fileHeader.size)
      entry := { entry with
        payloadSize := UInt64.ofNat ptx.length
        compressedSize := 0
        arch := arch
        flags := entry.flags &&& ~~~kFlagCompressed
        decompressedSize := 0 }
      entryExtra := (container.drop (source.headerOffset + entryHeader.size)).take
        (entry.headerSize.toNat - entryHeader.size)
      ptx := ptx
      magic_eq := hmagic
      fileHeader_size := ?_
      fatSize_eq := hfat
      kind_eq := hkindPtx
      arch_eq := rfl
      entryHeader_size := ?_
      entryHeader_max := hmax
      payloadSize_eq := hpayload
      stored := flags_stored entry.flags }, hreadFile, hread, ?_, rfl, rfl, rfl, rfl, rfl⟩
  · rw [List.length_take, List.length_drop, size_fileHeader]
    dsimp only
    omega
  · rw [List.length_take, List.length_drop, size_entryHeader]
    dsimp only
    omega
  · rw [← hbytes]
    simp only [SinglePtxContainer.bytes, List.append_assoc]

/-- A container rebuilt around a PTX image of an accepted one holds that single
image, stored as it is, for the architecture asked for. -/
theorem rebuild_eq_some {container ptx out : Bytes} {images : List Image} {source : Image}
    {arch : UInt32} (hdescribe : describe container = some images) (hmem : source ∈ images)
    (hptx : source.isPtx = true) (hlen : ptx.length < 2 ^ 40)
    (hout : rebuild container source arch ptx = some out) :
    ∃ rebuilt : SinglePtxContainer arch, rebuilt.bytes = out := by
  obtain ⟨_, _, rebuilt, _, _, hbytes, _⟩ := rebuild_parts hdescribe hmem hptx hlen hout
  exact ⟨rebuilt, hbytes⟩

/-- A payload is never longer than a container may be. -/
theorem length_payload_le {lz4 : Bytes → ℕ → Option Bytes} {container ptx : Bytes}
    {images : List Image} {image : Image} (hdescribe : describe container = some images)
    (hmem : image ∈ images) (hptx : payload lz4 container image = some ptx) :
    ptx.length ≤ 2 ^ 29 := by
  unfold payload at hptx
  dsimp only at hptx
  split at hptx
  · split at hptx
    · cases hptx
    · unfold decompress at hptx
      split at hptx
      · cases hptx
      · rename_i hbound
        have hlen := of_decide_eq_true (Option.filter_eq_some_iff.mp hptx).2
        have hmax : image.decompressedSize ≤ kMaxContainerSize := by omega
        rw [hlen]
        exact hmax.trans (by rw [kMaxContainerSize]; omega)
  · obtain ⟨header, hheader, _, _, _⟩ := describe_eq_some.mp hdescribe
    obtain ⟨_, _, _, _, _, _, _, hfit⟩ := read_of_mem_describe hdescribe hmem
    obtain ⟨_, _, _, _, hfat⟩ := containerHeader_eq_some.mp hheader
    have hsize : containerSize container = header.headerSize.toNat + header.fatSize.toNat := by
      rw [containerSize, hheader]
    have hsmall := header.headerSize.toNat_lt
    have hlen := congrArg List.length (Option.some.inj hptx)
    rw [List.length_take] at hlen
    rw [kMaxContainerSize] at hfat
    omega

/-- The module rewritten is the payload of one of the candidates. -/
theorem chosenSource_spec {lz4 : Bytes → ℕ → Option Bytes} {container ptx : Bytes}
    (choice : PtxSource) {closest : Image} (newer : List Image)
    (hptx : payload lz4 container closest = some ptx) :
    (chosenSource lz4 container choice closest newer ptx).1 ∈ closest :: newer ∧
      payload lz4 container (chosenSource lz4 container choice closest newer ptx).1 =
        some (chosenSource lz4 container choice closest newer ptx).2 := by
  unfold chosenSource
  cases choice with
  | closest => exact ⟨List.mem_cons_self, hptx⟩
  | newest =>
    dsimp only
    cases hfound : newer.reverse.findSome? fun image =>
        (payload lz4 container image).bind fun text =>
          if interface text = interface ptx then some (image, text) else none with
    | none => exact ⟨List.mem_cons_self, hptx⟩
    | some found =>
      obtain ⟨image, hmem, hsome⟩ := List.exists_of_findSome?_eq_some hfound
      obtain ⟨text, htext, hsame⟩ := Option.bind_eq_some_iff.mp hsome
      split at hsame
      · cases hsame
        exact ⟨List.mem_cons_of_mem _ (List.mem_reverse.mp hmem), htext⟩
      · cases hsame

/-- A container that is retargeted holds nothing that can run, and is rebuilt
around the chosen source's module, rewritten. -/
theorem retarget_inv {lz4 : Bytes → ℕ → Option Bytes} {order : ArchSort} {container : Bytes}
    {arch : UInt32} {choice : PtxSource} {report : Report} {out : Bytes}
    (h : (retarget lz4 order container arch choice report).1 = some out) :
    ∃ images closest newer ptx source, describe container = some images ∧
      (∀ image ∈ images, canRun image.isPtx image.arch arch = false) ∧
      order.sort (images.filter (·.isPtx)) = closest :: newer ∧
      payload lz4 container closest = some ptx ∧
      chosenSource lz4 container choice closest newer ptx = source ∧
      (rewriteTargetDirective source.2 arch).2 = true ∧
      rebuild container source.1 arch (padded (rewriteTargetDirective source.2 arch).1) = some out ∧
      (retarget lz4 order container arch choice report).2 =
        { report with images := UInt32.ofNat images.length, sourceArch := source.1.arch } := by
  unfold retarget at h ⊢
  cases hdescribe : describe container with
  | none =>
    rw [hdescribe] at h
    cases h
  | some images =>
    rw [hdescribe] at h
    dsimp only at h ⊢
    split at h
    · cases h
    · rename_i hrun
      have hnone : ∀ image ∈ images, canRun image.isPtx image.arch arch = false := by
        intro image hin
        have hno := mt (fun hc => List.any_eq_true.mpr ⟨image, hin, hc⟩) hrun
        exact Bool.eq_false_iff.mpr hno
      rw [if_neg hrun]
      cases hsort : order.sort (images.filter (·.isPtx)) with
      | nil =>
        rw [hsort] at h
        cases h
      | cons closest newer =>
        rw [hsort] at h
        dsimp only at h ⊢
        cases hptx : payload lz4 container closest with
        | none =>
          rw [hptx] at h
          cases h
        | some ptx =>
          rw [hptx] at h
          dsimp only at h ⊢
          split at h
          · rename_i hrewritten
            exact ⟨images, closest, newer, ptx, _, rfl, hnone, hsort, hptx, rfl, hrewritten, h,
              by rw [if_pos hrewritten]⟩
          · cases h

/-- A retargeted container holds a single PTX image for the architecture asked
for, and is produced only when nothing in the original could run. -/
theorem retarget_eq_some {lz4 : Bytes → ℕ → Option Bytes} {order : ArchSort} {container : Bytes}
    {arch : UInt32} {choice : PtxSource} {report : Report} {out : Bytes}
    (h : (retarget lz4 order container arch choice report).1 = some out) :
    (∃ rebuilt : SinglePtxContainer arch, rebuilt.bytes = out) ∧
      ∃ images, describe container = some images ∧
        ∀ image ∈ images, canRun image.isPtx image.arch arch = false := by
  obtain ⟨images, closest, newer, ptx, source, hdescribe, hnone, hsort, hptx, hsource, _, hrebuild, _⟩ :=
    retarget_inv h
  obtain ⟨hmem, hpayload⟩ := chosenSource_spec choice newer hptx
  rw [hsource] at hmem hpayload
  rw [← hsort] at hmem
  obtain ⟨himage, hisPtx⟩ := List.mem_filter.mp ((order.perm _).mem_iff.mp hmem)
  have hsmall := length_payload_le hdescribe himage hpayload
  have hrewritten := length_rewriteTargetDirective_le source.2 arch
  have hpadded := length_padded_le (rewriteTargetDirective source.2 arch).1
  exact ⟨rebuild_eq_some hdescribe himage hisPtx (by omega) hrebuild, images, hdescribe, hnone⟩

/-- A container is reported runnable only when one of its images can run. -/
theorem retarget_alreadyRunnable {lz4 : Bytes → ℕ → Option Bytes} {order : ArchSort}
    {container : Bytes} {arch : UInt32} {choice : PtxSource} {report : Report}
    (hfresh : report.alreadyRunnable = false)
    (h : (retarget lz4 order container arch choice report).2.alreadyRunnable = true) :
    ∃ images, describe container = some images ∧
      ∃ image ∈ images, canRun image.isPtx image.arch arch = true := by
  unfold retarget at h
  cases hdescribe : describe container with
  | none =>
    rw [hdescribe] at h
    rw [hfresh] at h
    cases h
  | some images =>
    rw [hdescribe] at h
    dsimp only at h
    split at h
    · rename_i hrun
      exact ⟨images, rfl, List.any_eq_true.mp hrun⟩
    · have hquiet : report.alreadyRunnable = true := by
        split at h
        · exact h
        · split at h
          · exact h
          · split at h
            · exact h
            · exact h
      rw [hfresh] at hquiet
      cases hquiet

end OpenDlssg.FatbinRetarget
