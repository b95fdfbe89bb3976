import OpenDlssg.CheckedCubin
import OpenDlssg.FatbinRetarget

/-!
# The container parser with its preconditions checked

Describing and retargeting a container again, statement by statement, with
every access, every sum and every narrowing they make checked, but for the one
sum that is meant to wrap: of a line of carriage returns alone a declaration
adds 1 to `npos` and keeps nothing. What a walk over a container has validated
is what retargeting it relies on. The one failure left is the standard library's
own, of a text that grows past what a string may hold.
-/

namespace OpenDlssg.CheckedFatbin

open ByteCodec ByteSearch FatbinContainer FatbinRetarget CheckedSpans

/-- The header of a container. Absent when it does not validate. -/
def containerHeader (data : Bytes) : Checked (Option FileHeader) := do
  let header ← read fileHeader data 0
  if header.isNone then .ok none
  else do
    let h ← deref header
    if h.magic != kMagic || decide (h.headerSize.toNat < fileHeader.size) || h.fatSize == 0 ||
        decide (h.fatSize.toNat > kMaxContainerSize) then .ok none
    else .ok header

/-- Total container length taken from its own header, 0 when it does not validate. -/
def containerSize (blob : Bytes) : Checked ℕ := do
  let header ← containerHeader blob
  if header.isSome then do
    let h ← deref header
    sum h.headerSize.toNat h.fatSize.toNat
  else .ok 0

/-- The image whose entry header stands at an offset of a container's body. -/
def imageAt (body : Bytes) (offset : ℕ) : Checked (Option Image) := do
  let entry ← read entryHeader body offset
  if entry.isNone then .ok none
  else do
    let e ← deref entry
    if e.headerSize.toNat < entryHeader.size ∨ e.headerSize.toNat > kMaxEntryHeaderSize then .ok none
    else do
      let payloadOffset ← sum offset e.headerSize.toNat
      let stored ← slice body payloadOffset e.payloadSize.toNat
      if stored.isNone then .ok none
      else
        let compressed := e.flags &&& kFlagCompressed != 0
        .ok (some
          { isPtx := e.kind == kKindPtx
            arch := e.arch
            compressed := compressed
            headerOffset := offset
            payloadOffset := payloadOffset
            payloadSize := e.payloadSize.toNat
            compressedSize := if compressed then e.compressedSize.toNat else 0
            decompressedSize := if compressed then e.decompressedSize.toNat else 0 })

/-- The images from an offset on, until an entry does not fit. -/
def imagesFrom (body : Bytes) : ℕ → ℕ → Checked (List Image)
  | 0, _ => .ok []
  | fuel + 1, offset => do
    let found ← imageAt body offset
    match found with
    | none => .ok []
    | some image => do
      let next ← sum image.payloadOffset image.payloadSize
      let rest ← imagesFrom body fuel next
      .ok (image :: rest)

/-- Every image of a container, absent when it does not parse or holds none. -/
def describe (container : Bytes) : Checked (Option (List Image)) := do
  let header ← containerHeader container
  if header.isNone then .ok none
  else do
    let h ← deref header
    if h.headerSize.toNat > container.length then .ok none
    else do
      let room ← difference container.length h.headerSize.toNat
      if h.fatSize.toNat > room then .ok none
      else do
        let stop ← sum h.headerSize.toNat h.fatSize.toNat
        let body ← first container stop
        let images ← imagesFrom body (stop + 1) h.headerSize.toNat
        .ok (if images.isEmpty then none else some images)

/-- Position of the first character at or after a position that is no digit. -/
def firstNotDigit (text : Bytes) (position : ℕ) : Option ℕ :=
  let stop := position + (digitRun text position).length
  if stop < text.length then some stop else none

/-- Rewrite the digits of every target directive at or after a position. -/
def rewriteFrom (replacement : Bytes) : ℕ → Bytes → ℕ → Bool → Checked (Bytes × Bool)
  | 0, text, _, rewritten => .ok (text, rewritten)
  | fuel + 1, text, position, rewritten =>
    match findFrom kTargetDirective text position with
    | none => .ok (text, rewritten)
    | some start => do
      let digits ← sum start kTargetDirective.length
      let count ← difference (min ((firstNotDigit text digits).getD text.length) text.length) digits
      if count = 0 then rewriteFrom replacement fuel text digits rewritten
      else do
        let edited ← replaced text digits count replacement
        rewriteFrom replacement fuel edited digits true

/-- Rewrite the architecture in a module's target directive, and whether there
was one to rewrite. -/
def rewriteTargetDirective (ptx : Bytes) (arch : UInt32) : Checked (Bytes × Bool) :=
  if ptx.length > kMaxStringSize then .error .lengthError
  else rewriteFrom (toDecimal arch.toNat) (ptx.length + 1) ptx 0 false

/-- A space or a tab. -/
def isBlank (c : UInt8) : Bool := c == 32 || c == 9

/-- A character trimmed from the end of a line. -/
def isTrailing (c : UInt8) : Bool := c == 32 || c == 9 || c == 13

/-- The declaration a line opens with, closed by a line feed; empty when it
opens with none. -/
def declaration (line : Bytes) : Checked Bytes :=
  if line.dropWhile isBlank = [] then .ok []
  else do
    let text ← suffix line (line.takeWhile isBlank).length
    -- the source's `find_last_not_of + 1`, left unchecked: `npos + 1` is 0
    let kept ← first text (text.rdropWhile isTrailing).length
    .ok (if kDirectives.any fun directive => directive.isPrefixOf kept then kept ++ [10] else [])

/-- The launch declarations of a module from a position on. -/
def interfaceFrom (text : Bytes) : ℕ → ℕ → Checked Bytes
  | 0, _ => .ok []
  | fuel + 1, start =>
    if start < text.length then do
      let stop := start + ((text.drop start).takeWhile (· != 10)).length
      let length ← difference stop start
      let rest ← suffix text start
      let next ← sum stop 1
      let line ← declaration (rest.take length)
      let more ← interfaceFrom text fuel next
      .ok (line ++ more)
    else .ok []

/-- The launch declarations of a module, one a line. -/
def interface (ptx : Bytes) : Checked Bytes := interfaceFrom ptx (ptx.length + 1) 0

section Lz4

variable (lz4 : Bytes → ℕ → Option Bytes)

/-- Decompress to the exact length an image claims. -/
def decompress (input : Bytes) (outSize : ℕ) : Checked (Option Bytes) :=
  if input.length > kMaxContainerSize ∨ outSize > kMaxContainerSize then .ok none
  else do
    let _ ← toInt input.length
    let capacity ← toInt outSize
    .ok ((lz4 input capacity).filter fun out => decide (out.length = outSize))

/-- The payload of an image, decompressed. -/
def payload (container : Bytes) (image : Image) : Checked (Option Bytes) := do
  let stored ← subspan container image.payloadOffset image.payloadSize
  if image.compressed then
    if image.compressedSize > stored.length then .ok none
    else do
      let stream ← first stored image.compressedSize
      decompress lz4 stream image.decompressedSize
  else .ok (some stored)

/-- The newest candidate at or below an index, but the first, whose launch
declarations are the given ones. -/
def newestFrom (container : Bytes) (candidates : List Image) (wanted : Bytes) :
    ℕ → Checked (Option (Image × Bytes))
  | 0 => .ok none
  | i + 1 => do
    let image ← element candidates (i + 1)
    let newer ← payload lz4 container image
    if newer.isSome then do
      let text ← deref newer
      let declared ← interface text
      if declared = wanted then .ok (some (image, text))
      else newestFrom container candidates wanted i
    else newestFrom container candidates wanted i

/-- The image and module to rewrite. -/
def chosenSource (container : Bytes) (choice : PtxSource) (candidates : List Image) (closest : Image)
    (ptx : Bytes) : Checked (Image × Bytes) :=
  match choice with
  | .closest => .ok (closest, ptx)
  | .newest => do
    let wanted ← interface ptx
    let last ← difference candidates.length 1
    let found ← newestFrom lz4 container candidates wanted last
    .ok (found.getD (closest, ptx))

end Lz4

/-- Fill a module with zeros up to the payload alignment. -/
def padded (ptx : Bytes) : Checked Bytes := do
  let length ← sum ptx.length (kPayloadAlignment - 1)
  .ok (ptx.rightpad (length / kPayloadAlignment * kPayloadAlignment) 0)

/-- The source's headers around one uncompressed module for `arch`. -/
def rebuild (container : Bytes) (source : Image) (arch : UInt32) (ptx : Bytes) : Checked Bytes := do
  let stored ← read entryHeader container source.headerOffset
  let entry ← deref stored
  let extraOffset ← sum source.headerOffset entryHeader.size
  let extraSize ← difference entry.headerSize.toNat entryHeader.size
  let entryExtra ← subspan container extraOffset extraSize
  let header ← containerHeader container
  let file ← deref header
  let fileExtraSize ← difference file.headerSize.toNat fileHeader.size
  let fatSize ← sum entry.headerSize.toNat ptx.length
  let fileExtra ← subspan container fileHeader.size fileExtraSize
  let entry' := { entry with
    payloadSize := UInt64.ofNat ptx.length
    compressedSize := 0
    arch := arch
    flags := entry.flags &&& ~~~kFlagCompressed
    decompressedSize := 0 }
  let file' := { file with fatSize := UInt64.ofNat fatSize }
  .ok (fileHeader.encode file' ++ fileExtra ++ entryHeader.encode entry' ++ entryExtra ++ ptx)

/-- Rebuild a container around a single PTX image for `arch`. -/
def retarget (lz4 : Bytes → ℕ → Option Bytes) (order : ArchSort) (container : Bytes)
    (arch : UInt32) (choice : PtxSource) (report : Report) : Checked (Option Bytes × Report) := do
  let described ← describe container
  match described with
  | none => .ok (none, report)
  | some images =>
    let counted := { report with images := UInt32.ofNat images.length }
    if images.any fun image => canRun image.isPtx image.arch arch then
      .ok (none, { counted with alreadyRunnable := true })
    else
      let candidates := order.sort (images.filter (·.isPtx))
      if candidates.isEmpty then .ok (none, counted)
      else do
        let closest ← element candidates 0
        let stored ← payload lz4 container closest
        if stored.isNone then .ok (none, counted)
        else do
          let ptx ← deref stored
          let source ← chosenSource lz4 container choice candidates closest ptx
          let chosen := { counted with sourceArch := source.1.arch }
          let rewritten ← rewriteTargetDirective source.2 arch
          if rewritten.2 then do
            let text ← padded rewritten.1
            let out ← rebuild container source.1 arch text
            .ok (some out, chosen)
          else .ok (none, chosen)

/-- Rewrite plain PTX text for `arch`. -/
def retargetPtxText (blob : Bytes) (arch : UInt32) (report : Report) :
    Checked (Option Bytes × Report) := do
  let head ← first blob (min blob.length kHeaderWindow)
  match find kVersionDirective head, find kTargetDirective head with
  | some _, some target => do
    let position ← sum target kTargetDirective.length
    let digits ← suffix head position
    let sourceArch := fromChars digits
    if sourceArch = 0 then .ok (none, report)
    else
      let counted := { report with images := 1 }
      if canRun true sourceArch arch then .ok (none, { counted with alreadyRunnable := true })
      else do
        let rewritten ← rewriteTargetDirective blob arch
        if rewritten.2 then .ok (some rewritten.1, { counted with sourceArch := sourceArch })
        else .ok (none, counted)
  | _, _ => .ok (none, report)

theorem containerHeader_eq (data : Bytes) :
    containerHeader data = .ok (FatbinContainer.containerHeader data) := by
  unfold containerHeader FatbinContainer.containerHeader
  rw [read_eq, ok_bind]
  cases ByteCodec.read fileHeader data 0 with
  | none => rfl
  | some header =>
    rw [if_neg (by simp), deref_some, ok_bind, Option.filter_some]
    split
    · rename_i hbad
      rw [if_neg]
      simp only [Bool.or_eq_true, bne_iff_ne, beq_iff_eq, decide_eq_true_eq] at hbad
      simp only [Bool.and_eq_true, beq_iff_eq, bne_iff_ne, decide_eq_true_eq, not_and, not_le]
      intro hmagic
      obtain ⟨⟨hmagic, hsize⟩, hfat⟩ := hmagic
      rcases hbad with ((hne | hlt) | hzero) | hgt
      · exact absurd hmagic hne
      · omega
      · exact absurd hzero hfat
      · exact hgt
    · rename_i hgood
      rw [if_pos]
      simp only [Bool.or_eq_true, bne_iff_ne, beq_iff_eq, decide_eq_true_eq, not_or, not_not,
        not_lt] at hgood
      simp only [Bool.and_eq_true, beq_iff_eq, bne_iff_ne, decide_eq_true_eq]
      exact hgood

/-- What a validated header says of the sizes it states. -/
theorem sizes_of_containerHeader {data : Bytes} {header : FileHeader}
    (h : FatbinContainer.containerHeader data = some header) :
    header.headerSize.toNat < 2 ^ 16 ∧ header.fatSize.toNat ≤ 2 ^ 28 := by
  obtain ⟨_, _, _, _, hfat⟩ := containerHeader_eq_some.mp h
  exact ⟨header.headerSize.toNat_lt, hfat⟩

/-- The two lengths a validated header states add up without wrapping. -/
theorem containerSize_eq (blob : Bytes) :
    containerSize blob = .ok (FatbinContainer.containerSize blob) := by
  unfold containerSize FatbinContainer.containerSize
  rw [containerHeader_eq, ok_bind]
  cases hh : FatbinContainer.containerHeader blob with
  | none => rfl
  | some header =>
    obtain ⟨hheader, hfat⟩ := sizes_of_containerHeader hh
    rw [if_pos (by rfl), deref_some, ok_bind, sum_eq (by omega)]

/-- An entry is read and its payload located without wrapping. -/
theorem imageAt_eq {body : Bytes} (hlen : body.length ≤ 2 ^ 63) (offset : ℕ) :
    imageAt body offset = .ok (FatbinContainer.imageAt body offset) := by
  unfold imageAt FatbinContainer.imageAt
  rw [read_eq, ok_bind]
  cases hread : ByteCodec.read entryHeader body offset with
  | none => rfl
  | some entry =>
    have hroom := (read_eq_some.mp hread).1
    rw [if_neg (by simp), deref_some, ok_bind, Option.bind_some]
    by_cases hsize : entry.headerSize.toNat < entryHeader.size ∨
        entry.headerSize.toNat > kMaxEntryHeaderSize
    · rw [if_pos hsize, if_pos (by tauto)]
    · have hmax : entry.headerSize.toNat ≤ 0x200 := by
        rw [kMaxEntryHeaderSize] at hsize
        omega
      rw [if_neg hsize, sum_eq (by omega), ok_bind, slice_eq, ok_bind]
      cases hslice : ByteCodec.slice body (offset + entry.headerSize.toNat) entry.payloadSize.toNat with
      | none => rw [if_pos (by rfl), if_pos (by tauto)]
      | some stored =>
        rw [if_neg (by simp), if_neg (by simpa using not_or.mp hsize)]

/-- The walk steps over each payload without wrapping. -/
theorem imagesFrom_eq {body : Bytes} (hlen : body.length ≤ 2 ^ 63) (fuel offset : ℕ) :
    imagesFrom body fuel offset = .ok (FatbinContainer.imagesFrom body fuel offset) := by
  induction fuel generalizing offset with
  | zero => rfl
  | succ fuel ih =>
    rw [imagesFrom, FatbinContainer.imagesFrom, imageAt_eq hlen, ok_bind]
    cases himage : FatbinContainer.imageAt body offset with
    | none => rfl
    | some image =>
      obtain ⟨_, _, hfit, _⟩ := imageAt_eq_some himage
      dsimp only
      rw [sum_eq (by omega), ok_bind, ih, ok_bind]

/-- A container is described within the length it states. -/
theorem describe_eq (container : Bytes) :
    describe container = .ok (FatbinContainer.describe container) := by
  unfold describe FatbinContainer.describe
  rw [containerHeader_eq, ok_bind]
  cases hh : FatbinContainer.containerHeader container with
  | none => rfl
  | some header =>
    obtain ⟨hheader, hfat⟩ := sizes_of_containerHeader hh
    rw [if_neg (by simp), deref_some, ok_bind, Option.bind_some]
    by_cases hlong : header.headerSize.toNat > container.length
    · rw [if_pos hlong, if_pos (Or.inl hlong)]
    · rw [if_neg hlong, difference_eq (by omega), ok_bind]
      by_cases hroom : header.fatSize.toNat > container.length - header.headerSize.toNat
      · rw [if_pos hroom, if_pos (Or.inr hroom)]
      · have hbody : (container.take (header.headerSize.toNat + header.fatSize.toNat)).length ≤ 2 ^ 63 := by
          rw [List.length_take]
          omega
        rw [if_neg hroom, if_neg (not_or.mpr ⟨hlong, hroom⟩), sum_eq (by omega), ok_bind,
          first_eq (by omega), ok_bind, imagesFrom_eq hbody, ok_bind]

/-- A run of digits ends where the first other character stands, or the text ends. -/
theorem runEnd_eq {text : Bytes} {digits : ℕ} (h : digits ≤ text.length) :
    min ((firstNotDigit text digits).getD text.length) text.length =
      digits + (digitRun text digits).length := by
  have hroom := digitRun_room text digits h
  unfold firstNotDigit
  dsimp only
  split
  · rw [Option.getD_some]
    omega
  · rw [Option.getD_none]
    omega

/-- Rewriting edits the text inside it, and asks for no string too long but
where the library says so. -/
theorem rewriteFrom_safe (replacement : Bytes) (fuel : ℕ) {text : Bytes}
    (hlen : text.length ≤ kMaxStringSize) (position : ℕ) (rewritten : Bool) :
    Safe (rewriteFrom replacement fuel text position rewritten)
      (FatbinRetarget.rewriteFrom replacement fuel text position rewritten) := by
  have hmax : kMaxStringSize < 2 ^ 63 := by decide
  induction fuel generalizing text position rewritten with
  | zero => exact .ok _
  | succ fuel ih =>
    rw [rewriteFrom, FatbinRetarget.rewriteFrom]
    cases hfind : findFrom kTargetDirective text position with
    | none => exact .ok _
    | some start =>
      have hroom := (findFrom_room hfind).2
      dsimp only
      rw [sum_eq (by omega), ok_bind, runEnd_eq hroom, difference_eq (by omega), ok_bind,
        Nat.add_sub_cancel_left]
      by_cases hcount : (digitRun text (start + kTargetDirective.length)).length = 0
      · rw [if_pos hcount, if_pos hcount]
        exact ih hlen _ _
      · have hrun := digitRun_room text (start + kTargetDirective.length) hroom
        rw [if_neg hcount, if_neg hcount, replaced, if_pos hrun]
        split
        · rename_i hshort
          rw [ok_bind]
          exact ih hshort _ _
        · exact Or.inr rfl

theorem rewriteTargetDirective_safe (ptx : Bytes) (arch : UInt32) :
    Safe (rewriteTargetDirective ptx arch) (FatbinRetarget.rewriteTargetDirective ptx arch) := by
  unfold rewriteTargetDirective FatbinRetarget.rewriteTargetDirective
  split
  · exact Or.inr rfl
  · rename_i hlen
    exact rewriteFrom_safe _ _ (Nat.le_of_not_lt hlen) _ _

/-- The declaration a line opens with, as the interface takes it. -/
def lineDeclaration (line : Bytes) : Bytes :=
  let text := (line.dropWhile isBlank).rdropWhile isTrailing
  if kDirectives.any fun directive => directive.isPrefixOf text then text ++ [10] else []

theorem declaration_eq (line : Bytes) : declaration line = .ok (lineDeclaration line) := by
  have hdrop : line.drop (line.takeWhile isBlank).length = line.dropWhile isBlank := by
    have hsplit := List.takeWhile_append_dropWhile (p := isBlank) (l := line)
    calc line.drop (line.takeWhile isBlank).length
        = (line.takeWhile isBlank ++ line.dropWhile isBlank).drop (line.takeWhile isBlank).length := by
          rw [hsplit]
      _ = line.dropWhile isBlank := List.drop_left
  unfold declaration lineDeclaration
  split
  · rename_i hblank
    rw [hblank]
    rfl
  · have hprefix := List.rdropWhile_prefix isTrailing (l := line.dropWhile isBlank)
    have hkept := List.prefix_iff_eq_take.mp hprefix
    rw [suffix_eq (List.takeWhile_sublist _).length_le, ok_bind, hdrop, first_eq hprefix.length_le, ok_bind,
      ← hkept]

/-- The interface is what its lines declare. -/
theorem interface_eq_flatMap (ptx : Bytes) :
    FatbinRetarget.interface ptx = (ptx.splitOn 10).flatMap lineDeclaration := rfl

/-- A text is its first line, and what stands behind the line feed that ends it. -/
theorem splitOn_line (text : Bytes) : text.splitOn 10 =
    text.takeWhile (· != 10) :: (match text.dropWhile (· != 10) with
      | [] => []
      | _ :: rest => rest.splitOn 10) := by
  have hline : (10 : UInt8) ∉ text.takeWhile (· != 10) := fun hmem =>
    bne_iff_ne.mp (List.mem_takeWhile_imp (p := fun b : UInt8 => b != 10) hmem) rfl
  have hsplit := List.takeWhile_append_dropWhile (p := fun b : UInt8 => b != 10) (l := text)
  cases hrest : text.dropWhile (· != 10) with
  | nil =>
    have hwhole : text.takeWhile (· != 10) = text := by
      rw [hrest, List.append_nil] at hsplit
      exact hsplit
    rw [hwhole] at hline
    rw [hwhole, List.splitOn_eq_singleton hline]
  | cons b rest =>
    have hb : b = 10 := by
      have hhead := List.head_dropWhile_not (fun b : UInt8 => b != 10) (l := text) (by rw [hrest]; simp)
      simpa [hrest] using hhead
    rw [hrest, hb] at hsplit
    dsimp only
    conv_lhs => rw [← hsplit]
    exact List.splitOn_append_cons_self_of_not_mem hline rest

/-- The loop over the lines reads them inside the text. -/
theorem interfaceFrom_eq {text : Bytes} (hlen : text.length < 2 ^ 63) {fuel start : ℕ}
    (hfuel : text.length < fuel + start) :
    interfaceFrom text fuel start = .ok (((text.drop start).splitOn 10).flatMap lineDeclaration) := by
  induction fuel generalizing start with
  | zero =>
    have hend : text.drop start = [] := List.drop_eq_nil_of_le (by omega)
    rw [hend]
    rfl
  | succ fuel ih =>
    rw [interfaceFrom]
    by_cases hstart : start < text.length
    · have hline := (List.takeWhile_sublist (fun b : UInt8 => b != 10) (l := text.drop start)).length_le
      have hprefix := List.prefix_iff_eq_take.mp
        (List.takeWhile_prefix (fun b : UInt8 => b != 10) (l := text.drop start))
      rw [List.length_drop] at hline
      rw [if_pos hstart]
      dsimp only
      rw [difference_eq (by omega), ok_bind, suffix_eq hstart.le, ok_bind, sum_eq (by omega), ok_bind,
        Nat.add_sub_cancel_left, ← hprefix, declaration_eq, ok_bind, ih (by omega), ok_bind,
        splitOn_line (text.drop start), List.flatMap_cons]
      have hsplit := List.takeWhile_append_dropWhile (p := fun b : UInt8 => b != 10) (l := text.drop start)
      have hrest : text.drop (start + ((text.drop start).takeWhile (· != 10)).length) =
          (text.drop start).dropWhile (· != 10) := by
        rw [← List.drop_drop]
        calc (text.drop start).drop ((text.drop start).takeWhile (· != 10)).length
            = ((text.drop start).takeWhile (· != 10) ++ (text.drop start).dropWhile (· != 10)).drop
                ((text.drop start).takeWhile (· != 10)).length := by rw [hsplit]
          _ = (text.drop start).dropWhile (· != 10) := List.drop_left
      rw [← List.drop_drop, hrest]
      cases (text.drop start).dropWhile (· != 10) with
      | nil => rfl
      | cons b rest => rfl
    · have hend : text.drop start = [] := List.drop_eq_nil_of_le (by omega)
      rw [if_neg hstart, hend]
      rfl

theorem interface_eq {ptx : Bytes} (hlen : ptx.length < 2 ^ 63) :
    interface ptx = .ok (FatbinRetarget.interface ptx) := by
  rw [interface, interfaceFrom_eq hlen (by omega), List.drop_zero, interface_eq_flatMap]

section Retarget

variable {lz4 : Bytes → ℕ → Option Bytes} {container : Bytes} {images : List Image}

/-- Lengths handed to the decompressor are no more than a container's, and so
no negative `int`. -/
theorem decompress_eq (lz4 : Bytes → ℕ → Option Bytes) (input : Bytes) (outSize : ℕ) :
    decompress lz4 input outSize = .ok (FatbinRetarget.decompress lz4 input outSize) := by
  have hmax : kMaxContainerSize = 2 ^ 28 := rfl
  unfold decompress FatbinRetarget.decompress
  by_cases hbound : input.length > kMaxContainerSize ∨ outSize > kMaxContainerSize
  · rw [if_pos hbound, if_pos hbound]
  · rw [if_neg hbound, if_neg hbound, toInt_eq (by omega), ok_bind, toInt_eq (by omega), ok_bind]

/-- The payload of an image a walk reported lies inside the container. -/
theorem payload_eq {image : Image} (hdescribe : FatbinContainer.describe container = some images)
    (hmem : image ∈ images) :
    payload lz4 container image = .ok (FatbinRetarget.payload lz4 container image) := by
  obtain ⟨_, _, hle, _, _⟩ := describe_eq_some.mp hdescribe
  obtain ⟨_, _, _, _, _, _, _, hfit⟩ := read_of_mem_describe hdescribe hmem
  unfold payload FatbinRetarget.payload
  rw [subspan_eq (by omega), ok_bind]
  dsimp only
  split
  · split
    · rfl
    · rename_i hstream
      rw [first_eq (by omega), ok_bind, decompress_eq]
  · rfl

/-- The loop over the newer candidates indexes them inside their vector. -/
theorem newestFrom_eq {candidates : List Image} (wanted : Bytes)
    (hdescribe : FatbinContainer.describe container = some images)
    (hmem : ∀ image ∈ candidates, image ∈ images) {last : ℕ} (hlast : last < candidates.length) :
    newestFrom lz4 container candidates wanted last =
      .ok (((candidates.take (last + 1)).tail.reverse).findSome? fun image =>
        (FatbinRetarget.payload lz4 container image).bind fun text =>
          if FatbinRetarget.interface text = wanted then some (image, text) else none) := by
  induction last with
  | zero =>
    cases candidates with
    | nil => cases hlast
    | cons closest newer => rfl
  | succ last ih =>
    have hitem : candidates[last + 1]? = some candidates[last + 1] := List.getElem?_eq_getElem hlast
    have himage : candidates[last + 1] ∈ images := hmem _ (List.getElem_mem hlast)
    have hgrow : (candidates.take (last + 1 + 1)).tail.reverse =
        candidates[last + 1] :: (candidates.take (last + 1)).tail.reverse := by
      rw [List.take_succ_eq_append_getElem hlast, List.tail_append_of_ne_nil, List.reverse_append]
      · rfl
      · rw [ne_eq, List.take_eq_nil_iff]
        rintro (hzero | hnil)
        · omega
        · rw [hnil] at hlast
          cases hlast
    rw [newestFrom, element_eq hitem, ok_bind, payload_eq hdescribe himage, ok_bind, hgrow,
      List.findSome?_cons, ih (by omega)]
    cases hpayload : FatbinRetarget.payload lz4 container candidates[last + 1] with
    | none => rfl
    | some text =>
      have hsmall := length_payload_le hdescribe himage hpayload
      rw [if_pos (by rfl), deref_some, ok_bind, interface_eq (by omega), ok_bind, Option.bind_some]
      split
      · rfl
      · rfl

/-- The source is chosen among the candidates. -/
theorem chosenSource_eq (choice : PtxSource) {closest : Image} {newer : List Image} {ptx : Bytes}
    (hdescribe : FatbinContainer.describe container = some images)
    (hmem : ∀ image ∈ closest :: newer, image ∈ images)
    (hptx : FatbinRetarget.payload lz4 container closest = some ptx) :
    chosenSource lz4 container choice (closest :: newer) closest ptx =
      .ok (FatbinRetarget.chosenSource lz4 container choice closest newer ptx) := by
  unfold chosenSource FatbinRetarget.chosenSource
  cases choice with
  | closest => rfl
  | newest =>
    have hsmall := length_payload_le hdescribe (hmem _ List.mem_cons_self) hptx
    dsimp only
    rw [interface_eq (by omega), ok_bind, difference_eq (by simp), ok_bind,
      newestFrom_eq _ hdescribe hmem (by simp), ok_bind, List.length_cons, Nat.add_sub_cancel,
      List.take_of_length_le (by simp), List.tail_cons]

theorem padded_eq {ptx : Bytes} (hlen : ptx.length < 2 ^ 63) :
    padded ptx = .ok (FatbinRetarget.padded ptx) := by
  unfold padded FatbinRetarget.padded
  have halign : kPayloadAlignment = 8 := rfl
  rw [sum_eq (by omega), ok_bind, Nat.add_sub_assoc (by omega)]

/-- The headers copied around a rewritten module lie inside the container. -/
theorem rebuild_eq (source : Image) (arch : UInt32) {ptx : Bytes} (hlen : ptx.length < 2 ^ 63)
    (hdescribe : FatbinContainer.describe container = some images) (hmem : source ∈ images) :
    ∃ out, rebuild container source arch ptx = .ok out ∧
      FatbinRetarget.rebuild container source arch ptx = some out := by
  obtain ⟨header, hheader, hle, _, _⟩ := describe_eq_some.mp hdescribe
  obtain ⟨entry, hread, hoff, _, _, hlow, hmax, hfit⟩ := read_of_mem_describe hdescribe hmem
  obtain ⟨_, _, hsize, _, _⟩ := containerHeader_eq_some.mp hheader
  have hstated : FatbinContainer.containerSize container =
      header.headerSize.toNat + header.fatSize.toNat := by
    rw [FatbinContainer.containerSize, hheader]
  obtain ⟨hsmall, hfat⟩ := sizes_of_containerHeader hheader
  have hentry := size_entryHeader
  have hfile := size_fileHeader
  have hmax' : entry.headerSize.toNat ≤ 0x200 := hmax
  have hout : ∃ out, FatbinRetarget.rebuild container source arch ptx = some out := by
    unfold FatbinRetarget.rebuild
    rw [hread, Option.bind_some, hheader, Option.map_some]
    exact ⟨_, rfl⟩
  obtain ⟨out, hout⟩ := hout
  refine ⟨out, ?_, hout⟩
  unfold FatbinRetarget.rebuild at hout
  rw [hread, Option.bind_some, hheader, Option.map_some] at hout
  rw [← Option.some.inj hout]
  unfold rebuild
  rw [read_eq, ok_bind, hread, deref_some, ok_bind, sum_eq (by omega), ok_bind,
    difference_eq (by omega), ok_bind, subspan_eq (by omega), ok_bind, containerHeader_eq, ok_bind,
    hheader, deref_some, ok_bind, difference_eq (by omega), ok_bind, sum_eq (by omega), ok_bind,
    subspan_eq (by omega), ok_bind]

/-- Retargeting reaches no further than the walk that described the container. -/
theorem retarget_safe (lz4 : Bytes → ℕ → Option Bytes) (order : ArchSort) (container : Bytes)
    (arch : UInt32) (choice : PtxSource) (report : Report) :
    Safe (retarget lz4 order container arch choice report)
      (FatbinRetarget.retarget lz4 order container arch choice report) := by
  unfold retarget FatbinRetarget.retarget
  rw [describe_eq, ok_bind]
  cases hdescribe : FatbinContainer.describe container with
  | none => exact .ok _
  | some images =>
    dsimp only
    split
    · exact .ok _
    · cases hsort : order.sort (images.filter (·.isPtx)) with
      | nil => exact .ok _
      | cons closest newer =>
        have hmem : ∀ image ∈ closest :: newer, image ∈ images := by
          intro image himage
          rw [← hsort] at himage
          exact List.mem_of_mem_filter ((order.perm _).mem_iff.mp himage)
        have hfirst : (closest :: newer)[0]? = some closest := rfl
        rw [if_neg (by simp), element_eq hfirst, ok_bind,
          payload_eq hdescribe (hmem _ List.mem_cons_self), ok_bind]
        dsimp only
        cases hptx : FatbinRetarget.payload lz4 container closest with
        | none => exact .ok _
        | some ptx =>
          obtain ⟨hchosen, htext⟩ := chosenSource_spec choice newer hptx
          rw [if_neg (by simp), deref_some, ok_bind, chosenSource_eq choice hdescribe hmem hptx, ok_bind]
          dsimp only
          generalize FatbinRetarget.chosenSource lz4 container choice closest newer ptx = source at *
          have hsource := hmem _ hchosen
          have hsmall := length_payload_le hdescribe hsource htext
          have hgrown := length_rewriteTargetDirective_le source.2 arch
          have hfilled := length_padded_le (FatbinRetarget.rewriteTargetDirective source.2 arch).1
          refine (rewriteTargetDirective_safe _ arch).bind ?_
          split
          · have hshort : (FatbinRetarget.padded
                (FatbinRetarget.rewriteTargetDirective source.2 arch).1).length < 2 ^ 63 := by omega
            obtain ⟨out, hrebuild, hmodel⟩ := rebuild_eq source.1 arch hshort hdescribe hsource
            rw [padded_eq (by omega), ok_bind, hrebuild, ok_bind, hmodel]
            exact .ok _
          · exact .ok _

/-- Rewriting plain text reaches no further than the text. -/
theorem retargetPtxText_safe (blob : Bytes) (arch : UInt32) (report : Report) :
    Safe (retargetPtxText blob arch report) (FatbinRetarget.retargetPtxText blob arch report) := by
  have hhead : blob.take (min blob.length kHeaderWindow) = blob.take kHeaderWindow := by
    rw [Nat.min_comm, ← List.take_take, List.take_length]
  have hwindow : kHeaderWindow = 4096 := rfl
  unfold retargetPtxText FatbinRetarget.retargetPtxText
  rw [first_eq (min_le_left _ _), ok_bind, hhead]
  dsimp only
  cases hversion : find kVersionDirective (blob.take kHeaderWindow) with
  | none => exact .ok _
  | some version =>
    cases htarget : find kTargetDirective (blob.take kHeaderWindow) with
    | none => exact .ok _
    | some target =>
      have hroom := find_room htarget
      have hshort := List.length_take_le kHeaderWindow blob
      dsimp only
      rw [sum_eq (by omega), ok_bind, suffix_eq hroom, ok_bind]
      split
      · exact .ok _
      · split
        · exact .ok _
        · refine (rewriteTargetDirective_safe blob arch).bind ?_
          split
          · exact .ok _
          · exact .ok _

end Retarget

/-- The bytes at a pointer, as many as its stated length, which is a `size_t`. -/
structure Stated where
  bytes : Bytes
  length_lt : bytes.length < 2 ^ 64

/-- Every image parser keeps to its input: with all preconditions checked it
returns what it returns without, and every section it hands out lies inside the
image, with its name inside the table of names. -/
structure StepsInside (lz4 : Bytes → ℕ → Option Bytes) (order : ArchSort) (blob : Stated)
    (arch : UInt32) (choice : PtxSource) (report : Report) : Prop where
  containerSize : containerSize blob.bytes = .ok (FatbinContainer.containerSize blob.bytes)
  describe : describe blob.bytes = .ok (FatbinContainer.describe blob.bytes)
  retarget : Safe (retarget lz4 order blob.bytes arch choice report)
    (FatbinRetarget.retarget lz4 order blob.bytes arch choice report)
  retargetPtxText : Safe (retargetPtxText blob.bytes arch report)
    (FatbinRetarget.retargetPtxText blob.bytes arch report)
  cubinArch : CheckedCubin.cubinArch blob.bytes = .ok (CubinImage.cubinArch blob.bytes)
  cubinSize : CheckedCubin.cubinSize blob.bytes = .ok (CubinImage.cubinSize blob.bytes)
  cubinSections : CheckedCubin.cubinSections blob.bytes = .ok (CubinImage.cubinSections blob.bytes)
  sections_inside : ∀ found ∈ CubinImage.cubinSections blob.bytes,
    ∃ (header : CubinImage.ElfHeader) (table entry : CubinImage.SectionHeader) (names : Bytes),
      CubinImage.cubinHeader blob.bytes = some header ∧
      CubinImage.sectionHeaderAt (blob.bytes.take (CubinImage.cubinSize blob.bytes)) header
        header.sectionNamesIndex.toNat = some table ∧
      table.offset.toNat + table.size.toNat ≤ CubinImage.cubinSize blob.bytes ∧
      names = (blob.bytes.drop table.offset.toNat).take table.size.toNat ∧
      (∃ index < header.sectionHeaderCount.toNat, CubinImage.sectionHeaderAt
        (blob.bytes.take (CubinImage.cubinSize blob.bytes)) header index = some entry) ∧
      CheckedCubin.Located blob.bytes found names entry

/-- The image parsers never step outside their input, whatever it holds. -/
theorem parsers_stepInside (lz4 : Bytes → ℕ → Option Bytes) (order : ArchSort) (blob : Stated)
    (arch : UInt32) (choice : PtxSource) (report : Report) :
    StepsInside lz4 order blob arch choice report where
  containerSize := containerSize_eq blob.bytes
  describe := describe_eq blob.bytes
  retarget := retarget_safe lz4 order blob.bytes arch choice report
  retargetPtxText := retargetPtxText_safe blob.bytes arch report
  cubinArch := CheckedCubin.cubinArch_eq blob.bytes
  cubinSize := CheckedCubin.cubinSize_eq blob.length_lt
  cubinSections := CheckedCubin.cubinSections_eq blob.length_lt
  sections_inside _ := CheckedCubin.located_of_mem

end OpenDlssg.CheckedFatbin
