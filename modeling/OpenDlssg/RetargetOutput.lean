import OpenDlssg.PtxSelection

/-!
# What a retargeting attempt writes

A failed attempt leaves its output alone. A successful one writes the input's
headers, changed only where they describe the one module left, around that
module with its target rewritten. The output is read back as written while it
stays within the length a container may state, which is not checked when it
is written.
-/

namespace OpenDlssg.RetargetOutput

open ByteCodec ByteSearch FatbinContainer FatbinRetarget MarkedText TargetDirective PtxSelection

section Attempt

variable (lz4 : Bytes → ℕ → Option Bytes) (order : ArchSort)

/-- A retargeting attempt with the buffer it writes: whether it succeeded, the
buffer and the report. -/
def retargetInto (container : Bytes) (arch : UInt32) (choice : PtxSource) (out : Bytes)
    (report : Report) : Bool × Bytes × Report :=
  match describe container with
  | none => (false, out, report)
  | some images =>
    let counted := { report with images := UInt32.ofNat images.length }
    if images.any fun image => canRun image.isPtx image.arch arch then
      (false, out, { counted with alreadyRunnable := true })
    else
      match order.sort (images.filter (·.isPtx)) with
      | [] => (false, out, counted)
      | closest :: newer =>
        match payload lz4 container closest with
        | none => (false, out, counted)
        | some ptx =>
          let source := chosenSource lz4 container choice closest newer ptx
          let chosen := { counted with sourceArch := source.1.arch }
          let rewritten := rewriteTargetDirective source.2 arch
          if rewritten.2 then
            match rebuild container source.1 arch (padded rewritten.1) with
            -- not reached: the headers were read before
            | none => (false, out, chosen)
            | some built => (true, built, chosen)
          else (false, out, chosen)

variable {lz4 order}

/-- The attempt writes what is produced, and nothing otherwise. -/
theorem retargetInto_eq (container : Bytes) (arch : UInt32) (choice : PtxSource) (out : Bytes)
    (report : Report) : retargetInto lz4 order container arch choice out report =
      ((retarget lz4 order container arch choice report).1.isSome,
        (retarget lz4 order container arch choice report).1.getD out,
        (retarget lz4 order container arch choice report).2) := by
  unfold retargetInto retarget
  cases describe container with
  | none => rfl
  | some images =>
    dsimp only
    split
    · rfl
    · cases order.sort (images.filter (·.isPtx)) with
      | nil => rfl
      | cons closest newer =>
        dsimp only
        cases payload lz4 container closest with
        | none => rfl
        | some ptx =>
          dsimp only
          split
          · cases rebuild container (chosenSource lz4 container choice closest newer ptx).1 arch
              (padded (rewriteTargetDirective
                (chosenSource lz4 container choice closest newer ptx).2 arch).1) with
            | none => rfl
            | some built => rfl
          · rfl

end Attempt

/-- A container made of an input's headers around one of its modules, rewritten. -/
structure RetargetedContainer (container : Bytes) (source : Image) (module : Bytes) (arch : UInt32)
    extends SinglePtxContainer arch where
  /-- The input's file header. -/
  inputFile : FileHeader
  /-- The source's entry header. -/
  inputEntry : EntryHeader
  /-- The module, cut at its target directives. -/
  cut : Cut targetMarker
  /-- How many zeros fill the module up. -/
  fill : ℕ
  file_read : read fileHeader container 0 = some inputFile
  file_eq : file = { inputFile with fatSize := file.fatSize }
  fileExtra_eq : fileExtra = (container.drop fileHeader.size).take
    (inputFile.headerSize.toNat - fileHeader.size)
  entry_read : read entryHeader container source.headerOffset = some inputEntry
  entry_eq : entry = { inputEntry with
    payloadSize := entry.payloadSize
    compressedSize := 0
    arch := arch
    flags := inputEntry.flags &&& ~~~kFlagCompressed
    decompressedSize := 0 }
  entryExtra_eq : entryExtra = (container.drop (source.headerOffset + entryHeader.size)).take
    (inputEntry.headerSize.toNat - entryHeader.size)
  cut_text : cut.text = module
  /-- At least one directive has a number to rewrite. -/
  cut_digits : ∃ tail ∈ cut.tails, opensWithDigit tail = true
  ptx_eq : ptx = (cut.withRuns (decimalRun arch)).text ++ List.replicate fill 0
  fill_lt : fill < kPayloadAlignment
  aligned : kPayloadAlignment ∣ ptx.length

/-- A padded module is the module and fewer than eight zeros. -/
theorem padded_eq (ptx : Bytes) : ∃ fill, padded ptx = ptx ++ List.replicate fill 0 ∧
    fill < kPayloadAlignment ∧ kPayloadAlignment ∣ (padded ptx).length := by
  refine ⟨_, rfl, ?_, ?_⟩
  · unfold kPayloadAlignment
    omega
  · unfold padded
    rw [List.length_rightpad]
    unfold kPayloadAlignment
    omega

section Output

variable {lz4 : Bytes → ℕ → Option Bytes} {order : ArchSort}

/-- What is produced is the input's headers around the source's module, rewritten. -/
theorem exists_retargetedContainer {container out : Bytes} {arch : UInt32} {choice : PtxSource}
    {report : Report} (h : (retarget lz4 order container arch choice report).1 = some out) :
    ∃ source module, retargetSource lz4 order container choice = some (source, module) ∧
      payload lz4 container source = some module ∧
      ∃ built : RetargetedContainer container source module arch, built.bytes = out := by
  obtain ⟨_, source, module, _, _, hsource, hdigits, hrebuild, _⟩ := retarget_some h
  obtain ⟨images, hdescribe, hmem, hptx, hmodule, _⟩ := rightSource_of_retargetSource hsource
  refine ⟨source, module, hsource, hmodule, ?_⟩
  obtain ⟨cut, hcut⟩ := exists_cut targetMarker module
  have hrewrite := rewriteTargetDirective_cut cut arch
  rw [hcut] at hrewrite
  have hsmall := length_payload_le hdescribe hmem hmodule
  have hrewritten := length_rewriteTargetDirective_le module arch
  have hpadded := length_padded_le (rewriteTargetDirective module arch).1
  obtain ⟨file, entry, rebuilt, hfile, hentry, hbytes, hfileEq, hfileExtra, hentryEq, hentryExtra,
    hptxEq⟩ := rebuild_parts hdescribe hmem hptx (by omega) hrebuild
  obtain ⟨fill, hfill, hlt, haligned⟩ := padded_eq (rewriteTargetDirective module arch).1
  rw [hrewrite] at hdigits
  rw [← hptxEq] at hfill haligned
  rw [hrewrite] at hfill
  exact ⟨
    { toSinglePtxContainer := rebuilt
      inputFile := file
      inputEntry := entry
      cut := cut
      fill := fill
      file_read := hfile
      file_eq := hfileEq
      fileExtra_eq := hfileExtra
      entry_read := hentry
      entry_eq := hentryEq
      entryExtra_eq := hentryExtra
      cut_text := hcut
      cut_digits := List.any_eq_true.mp hdigits
      ptx_eq := hfill
      fill_lt := hlt
      aligned := haligned }, hbytes⟩

end Output

/-- An attempt changes only what it must: its output stays as it was where it
fails, and is the input's headers around the source's module, rewritten, where
it succeeds. -/
theorem retargetInto_effect (lz4 : Bytes → ℕ → Option Bytes) (order : ArchSort)
    (container : Bytes) (arch : UInt32) (choice : PtxSource) (out : Bytes) (report : Report) :
    match retargetInto lz4 order container arch choice out report with
    | (false, written, _) => written = out
    | (true, written, _) => ∃ source module,
        retargetSource lz4 order container choice = some (source, module) ∧
        payload lz4 container source = some module ∧
        ∃ built : RetargetedContainer container source module arch, built.bytes = written := by
  rw [retargetInto_eq]
  cases hout : (retarget lz4 order container arch choice report).1 with
  | none => rfl
  | some built => exact exists_retargetedContainer hout

/-- The runs of digits behind the target directives of a module. -/
def targetRuns (module : Bytes) : List Bytes :=
  ((followings targetMarker module).map fun tail => tail.takeWhile isDigit).filter fun run =>
    !run.isEmpty

/-- The length of a module once its target is rewritten: every run of digits
becomes the architecture's. -/
def rewrittenLength (module : Bytes) (arch : UInt32) : ℕ :=
  module.length + (targetRuns module).length * (toDecimal arch.toNat).length -
    ((targetRuns module).map List.length).sum

/-- The length of a module filled up to the payload alignment. -/
def paddedLength (length : ℕ) : ℕ :=
  (length + kPayloadAlignment - 1) / kPayloadAlignment * kPayloadAlignment

/-- The runs of a cut module are those its parts open with. -/
theorem targetRuns_cut (cut : Cut targetMarker) : targetRuns cut.text =
    (cut.tails.map fun tail => tail.takeWhile isDigit).filter fun run => !run.isEmpty := by
  unfold targetRuns
  rw [followings_text]
  congr 1
  induction cut.tails with
  | nil => rfl
  | cons tail tails ih =>
    have hrun : (tail ++ marked targetMarker tails).takeWhile isDigit = tail.takeWhile isDigit :=
      takeWhile_append_marked targetMarker.notRun tail tails
    rw [suffixes, List.map_cons, List.map_cons, ih, hrun]

/-- What rewriting the parts adds is what the new runs take over the old ones. -/
theorem length_marked_withRun (run : targetMarker.Run) (tails : List Bytes) :
    (marked targetMarker (tails.map (withRun targetMarker run))).length +
        (((tails.map fun tail => tail.takeWhile isDigit).filter fun run => !run.isEmpty).map
          List.length).sum =
      (marked targetMarker tails).length +
        ((tails.map fun tail => tail.takeWhile isDigit).filter fun run => !run.isEmpty).length *
          run.1.length := by
  induction tails with
  | nil => simp
  | cons tail tails ih =>
    rw [List.map_cons, List.map_cons, marked_cons, marked_cons, List.filter_cons]
    by_cases hrun : tail.takeWhile isDigit = []
    · have hkept : withRun targetMarker run tail = tail := if_pos hrun
      rw [hkept, hrun, if_neg (by decide)]
      simp only [List.length_append]
      omega
    · have hreplaced : withRun targetMarker run tail = run.1 ++ tail.dropWhile isDigit := if_neg hrun
      have hsome : (!(tail.takeWhile isDigit).isEmpty) = true := opensWithDigit_iff.mpr hrun
      have hparts : (tail.takeWhile isDigit).length + (tail.dropWhile isDigit).length = tail.length := by
        rw [← List.length_append, List.takeWhile_append_dropWhile]
      rw [hreplaced, if_pos hsome, List.map_cons, List.sum_cons, List.length_cons, Nat.succ_mul]
      simp only [List.length_append]
      omega

/-- The rewritten module has the length its runs make up. -/
theorem length_rewriteTargetDirective (module : Bytes) (arch : UInt32) :
    (rewriteTargetDirective module arch).1.length = rewrittenLength module arch := by
  obtain ⟨cut, rfl⟩ := exists_cut targetMarker module
  have hparts := length_marked_withRun (decimalRun arch) cut.tails
  unfold rewrittenLength
  rw [rewriteTargetDirective_cut, targetRuns_cut]
  simp only [Cut.text, Cut.withRuns, List.length_append]
  have hrun : (decimalRun arch).1.length = (toDecimal arch.toNat).length := rfl
  rw [hrun] at hparts
  omega

/-- A length filled up to the next multiple of the alignment is the padded one. -/
theorem eq_paddedLength {length fill : ℕ} (hfill : fill < kPayloadAlignment)
    (haligned : kPayloadAlignment ∣ length + fill) : length + fill = paddedLength length := by
  unfold paddedLength
  unfold kPayloadAlignment at hfill haligned ⊢
  omega

/-- What is read back from a retargeted container: its own length, one PTX image
for the architecture, stored as it is up to the end, and nothing to retarget. -/
structure ParsesBack (out : Bytes) (arch : UInt32) : Prop where
  containerSize_eq : containerSize out = out.length
  describe_eq : ∃ image, describe out = some [image] ∧ image.isPtx = true ∧ image.arch = arch ∧
    image.compressed = false ∧ image.payloadOffset + image.payloadSize = out.length
  refused : ∀ (lz4 : Bytes → ℕ → Option Bytes) (order : ArchSort) (choice : PtxSource)
    (written : Bytes) (report : Report), retargetInto lz4 order out arch choice written report =
      (false, written, { report with images := 1, alreadyRunnable := true })

/-- The container a source is rebuilt into stays within the length that is read back. -/
def FitsContainer (source : Image) (module : Bytes) (arch : UInt32) : Prop :=
  source.payloadOffset - source.headerOffset + paddedLength (rewrittenLength module arch) ≤
    kMaxContainerSize

/-- A container of one PTX image for a GPU is read back while it is not too long. -/
theorem parsesBack_of_le {arch : UInt32} (harch : arch ≠ 0) (built : SinglePtxContainer arch)
    (hmax : built.file.fatSize.toNat ≤ kMaxContainerSize) : ParsesBack built.bytes arch := by
  have hdescribe := built.describe_bytes hmax
  have hlen := built.length_bytes
  have hfat := built.fatSize_eq
  have hlast : built.image.payloadOffset + built.image.payloadSize = built.bytes.length := by
    dsimp only [SinglePtxContainer.image]
    omega
  obtain ⟨header, hheader, hle, _, _⟩ := describe_eq_some.mp hdescribe
  refine ⟨?_, ⟨built.image, hdescribe, rfl, rfl, rfl, hlast⟩, ?_⟩
  · have hin := mem_describe hdescribe List.mem_cons_self
    obtain ⟨_, _, hfit, _⟩ := imageAt_eq_some hin
    rw [List.length_take] at hfit
    omega
  · intro lz4 order choice written report
    have hrun : canRun built.image.isPtx built.image.arch arch = true := by
      have hne : ¬(arch = 0 ∨ arch = 0) := by rwa [or_self]
      unfold canRun SinglePtxContainer.image
      rw [if_neg hne]
      simp
    unfold retargetInto
    rw [hdescribe]
    dsimp only
    rw [List.any_cons, hrun, Bool.true_or, if_pos rfl]
    rfl

/-- A container of one image is not read back once it is too long. -/
theorem not_parsesBack_of_lt {arch : UInt32} (built : SinglePtxContainer arch)
    (hmax : kMaxContainerSize < built.file.fatSize.toNat) : ¬ParsesBack built.bytes arch := by
  intro h
  obtain ⟨image, hdescribe, _⟩ := h.describe_eq
  obtain ⟨header, hheader, _⟩ := describe_eq_some.mp hdescribe
  obtain ⟨hread, _, _, _, hle⟩ := containerHeader_eq_some.mp hheader
  obtain ⟨_, hdecode⟩ := read_eq_some.mp hread
  rw [List.drop_zero, SinglePtxContainer.bytes, fileHeader.decode_encode] at hdecode
  rw [← hdecode] at hle
  omega

/-- The length a retargeted container states. -/
theorem fatSize_retargeted {container module : Bytes} {images : List Image} {source : Image}
    {arch : UInt32} (built : RetargetedContainer container source module arch)
    (hdescribe : describe container = some images) (hmem : source ∈ images) :
    built.file.fatSize.toNat =
      source.payloadOffset - source.headerOffset + paddedLength (rewrittenLength module arch) := by
  obtain ⟨entry, hread, hoffset, _⟩ := read_of_mem_describe hdescribe hmem
  have hentry : entry = built.inputEntry := Option.some.inj (hread.symm.trans built.entry_read)
  have hheader : built.entry.headerSize = built.inputEntry.headerSize := by rw [built.entry_eq]
  have hrewritten : (built.cut.withRuns (decimalRun arch)).text.length = rewrittenLength module arch := by
    have hcut := congrArg (fun text => (rewriteTargetDirective text arch).1.length) built.cut_text
    rw [rewriteTargetDirective_cut, length_rewriteTargetDirective] at hcut
    exact hcut
  have hptx : built.ptx.length = paddedLength (rewrittenLength module arch) := by
    have hlen := congrArg List.length built.ptx_eq
    have haligned := built.aligned
    rw [List.length_append, List.length_replicate, hrewritten] at hlen
    rw [hlen] at haligned ⊢
    exact eq_paddedLength built.fill_lt haligned
  have hfat := built.fatSize_eq
  rw [hfat, hptx, hheader, hoffset, hentry]
  omega

/-- A retargeted container is read back exactly where the entry header it keeps
and its module, rewritten and filled up, are within the length that is read back. -/
theorem parsesBack_iff {lz4 : Bytes → ℕ → Option Bytes} {order : ArchSort}
    {container module out : Bytes} {arch : UInt32} {choice : PtxSource} {source : Image}
    {report : Report} (harch : arch ≠ 0)
    (hsource : retargetSource lz4 order container choice = some (source, module))
    (hout : (retargetInto lz4 order container arch choice out report).1 = true) :
    ParsesBack (retargetInto lz4 order container arch choice out report).2.1 arch ↔
      FitsContainer source module arch := by
  rw [retargetInto_eq] at hout ⊢
  obtain ⟨written, hwritten⟩ := Option.isSome_iff_exists.mp hout
  obtain ⟨source', module', hsource', _, built, rfl⟩ := exists_retargetedContainer hwritten
  cases Option.some.inj (hsource'.symm.trans hsource)
  obtain ⟨images, hdescribe, hmem, _⟩ := rightSource_of_retargetSource hsource
  rw [hwritten, Option.getD_some, FitsContainer, ← fatSize_retargeted built hdescribe hmem]
  constructor
  · intro hback
    exact Nat.le_of_not_lt fun hlt => not_parsesBack_of_lt built.toSinglePtxContainer hlt hback
  · exact parsesBack_of_le harch built.toSinglePtxContainer

/-- As the container of two builds is. -/
theorem parsesBack_bothBuilds :
    ∃ source module, retargetSource (fun _ _ => none) ArchSort.insertion bothBuilds .newest =
        some (source, module) ∧
      (ParsesBack (retargetInto (fun _ _ => none) ArchSort.insertion bothBuilds 86 .newest [] {}).2.1
        86 ↔ FitsContainer source module 86) := by
  obtain ⟨⟨source, module⟩, hsource⟩ := Option.isSome_iff_exists.mp (by decide +kernel :
    (retargetSource (fun _ _ => none) ArchSort.insertion bothBuilds .newest).isSome = true)
  exact ⟨source, module, hsource, parsesBack_iff (by decide) hsource (by decide +kernel)⟩

/-- Headers that were read once are read again, so a rebuild is never missing. -/
theorem exists_rebuild {container : Bytes} {images : List Image} {source : Image}
    (hdescribe : describe container = some images) (hmem : source ∈ images) (arch : UInt32)
    (ptx : Bytes) : ∃ out, rebuild container source arch ptx = some out := by
  obtain ⟨entry, hread, _⟩ := read_of_mem_describe hdescribe hmem
  obtain ⟨file, hfile, _⟩ := describe_eq_some.mp hdescribe
  unfold rebuild
  rw [hread, hfile]
  exact ⟨_, rfl⟩

/-- A module that names one target and is blank otherwise, cut at the directive. -/
def blankCut (n : ℕ) : Cut targetMarker where
  head := ascii ".version 8.3\n"
  tails := [ascii "89\n" ++ List.replicate n 32]
  head_clean := by decide +kernel
  tails_clean := by
    intro tail hmem
    rw [List.mem_singleton.mp hmem]
    refine clean_of_notMem fun hfirst => ?_
    rcases List.mem_append.mp hfirst with hdigits | hblank
    · exact absurd hdigits (by decide)
    · exact absurd (List.eq_of_mem_replicate hblank) (by decide)

theorem length_blankCut (n : ℕ) : (blankCut n).text.length = 27 + n := by
  have hparts : (blankCut n).text =
      (ascii ".version 8.3\n" ++ targetMarker.text ++ ascii "89\n") ++ List.replicate n 32 := by
    simp [Cut.text, blankCut, marked]
  have hopening : (ascii ".version 8.3\n" ++ targetMarker.text ++ ascii "89\n").length = 27 := by decide
  rw [hparts, List.length_append, hopening, List.length_replicate]

/-- Its one run of digits is the number it names. -/
theorem rewrittenLength_blankCut (n : ℕ) : rewrittenLength (blankCut n).text 86 = 27 + n := by
  have hrun : targetRuns (blankCut n).text = [ascii "89"] := by
    have hdigits : (ascii "89\n" ++ List.replicate n 32).takeWhile isDigit = ascii "89" := rfl
    rw [targetRuns_cut]
    dsimp only [blankCut]
    rw [List.map_cons, hdigits]
    rfl
  have hdecimal : (toDecimal (86 : UInt32).toNat).length = 2 := by decide
  have hold : ([ascii "89"].map List.length).sum = 2 := by decide
  rw [rewrittenLength, length_blankCut, hrun, hdecimal, hold, List.length_singleton]
  omega

/-- A 64-bit field keeps a length of the sizes used here. -/
theorem toNat_field {extra n : ℕ} (hextra : extra ≤ 68) (hn : n < 2 ^ 30) :
    (UInt64.ofNat (extra + (blankCut n).text.length)).toNat = extra + (blankCut n).text.length := by
  rw [length_blankCut]
  exact UInt64.toNat_ofNat_of_lt' (by rw [UInt64.size]; omega)

/-- The file header of a container of that module. -/
def blankFile (n : ℕ) : FileHeader := ⟨kMagic, 1, 16, UInt64.ofNat (68 + (blankCut n).text.length)⟩

/-- The header of its entry, with four bytes past its fields. -/
def blankEntry (n : ℕ) : EntryHeader := sampleEntry 89 4 (blankCut n).text.length

theorem fatSize_blankFile (n : ℕ) (hn : n < 2 ^ 30) :
    (blankFile n).fatSize.toNat = (blankEntry n).headerSize.toNat + (blankCut n).text.length :=
  toNat_field le_rfl hn

theorem payloadSize_blankEntry (n : ℕ) (hn : n < 2 ^ 30) :
    (blankEntry n).payloadSize.toNat = (blankCut n).text.length := by
  have hfield := toNat_field (Nat.zero_le 68) hn
  rw [Nat.zero_add] at hfield
  exact hfield

/-- A container of that module. -/
def blankContainer (n : ℕ) (hn : n < 2 ^ 30) : SinglePtxContainer 89 where
  file := blankFile n
  fileExtra := []
  entry := blankEntry n
  entryExtra := [0, 0, 0, 0]
  ptx := (blankCut n).text
  magic_eq := rfl
  fileHeader_size := rfl
  fatSize_eq := fatSize_blankFile n hn
  kind_eq := rfl
  arch_eq := rfl
  entryHeader_size := rfl
  entryHeader_max := (by decide : (UInt32.ofNat (64 + 4)).toNat ≤ kMaxEntryHeaderSize)
  payloadSize_eq := payloadSize_blankEntry n hn
  stored := (by decide : (0 : UInt64) &&& kFlagCompressed = 0)

/-- The one image of a container is its source, and is rebuilt when it can be
rewritten and not be run. -/
theorem retarget_single {lz4 : Bytes → ℕ → Option Bytes} (order : ArchSort) {container module : Bytes}
    {image : Image} {arch : UInt32} (hdescribe : describe container = some [image])
    (hptx : image.isPtx = true) (hrun : canRun image.isPtx image.arch arch = false)
    (hmodule : payload lz4 container image = some module)
    (hdigits : (rewriteTargetDirective module arch).2 = true) (report : Report) :
    retargetSource lz4 order container .closest = some (image, module) ∧
      ∃ out, (retarget lz4 order container arch .closest report).1 = some out := by
  have hcandidates : [image].filter (·.isPtx) = [image] := by rw [List.filter_cons, if_pos hptx]; rfl
  have hsort : order.sort [image] = [image] := List.perm_singleton.mp (order.perm [image])
  have hnone : ([image].any fun other => canRun other.isPtx other.arch arch) = false := by
    rw [List.any_cons, hrun, List.any_nil, Bool.or_false]
  obtain ⟨out, hout⟩ := exists_rebuild hdescribe List.mem_cons_self arch
    (padded (rewriteTargetDirective module arch).1)
  constructor
  · rw [retargetSource, hdescribe, Option.bind_some, hcandidates, hsort]
    dsimp only
    rw [hmodule]
    rfl
  · refine ⟨out, ?_⟩
    rw [retarget, hdescribe]
    dsimp only
    rw [hnone, if_neg (by decide), hcandidates, hsort]
    dsimp only
    have hchosen : chosenSource lz4 container .closest image [] module = (image, module) := rfl
    rw [hmodule]
    dsimp only
    rw [hchosen, if_pos hdigits]
    exact hout

/-- The payload of a container's one image is its module. -/
theorem payload_bytes {lz4 : Bytes → ℕ → Option Bytes} {arch : UInt32}
    (container : SinglePtxContainer arch) :
    payload lz4 container.bytes container.image = some container.ptx := by
  have hheader : (entryHeader.encode container.entry ++ container.entryExtra).length =
      container.entry.headerSize.toNat := by
    rw [List.length_append, entryHeader.length_encode, size_entryHeader, container.entryHeader_size]
  have hstored : container.bytes.drop
      (container.file.headerSize.toNat + container.entry.headerSize.toNat) = container.ptx := by
    rw [← List.drop_drop, container.drop_bytes, ← List.append_assoc, List.drop_left' hheader]
  unfold payload SinglePtxContainer.image
  dsimp only
  rw [if_neg (by decide), hstored, List.take_length]

/-- A container of the greatest length that is read, whose module takes padding. -/
def longestContainer : SinglePtxContainer 89 := blankContainer 268435361 (by norm_num)

/-- It is retargeted into one that is not read back. -/
theorem longestContainer_not_parsesBack :
    (retargetInto (fun _ _ => none) ArchSort.insertion longestContainer.bytes 86 .closest [] {}).1 =
        true ∧
      ¬ParsesBack (retargetInto (fun _ _ => none) ArchSort.insertion longestContainer.bytes 86
        .closest [] {}).2.1 86 := by
  have hlen : (blankCut 268435361).text.length = 268435388 := length_blankCut 268435361
  have hfat : longestContainer.file.fatSize.toNat ≤ kMaxContainerSize := by
    have hsize := longestContainer.fatSize_eq
    have hheader : longestContainer.entry.headerSize.toNat = 68 := rfl
    have hptx : longestContainer.ptx.length = 268435388 := hlen
    rw [hsize, hheader, hptx, kMaxContainerSize]
    norm_num
  have hdescribe := longestContainer.describe_bytes hfat
  have hpayload : payload (fun _ _ => none) longestContainer.bytes longestContainer.image =
      some (blankCut 268435361).text := payload_bytes longestContainer
  have hdigits : (rewriteTargetDirective (blankCut 268435361).text 86).2 = true := by
    rw [rewriteTargetDirective_cut]
    exact List.any_eq_true.mpr ⟨_, List.mem_singleton_self _, rfl⟩
  obtain ⟨hsource, out, hout⟩ := retarget_single ArchSort.insertion hdescribe rfl
    (by decide : canRun true 89 86 = false) hpayload hdigits {}
  obtain ⟨source, module, hsource', _, built, rfl⟩ := exists_retargetedContainer hout
  cases Option.some.inj (hsource'.symm.trans hsource)
  rw [retargetInto_eq, hout]
  refine ⟨rfl, not_parsesBack_of_lt built.toSinglePtxContainer ?_⟩
  rw [fatSize_retargeted built hdescribe List.mem_cons_self, rewrittenLength_blankCut]
  have hheader : longestContainer.image.payloadOffset - longestContainer.image.headerOffset = 68 := rfl
  rw [hheader, kMaxContainerSize, paddedLength, kPayloadAlignment]
  norm_num

end OpenDlssg.RetargetOutput
