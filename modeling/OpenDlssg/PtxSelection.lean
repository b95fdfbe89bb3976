import OpenDlssg.TargetDirective

/-!
# Which PTX a container is retargeted from

The images the GPU cannot run are sorted by architecture and the closest is
decoded; with the newest preferred, the others are tried from the top for one
that is launched the same way. The sort may leave equal architectures in any
order, and images that do not decode are passed over.
-/

namespace OpenDlssg.PtxSelection

open ByteCodec FatbinContainer FatbinRetarget

section Selection

variable (lz4 : Bytes → ℕ → Option Bytes) (order : ArchSort)

/-- The image a container is retargeted from, and its module. -/
def retargetSource (container : Bytes) (choice : PtxSource) : Option (Image × Bytes) :=
  (describe container).bind fun images =>
    match order.sort (images.filter (·.isPtx)) with
    | [] => none
    | closest :: newer =>
      (payload lz4 container closest).map (chosenSource lz4 container choice closest newer)

/-- An image of the lowest architecture among the PTX images. -/
structure LowestPtx (images : List Image) (image : Image) : Prop where
  mem : image ∈ images
  isPtx : image.isPtx = true
  lowest : ∀ other ∈ images, other.isPtx = true → image.arch ≤ other.arch

/-- A PTX image whose module decodes and is launched like `text`. -/
structure LaunchedLike (container : Bytes) (images : List Image) (text : Bytes) (image : Image)
    (module : Bytes) : Prop where
  mem : image ∈ images
  isPtx : image.isPtx = true
  decodes : payload lz4 container image = some module
  interface_eq : interface module = interface text

/-- The test the search from the top makes of an image. -/
def launchTest (container text : Bytes) (image : Image) : Option (Image × Bytes) :=
  (payload lz4 container image).bind fun module =>
    if interface module = interface text then some (image, module) else none

/-- The right source: the lowest PTX, or the highest that is launched like a
lowest one. -/
structure RightSource (container : Bytes) (images : List Image) (choice : PtxSource)
    (source : Image) (module : Bytes) : Prop where
  closest : choice = .closest → LowestPtx images source
  newest : choice = .newest → ∃ lowest text, LowestPtx images lowest ∧
    payload lz4 container lowest = some text ∧
    LaunchedLike lz4 container images text source module ∧
    ∀ other module', LaunchedLike lz4 container images text other module' → other.arch ≤ source.arch

variable {lz4 order}

/-- In an ascending list, tried from the top, the first hit is the highest. -/
theorem highest_of_findSome {α : Type} {newer : List Image} {found : α}
    (hsorted : newer.Pairwise fun a b => a.arch ≤ b.arch) {test : Image → Option α}
    (h : newer.reverse.findSome? test = some found) :
    ∃ image ∈ newer, test image = some found ∧
      ∀ other ∈ newer, test other ≠ none → other.arch ≤ image.arch := by
  obtain ⟨before, image, behind, hsplit, htest, hmissed⟩ := List.findSome?_eq_some_iff.mp h
  have hmem : image ∈ newer := by
    rw [← List.mem_reverse, hsplit]
    simp
  refine ⟨image, hmem, htest, ?_⟩
  intro other hother hhit
  have hdescending := List.pairwise_reverse.mpr hsorted
  rw [hsplit] at hdescending
  rw [← List.mem_reverse, hsplit] at hother
  rcases List.mem_append.mp hother with hbefore | hrest
  · exact absurd (hmissed other hbefore) hhit
  · rcases List.mem_cons.mp hrest with rfl | hbehind
    · exact UInt32.le_refl _
    · exact (List.pairwise_cons.mp (List.pairwise_append.mp hdescending).2.1).1 other hbehind

/-- The head of the sorted PTX images is a lowest one, and the rest are theirs. -/
theorem lowestPtx_of_sort {images newer : List Image} {closest : Image}
    (hsort : order.sort (images.filter (·.isPtx)) = closest :: newer) :
    LowestPtx images closest ∧ (∀ image, image ∈ closest :: newer ↔ image ∈ images ∧ image.isPtx = true) ∧
      newer.Pairwise fun a b => a.arch ≤ b.arch := by
  have hperm := order.perm (images.filter (·.isPtx))
  have hsorted := order.sorted (images.filter (·.isPtx))
  rw [hsort] at hperm hsorted
  have hmem : ∀ image, image ∈ closest :: newer ↔ image ∈ images ∧ image.isPtx = true := by
    intro image
    rw [hperm.mem_iff, List.mem_filter]
  obtain ⟨hfirst, hrest⟩ := List.pairwise_cons.mp hsorted
  obtain ⟨hin, hptx⟩ := (hmem closest).mp List.mem_cons_self
  refine ⟨⟨hin, hptx, ?_⟩, hmem, hrest⟩
  intro other hother hother'
  rcases List.mem_cons.mp ((hmem other).mpr ⟨hother, hother'⟩) with rfl | hnewer
  · exact UInt32.le_refl _
  · exact hfirst other hnewer

/-- An image passes the test when its module decodes and is launched like the text. -/
theorem launchTest_eq_some {container text module : Bytes} {image found : Image} :
    launchTest lz4 container text image = some (found, module) ↔
      found = image ∧ payload lz4 container image = some module ∧
        interface module = interface text := by
  unfold launchTest
  rw [Option.bind_eq_some_iff]
  constructor
  · rintro ⟨module', hdecodes, hsame⟩
    split at hsame
    · rename_i hinterface
      cases hsame
      exact ⟨rfl, hdecodes, hinterface⟩
    · cases hsame
  · rintro ⟨rfl, hdecodes, hinterface⟩
    exact ⟨module, hdecodes, if_pos hinterface⟩

/-- With the newest preferred, the source is the highest image launched like
the closest. -/
theorem chosenSource_newest {container text module : Bytes} {images newer : List Image}
    {closest source : Image} (hlowest : LowestPtx images closest)
    (hmem : ∀ image, image ∈ closest :: newer ↔ image ∈ images ∧ image.isPtx = true)
    (hsorted : newer.Pairwise fun a b => a.arch ≤ b.arch)
    (htext : payload lz4 container closest = some text)
    (h : chosenSource lz4 container .newest closest newer text = (source, module)) :
    LaunchedLike lz4 container images text source module ∧ ∀ other module',
      LaunchedLike lz4 container images text other module' → other.arch ≤ source.arch := by
  have hchosen : (newer.reverse.findSome? (launchTest lz4 container text)).getD (closest, text) =
      (source, module) := h
  cases hfound : newer.reverse.findSome? (launchTest lz4 container text) with
  | none =>
    rw [hfound] at hchosen
    cases hchosen
    refine ⟨⟨hlowest.mem, hlowest.isPtx, htext, rfl⟩, fun other module' hother => ?_⟩
    rcases List.mem_cons.mp ((hmem other).mpr ⟨hother.mem, hother.isPtx⟩) with rfl | hnewer
    · exact UInt32.le_refl _
    · have hmissed := List.findSome?_eq_none_iff.mp hfound other (List.mem_reverse.mpr hnewer)
      have hhit : launchTest lz4 container text other = some (other, module') :=
        launchTest_eq_some.mpr ⟨rfl, hother.decodes, hother.interface_eq⟩
      rw [hmissed] at hhit
      cases hhit
  | some found =>
    rw [hfound] at hchosen
    cases hchosen
    obtain ⟨image, hnewer, htest, hhighest⟩ := highest_of_findSome hsorted hfound
    obtain ⟨rfl, hdecodes, hinterface⟩ := launchTest_eq_some.mp htest
    obtain ⟨hin, hptx⟩ := (hmem _).mp (List.mem_cons_of_mem _ hnewer)
    refine ⟨⟨hin, hptx, hdecodes, hinterface⟩, fun other module' hother => ?_⟩
    rcases List.mem_cons.mp ((hmem other).mpr ⟨hother.mem, hother.isPtx⟩) with rfl | hother'
    · exact hlowest.lowest _ hin hptx
    · refine hhighest other hother' fun hmissed => ?_
      have hhit : launchTest lz4 container text other = some (other, module') :=
        launchTest_eq_some.mpr ⟨rfl, hother.decodes, hother.interface_eq⟩
      rw [hmissed] at hhit
      cases hhit

/-- The source chosen is the right one. -/
theorem rightSource_of_retargetSource {container module : Bytes} {choice : PtxSource}
    {source : Image} (h : retargetSource lz4 order container choice = some (source, module)) :
    ∃ images, describe container = some images ∧ source ∈ images ∧ source.isPtx = true ∧
      payload lz4 container source = some module ∧
      RightSource lz4 container images choice source module := by
  obtain ⟨images, hdescribe, hchosen⟩ := Option.bind_eq_some_iff.mp h
  refine ⟨images, hdescribe, ?_⟩
  cases hsort : order.sort (images.filter (·.isPtx)) with
  | nil =>
    rw [hsort] at hchosen
    cases hchosen
  | cons closest newer =>
    rw [hsort] at hchosen
    obtain ⟨text, htext, hsource⟩ := Option.map_eq_some_iff.mp hchosen
    obtain ⟨hlowest, hmem, hsorted⟩ := lowestPtx_of_sort hsort
    have hspec := chosenSource_spec choice newer htext
    rw [hsource] at hspec
    obtain ⟨hin, hptx⟩ := (hmem source).mp hspec.1
    refine ⟨hin, hptx, hspec.2, ⟨?_, ?_⟩⟩
    · rintro rfl
      cases hsource
      exact hlowest
    · rintro rfl
      refine ⟨closest, text, hlowest, htext, ?_⟩
      exact chosenSource_newest hlowest hmem hsorted htext hsource

/-- A container that is retargeted holds nothing the GPU can run; it is rebuilt
around the source's module, rewritten, and the report names the source. -/
theorem retarget_some {container out : Bytes} {arch : UInt32} {choice : PtxSource} {report : Report}
    (h : (retarget lz4 order container arch choice report).1 = some out) :
    ∃ images source module, describe container = some images ∧
      (∀ image ∈ images, canRun image.isPtx image.arch arch = false) ∧
      retargetSource lz4 order container choice = some (source, module) ∧
      (rewriteTargetDirective module arch).2 = true ∧
      rebuild container source arch (padded (rewriteTargetDirective module arch).1) = some out ∧
      (retarget lz4 order container arch choice report).2 =
        { report with images := UInt32.ofNat images.length, sourceArch := source.arch } := by
  obtain ⟨images, closest, newer, ptx, source, hdescribe, hnone, hsort, hptx, hsource, hdigits, hrebuild,
    hreport⟩ := retarget_inv h
  refine ⟨images, source.1, source.2, hdescribe, hnone, ?_, hdigits, hrebuild, hreport⟩
  rw [retargetSource, hdescribe, Option.bind_some, hsort]
  dsimp only
  rw [hptx, Option.map_some, hsource]

/-- A container that is retargeted is retargeted from the right source, whatever
the number, the order and the architectures of its images. -/
theorem retarget_rightSource {container out : Bytes} {arch : UInt32} {choice : PtxSource}
    {report : Report} (h : (retarget lz4 order container arch choice report).1 = some out) :
    ∃ images source module, describe container = some images ∧
      (∀ image ∈ images, canRun image.isPtx image.arch arch = false) ∧
      RightSource lz4 container images choice source module ∧
      (retarget lz4 order container arch choice report).2.sourceArch = source.arch ∧
      rebuild container source arch (padded (rewriteTargetDirective module arch).1) = some out := by
  obtain ⟨images, source, module, hdescribe, hnone, hsource, _, hout, hreport⟩ := retarget_some h
  obtain ⟨images', hdescribe', _, _, _, hright⟩ := rightSource_of_retargetSource hsource
  have himages : images' = images := Option.some.inj (hdescribe'.symm.trans hdescribe)
  rw [himages] at hright
  exact ⟨images, source, module, hdescribe, hnone, hright, by rw [hreport], hout⟩

end Selection

/-- The header of a sample entry, with room for `extra` bytes past its fields. -/
def sampleEntry (arch : UInt32) (extra payloadSize : ℕ) : EntryHeader :=
  ⟨kKindPtx, 0, UInt32.ofNat (64 + extra), UInt64.ofNat payloadSize, 0, 0, 0, arch, (0, 0), 0, 0, 0⟩

/-- A container of uncompressed PTX images. -/
def sampleContainer (modules : List (UInt32 × Bytes)) : Bytes :=
  let entries := modules.flatMap fun module =>
    entryHeader.encode (sampleEntry module.1 0 module.2.length) ++ module.2
  fileHeader.encode ⟨kMagic, 1, 16, UInt64.ofNat entries.length⟩ ++ entries

/-- A module of one kernel for a target. -/
def sampleModule (target : String) (parameter : String) : Bytes :=
  ascii ".version 8.3\n.target sm_" ++ ascii target ++ ascii "\n.visible .entry k(\n.param " ++
    ascii parameter ++ ascii "\n)\n"

/-- A container with the newest build first and the one for the closest
hardware behind it. -/
def bothBuilds : Bytes :=
  sampleContainer [(120, sampleModule "120" ".u64 p"), (89, sampleModule "89" ".u64 p")]

/-- The newest build is chosen where it is launched the same way. -/
theorem retarget_rightSource_newest :
    ∃ out, (retarget (fun _ _ => none) ArchSort.insertion bothBuilds 86 .newest {}).1 = some out ∧
      ∃ images source module, describe bothBuilds = some images ∧
        (∀ image ∈ images, canRun image.isPtx image.arch 86 = false) ∧
        RightSource (fun _ _ => none) bothBuilds images .newest source module ∧
        (retarget (fun _ _ => none) ArchSort.insertion bothBuilds 86 .newest {}).2.sourceArch =
          source.arch ∧
        rebuild bothBuilds source 86 (padded (rewriteTargetDirective module 86).1) = some out := by
  obtain ⟨out, hout⟩ := Option.isSome_iff_exists.mp (by decide +kernel :
    (retarget (fun _ _ => none) ArchSort.insertion bothBuilds 86 .newest {}).1.isSome = true)
  exact ⟨out, hout, retarget_rightSource hout⟩

/-- Which is the one for sm_120; with another parameter it is the closest. -/
example : (retarget (fun _ _ => none) ArchSort.insertion bothBuilds 86 .newest {}).2.sourceArch = 120 ∧
    (retarget (fun _ _ => none) ArchSort.insertion (sampleContainer
      [(120, sampleModule "120" ".u32 p"), (89, sampleModule "89" ".u64 p")]) 86 .newest
        {}).2.sourceArch = 89 := by decide +kernel

end OpenDlssg.PtxSelection
