import OpenDlssg.ProviderAnswers
import OpenDlssg.SoleClaims

/-!
# The container a cubin is traced to

Every cubin a container stores uncompressed is a claim of its hash by that
container, and the map a lookup reads is those claims with the ambiguous ones
dropped. Where the hash tells the strings hashed apart, a cubin is traced to
a container exactly where that container stores it and no other does.
-/

namespace OpenDlssg.ContainerLookup

open ByteCodec ProcessMemory PatternScan LastWriteMap SoleClaims CubinImage FatbinContainer
open ProviderIndex ProviderLookup ProviderAnswers

/-- The cubin at the start of some bytes, as long as its own headers state. -/
def wholeCubin (available : Bytes) : Option Bytes :=
  if cubinSize available = 0 then none else some (available.take (cubinSize available))

/-- The cubin one image of a container is, stored as it is. -/
def heldCubin (found : FoundContainer) (image : Image) : Option Bytes :=
  if image.isPtx || image.compressed then none
  else wholeCubin ((found.bytes.drop image.payloadOffset).take image.payloadSize)

/-- The cubins a container stores as they are, in order. -/
def heldCubins (found : FoundContainer) : List Bytes := found.images.filterMap (heldCubin found)

/-- The claims a container makes: the hashes of the cubins it stores. -/
def claimsOf (found : FoundContainer) : List (UInt64 × Blob) :=
  (heldCubins found).map fun cubin => (hashBytes cubin, found.blob)

/-- What a scan has gathered under the cubins' hashes. -/
def gathered (scan : ContainerScan) : Claims UInt64 Blob := ⟨scan.contained, scan.ambiguous⟩

/-- A fingerprint is the hash of the whole cubin. -/
theorem fingerprint_eq (available : Bytes) :
    fingerprint available = (wholeCubin available).map hashBytes := by
  unfold fingerprint wholeCubin
  dsimp only
  split
  · rfl
  · rfl

/-- Recording an image is a claim of the cubin it is, by its container. -/
theorem gathered_recordImage (found : FoundContainer) (scan : ContainerScan) (image : Image) :
    gathered (recordImage found scan image) =
      ((heldCubin found image).map fun cubin => (hashBytes cubin, found.blob)).toList.foldl
        (claim Span.data) (gathered scan) := by
  unfold recordImage heldCubin
  by_cases hskip : (image.isPtx || image.compressed) = true
  · rw [if_pos hskip, if_pos hskip]
    rfl
  · rw [if_neg hskip, if_neg hskip, fingerprint_eq]
    cases wholeCubin ((found.bytes.drop image.payloadOffset).take image.payloadSize) with
    | none => rfl
    | some cubin =>
      simp only [Option.map_some, Option.toList_some, List.foldl_cons, List.foldl_nil, claim, gathered]
      cases scan.contained.lookup (hashBytes cubin) with
      | none => rfl
      | some entry =>
        dsimp only
        split
        · rfl
        · rfl

/-- Recording images one after another makes their claims in order. -/
theorem gathered_foldl (found : FoundContainer) (images : List Image) (scan : ContainerScan) :
    gathered (images.foldl (recordImage found) scan) =
      ((images.filterMap (heldCubin found)).map fun cubin => (hashBytes cubin, found.blob)).foldl
        (claim Span.data) (gathered scan) := by
  induction images generalizing scan with
  | nil => rfl
  | cons image images ih =>
    rw [List.foldl_cons, ih, gathered_recordImage]
    cases hheld : heldCubin found image with
    | none =>
      rw [List.filterMap_cons_none hheld]
      rfl
    | some cubin =>
      rw [List.filterMap_cons_some hheld]
      rfl

section Runtime

variable (process : Process) (scanner : Scanner) (provider : HModule)

/-- The claims a runtime's containers make, in scan order. -/
def containerClaims : List (UInt64 × Blob) :=
  (foundContainers process scanner provider).flatMap claimsOf

/-- The cubins a runtime's containers store as they are. -/
def storedCubins : List Bytes := (foundContainers process scanner provider).flatMap heldCubins

/-- A runtime's map of containers is what its claims settle to. -/
theorem buildIndex_containers : (buildIndex process scanner provider).1.containers =
    settle (gather Span.data (containerClaims process scanner provider)) := by
  have hfold : ∀ (found : List FoundContainer) (scan : ContainerScan),
      gathered (found.foldl addContainer scan) =
        (found.flatMap claimsOf).foldl (claim Span.data) (gathered scan) := by
    intro found
    induction found with
    | nil => exact fun _ => rfl
    | cons first rest ih =>
      intro scan
      rw [List.foldl_cons, ih, List.flatMap_cons, List.foldl_append]
      congr 1
      exact gathered_foldl first first.images _
  unfold buildIndex scanContainers
  dsimp only
  rw [forEachMatch_recording]
  exact congrArg settle (hfold (foundContainers process scanner provider) ⟨[], ∅, []⟩)

variable {process scanner provider}

/-- An accepted container lies at its address with the length it states. -/
theorem mem_foundContainers {found : FoundContainer}
    (h : found ∈ foundContainers process scanner provider) :
    found.bytes = process.memory.view found.blob ∧ found.blob.size ≠ 0 ∧
      containerSize found.bytes = found.blob.size ∧ describe found.bytes = some found.images := by
  have hmagic : kFatbinSignature ≠ [] := by decide
  obtain ⟨code, _, offset, hoffset, consumed, haccept⟩ := mem_taken hmagic h
  unfold acceptContainer at haccept
  dsimp only at haccept
  split at haccept
  · cases haccept
  · rename_i hroom
    obtain ⟨hzero, hlong⟩ := not_or.mp hroom
    obtain ⟨images, himages, hfound⟩ := Option.map_eq_some_iff.mp haccept
    cases hfound
    rw [Memory.length_bytes] at hlong
    have hgt := containerSize_gt hzero
    refine ⟨?_, hzero, ?_, himages⟩
    · rw [Memory.view, Memory.take_bytes, min_eq_left (by omega)]
    · exact containerSize_take (by omega)

/-- Accepted containers at one address are one container. -/
theorem blob_of_data {first second : FoundContainer}
    (hfirst : first ∈ foundContainers process scanner provider)
    (hsecond : second ∈ foundContainers process scanner provider)
    (hdata : first.blob.data = second.blob.data) : first.blob = second.blob := by
  have hheader : ∀ found ∈ foundContainers process scanner provider,
      found.blob.size = containerSize (process.memory.bytes found.blob.data 16) := by
    intro found hfound
    obtain ⟨hbytes, hzero, hsize, _⟩ := mem_foundContainers hfound
    rw [← hsize] at hzero
    have hgt := containerSize_gt hzero
    have htake : (process.memory.view found.blob).take 16 =
        process.memory.bytes found.blob.data 16 := by
      rw [Memory.view, Memory.take_bytes, min_eq_left (by omega)]
    rw [← htake, ← hbytes, containerSize_take le_rfl, hsize]
  have hsize : first.blob.size = second.blob.size := by
    rw [hheader first hfirst, hheader second hsecond, hdata]
  cases hblob : first.blob
  cases hblob' : second.blob
  rw [hblob, hblob'] at hdata hsize
  exact congrArg₂ Span.mk hdata hsize

/-- A claim is made by a container that stores the cubin hashed. -/
theorem mem_containerClaims {made : UInt64 × Blob} :
    made ∈ containerClaims process scanner provider ↔
      ∃ found ∈ foundContainers process scanner provider, ∃ cubin ∈ heldCubins found,
        made = (hashBytes cubin, found.blob) := by
  unfold containerClaims claimsOf
  simp only [List.mem_flatMap, List.mem_map, eq_comm]

/-- An indexed runtime traces a cubin to a container exactly where that
container stores the cubin as it is and no other accepted container does. -/
theorem findContainerForCubin_iff {history : List (Option HModule)} (hindexed : some provider ∈ history)
    {cubin : Bytes} (hsize : cubinSize cubin ≠ 0)
    (hfree : CollisionFree (cubin.take (cubinSize cubin) :: storedCubins process scanner provider))
    (blob : Blob) :
    findContainerForCubin (indexesAfter process scanner history) (some provider) cubin = some blob ↔
      ∃ found ∈ foundContainers process scanner provider,
        found.blob = blob ∧ containerSize found.bytes = blob.size ∧
        cubin.take (cubinSize cubin) ∈ heldCubins found ∧
        ∀ other ∈ foundContainers process scanner provider,
          cubin.take (cubinSize cubin) ∈ heldCubins other → other.blob = blob := by
  have hindex := lookup_indexesAfter process scanner history provider
  rw [if_pos hindexed] at hindex
  have hne : cubin ≠ [] := by
    rintro rfl
    exact hsize rfl
  have hwhole : fingerprint cubin = some (hashBytes (cubin.take (cubinSize cubin))) := by
    rw [fingerprint_eq, wholeCubin, if_neg hsize, Option.map_some]
  have hanswer : findContainerForCubin (indexesAfter process scanner history) (some provider) cubin =
      (settle (gather Span.data (containerClaims process scanner provider))).lookup
        (hashBytes (cubin.take (cubinSize cubin))) := by
    unfold findContainerForCubin
    rw [Option.bind_some, if_neg (by simpa using hne), hwhole, Option.bind_some, hindex,
      Option.bind_some, buildIndex_containers]
  have howner : ∀ first ∈ containerClaims process scanner provider,
      ∀ second ∈ containerClaims process scanner provider,
        first.2.data = second.2.data → first.2 = second.2 := by
    intro first hfirst second hsecond hdata
    obtain ⟨found, hfound, _, _, rfl⟩ := mem_containerClaims.mp hfirst
    obtain ⟨other, hother, _, _, rfl⟩ := mem_containerClaims.mp hsecond
    exact blob_of_data hfound hother hdata
  -- the hash tells the query from every cubin stored that is not it
  have hsame : ∀ found ∈ foundContainers process scanner provider, ∀ stored ∈ heldCubins found,
      hashBytes stored = hashBytes (cubin.take (cubinSize cubin)) →
        stored = cubin.take (cubinSize cubin) := by
    intro found hfound stored hstored hhash
    have hmem : stored ∈ storedCubins process scanner provider :=
      List.mem_flatMap.mpr ⟨found, hfound, hstored⟩
    exact hfree stored (List.mem_cons_of_mem _ hmem) _ List.mem_cons_self hhash
  rw [hanswer, lookup_settle_iff Span.data howner]
  constructor
  · rintro ⟨hmade, hall⟩
    obtain ⟨found, hfound, stored, hstored, hclaim⟩ := mem_containerClaims.mp hmade
    obtain ⟨hhash, hblob⟩ := Prod.mk.inj hclaim
    rw [hsame found hfound stored hstored hhash.symm] at hstored
    refine ⟨found, hfound, hblob.symm, ?_, hstored, fun other hother hheld => ?_⟩
    · rw [(mem_foundContainers hfound).2.2.1, hblob]
    · exact hall _ (mem_containerClaims.mpr ⟨other, hother, _, hheld, rfl⟩) rfl
  · rintro ⟨found, hfound, rfl, _, hheld, hall⟩
    refine ⟨mem_containerClaims.mpr ⟨found, hfound, _, hheld, rfl⟩, ?_⟩
    intro made hmade hkey
    obtain ⟨other, hother, stored, hstored, rfl⟩ := mem_containerClaims.mp hmade
    rw [hsame other hother stored hstored hkey] at hstored
    exact hall other hother hstored

end Runtime

/-- An sm_86 build of a kernel. -/
def storedBuild : Bytes := sampleCubin 0 86 [(ascii "k", [1, 2])]

/-- A container that stores the build twice. -/
def buildContainer : Bytes :=
  let entry := entryHeader.encode ⟨2, 0, 64, 202, 0, 0, 0, 86, (0, 0), 0, 0, 0⟩ ++ storedBuild
  fileHeader.encode ⟨kMagic, 1, 16, 532⟩ ++ (entry ++ entry)

/-- What the scan finds of that container. -/
theorem foundContainers_buildContainer :
    (foundContainers (sampleProcess buildContainer) Scanner.exhaustive 7).map
        (fun found => (found.blob, containerSize found.bytes, heldCubins found)) =
      [(⟨0x1000, 548⟩, 548, [storedBuild, storedBuild])] := by
  rw [foundContainers, taken_sampleProcess]
  decide +kernel

/-- The build is traced to the one container that stores it, twice, and so is a
longer copy of it. -/
theorem findContainerForCubin_iff_stored :
    findContainerForCubin (indexesAfter (sampleProcess buildContainer) Scanner.exhaustive [some 7])
        (some 7) (storedBuild ++ [0, 0]) = some ⟨0x1000, 548⟩ := by
  obtain ⟨found, hlist, hfound⟩ := List.map_eq_singleton_iff.mp foundContainers_buildContainer
  simp only [Prod.mk.injEq] at hfound
  obtain ⟨hblob, hsize, hheld⟩ := hfound
  have hwhole : (storedBuild ++ [0, 0]).take (cubinSize (storedBuild ++ [0, 0])) = storedBuild := by
    decide +kernel
  have hall : ∀ cubin ∈ (storedBuild ++ [0, 0]).take (cubinSize (storedBuild ++ [0, 0])) ::
      storedCubins (sampleProcess buildContainer) Scanner.exhaustive 7, cubin = storedBuild := by
    unfold storedCubins
    rw [hlist, hwhole, List.flatMap_singleton, hheld]
    simp
  refine (findContainerForCubin_iff (by decide) (by decide +kernel)
    (fun first hfirst second hsecond _ => (hall first hfirst).trans (hall second hsecond).symm)
    ⟨0x1000, 548⟩).mpr ⟨found, ?_, hblob, hsize, ?_, ?_⟩
  · rw [hlist]
    exact List.mem_singleton_self _
  · rw [hheld, hwhole]
    exact List.mem_cons_self
  · intro other hother _
    rw [hlist, List.mem_singleton] at hother
    rw [hother, hblob]

end OpenDlssg.ContainerLookup
