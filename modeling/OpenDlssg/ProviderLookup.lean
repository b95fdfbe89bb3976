import OpenDlssg.ProviderIndex

/-!
# What a lookup in a runtime's index answers

The bare cubins a runtime is indexed by form a list, and its map of variants
is that list folded into a map: a lookup returns the last cubin of the list
under the key and the architecture. After any history of builds every index
held is the one its own runtime's image gives.
-/

namespace OpenDlssg.ProviderLookup

open ByteCodec ProcessMemory PatternScan LastWriteMap CubinImage FatbinContainer ProviderIndex

/-- The first section of an image that holds a kernel's code. -/
def firstKernel (image : Bytes) : Option CubinSection := (cubinSections image).find? isText

/-- What identification reads: the first kernel, the architecture and the length. -/
theorem identify_eq_some {available : Bytes} {identity : Identity} :
    identify available = some identity ↔ ∃ code, firstKernel available = some code ∧
      isIdentifier (kernelName code) = true ∧
      identity = ⟨kernelName code, hashBytes code.data, cubinArch available, cubinSize available⟩ := by
  unfold identify firstKernel
  dsimp only
  by_cases hsize : cubinSize available = 0
  · rw [hsize, List.take_zero, cubinSections_of_size_zero hsize]
    have hnil : cubinSections [] = [] := rfl
    rw [hnil]
    simp
  · have hgt := cubinSize_gt hsize
    rw [cubinSections_take hsize le_rfl, cubinArch_take (by omega)]
    cases (cubinSections available).find? isText with
    | none => simp
    | some code =>
      rw [Option.bind_some]
      by_cases hname : isIdentifier (kernelName code) = true
      · rw [if_pos hname]
        simp only [Option.some.injEq, exists_eq_left', hname, true_and]
        exact eq_comm
      · rw [if_neg hname]
        simp only [reduceCtorEq, Option.some.injEq, exists_eq_left', hname, false_and]

/-- An identified image has the length its own headers state. -/
theorem size_of_identify {available : Bytes} {identity : Identity}
    (h : identify available = some identity) :
    identity.size = cubinSize available ∧ 64 < identity.size := by
  obtain ⟨code, hfirst, _, rfl⟩ := identify_eq_some.mp h
  refine ⟨rfl, cubinSize_gt ?_⟩
  intro hzero
  rw [firstKernel, cubinSections_of_size_zero hzero] at hfirst
  cases hfirst

/-- An image is identified by its own bytes. -/
theorem identify_image {available : Bytes} {identity : Identity}
    (h : identify available = some identity) :
    identify (available.take identity.size) = some identity := by
  obtain ⟨hsize, hgt⟩ := size_of_identify h
  obtain ⟨code, hfirst, hname, hidentity⟩ := identify_eq_some.mp h
  have hne : cubinSize available ≠ 0 := by omega
  refine identify_eq_some.mpr ⟨code, ?_, hname, ?_⟩
  · rw [hsize, firstKernel, cubinSections_take hne le_rfl]
    exact hfirst
  · rw [hsize, cubinArch_take (by omega), cubinSize_image hne]
    exact hidentity

section Runtime

variable (process : Process) (scanner : Scanner) (provider : HModule)

/-- The containers a runtime's first scan takes, in the order it meets them. -/
def foundContainers : List FoundContainer :=
  taken process scanner provider kFatbinSignature acceptContainer

/-- The bare cubins a runtime is indexed by, in the order the scan meets them. -/
def indexedCubins : List IndexedCubin :=
  taken process scanner provider kElfSignature
    (acceptCubin ((foundContainers process scanner provider).map FoundContainer.blob))

/-- The bare cubins under one kernel key and one architecture, in scan order. -/
def candidates (key : UInt64) (arch : UInt32) : List IndexedCubin :=
  (indexedCubins process scanner provider).filter fun cubin =>
    cubin.key = key ∧ cubin.identity.arch = arch

/-- The map of variants a list of bare cubins folds into. -/
def variantsOf (cubins : List IndexedCubin) : Map UInt64 (Map UInt32 Blob) :=
  (cubins.foldl addCubin ⟨∅, 0⟩).variants

/-- Recording an image's origin takes no container. -/
theorem recordImage_containers (found : FoundContainer) (scan : ContainerScan) (image : Image) :
    (recordImage found scan image).containers = scan.containers := by
  unfold recordImage
  split
  · rfl
  · split
    · rfl
    · split
      · rfl
      · split
        · rfl
        · rfl

/-- Recording the images of a container takes that container alone. -/
theorem addContainer_containers (scan : ContainerScan) (found : FoundContainer) :
    (addContainer scan found).containers = scan.containers ++ [found.blob] := by
  have hkeep : ∀ (images : List Image) (start : ContainerScan),
      (images.foldl (recordImage found) start).containers = start.containers := by
    intro images
    induction images with
    | nil => exact fun _ => rfl
    | cons image images ih =>
      intro start
      rw [List.foldl_cons, ih, recordImage_containers]
  unfold addContainer
  rw [hkeep]

/-- The first scan keeps every container it takes. -/
theorem scanContainers_containers : (scanContainers process scanner provider).containers =
    (foundContainers process scanner provider).map FoundContainer.blob := by
  have hfold : ∀ (found : List FoundContainer) (start : ContainerScan),
      (found.foldl addContainer start).containers =
        start.containers ++ found.map FoundContainer.blob := by
    intro found
    induction found with
    | nil => exact fun start => (List.append_nil _).symm
    | cons first rest ih =>
      intro start
      rw [List.foldl_cons, ih, addContainer_containers, List.append_assoc, List.map_cons,
        List.singleton_append]
  unfold scanContainers foundContainers
  rw [forEachMatch_recording]
  dsimp only
  rw [hfold, List.nil_append]

/-- A runtime's map of variants is its list of bare cubins folded. -/
theorem buildIndex_variants : (buildIndex process scanner provider).1.variants =
    variantsOf (indexedCubins process scanner provider) := by
  unfold buildIndex indexedCubins variantsOf
  dsimp only
  rw [scanContainers_containers, forEachMatch_recording]

/-- A lookup under a key and an architecture sees the last cubin kept there. -/
theorem lookup_variantsOf (cubins : List IndexedCubin) (key : UInt64) (arch : UInt32) :
    lookupNested (variantsOf cubins) key arch =
      ((cubins.filter fun cubin => cubin.key = key ∧ cubin.identity.arch = arch).getLast?).map
        IndexedCubin.blob := by
  have hput : ∀ (scan : CubinScan) (cubin : IndexedCubin),
      lookupNested (addCubin scan cubin).variants key arch =
        if cubin.key = key ∧ cubin.identity.arch = arch then some cubin.blob
        else lookupNested scan.variants key arch := fun scan cubin =>
    lookupNested_insertNested scan.variants cubin.key key cubin.identity.arch arch cubin.blob
  exact foldl_last_write_empty addCubin (fun scan => lookupNested scan.variants key arch)
    (fun cubin => cubin.key = key ∧ cubin.identity.arch = arch) IndexedCubin.blob hput cubins
    (lookupNested_empty key arch)

variable {process scanner provider}

/-- A bare cubin lies in one of the runtime's readable sections, outside every
container taken there, and is identified by its own bytes. -/
theorem mem_indexedCubins {cubin : IndexedCubin}
    (h : cubin ∈ indexedCubins process scanner provider) :
    (∃ code ∈ process.readableSections provider, code.covers cubin.data ∧
        cubin.data + cubin.identity.size ≤ code.data + code.size) ∧
      (∀ found ∈ foundContainers process scanner provider, ¬found.blob.covers cubin.data) ∧
      identify (process.memory.view cubin.blob) = some cubin.identity := by
  have hmagic : kElfSignature ≠ [] := by decide
  obtain ⟨code, hcode, offset, hoffset, consumed, haccept⟩ := mem_taken hmagic h
  unfold acceptCubin at haccept
  split at haccept
  · cases haccept
  · rename_i houtside
    obtain ⟨identity, hidentity, hsame⟩ := Option.map_eq_some_iff.mp haccept
    cases hsame
    obtain ⟨hsize, hgt⟩ := size_of_identify hidentity
    have hroom := cubinSize_le (process.memory.bytes (code.data + offset) (code.size - offset))
    rw [Memory.length_bytes] at hroom
    refine ⟨⟨code, hcode, ?_, ?_⟩, ?_, ?_⟩
    · unfold Span.covers
      dsimp only
      omega
    · dsimp only
      omega
    · intro found hfound hcovers
      refine houtside (List.any_eq_true.mpr ⟨found.blob, List.mem_map_of_mem hfound, ?_⟩)
      exact decide_eq_true hcovers
    · have himage := identify_image hidentity
      rw [Memory.take_bytes, min_eq_left (by omega)] at himage
      exact himage

/-- A bare cubin's own bytes give its length and its architecture. -/
theorem image_of_mem_indexedCubins {cubin : IndexedCubin}
    (h : cubin ∈ indexedCubins process scanner provider) :
    cubinSize (process.memory.view cubin.blob) = cubin.blob.size ∧
      cubinArch (process.memory.view cubin.blob) = cubin.identity.arch := by
  obtain ⟨code, _, _, hidentity⟩ := identify_eq_some.mp (mem_indexedCubins h).2.2
  have hsize := congrArg Identity.size hidentity
  have harch := congrArg Identity.arch hidentity
  exact ⟨hsize.symm, harch.symm⟩

/-- Two processes with the same sections and bytes of a runtime index it alike. -/
theorem buildIndex_congr {first second : Process}
    (hsections : first.readableSections provider = second.readableSections provider)
    (hbytes : ∀ code ∈ first.readableSections provider,
      first.memory.view code = second.memory.view code) :
    buildIndex first scanner provider = buildIndex second scanner provider := by
  have hcontainers : scanContainers first scanner provider =
      scanContainers second scanner provider := by
    unfold scanContainers
    rw [forEachMatch_recording, forEachMatch_recording, taken_congr acceptContainer hsections hbytes]
  unfold buildIndex
  dsimp only
  rw [forEachMatch_recording, forEachMatch_recording, hcontainers,
    taken_congr (acceptCubin _) hsections hbytes]

end Runtime

section History

variable (process : Process) (scanner : Scanner)

/-- Every index held is the one its own runtime's image gives. -/
def OwnImages (indexes : Indexes) : Prop :=
  ∀ provider index, indexes.lookup provider = some index →
    index = (buildIndex process scanner provider).1

/-- The indexes held after a history of builds, in any order and with repeats. -/
def indexesAfter (history : List (Option HModule)) : Indexes :=
  history.foldl (fun indexes provider =>
    (buildProviderIndex process scanner indexes provider).2) ∅

variable {process scanner}

/-- A build adds the index of the runtime it is given, unless it is held already. -/
theorem lookup_buildProviderIndex (indexes : Indexes) (provider : Option HModule)
    (runtime : HModule) :
    (buildProviderIndex process scanner indexes provider).2.lookup runtime =
      if provider = some runtime ∧ indexes.lookup runtime = none then
        some (buildIndex process scanner runtime).1
      else indexes.lookup runtime := by
  unfold buildProviderIndex
  cases provider with
  | none => simp
  | some built =>
    unfold providerIndexed
    dsimp only
    rw [Option.bind_some]
    cases hheld : indexes.lookup built with
    | some index =>
      have hno : ¬(some built = some runtime ∧ indexes.lookup runtime = none) := by
        intro h
        cases h.1
        rw [hheld] at h
        cases h.2
      rw [if_pos Option.isSome_some, if_neg hno]
    | none =>
      rw [if_neg (by decide)]
      dsimp only
      by_cases hsame : built = runtime
      · cases hsame
        rw [AList.lookup_insert, if_pos ⟨rfl, hheld⟩]
      · rw [AList.lookup_insert_ne (Ne.symm hsame),
          if_neg fun h => hsame (Option.some.inj h.1)]

/-- A build keeps every index its own runtime's. -/
theorem ownImages_buildProviderIndex {indexes : Indexes} (h : OwnImages process scanner indexes)
    (provider : Option HModule) :
    OwnImages process scanner (buildProviderIndex process scanner indexes provider).2 := by
  intro runtime index hlookup
  rw [lookup_buildProviderIndex] at hlookup
  split at hlookup
  · exact (Option.some.inj hlookup).symm
  · exact h runtime index hlookup

/-- A runtime's index after a history is its own image's when it was built in
the history, and absent otherwise. -/
theorem lookup_indexesAfter (process : Process) (scanner : Scanner) (history : List (Option HModule))
    (runtime : HModule) :
    (indexesAfter process scanner history).lookup runtime =
      if some runtime ∈ history then some (buildIndex process scanner runtime).1 else none := by
  induction history using List.reverseRecOn with
  | nil => rfl
  | append_singleton history provider ih =>
    have hstep : indexesAfter process scanner (history ++ [provider]) =
        (buildProviderIndex process scanner (indexesAfter process scanner history) provider).2 := by
      unfold indexesAfter
      rw [List.foldl_append, List.foldl_cons, List.foldl_nil]
    rw [hstep, lookup_buildProviderIndex, ih]
    by_cases hmem : some runtime ∈ history
    · simp [hmem]
    · by_cases hlast : provider = some runtime
      · simp [hmem, hlast]
      · simp [hmem, hlast, Ne.symm hlast]

/-- No runtime is indexed before the first build. -/
theorem ownImages_empty : OwnImages process scanner ∅ := by
  intro provider index h
  rw [AList.lookup_empty] at h
  cases h

/-- The indexes held after a history are each runtime's own. -/
theorem ownImages_indexesAfter (history : List (Option HModule)) :
    OwnImages process scanner (indexesAfter process scanner history) := by
  intro provider index h
  rw [lookup_indexesAfter] at h
  split at h
  · exact (Option.some.inj h).symm
  · cases h

/-- The sole indexed runtime is the one runtime with an index. -/
theorem soleIndexedProvider_eq_some {indexes : Indexes} {provider : HModule} :
    soleIndexedProvider indexes = some provider ↔ ∀ runtime, runtime ∈ indexes ↔ runtime = provider := by
  have hmem : ∀ runtime, runtime ∈ indexes ↔ runtime ∈ indexes.entries.map Sigma.fst := fun _ =>
    Iff.rfl
  have hnodup : (indexes.entries.map Sigma.fst).Nodup := indexes.keys_nodup
  unfold soleIndexedProvider
  simp only [hmem]
  cases hentries : indexes.entries with
  | nil =>
    simp only [reduceCtorEq, List.map_nil, List.not_mem_nil, false_iff, not_forall, not_not]
    exact ⟨provider, by simp⟩
  | cons first rest =>
    cases rest with
    | nil =>
      simp only [Option.some.injEq, List.map_cons, List.map_nil, List.mem_singleton]
      refine ⟨fun h runtime => by rw [h], fun h => (h first.1).mp rfl⟩
    | cons second rest =>
      rw [hentries] at hnodup
      have hne : first.1 ≠ second.1 := fun h =>
        (List.nodup_cons.mp hnodup).1 (by rw [h]; exact List.mem_cons_self)
      simp only [reduceCtorEq, false_iff]
      intro h
      have hfirst := (h first.1).mp (by simp)
      have hsecond := (h second.1).mp (by simp)
      exact hne (hfirst.trans hsecond.symm)

end History

section Native

variable {process : Process} {scanner : Scanner}

/-- For an indexed runtime and an identified cubin, the lookup answers the last
candidate under the cubin's key. -/
theorem findNativeCubin_of_indexed {indexes : Indexes} {provider : HModule} {cubin : Bytes}
    {identity : Identity} (arch : UInt32)
    (hindex : indexes.lookup provider = some (buildIndex process scanner provider).1)
    (hidentity : identify cubin = some identity) :
    findNativeCubin indexes (some provider) cubin arch =
      ((candidates process scanner provider (variantKey identity.name identity.code) arch).getLast?).map
        IndexedCubin.blob := by
  unfold findNativeCubin
  rw [Option.bind_some, hidentity, Option.bind_some, hindex, Option.bind_some, buildIndex_variants,
    lookup_variantsOf]
  rfl

/-- A native answer is an indexed cubin of the asked architecture under the
key of the cubin asked about. -/
theorem findNativeCubin_eq_some {indexes : Indexes} (hown : OwnImages process scanner indexes)
    {provider : Option HModule} {cubin : Bytes} {arch : UInt32} {blob : Blob}
    (h : findNativeCubin indexes provider cubin arch = some blob) :
    ∃ runtime identity native, provider = some runtime ∧ identify cubin = some identity ∧
      indexes.lookup runtime = some (buildIndex process scanner runtime).1 ∧
      native ∈ indexedCubins process scanner runtime ∧
      native.key = variantKey identity.name identity.code ∧ native.identity.arch = arch ∧
      native.blob = blob := by
  obtain ⟨runtime, hruntime, hrest⟩ := Option.bind_eq_some_iff.mp h
  obtain ⟨identity, hidentity, hrest⟩ := Option.bind_eq_some_iff.mp hrest
  obtain ⟨index, hindex, hlookup⟩ := Option.bind_eq_some_iff.mp hrest
  have hindexed := hindex
  rw [hown runtime index hindex] at hlookup hindexed
  rw [buildIndex_variants, lookup_variantsOf] at hlookup
  obtain ⟨native, hlast, hblob⟩ := Option.map_eq_some_iff.mp hlookup
  obtain ⟨hmem, hkept⟩ := List.mem_filter.mp (List.mem_of_getLast? hlast)
  obtain ⟨hkey, harch⟩ := of_decide_eq_true hkept
  exact ⟨runtime, identity, native, hruntime, hidentity, hindexed, hmem, hkey, harch, hblob⟩

end Native

end OpenDlssg.ProviderLookup
