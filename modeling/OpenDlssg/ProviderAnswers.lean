import OpenDlssg.ProviderLookup

/-!
# When a native answer is the right one

A lookup keeps one cubin under a kernel's key and an architecture, whichever
the scan met last, and the key covers the first kernel of an image only. Both
facts bound what a native answer can promise: it is the only choice when the
images under its key agree, and the same program when the kernels after the
first one agree as well.
-/

namespace OpenDlssg.ProviderAnswers

open ByteCodec ByteSearch ProcessMemory PatternScan LastWriteMap CubinImage FatbinContainer
open ProviderIndex ProviderLookup

/-- The header of a section of a sample cubin. -/
def sampleSection (name offset size : ℕ) : SectionHeader :=
  ⟨UInt32.ofNat name, 1, 0, 0, UInt64.ofNat offset, UInt64.ofNat size, 0, 0, 1, 0⟩

/-- A cubin laid out around the given kernels and their code: the header, the
section names, the code and the section table, closed by the names' section. -/
def sampleCubin (version arch : UInt32) (kernels : List (Bytes × Bytes)) : Bytes :=
  let names := kernels.flatMap fun kernel => kText ++ kernel.1 ++ [0]
  let code := kernels.flatMap fun kernel => kernel.2
  let headers := kernels.foldl
    (fun (written : Bytes × ℕ × ℕ) kernel =>
      (written.1 ++ sectionHeader.encode (sampleSection written.2.1 written.2.2 kernel.2.length),
        written.2.1 + kText.length + kernel.1.length + 1, written.2.2 + kernel.2.length))
    ([], 0, 64 + names.length)
  elfHeader.encode
      { ident := ⟨kElfMagic ++ [kElfClass64] ++ List.replicate 11 0, rfl⟩
        type := 2, machine := kMachineCuda, version := version, entry := 0
        programHeadersOffset := 0
        sectionHeadersOffset := UInt64.ofNat (64 + names.length + code.length)
        flags := arch, headerSize := 64, programHeaderSize := 0, programHeaderCount := 0
        sectionHeaderSize := 64, sectionHeaderCount := UInt16.ofNat (kernels.length + 1)
        sectionNamesIndex := UInt16.ofNat kernels.length } ++
    names ++ code ++ headers.1 ++ sectionHeader.encode (sampleSection names.length 64 names.length)

/-- A process whose every runtime is one readable section at 0x1000. -/
def sampleProcess (image : Bytes) : Process where
  memory := (Memory.mk (fun _ => 0) fun _ => true).write 0x1000 image
  readableSections _ := [⟨0x1000, image.length⟩]

/-- A sample runtime is scanned over the one image it maps. -/
theorem taken_sampleProcess {α : Type} (image : Bytes) (scanner : Scanner) (provider : HModule)
    (magic : Signature) (accept : ℕ → Bytes → Option (ℕ × α)) :
    taken (sampleProcess image) scanner provider magic accept =
      takenFrom accept 0x1000 image (scanner.findAllPattern image magic) 0 := by
  have hview : (sampleProcess image).memory.view ⟨0x1000, image.length⟩ = image :=
    Memory.bytes_write_self _ _ _
  have hsections : (sampleProcess image).readableSections provider = [⟨0x1000, image.length⟩] := rfl
  unfold taken
  rw [hsections, List.flatMap_singleton, hview]

/-- The bare cubins of a sample runtime, read off its image. -/
theorem indexedCubins_sampleProcess (image : Bytes) (scanner : Scanner) (provider : HModule) :
    indexedCubins (sampleProcess image) scanner provider =
      takenFrom (acceptCubin ((takenFrom acceptContainer 0x1000 image
          (scanner.findAllPattern image kFatbinSignature) 0).map FoundContainer.blob))
        0x1000 image (scanner.findAllPattern image kElfSignature) 0 := by
  unfold indexedCubins foundContainers
  rw [taken_sampleProcess, taken_sampleProcess]

section Ambiguity

variable (process : Process) (scanner : Scanner)

/-- The bare cubins of a runtime that a query's key and architecture select. -/
def rivals (provider : HModule) (cubin : Bytes) (arch : UInt32) : List IndexedCubin :=
  match identify cubin with
  | none => []
  | some identity =>
    candidates process scanner provider (variantKey identity.name identity.code) arch

/-- The answer of a map of variants to a query. -/
def answerOf (variants : Map UInt64 (Map UInt32 Blob)) (cubin : Bytes) (arch : UInt32) :
    Option Blob :=
  (identify cubin).bind fun identity =>
    lookupNested variants (variantKey identity.name identity.code) arch

/-- Native substitution never guesses between a runtime's images. -/
structure NeverGuesses (indexes : Indexes) (provider : HModule) (cubin : Bytes) (arch : UInt32) :
    Prop where
  /-- Two images with the query's first kernel, name and code, that are not
  byte-identical leave nothing to answer. -/
  ambiguous : ∀ first ∈ indexedCubins process scanner provider,
    ∀ second ∈ indexedCubins process scanner provider,
    firstKernel (process.memory.view first.blob) = firstKernel cubin →
    firstKernel (process.memory.view second.blob) = firstKernel cubin →
    first.identity.arch = arch → second.identity.arch = arch →
    process.memory.view first.blob ≠ process.memory.view second.blob →
    findNativeCubin indexes (some provider) cubin arch = none
  /-- Every image with the key and architecture of an answer is the answer. -/
  unanimous : ∀ blob, findNativeCubin indexes (some provider) cubin arch = some blob →
    ∀ native ∈ rivals process scanner provider cubin arch,
      process.memory.view native.blob = process.memory.view blob
  /-- The bytes answered do not depend on the order the scan met the images in. -/
  orderFree : ∀ cubins : List IndexedCubin,
    cubins.Perm (indexedCubins process scanner provider) →
    (answerOf (variantsOf cubins) cubin arch).map process.memory.view =
      (findNativeCubin indexes (some provider) cubin arch).map process.memory.view

variable {process scanner}

/-- An indexed cubin with a query's first kernel stands under the query's key. -/
theorem mem_rivals {provider : HModule} {cubin : Bytes} {arch : UInt32} {native : IndexedCubin}
    {identity : Identity} (hidentity : identify cubin = some identity)
    (hmem : native ∈ indexedCubins process scanner provider)
    (hfirst : firstKernel (process.memory.view native.blob) = firstKernel cubin)
    (harch : native.identity.arch = arch) : native ∈ rivals process scanner provider cubin arch := by
  obtain ⟨code, hcode, _, hquery⟩ := identify_eq_some.mp hidentity
  obtain ⟨code', hcode', _, hnative⟩ := identify_eq_some.mp (mem_indexedCubins hmem).2.2
  have hsame : code' = code := by
    rw [hfirst, hcode] at hcode'
    exact (Option.some.inj hcode').symm
  have hkey : native.key = variantKey identity.name identity.code := by
    unfold IndexedCubin.key
    rw [hnative, hquery, hsame]
  unfold rivals
  rw [hidentity]
  exact List.mem_filter.mpr ⟨hmem, decide_eq_true ⟨hkey, harch⟩⟩

/-- For an indexed runtime the answer is the last of the query's rivals. -/
theorem findNativeCubin_eq_rivals (process : Process) (scanner : Scanner)
    {history : List (Option HModule)} {provider : HModule}
    (hindexed : some provider ∈ history) (cubin : Bytes) (arch : UInt32) :
    findNativeCubin (indexesAfter process scanner history) (some provider) cubin arch =
      ((rivals process scanner provider cubin arch).getLast?).map IndexedCubin.blob := by
  have hindex := lookup_indexesAfter process scanner history provider
  rw [if_pos hindexed] at hindex
  unfold rivals
  cases hidentity : identify cubin with
  | none =>
    unfold findNativeCubin
    rw [hidentity]
    rfl
  | some identity => exact findNativeCubin_of_indexed arch hindex hidentity

/-- Native substitution never guesses exactly where the images under the
query's key and architecture are pairwise byte-identical. -/
theorem neverGuesses_iff {history : List (Option HModule)} {provider : HModule}
    (hindexed : some provider ∈ history) (cubin : Bytes) (arch : UInt32) :
    NeverGuesses process scanner (indexesAfter process scanner history) provider cubin arch ↔
      ∀ first ∈ rivals process scanner provider cubin arch,
        ∀ second ∈ rivals process scanner provider cubin arch,
          process.memory.view first.blob = process.memory.view second.blob := by
  have hanswer := findNativeCubin_eq_rivals process scanner hindexed cubin arch
  constructor
  · intro h first hfirst second hsecond
    obtain ⟨last, hlast⟩ : ∃ last, (rivals process scanner provider cubin arch).getLast? = some last := by
      rw [← Option.isSome_iff_exists, List.getLast?_isSome]
      exact List.ne_nil_of_mem hfirst
    rw [hlast, Option.map_some] at hanswer
    have hleft := h.unanimous last.blob hanswer first hfirst
    have hright := h.unanimous last.blob hanswer second hsecond
    exact hleft.trans hright.symm
  · intro h
    refine ⟨?_, ?_, ?_⟩
    · intro first hfirst second hsecond hkernel hkernel' harch harch' hdiffer
      cases hidentity : identify cubin with
      | none =>
        unfold findNativeCubin
        rw [hidentity]
        rfl
      | some identity =>
        have hrival := mem_rivals hidentity hfirst hkernel harch
        have hrival' := mem_rivals hidentity hsecond hkernel' harch'
        exact absurd (h first hrival second hrival') hdiffer
    · intro blob hblob native hnative
      rw [hanswer] at hblob
      obtain ⟨last, hlast, hsame⟩ := Option.map_eq_some_iff.mp hblob
      rw [← hsame]
      exact h native hnative last (List.mem_of_getLast? hlast)
    · intro cubins hperm
      rw [hanswer, Option.map_map]
      unfold answerOf
      cases hidentity : identify cubin with
      | none =>
        unfold rivals
        rw [hidentity]
        rfl
      | some identity =>
        unfold rivals at h ⊢
        rw [hidentity] at h ⊢
        rw [Option.bind_some, lookup_variantsOf, Option.map_map]
        exact map_getLast?_perm _ (hperm.filter _) h

/-- A runtime with two builds of one kernel for one architecture, alike but
for the version their headers state. -/
def twins : Process :=
  sampleProcess (sampleCubin 0 86 [(ascii "k", [1, 2])] ++ sampleCubin 1 86 [(ascii "k", [1, 2])])

/-- A runtime with one build is answered without a guess. -/
theorem neverGuesses_single : some 7 ∈ [some 7] ∧
    NeverGuesses (sampleProcess (sampleCubin 0 86 [(ascii "k", [1, 2])])) Scanner.exhaustive
      (indexesAfter (sampleProcess (sampleCubin 0 86 [(ascii "k", [1, 2])])) Scanner.exhaustive
        [some 7]) 7 (sampleCubin 0 89 [(ascii "k", [1, 2])]) 86 :=
  ⟨by decide, (neverGuesses_iff (by decide) _ _).mpr (by decide +kernel)⟩

/-- The two builds as the scan meets them. -/
def twinCubins : List IndexedCubin :=
  [⟨0x1000, ⟨ascii "k", hashBytes [1, 2], 86, 202⟩⟩,
    ⟨0x1000 + 202, ⟨ascii "k", hashBytes [1, 2], 86, 202⟩⟩]

theorem indexedCubins_twins : indexedCubins twins Scanner.exhaustive 7 = twinCubins := by
  unfold twins
  rw [indexedCubins_sampleProcess]
  decide +kernel

/-- Both are rivals of the build for another architecture. -/
theorem rivals_twins :
    rivals twins Scanner.exhaustive 7 (sampleCubin 0 89 [(ascii "k", [1, 2])]) 86 = twinCubins := by
  unfold rivals candidates
  rw [indexedCubins_twins]
  decide +kernel

/-- The build the scan met last is answered. -/
theorem twins_answer : findNativeCubin (indexesAfter twins Scanner.exhaustive [some 7]) (some 7)
    (sampleCubin 0 89 [(ascii "k", [1, 2])]) 86 = some ⟨0x1000 + 202, 202⟩ := by
  rw [findNativeCubin_eq_rivals twins Scanner.exhaustive (by decide), rivals_twins]
  rfl

/-- Of two builds that differ, the one the scan met last is answered. -/
theorem twins_guess : ¬NeverGuesses twins Scanner.exhaustive
    (indexesAfter twins Scanner.exhaustive [some 7]) 7 (sampleCubin 0 89 [(ascii "k", [1, 2])]) 86 := by
  intro h
  have hdiffer : ¬∀ native ∈ twinCubins,
      twins.memory.view native.blob = twins.memory.view ⟨0x1000 + 202, 202⟩ := by decide +kernel
  have hsame := h.unanimous _ twins_answer
  rw [rivals_twins] at hsame
  exact hdiffer hsame

end Ambiguity

section Soundness

/-- The name and the code of every kernel of an image. -/
def kernels (image : Bytes) : List (Bytes × Bytes) :=
  ((cubinSections image).filter isText).map fun code => (kernelName code, code.data)

/-- Two images that define the same kernels. -/
def SameKernels (first second : Bytes) : Prop := ∀ kernel, kernel ∈ kernels first ↔ kernel ∈ kernels second

/-- The byte strings hashed to find an image under its key: the first kernel's
code, and its name followed by the code's hash. -/
def hashedStrings (image : Bytes) : List Bytes :=
  match firstKernel image with
  | none => []
  | some code => [code.data, kernelName code ++ leBytes 8 (hashBytes code.data).toNat]

/-- No two of the byte strings share a hash. -/
def CollisionFree (strings : List Bytes) : Prop :=
  ∀ first ∈ strings, ∀ second ∈ strings, hashBytes first = hashBytes second → first = second

instance (strings : List Bytes) : Decidable (CollisionFree strings) :=
  inferInstanceAs (Decidable (∀ first ∈ strings, ∀ second ∈ strings, _))

/-- The byte strings hashed to identify a runtime's bare cubins and a query. -/
def identifiedStrings (process : Process) (scanner : Scanner) (provider : HModule) (cubin : Bytes) :
    List Bytes :=
  hashedStrings cubin ++ (indexedCubins process scanner provider).flatMap fun native =>
    hashedStrings (process.memory.view native.blob)

variable {process : Process} {scanner : Scanner} {provider : HModule}

/-- A key is the hash of the kernel's name followed by its code's hash. -/
theorem variantKey_eq_hashBytes (name : Bytes) (code : UInt64) :
    variantKey name code = hashBytes (name ++ leBytes 8 code.toNat) := by
  unfold variantKey hashBytes hashFrom
  rw [List.foldl_append]

/-- The name of a kernel's section is determined by the kernel. -/
theorem name_of_isText {code : CubinSection} (h : isText code = true) :
    code.name = kText ++ kernelName code := by
  obtain ⟨rest, hrest⟩ := List.isPrefixOf_iff_prefix.mp h
  unfold kernelName
  rw [← hrest, List.drop_left]

/-- The strings hashed for an identified image. -/
theorem hashedStrings_of_firstKernel {image : Bytes} {code : CubinSection}
    (h : firstKernel image = some code) : hashedStrings image =
      [code.data, kernelName code ++ leBytes 8 (hashBytes code.data).toNat] := by
  unfold hashedStrings
  rw [h]

/-- Without a collision, two identified images under one key have the same
first kernel, name and code. -/
theorem firstKernel_of_key {strings : List Bytes} (hfree : CollisionFree strings)
    {first second : Bytes} {identity identity' : Identity} (hfirst : identify first = some identity)
    (hsecond : identify second = some identity') (hin : hashedStrings first ⊆ strings)
    (hin' : hashedStrings second ⊆ strings)
    (hkey : variantKey identity.name identity.code = variantKey identity'.name identity'.code) :
    firstKernel first = firstKernel second := by
  obtain ⟨code, hcode, _, hidentity⟩ := identify_eq_some.mp hfirst
  obtain ⟨code', hcode', _, hidentity'⟩ := identify_eq_some.mp hsecond
  rw [hashedStrings_of_firstKernel hcode] at hin
  rw [hashedStrings_of_firstKernel hcode'] at hin'
  rw [hidentity, hidentity', variantKey_eq_hashBytes, variantKey_eq_hashBytes] at hkey
  dsimp only at hkey
  have hstring := hfree _ (hin (by simp)) _ (hin' (by simp)) hkey
  have hlen : (leBytes 8 (hashBytes code.data).toNat).length =
      (leBytes 8 (hashBytes code'.data).toNat).length := by
    rw [length_leBytes, length_leBytes]
  obtain ⟨hname, hhash⟩ := List.append_inj' hstring hlen
  have hhash' := congrArg leNat hhash
  rw [leNat_leBytes (UInt64.toNat_lt _), leNat_leBytes (UInt64.toNat_lt _)] at hhash'
  have hdata := hfree _ (hin (by simp)) _ (hin' (by simp)) (UInt64.toNat_inj.mp hhash')
  have htext : isText code = true := List.find?_some hcode
  have htext' : isText code' = true := List.find?_some hcode'
  have hnames : code.name = code'.name := by
    rw [name_of_isText htext, name_of_isText htext', hname]
  rw [hcode, hcode', CubinSection.ext hnames hdata]

/-- The bare cubins of a runtime with a query's first kernel, for one architecture. -/
def sameFirstKernel (process : Process) (scanner : Scanner) (provider : HModule) (cubin : Bytes)
    (arch : UInt32) : List IndexedCubin :=
  (indexedCubins process scanner provider).filter fun native =>
    firstKernel (process.memory.view native.blob) = firstKernel cubin ∧ native.identity.arch = arch

/-- Without a collision a query's key selects the images with its first kernel. -/
theorem rivals_eq_sameFirstKernel {cubin : Bytes}
    (hfree : CollisionFree (identifiedStrings process scanner provider cubin)) (arch : UInt32) :
    rivals process scanner provider cubin arch =
      sameFirstKernel process scanner provider cubin arch := by
  unfold rivals
  cases hidentity : identify cubin with
  | none =>
    refine (List.filter_eq_nil_iff.mpr ?_).symm
    intro native hnative hkept
    obtain ⟨code, hcode, hname, _⟩ := identify_eq_some.mp (mem_indexedCubins hnative).2.2
    have hquery : identify cubin = some ⟨kernelName code, hashBytes code.data, cubinArch cubin,
        cubinSize cubin⟩ :=
      identify_eq_some.mpr ⟨code, by rw [← (of_decide_eq_true hkept).1, hcode], hname, rfl⟩
    rw [hidentity] at hquery
    cases hquery
  | some identity =>
    refine List.filter_congr fun native hnative => decide_eq_decide.mpr ?_
    have himage := (mem_indexedCubins hnative).2.2
    refine and_congr_left fun _ => ⟨?_, ?_⟩
    · intro hkey
      have hin : hashedStrings (process.memory.view native.blob) ⊆
          identifiedStrings process scanner provider cubin := fun string hstring =>
        List.mem_append_right _ (List.mem_flatMap.mpr ⟨native, hnative, hstring⟩)
      have hin' : hashedStrings cubin ⊆ identifiedStrings process scanner provider cubin :=
        List.subset_append_left _ _
      exact firstKernel_of_key hfree himage hidentity hin hin' hkey
    · intro hkernel
      have hrival := mem_rivals hidentity hnative hkernel rfl
      unfold rivals at hrival
      rw [hidentity] at hrival
      exact (of_decide_eq_true (List.mem_filter.mp hrival).2).1

/-- The first kernel of an image is one of its kernels. -/
theorem mem_kernels_of_firstKernel {image : Bytes} {code : CubinSection}
    (h : firstKernel image = some code) : (kernelName code, code.data) ∈ kernels image :=
  List.mem_map_of_mem (List.mem_filter.mpr ⟨List.mem_of_find?_eq_some h, List.find?_some h⟩)

/-- A native answer defines the query's kernels exactly when the last indexed
cubin with the query's first kernel defines, besides that kernel, the same ones. -/
theorem sameKernels_answer_iff {history : List (Option HModule)} (hindexed : some provider ∈ history)
    {cubin : Bytes} (hfree : CollisionFree (identifiedStrings process scanner provider cubin))
    (arch : UInt32) :
    (∀ blob, findNativeCubin (indexesAfter process scanner history) (some provider) cubin arch =
        some blob → SameKernels (process.memory.view blob) cubin) ↔
      ∀ native, (sameFirstKernel process scanner provider cubin arch).getLast? = some native →
        ∀ code, firstKernel cubin = some code → ∀ kernel, kernel ≠ (kernelName code, code.data) →
          (kernel ∈ kernels (process.memory.view native.blob) ↔ kernel ∈ kernels cubin) := by
  rw [findNativeCubin_eq_rivals process scanner hindexed, rivals_eq_sameFirstKernel hfree]
  constructor
  · intro h native hlast code _ kernel _
    exact h native.blob (by rw [hlast, Option.map_some]) kernel
  · intro h blob hblob kernel
    obtain ⟨native, hlast, rfl⟩ := Option.map_eq_some_iff.mp hblob
    obtain ⟨hmem, hkept⟩ := List.mem_filter.mp (List.mem_of_getLast? hlast)
    have hfirst := (of_decide_eq_true hkept).1
    obtain ⟨code, hcode, _, _⟩ := identify_eq_some.mp (mem_indexedCubins hmem).2.2
    rw [hcode] at hfirst
    by_cases hkernel : kernel = (kernelName code, code.data)
    · rw [hkernel]
      exact iff_of_true (mem_kernels_of_firstKernel hcode) (mem_kernels_of_firstKernel hfirst.symm)
    · exact h native hlast code hfirst.symm kernel hkernel

/-- A runtime whose build of a kernel's image has another second kernel. -/
def otherSecondKernel : Process :=
  sampleProcess (sampleCubin 0 86 [(ascii "k", [1, 2]), (ascii "n", [4])])

theorem indexedCubins_otherSecondKernel :
    indexedCubins otherSecondKernel Scanner.exhaustive 7 =
      [⟨0x1000, ⟨ascii "k", hashBytes [1, 2], 86, 275⟩⟩] := by
  unfold otherSecondKernel
  rw [indexedCubins_sampleProcess]
  decide +kernel

/-- Images of a single kernel are answered by images of that kernel. -/
theorem sameKernels_single :
    SameKernels (twins.memory.view ⟨0x1000 + 202, 202⟩) (sampleCubin 0 89 [(ascii "k", [1, 2])]) := by
  have hfree : CollisionFree (identifiedStrings twins Scanner.exhaustive 7
      (sampleCubin 0 89 [(ascii "k", [1, 2])])) := by
    unfold identifiedStrings
    rw [indexedCubins_twins]
    decide +kernel
  have hlast : (sameFirstKernel twins Scanner.exhaustive 7
      (sampleCubin 0 89 [(ascii "k", [1, 2])]) 86).getLast? =
        some ⟨0x1000 + 202, ⟨ascii "k", hashBytes [1, 2], 86, 202⟩⟩ := by
    rw [← rivals_eq_sameFirstKernel hfree, rivals_twins]
    rfl
  have hkernels : kernels (twins.memory.view ⟨0x1000 + 202, 202⟩) =
      kernels (sampleCubin 0 89 [(ascii "k", [1, 2])]) := by decide +kernel
  refine (sameKernels_answer_iff (by decide) hfree 86).mpr ?_ _ twins_answer
  intro native hnative _ _ kernel _
  rw [hlast] at hnative
  cases hnative
  exact iff_of_eq (congrArg (kernel ∈ ·) hkernels)

/-- An image is answered by one that lacks its second kernel, with no two of
the strings hashed colliding. -/
theorem second_kernel_lost :
    CollisionFree (identifiedStrings otherSecondKernel Scanner.exhaustive 7
        (sampleCubin 0 89 [(ascii "k", [1, 2]), (ascii "m", [3])])) ∧
      ¬∀ blob, findNativeCubin (indexesAfter otherSecondKernel Scanner.exhaustive [some 7]) (some 7)
        (sampleCubin 0 89 [(ascii "k", [1, 2]), (ascii "m", [3])]) 86 = some blob →
          SameKernels (otherSecondKernel.memory.view blob)
            (sampleCubin 0 89 [(ascii "k", [1, 2]), (ascii "m", [3])]) := by
  have hfree : CollisionFree (identifiedStrings otherSecondKernel Scanner.exhaustive 7
      (sampleCubin 0 89 [(ascii "k", [1, 2]), (ascii "m", [3])])) := by
    unfold identifiedStrings
    rw [indexedCubins_otherSecondKernel]
    decide +kernel
  refine ⟨hfree, fun h => ?_⟩
  have hanswer : findNativeCubin (indexesAfter otherSecondKernel Scanner.exhaustive [some 7]) (some 7)
      (sampleCubin 0 89 [(ascii "k", [1, 2]), (ascii "m", [3])]) 86 = some ⟨0x1000, 275⟩ := by
    rw [findNativeCubin_eq_rivals otherSecondKernel Scanner.exhaustive (by decide)]
    unfold rivals candidates
    rw [indexedCubins_otherSecondKernel]
    decide +kernel
  have hlost : (ascii "m", [3]) ∉ kernels (otherSecondKernel.memory.view ⟨0x1000, 275⟩) := by
    decide +kernel
  have hheld : (ascii "m", [3]) ∈
      kernels (sampleCubin 0 89 [(ascii "k", [1, 2]), (ascii "m", [3])]) := by decide +kernel
  exact hlost ((h _ hanswer _).mpr hheld)

end Soundness

end OpenDlssg.ProviderAnswers
