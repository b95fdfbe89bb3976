import OpenDlssg.SubstituteSafety

/-!
# Each runtime answers only for itself

Two histories of builds that agree on one runtime, over two processes that
agree on its sections, give that runtime the same answers. What it answers is
one of its own bare cubins, and a call from no known module is answered by the
sole indexed runtime or not at all.
-/

namespace OpenDlssg.ProviderAttribution

open ByteCodec ProcessMemory PatternScan CubinImage FatbinContainer FatbinRetarget
open ProviderIndex ProviderLookup ProviderAnswers Substitute SubstituteSafety

/-- An answer that is one of the runtime's own bare cubins of an architecture,
whole, with the first kernel of the cubin asked about. -/
structure SoundAnswer (process : Process) (scanner : Scanner) (provider : HModule) (cubin : Bytes)
    (arch : UInt32) (blob : Blob) : Prop where
  inSection : ∃ code ∈ process.readableSections provider, code.covers blob.data ∧
    blob.data + blob.size ≤ code.data + code.size
  outsideContainers : ∀ found ∈ foundContainers process scanner provider,
    ¬found.blob.covers blob.data
  arch_eq : cubinArch (process.memory.view blob) = arch
  size_eq : cubinSize (process.memory.view blob) = blob.size
  kernel_eq : ∃ code, firstKernel (process.memory.view blob) = some code ∧
    firstKernel cubin = some code

/-- A runtime answers a query for itself after a history of builds. -/
structure AnswersForItself (env : Environment) (history : List (Option HModule)) (provider : HModule)
    (cubin : Bytes) (arch : UInt32) : Prop where
  /-- Other histories and other processes that agree on this runtime answer alike. -/
  ownImage : ∀ (other : Process) (history' : List (Option HModule)),
    (some provider ∈ history ↔ some provider ∈ history') →
    env.process.readableSections provider = other.readableSections provider →
    (∀ code ∈ env.process.readableSections provider,
      env.process.memory.view code = other.memory.view code) →
    findNativeCubin (indexesAfter env.process env.scanner history) (some provider) cubin arch =
        findNativeCubin (indexesAfter other env.scanner history') (some provider) cubin arch ∧
      findContainerForCubin (indexesAfter env.process env.scanner history) (some provider) cubin =
        findContainerForCubin (indexesAfter other env.scanner history') (some provider) cubin
  /-- A runtime that is not indexed answers nothing. -/
  notIndexed : some provider ∉ history →
    findNativeCubin (indexesAfter env.process env.scanner history) (some provider) cubin arch = none ∧
      findContainerForCubin (indexesAfter env.process env.scanner history) (some provider) cubin =
        none
  /-- A native answer is sound. -/
  sound : ∀ blob,
    findNativeCubin (indexesAfter env.process env.scanner history) (some provider) cubin arch =
      some blob → SoundAnswer env.process env.scanner provider cubin arch blob
  /-- A call from no known module is decided as the sole indexed runtime's. -/
  soleRuntime : ∀ (s : State) (detected : UInt32),
    s.indexes = indexesAfter env.process env.scanner history → cubinArch cubin ≠ 0 →
    ∀ runtime, (∀ indexed, some indexed ∈ history ↔ indexed = runtime) →
      Substitute.decide env detected none (some cubin) s =
        Substitute.decide env detected (some runtime) (some cubin) s
  /-- With no sole runtime such a call is never answered with a replacement. -/
  noGuess : ∀ (s : State) (detected : UInt32),
    s.indexes = indexesAfter env.process env.scanner history → cubinArch cubin ≠ 0 →
    (¬∃ runtime, ∀ indexed, some indexed ∈ history ↔ indexed = runtime) →
      (Substitute.decide env detected none (some cubin) s).1.decision ≠ .substituted

variable {env : Environment}

/-- A runtime without an index answers nothing. -/
theorem answers_of_lookup_none {indexes : Indexes} {provider : HModule}
    (h : indexes.lookup provider = none) (cubin : Bytes) (arch : UInt32) :
    findNativeCubin indexes (some provider) cubin arch = none ∧
      findContainerForCubin indexes (some provider) cubin = none := by
  unfold findNativeCubin findContainerForCubin
  rw [Option.bind_some, Option.bind_some, h]
  refine ⟨?_, ?_⟩
  · cases identify cubin with
    | none => rfl
    | some identity => rfl
  · split
    · rfl
    · cases fingerprint cubin with
      | none => rfl
      | some key => rfl

/-- The answers read nothing but the asked runtime's index. -/
theorem answers_congr {indexes indexes' : Indexes} {provider : HModule}
    (h : indexes.lookup provider = indexes'.lookup provider) (cubin : Bytes) (arch : UInt32) :
    findNativeCubin indexes (some provider) cubin arch =
        findNativeCubin indexes' (some provider) cubin arch ∧
      findContainerForCubin indexes (some provider) cubin =
        findContainerForCubin indexes' (some provider) cubin := by
  unfold findNativeCubin findContainerForCubin
  simp only [Option.bind_some, h, and_self]

/-- Without a collision a native answer is sound. -/
theorem soundAnswer_of_eq_some {process : Process} {scanner : Scanner} {indexes : Indexes}
    (hown : OwnImages process scanner indexes) {provider : HModule} {cubin : Bytes} {arch : UInt32}
    (hfree : CollisionFree (identifiedStrings process scanner provider cubin)) {blob : Blob}
    (h : findNativeCubin indexes (some provider) cubin arch = some blob) :
    SoundAnswer process scanner provider cubin arch blob := by
  obtain ⟨runtime, identity, native, hruntime, hidentity, _, hmem, hkey, harch, rfl⟩ :=
    findNativeCubin_eq_some hown h
  cases hruntime
  obtain ⟨hsection, houtside, himage⟩ := mem_indexedCubins hmem
  obtain ⟨hsize, hnativeArch⟩ := image_of_mem_indexedCubins hmem
  have hin : hashedStrings (process.memory.view native.blob) ⊆
      identifiedStrings process scanner provider cubin := fun string hstring =>
    List.mem_append_right _ (List.mem_flatMap.mpr ⟨native, hmem, hstring⟩)
  have hin' : hashedStrings cubin ⊆ identifiedStrings process scanner provider cubin :=
    List.subset_append_left _ _
  have hkernel := firstKernel_of_key hfree himage hidentity hin hin' hkey
  obtain ⟨code, hcode, _, _⟩ := identify_eq_some.mp hidentity
  exact ⟨hsection, houtside, hnativeArch.trans harch, hsize, code, hkernel.trans hcode, hcode⟩

/-- The runtimes with an index after a history are those built in it. -/
theorem mem_indexesAfter {process : Process} {scanner : Scanner} {history : List (Option HModule)}
    {runtime : HModule} :
    runtime ∈ indexesAfter process scanner history ↔ some runtime ∈ history := by
  rw [← AList.lookup_isSome, lookup_indexesAfter]
  split
  · rename_i hmem
    exact iff_of_true rfl hmem
  · rename_i hmem
    exact iff_of_false (by simp) hmem

/-- The sole indexed runtime after a history is the only one built in it. -/
theorem soleIndexedProvider_indexesAfter {process : Process} {scanner : Scanner}
    {history : List (Option HModule)} {runtime : HModule} :
    soleIndexedProvider (indexesAfter process scanner history) = some runtime ↔
      ∀ indexed, some indexed ∈ history ↔ indexed = runtime := by
  rw [soleIndexedProvider_eq_some]
  exact forall_congr' fun indexed => by rw [mem_indexesAfter]

/-- A bare cubin is decided for its caller only through the answering runtime. -/
theorem decideCubin_congr {indexes : Indexes} {caller caller' : Option HModule}
    (h : answeringProvider indexes caller = answeringProvider indexes caller') (blob : Bytes)
    (arch target : UInt32) (source : PtxSource) :
    decideCubin env indexes caller blob arch target source =
      decideCubin env indexes caller' blob arch target source := by
  unfold decideCubin
  rw [h]

/-- With no runtime to answer, a bare cubin is never replaced. -/
theorem decideCubin_unanswered {indexes : Indexes} {caller : Option HModule}
    (h : answeringProvider indexes caller = none) (blob : Bytes) (arch target : UInt32)
    (source : PtxSource) :
    (decideCubin env indexes caller blob arch target source).decision ≠ .substituted := by
  unfold decideCubin
  dsimp only
  rw [h]
  split
  · exact fun hs => by cases hs
  · exact fun hs => by cases hs

/-- A bare cubin is decided by its own decider. -/
theorem decideFrom_cubin {s : State} {caller : Option HModule} {blob : Bytes} {source : PtxSource}
    {target : UInt32} (htarget : target ≠ 0) (harch : cubinArch blob ≠ 0) :
    decideFrom env s caller (some blob) source target =
      decideCubin env s.indexes caller blob (cubinArch blob) target source := by
  have hblob : blob ≠ [] := by
    intro hnil
    rw [hnil] at harch
    exact harch rfl
  unfold decideFrom
  dsimp only
  rw [if_neg (not_or.mpr ⟨htarget, hblob⟩), if_pos harch]

/-- Without a target every blob is passed on, whoever asks. -/
theorem decideFrom_noTarget {s : State} {caller : Option HModule} {blob : Bytes}
    {source : PtxSource} : decideFrom env s caller (some blob) source 0 =
      ⟨.unchanged, none, {}, if !s.active then "inactive" else "no target architecture"⟩ := by
  unfold decideFrom
  dsimp only
  rw [if_pos (Or.inl rfl)]
  simp

/-- After any history of builds every runtime answers only for itself, with
FNV-1a free of collisions on the strings hashed to identify its cubins and the
query. -/
theorem answersForItself {history : List (Option HModule)} {provider : HModule} {cubin : Bytes}
    (hfree : CollisionFree (identifiedStrings env.process env.scanner provider cubin))
    (arch : UInt32) : AnswersForItself env history provider cubin arch := by
  refine ⟨?_, ?_, ?_, ?_, ?_⟩
  · intro other history' hsame hsections hbytes
    refine answers_congr ?_ cubin arch
    have hbuilt : buildIndex env.process env.scanner provider =
        buildIndex other env.scanner provider := buildIndex_congr hsections hbytes
    rw [lookup_indexesAfter, lookup_indexesAfter, hbuilt]
    simp only [hsame]
  · intro hmissing
    refine answers_of_lookup_none ?_ cubin arch
    rw [lookup_indexesAfter, if_neg hmissing]
  · intro blob hblob
    exact soundAnswer_of_eq_some (ownImages_indexesAfter history) hfree hblob
  · intro s detected hindexes harch runtime hsole
    have hkept : (targetSm detected s).2.indexes = indexesAfter env.process env.scanner history :=
      (targetSm_keeps detected s).2.trans hindexes
    have hprovider : answeringProvider (targetSm detected s).2.indexes none =
        answeringProvider (targetSm detected s).2.indexes (some runtime) := by
      rw [hkept]
      exact soleIndexedProvider_indexesAfter.mpr hsole
    have hfrom : ∀ source target,
        decideFrom env (targetSm detected s).2 none (some cubin) source target =
          decideFrom env (targetSm detected s).2 (some runtime) (some cubin) source target := by
      intro source target
      by_cases htarget : target = 0
      · rw [htarget, decideFrom_noTarget, decideFrom_noTarget]
      · rw [decideFrom_cubin htarget harch, decideFrom_cubin htarget harch,
          decideCubin_congr hprovider]
    unfold Substitute.decide
    dsimp only
    rw [hfrom]
  · intro s detected hindexes harch hnone
    have hkept : (targetSm detected s).2.indexes = indexesAfter env.process env.scanner history :=
      (targetSm_keeps detected s).2.trans hindexes
    have hprovider : answeringProvider (targetSm detected s).2.indexes none = none := by
      cases hsole : soleIndexedProvider (targetSm detected s).2.indexes with
      | none => exact hsole
      | some runtime =>
        rw [hkept] at hsole
        exact absurd ⟨runtime, soleIndexedProvider_indexesAfter.mp hsole⟩ hnone
    have hfrom : (decideFrom env (targetSm detected s).2 none (some cubin)
        (preferredSource (targetSm detected s).2.options) (targetSm detected s).1).decision ≠
          .substituted := by
      by_cases htarget : (targetSm detected s).1 = 0
      · rw [htarget, decideFrom_noTarget]
        exact fun hs => by cases hs
      · rw [decideFrom_cubin htarget harch]
        exact decideCubin_unanswered hprovider _ _ _ _
    intro hs
    exact hfrom ((withheld_spec _ _).2.1.mp hs).1

/-- The runtime with the Ampere build of a kernel answers for the Ada build. -/
theorem answersForItself_ampere :
    AnswersForItself (sampleEnvironment ampereBuild) [some 7, some 9] 7 adaBuild 86 :=
  answersForItself (by decide +kernel) 86

end OpenDlssg.ProviderAttribution
