import OpenDlssg.WalkReads

/-!
# The analyses at the end of the image

Every scan of the analyses stays in its span, and the decoding is not told where
the image ends: it reads on to the instruction that stops it. So the analyses read
inside the image exactly when the last instruction of each of their walks ends
there, with what a store through a SIB byte adds to its signature.
-/

namespace OpenDlssg.ImageEnd

open ByteCodec ProcessMemory PatternScan X86Decode DecoderExtent TracedReads TracedReads.Reading
open PluginAnalysis MarkerPath MultiFrameGates WalkReads

/-! ### Runtimes -/

section Runtime

variable {hde : Hde64} {extent : Extent hde} {scanner : Scanner} {memory : Memory} {image code : Span}

/-- The walk behind every comparison of the code ends inside the image. -/
def GateWalksEnd (extent : Extent hde) (memory : Memory) (image code : Span) : Prop :=
  ∀ address next, Compares memory code address next →
    EndsInside extent memory image (lastDecoded hde memory (namesParameter hde memory image)
      (instructionsToPublication - 1) next)

theorem compares_inside {address next : ℕ} (h : Compares memory code address next) :
    code.data ≤ address ∧ next ≤ code.data + code.size := by
  cases h with
  | eax _ hstart hend _ => exact ⟨hstart, hend⟩
  | reg _ _ _ hstart hend _ => exact ⟨hstart, hend⟩

/-- A comparison is read whole and lies in the code; what is read behind it is the walk. -/
theorem readsOnly_gateAt (hcode : Within code image) {immediate address : ℕ}
    (hcompare : Compares memory code address (address + (immediate + 4))) :
    ReadsOnly image memory (AnalysisReads.gateAt extent image immediate address) ↔
      EndsInside extent memory image (lastDecoded hde memory (namesParameter hde memory image)
        (instructionsToPublication - 1) (address + (immediate + 4))) := by
  have hdecode := hcompare.decoded hde
  rw [Nat.add_sub_cancel_left] at hdecode
  obtain ⟨hstart, hend⟩ := compares_inside hcompare
  have haddress : image.data ≤ address := hcode.start.trans hstart
  have hnext : image.data ≤ address + (immediate + 4) := haddress.trans (Nat.le_add_right _ _)
  have hends : EndsInside extent memory image address := fun _ =>
    (next_ge extent hdecode).2.trans (hend.trans hcode.stop)
  rw [AnalysisReads.gateAt, readsOnly_bind, readsOnly_decode haddress, and_iff_right hends,
    AnalysisReads.value_decode, hdecode]
  dsimp only [Instruction.next]
  rw [if_neg (not_not.mpr rfl), readsOnly_bind, readsOnly_bind, readsOnly_bind,
    and_iff_left (readsOnly_pure _), readsOnly_publishedParameter hnext, AnalysisReads.value_decode]
  constructor
  · intro h
    exact h.2.2
  · intro h
    have hconsumer := endsInside_of_lastDecoded h
    refine ⟨(readsOnly_decode hnext).mpr hconsumer, ?_, h⟩
    cases hdecode : decode hde memory (address + (immediate + 4)) with
    | none => exact readsOnly_pure _
    | some consumer =>
      exact readsOnly_ask (fun fields => by cases fields <;> rfl)
        (readsOnly_again hnext hdecode hconsumer)

/-- Nothing is read at the null address. -/
theorem readsOnly_gateAt_null (immediate : ℕ) :
    ReadsOnly image memory (AnalysisReads.gateAt extent image immediate 0) := by
  have hnull : AnalysisReads.decode extent 0 = pure none := rfl
  rw [AnalysisReads.gateAt, hnull]
  exact readsOnly_bind.mpr ⟨readsOnly_pure _, readsOnly_pure _⟩

/-- The code is scanned in its span, and every match is looked at. -/
theorem readsOnly_gatesOf (hcode : Within code image) {encoding : Encoding}
    (hpattern : encoding.pattern ≠ []) :
    ReadsOnly image memory (AnalysisReads.gatesOf extent scanner image code encoding) ↔
      ∀ address ∈ (allMatches encoding.pattern (memory.view code)).map (code.data + ·),
        ReadsOnly image memory (AnalysisReads.gateAt extent image encoding.immediate address) := by
  rw [AnalysisReads.gatesOf, readsOnly_bind, and_iff_right (readsOnly_view hcode), value_view,
    readsOnly_filterMap, scanner.findAllPattern_eq _ _ hpattern]

/-- The search for gates reads inside the image exactly when its walks end there. -/
theorem readsOnly_findMultiFrameGates_iff (scanner : Scanner) (hcode : Within code image) :
    ReadsOnly image memory (AnalysisReads.findMultiFrameGates extent scanner image code) ↔
      GateWalksEnd extent memory image code := by
  have heax : eaxEncoding.pattern ≠ [] := by decide
  have hreg : regEncoding.pattern ≠ [] := by decide
  have hboth : ReadsOnly image memory (AnalysisReads.findMultiFrameGates extent scanner image code) ↔
      ReadsOnly image memory (AnalysisReads.gatesOf extent scanner image code eaxEncoding) ∧
        ReadsOnly image memory (AnalysisReads.gatesOf extent scanner image code regEncoding) := by
    rw [AnalysisReads.findMultiFrameGates, encodings, AnalysisReads.gatesOfAll, readsOnly_bind,
      readsOnly_bind, and_iff_left (readsOnly_pure _), AnalysisReads.gatesOfAll, readsOnly_bind,
      readsOnly_bind, and_iff_left (readsOnly_pure _)]
    exact and_congr_right fun _ => and_iff_left (readsOnly_pure _)
  rw [hboth, readsOnly_gatesOf hcode heax, readsOnly_gatesOf hcode hreg]
  constructor
  · rintro ⟨heaxReads, hregReads⟩ address next hcompare
    cases hcompare with
    | eax hnull hstart hend hbytes =>
      have hmatch := mem_eaxMatches.mpr ⟨hstart, hend, hbytes⟩
      exact (readsOnly_gateAt hcode (.eax hnull hstart hend hbytes)).mp (heaxReads address hmatch)
    | reg modrm hmodrm hnull hstart hend hbytes =>
      have hmatch := mem_regMatches.mpr ⟨hstart, hend, modrm, hmodrm, hbytes⟩
      exact (readsOnly_gateAt hcode (.reg modrm hmodrm hnull hstart hend hbytes)).mp
        (hregReads address hmatch)
  · intro hends
    refine ⟨fun address hmatch => ?_, fun address hmatch => ?_⟩
    · obtain ⟨hstart, hend, hbytes⟩ := mem_eaxMatches.mp hmatch
      by_cases hnull : address = 0
      · rw [hnull]
        exact readsOnly_gateAt_null _
      · have hcompare := Compares.eax hnull hstart hend hbytes
        exact (readsOnly_gateAt hcode hcompare).mpr (hends address _ hcompare)
    · obtain ⟨hstart, hend, modrm, hmodrm, hbytes⟩ := mem_regMatches.mp hmatch
      by_cases hnull : address = 0
      · rw [hnull]
        exact readsOnly_gateAt_null _
      · have hcompare := Compares.reg modrm hmodrm hnull hstart hend hbytes
        exact (readsOnly_gateAt hcode hcompare).mpr (hends address _ hcompare)

/-- A search whose walks end inside the image depends on the image only. -/
theorem findMultiFrameGates_congr (extent : Extent hde) (scanner : Scanner) (hcode : Within code image)
    (hends : GateWalksEnd extent memory image code) {other : Memory} (hagree : Agree [image] memory other) :
    findMultiFrameGates hde scanner other image code =
      findMultiFrameGates hde scanner memory image code := by
  have hreads : ReadsOnly image memory (AnalysisReads.findMultiFrameGates extent scanner image code) :=
    (readsOnly_findMultiFrameGates_iff scanner hcode).mpr hends
  have hvalue := congrArg Prod.fst (hreads.run_eq hagree)
  rw [← AnalysisReads.value_findMultiFrameGates extent, ← AnalysisReads.value_findMultiFrameGates extent]
  exact hvalue

end Runtime

/-! ### Plugins -/

section Plugin

variable {hde : Hde64} {extent : Extent hde} {scanner : Scanner} {memory : Memory} {image code : Span}

/-- A search behind a reference to the parameter has a result when it meets a store to the flag before
it leaves the path. -/
theorem modelVersionStoreFrom_isSome (flag : ByteField) (offValue : UInt8) (fuel cursor : ℕ) :
    (modelVersionStoreFrom hde memory flag offValue fuel cursor).isSome =
      ((sweep hde memory fuel cursor).takeWhile fun i => !isReturnOrJump hde memory i).any
        (storesTo hde memory flag) := by
  induction fuel generalizing cursor with
  | zero => rfl
  | succ fuel ih =>
    rw [modelVersionStoreFrom, sweep]
    cases decode hde memory cursor with
    | none => rfl
    | some instruction =>
      dsimp only
      rw [List.takeWhile_cons]
      cases isReturnOrJump hde memory instruction with
      | true => rfl
      | false =>
        rw [if_neg Bool.false_ne_true, Bool.not_false, if_pos rfl, List.any_cons, ← ih, storesTo]
        split
        · rename_i hconstant
          rw [hconstant]
          rfl
        · rename_i hother
          rw [Bool.not_eq_true] at hother
          rw [hother, Bool.false_or]
          split
          · rename_i hregister
            rw [beq_iff_eq.mpr hregister, Bool.true_or]
            split <;> rfl
          · rename_i hregister
            rw [beq_eq_false_iff_ne.mpr hregister, Bool.false_or]

/-- The store the flag is read off: the first behind the first reference to the marker that has one. -/
def FlagStore (hde : Hde64) (memory : Memory) (scanner : Scanner) (image code : Span)
    (flag : ByteStore) : Prop :=
  ∃ marker reference store,
    scanner.findPattern (memory.view image) (literal flipMeteringMarker) = some marker ∧
      (findReferences scanner memory code (image.data + marker)).find?
        (fun r => (behind hde memory r).any (isFlagStore hde memory)) = some reference ∧
      (behind hde memory reference).find? (isFlagStore hde memory) = some store ∧
      asByteStore hde memory store = some flag

/-- The walks from the references to a marker, up to the first with a flag store behind it, end inside
the image. -/
def FallbackWalksEnd (extent : Extent hde) (memory : Memory) (scanner : Scanner) (image code : Span)
    (target : ℕ) : Prop :=
  ∀ reference ∈ throughFirst (fun r => (behind hde memory r).any (isFlagStore hde memory))
      (findReferences scanner memory code target),
    EndsInside extent memory image
      (lastDecoded hde memory (isFlagStore hde memory) (instructionsAfterMarker - 1) reference)

/-- The stores of the on value whose ModRM byte announces a SIB byte end inside the image. -/
def SibStoresEnd (extent : Extent hde) (memory : Memory) (image code : Span) (displacement : Int32)
    (offValue : UInt8) : Prop :=
  ∀ address, code.data ≤ address → address + 7 ≤ code.data + code.size →
    memory.bytes address 7 = plainStore 0x84 displacement (onValue offValue) →
      EndsInside extent memory image address

/-- The walks from the references to the model-version parameter, up to the first with a store to the
flag on its path, end inside the image. -/
def VersionWalksEnd (extent : Extent hde) (memory : Memory) (scanner : Scanner) (image code : Span)
    (flag : ByteField) : Prop :=
  ∀ parameter,
    scanner.findPattern (memory.view image) (literal modelVersionParameter) = some parameter →
      ∀ reference ∈ throughFirst
          (fun r => ((sweep hde memory instructionsAfterModelVersion r).takeWhile fun i =>
            !isReturnOrJump hde memory i).any (storesTo hde memory flag))
          (findReferences scanner memory code (image.data + parameter)),
        EndsInside extent memory image (lastDecoded hde memory
          (fun i => isReturnOrJump hde memory i || storesTo hde memory flag i)
          (instructionsAfterModelVersion - 1) reference)

/-- The walks of the analysis of a plugin end inside the image. -/
structure PluginWalksEnd (extent : Extent hde) (memory : Memory) (scanner : Scanner) (forced : Int32)
    (image code : Span) : Prop where
  fallback : ∀ marker,
    scanner.findPattern (memory.view image) (literal flipMeteringMarker) = some marker →
      FallbackWalksEnd extent memory scanner image code (image.data + marker)
  sibStores : ∀ flag, FlagStore hde memory scanner image code flag →
    SibStoresEnd extent memory image code flag.displacement (offValueOf forced flag)
  modelVersion : ∀ flag, FlagStore hde memory scanner image code flag →
    VersionWalksEnd extent memory scanner image code ⟨flag.base, flag.displacement⟩

theorem leaRipRelative_ne_nil : leaRipRelative ≠ [] := by decide

/-- A reference lies in the code, with its displacement. -/
theorem mem_findReferences {target reference : ℕ}
    (h : reference ∈ findReferences scanner memory code target) :
    code.data ≤ reference ∧ reference + 7 ≤ code.data + code.size := by
  obtain ⟨hmatch, _⟩ := List.mem_filter.mp h
  rw [scanner.findAllPattern_eq _ _ leaRipRelative_ne_nil] at hmatch
  exact spanMatches_inside hmatch

/-- The references are found in the code, and so are their displacements. -/
theorem readsOnly_findReferences (hcode : Within code image) (target : ℕ) :
    ReadsOnly image memory (AnalysisReads.findReferences scanner code target) := by
  rw [AnalysisReads.findReferences, readsOnly_bind, and_iff_right (readsOnly_view hcode), value_view,
    readsOnly_filterMap, scanner.findAllPattern_eq _ _ leaRipRelative_ne_nil]
  intro lea hmatch
  obtain ⟨hstart, hend⟩ := spanMatches_inside hmatch
  have hlength : leaRipRelative.length = leaRel32Offset + 4 := rfl
  refine readsOnly_bind.mpr ⟨readsOnly_view ⟨?_, ?_⟩, readsOnly_pure _⟩
  · exact (hcode.start.trans hstart).trans (Nat.le_add_right _ _)
  · have hstop := hcode.stop
    dsimp only
    omega

/-- The clamp is found in the code, with its limit. -/
theorem readsOnly_analyzeFrameClamp (hcode : Within code image) :
    ReadsOnly image memory (AnalysisReads.analyzeFrameClamp scanner code) := by
  have hpattern : AnalysisReads.frameCountClamp ≠ [] := by decide
  rw [AnalysisReads.analyzeFrameClamp, readsOnly_bind, and_iff_right (readsOnly_view hcode),
    value_view, scanner.findAllPattern_eq _ _ hpattern]
  split
  · rename_i clamp hmatched
    obtain ⟨hstart, hend⟩ := spanMatches_inside (hmatched ▸ List.mem_singleton_self clamp :
      clamp ∈ (allMatches AnalysisReads.frameCountClamp (memory.view code)).map (code.data + ·))
    have hlength : AnalysisReads.frameCountClamp.length = 10 := rfl
    have hstop := hcode.stop
    refine readsOnly_bind.mpr ⟨readsOnly_view ⟨?_, ?_⟩, readsOnly_pure _⟩
    · exact (hcode.start.trans hstart).trans (Nat.le_add_right _ _)
    · dsimp only [AnalysisReads.clampLimitOffset]
      omega
  · exact readsOnly_pure _

/-- A store is decoded where the signature matched, and nothing else is read. -/
theorem readsOnly_storeRewrite {displacement : Int32} {offValue : UInt8} {address : ℕ}
    (haddress : image.data ≤ address) :
    ReadsOnly image memory (AnalysisReads.storeRewrite extent displacement offValue address) ↔
      EndsInside extent memory image address := by
  rw [AnalysisReads.storeRewrite]
  refine Iff.trans (readsOnly_decode_bind haddress ?_) ?_
  · exact readsOnly_pure _
  refine and_iff_left_of_imp fun hends instruction hdecode => ?_
  have hask : ReadsOnly image memory (AnalysisReads.asByteStore extent instruction) :=
    readsOnly_ask (fun _ => rfl) (readsOnly_again haddress hdecode hends)
  refine readsOnly_bind.mpr ⟨hask, ?_⟩
  split <;> exact readsOnly_pure _

/-- Only at a store through a SIB byte is more read than what the signature matched. -/
theorem readsOnly_storeRewrites (hcode : Within code image) {displacement : Int32} {offValue : UInt8} :
    ReadsOnly image memory (AnalysisReads.storeRewrites extent scanner code displacement offValue) ↔
      SibStoresEnd extent memory image code displacement offValue := by
  have hsignature : byteStoreSignature displacement (onValue offValue) ≠ [] := by
    simp [byteStoreSignature, literal]
  rw [AnalysisReads.storeRewrites, readsOnly_bind, and_iff_right (readsOnly_view hcode), value_view,
    readsOnly_filterMap, scanner.findAllPattern_eq _ _ hsignature]
  constructor
  · intro h address hstart hend hbytes
    have hmatch := mem_storeMatches.mpr ⟨hstart, hend, 0x84, by decide, hbytes⟩
    exact (readsOnly_storeRewrite (hcode.start.trans hstart)).mp (h address hmatch)
  · intro h address hmatch
    obtain ⟨hstart, hend, modrm, hmodrm, hbytes⟩ := mem_storeMatches.mp hmatch
    refine (readsOnly_storeRewrite (hcode.start.trans hstart)).mpr ?_
    by_cases hsib : modrm = 0x84
    · exact h address hstart hend (hsib ▸ hbytes)
    · intro hnull
      have hdecode := decode_plainStore hde hnull hmodrm hsib hbytes
      have hnext := (next_ge extent hdecode.1).2
      exact hnext.trans (hend.trans hcode.stop)

/-- The walks behind the references to the parameter. -/
theorem readsOnly_analyzeModelVersionStore (hcode : Within code image) {flag : ByteField}
    {offValue : UInt8} :
    ReadsOnly image memory
        (AnalysisReads.analyzeModelVersionStore extent scanner image code flag offValue) ↔
      VersionWalksEnd extent memory scanner image code flag := by
  unfold VersionWalksEnd
  rw [AnalysisReads.analyzeModelVersionStore, readsOnly_bind,
    and_iff_right (readsOnly_view ⟨le_rfl, le_rfl⟩), value_view]
  cases hfind : scanner.findPattern (memory.view image) (literal modelVersionParameter) with
  | none => exact iff_of_true (readsOnly_pure _) fun parameter h => by cases h
  | some parameter =>
    have hfound : (fun r => ((AnalysisReads.modelVersionStoreFrom extent flag offValue
        instructionsAfterModelVersion r).value memory).isSome) =
        fun r => ((sweep hde memory instructionsAfterModelVersion r).takeWhile fun i =>
          !isReturnOrJump hde memory i).any (storesTo hde memory flag) := by
      funext r
      rw [AnalysisReads.value_modelVersionStoreFrom, modelVersionStoreFrom_isSome]
    dsimp only
    rw [readsOnly_bind, and_iff_right (readsOnly_findReferences hcode _), readsOnly_bind,
      and_iff_left (readsOnly_pure _), AnalysisReads.value_findReferences, readsOnly_findSome, hfound]
    simp only [Option.some.injEq, forall_eq']
    refine forall₂_congr fun reference hreference => ?_
    have hstart := (mem_findReferences (mem_of_mem_throughFirst hreference)).1
    exact readsOnly_modelVersionStore (hcode.start.trans hstart)

/-- The flag is read off what the walks behind the references to the marker find. -/
theorem flagStore_iff {marker : ℕ}
    (hmarker : scanner.findPattern (memory.view image) (literal flipMeteringMarker) = some marker)
    {flag : ByteStore} :
    (findReferences scanner memory code (image.data + marker)).findSome? (fallbackStore hde memory) =
        some flag ↔ FlagStore hde memory scanner image code flag := by
  have hsome : (fun r => (fallbackStore hde memory r).isSome) =
      fun r => (behind hde memory r).any (isFlagStore hde memory) :=
    funext fallbackStore_isSome
  rw [findSome?_eq_some_iff_find?, hsome]
  constructor
  · rintro ⟨reference, hfirst, hfallback⟩
    obtain ⟨store, hstore, hread⟩ := fallbackStore_eq_some.mp hfallback
    exact ⟨marker, reference, store, hmarker, hfirst, hstore, hread⟩
  · rintro ⟨other, reference, store, hother, hfirst, hstore, hread⟩
    obtain rfl := Option.some.inj (hmarker.symm.trans hother)
    exact ⟨reference, hfirst, fallbackStore_eq_some.mpr ⟨store, hstore, hread⟩⟩

/-- The walks behind the references to the marker. -/
theorem readsOnly_fallbackStores (hcode : Within code image) (target : ℕ) :
    ReadsOnly image memory (findSome (AnalysisReads.fallbackStore extent)
        (findReferences scanner memory code target)) ↔
      FallbackWalksEnd extent memory scanner image code target := by
  have hfound : (fun r => ((AnalysisReads.fallbackStore extent r).value memory).isSome) =
      fun r => (behind hde memory r).any (isFlagStore hde memory) := by
    funext r
    rw [AnalysisReads.value_fallbackStore, fallbackStore_isSome]
  rw [readsOnly_findSome, hfound]
  refine forall₂_congr fun reference hreference => ?_
  have hstart := (mem_findReferences (mem_of_mem_throughFirst hreference)).1
  exact readsOnly_fallbackStore (hcode.start.trans hstart)

/-- Without a marker there is no walk. -/
theorem pluginWalksEnd_of_no_marker {forced : Int32}
    (hmarker : scanner.findPattern (memory.view image) (literal flipMeteringMarker) = none) :
    PluginWalksEnd extent memory scanner forced image code := by
  have hflag : ∀ flag, ¬FlagStore hde memory scanner image code flag := by
    rintro flag ⟨marker, _, _, hfound, _⟩
    rw [hmarker] at hfound
    cases hfound
  refine ⟨fun marker hfound => ?_, fun flag hstore => absurd hstore (hflag flag),
    fun flag hstore => absurd hstore (hflag flag)⟩
  rw [hmarker] at hfound
  cases hfound

/-- With a marker but no flag there are the walks behind the references only. -/
theorem pluginWalksEnd_iff_of_no_flag {forced : Int32} {marker : ℕ}
    (hmarker : scanner.findPattern (memory.view image) (literal flipMeteringMarker) = some marker)
    (hnone : (findReferences scanner memory code (image.data + marker)).findSome?
      (fallbackStore hde memory) = none) :
    PluginWalksEnd extent memory scanner forced image code ↔
      FallbackWalksEnd extent memory scanner image code (image.data + marker) := by
  have hflag : ∀ flag, ¬FlagStore hde memory scanner image code flag := by
    intro flag hstore
    have hfound := (flagStore_iff hmarker).mpr hstore
    rw [hnone] at hfound
    cases hfound
  constructor
  · intro h
    exact h.fallback marker hmarker
  · intro h
    refine ⟨fun found hfound => ?_, fun flag hstore => absurd hstore (hflag flag),
      fun flag hstore => absurd hstore (hflag flag)⟩
    obtain rfl := Option.some.inj (hmarker.symm.trans hfound)
    exact h

/-- With a flag there are also its stores and the walks behind the parameter. -/
theorem pluginWalksEnd_iff_of_flag {forced : Int32} {marker : ℕ} {flag : ByteStore}
    (hmarker : scanner.findPattern (memory.view image) (literal flipMeteringMarker) = some marker)
    (hflag : (findReferences scanner memory code (image.data + marker)).findSome?
      (fallbackStore hde memory) = some flag) :
    PluginWalksEnd extent memory scanner forced image code ↔
      FallbackWalksEnd extent memory scanner image code (image.data + marker) ∧
        SibStoresEnd extent memory image code flag.displacement (offValueOf forced flag) ∧
        VersionWalksEnd extent memory scanner image code ⟨flag.base, flag.displacement⟩ := by
  have hstore := (flagStore_iff hmarker).mp hflag
  have hsame : ∀ other, FlagStore hde memory scanner image code other → other = flag :=
    fun other hother => Option.some.inj (((flagStore_iff hmarker).mpr hother).symm.trans hflag)
  constructor
  · intro h
    exact ⟨h.fallback marker hmarker, h.sibStores flag hstore, h.modelVersion flag hstore⟩
  · rintro ⟨hfallbacks, hstores, hversions⟩
    refine ⟨fun found hfound => ?_, fun other hother => ?_, fun other hother => ?_⟩
    · obtain rfl := Option.some.inj (hmarker.symm.trans hfound)
      exact hfallbacks
    · rw [hsame other hother]
      exact hstores
    · rw [hsame other hother]
      exact hversions

theorem readsOnly_analyzeFlipMetering_iff (scanner : Scanner) (forced : Int32)
    (hcode : Within code image) :
    ReadsOnly image memory (AnalysisReads.analyzeFlipMetering extent scanner forced image code) ↔
      PluginWalksEnd extent memory scanner forced image code := by
  rw [AnalysisReads.analyzeFlipMetering, readsOnly_bind, and_iff_right (readsOnly_view ⟨le_rfl, le_rfl⟩),
    value_view]
  cases hmarker : scanner.findPattern (memory.view image) (literal flipMeteringMarker) with
  | none => exact iff_of_true (readsOnly_pure _) (pluginWalksEnd_of_no_marker hmarker)
  | some marker =>
    have hwalks : ReadsOnly image memory (findSome (AnalysisReads.fallbackStore extent)
        (findReferences scanner memory code (image.data + marker))) ↔
        FallbackWalksEnd extent memory scanner image code (image.data + marker) :=
      readsOnly_fallbackStores hcode (image.data + marker)
    dsimp only
    rw [readsOnly_bind, and_iff_right (readsOnly_findReferences hcode _),
      AnalysisReads.value_findReferences]
    cases hreferences : findReferences scanner memory code (image.data + marker) with
    | nil =>
      rw [hreferences] at hwalks
      have hnone : (findReferences scanner memory code (image.data + marker)).findSome?
          (fallbackStore hde memory) = none := by
        rw [hreferences]
        rfl
      exact iff_of_true (readsOnly_pure _)
        ((pluginWalksEnd_iff_of_no_flag hmarker hnone).mpr (hwalks.mp (readsOnly_pure _)))
    | cons first rest =>
      rw [hreferences] at hwalks
      dsimp only
      rw [readsOnly_bind, hwalks, value_findSome, funext (AnalysisReads.value_fallbackStore extent),
        ← hreferences]
      cases hfallback : (findReferences scanner memory code (image.data + marker)).findSome?
          (fallbackStore hde memory) with
      | none =>
        rw [pluginWalksEnd_iff_of_no_flag hmarker hfallback]
        exact and_iff_left (readsOnly_pure _)
      | some flag =>
        dsimp only
        rw [pluginWalksEnd_iff_of_flag hmarker hfallback, readsOnly_bind, readsOnly_bind,
          and_iff_left (readsOnly_pure _), readsOnly_storeRewrites hcode,
          readsOnly_analyzeModelVersionStore hcode]

/-- An analysis whose walks end inside the image depends on the image only. -/
theorem analyzeFlipMetering_congr (extent : Extent hde) (scanner : Scanner) (forced : Int32)
    (hcode : Within code image) (hends : PluginWalksEnd extent memory scanner forced image code)
    {other : Memory} (hagree : Agree [image] memory other) :
    analyzeFlipMetering hde scanner other forced image code =
      analyzeFlipMetering hde scanner memory forced image code := by
  have hreads : ReadsOnly image memory
      (AnalysisReads.analyzeFlipMetering extent scanner forced image code) :=
    (readsOnly_analyzeFlipMetering_iff scanner forced hcode).mpr hends
  have hvalue := congrArg Prod.fst (hreads.run_eq hagree)
  rw [← AnalysisReads.value_analyzeFlipMetering extent, ← AnalysisReads.value_analyzeFlipMetering extent]
  exact hvalue

/-- The analysis of a plugin reads inside the image exactly when its walks end there. -/
theorem readsOnly_analyzePlugin_iff (scanner : Scanner) (forced : Int32) (hcode : Within code image) :
    ReadsOnly image memory (AnalysisReads.analyzePlugin extent scanner forced image code) ↔
      PluginWalksEnd extent memory scanner forced image code := by
  rw [AnalysisReads.analyzePlugin, readsOnly_bind, readsOnly_bind, and_iff_left (readsOnly_pure _),
    and_iff_left (readsOnly_analyzeFrameClamp hcode),
    readsOnly_analyzeFlipMetering_iff scanner forced hcode]

end Plugin

/-! ### Both analyses -/

section Analyses

variable {hde : Hde64} (extent : Extent hde) (scanner : Scanner) (memory : Memory) (forced : Int32)
  (image code : Span)

/-- 960 bytes of image behind the code are enough for 64 instructions, and so for every walk. -/
theorem walksEnd_of_margin (hmargin : code.data + code.size + 960 ≤ image.data + image.size) :
    PluginWalksEnd extent memory scanner forced image code ∧ GateWalksEnd extent memory image code := by
  have hends : ∀ stops more address, address ≤ code.data + code.size → more < 64 →
      EndsInside extent memory image (lastDecoded hde memory stops more address) := by
    intro stops more address haddress hmore _
    have hlast := lastDecoded_le extent memory stops more address
    have hsize := extent.size_le (streamAt memory (lastDecoded hde memory stops more address))
    omega
  refine ⟨⟨?_, ?_, ?_⟩, ?_⟩
  · intro marker _ reference hreference
    have hinside := mem_findReferences (mem_of_mem_throughFirst hreference)
    exact hends _ _ reference (by omega) (by decide)
  · intro flag _ address _ hend _
    exact hends (fun _ => true) 0 address (by omega) (by decide)
  · intro flag _ parameter _ reference hreference
    have hinside := mem_findReferences (mem_of_mem_throughFirst hreference)
    exact hends _ _ reference (by omega) (by decide)
  · intro address next hcompare
    exact hends _ _ next (compares_inside hcompare).2 (by decide)

/-- **The analyses read only the image exactly when their walks end there.** The last instruction of
every walk ends inside the image, and so do the stores through a SIB byte: nothing else that an
analysis reads can lie outside. -/
theorem analyses_readsOnly_iff (hcode : Within code image) :
    (ReadsOnly image memory (AnalysisReads.analyzePlugin extent scanner forced image code) ∧
        ReadsOnly image memory (AnalysisReads.findMultiFrameGates extent scanner image code)) ↔
      PluginWalksEnd extent memory scanner forced image code ∧
        GateWalksEnd extent memory image code :=
  and_congr (readsOnly_analyzePlugin_iff scanner forced hcode)
    (readsOnly_findMultiFrameGates_iff scanner hcode)

end Analyses

/-- A module whose code ends where the image does, with a comparison and a reference to the marker as
its last two instructions. Behind it no page is readable. -/
def edgeModule : Memory :=
  Memory.write { byte := fun _ => 0x90, readable := fun a => decide (0x1000 ≤ a ∧ a < 0x1025) } 0x1000
    (flipMeteringMarker ++
      [0x3D, 0xB0, 0x01, 0x00, 0x00] ++               -- cmp eax, 1B0h
      [0x48, 0x8D, 0x0D, 0xDB, 0xFF, 0xFF, 0xFF])     -- lea rcx, marker

def edgeImage : Span := ⟨0x1000, 37⟩

def edgeCode : Span := ⟨0x1019, 12⟩

/-- Both analyses read the byte behind the image, which is in no readable page. -/
theorem edgeModule_left :
    Within edgeCode edgeImage ∧ edgeModule.readable 0x1025 = false ∧
      ¬ReadsOnly edgeImage edgeModule
        (AnalysisReads.analyzePlugin partExtent Scanner.exhaustive (-1) edgeImage edgeCode) ∧
      ¬ReadsOnly edgeImage edgeModule
        (AnalysisReads.findMultiFrameGates partExtent Scanner.exhaustive edgeImage edgeCode) := by
  have hbehind : (⟨0x1025, 1⟩ : Span).covers 0x1025 ∧ ¬edgeImage.covers 0x1025 := by decide
  have hplugin : (⟨0x1025, 1⟩ : Span) ∈
      (AnalysisReads.analyzePlugin partExtent Scanner.exhaustive (-1) edgeImage edgeCode).reads
        edgeModule := by decide +kernel
  have hgates : (⟨0x1025, 1⟩ : Span) ∈
      (AnalysisReads.findMultiFrameGates partExtent Scanner.exhaustive edgeImage edgeCode).reads
        edgeModule := by decide +kernel
  refine ⟨⟨by decide, by decide⟩, by decide, fun h => ?_, fun h => ?_⟩
  · exact hbehind.2 (h _ hplugin _ hbehind.1)
  · exact hbehind.2 (h _ hgates _ hbehind.1)

theorem analyses_readsOnly_edge :
    (ReadsOnly edgeImage edgeModule
          (AnalysisReads.analyzePlugin partExtent Scanner.exhaustive (-1) edgeImage edgeCode) ∧
        ReadsOnly edgeImage edgeModule
          (AnalysisReads.findMultiFrameGates partExtent Scanner.exhaustive edgeImage edgeCode)) ↔
      PluginWalksEnd partExtent edgeModule Scanner.exhaustive (-1) edgeImage edgeCode ∧
        GateWalksEnd partExtent edgeModule edgeImage edgeCode :=
  analyses_readsOnly_iff partExtent Scanner.exhaustive edgeModule (-1) edgeImage edgeCode
    ⟨by decide, by decide⟩

end OpenDlssg.ImageEnd
