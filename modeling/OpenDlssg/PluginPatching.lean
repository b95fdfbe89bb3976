import OpenDlssg.AnalysisReads
import OpenDlssg.RunningCode

/-!
# What patching a plugin changes and reports

The rewrites an analysis finds are written one by one, each whole or not at
all. At load every one can be written; later, while the plugin may be running,
only those that fit an aligned word. What is reported counts the rewrites, and
a report without a warning stands for a plugin with every rewrite in place.
-/

namespace OpenDlssg.PluginPatching

open ByteCodec ProcessMemory PatternScan X86Decode PluginAnalysis RegisterStores RewrittenStores
  RunningCode
open AnalysisReads (FrameClamp frameCountClamp clampLimitOffset clampCmovOffset analyzeFrameClamp
  maxPlausibleFrameLimit)
open TracedReads.Reading

/-! ### Writing rewrites -/

/-- How patches are written: at load or later, and which pages may be written. -/
structure Writing where
  atLoad : Bool
  /-- Whether the page of a rewrite can be made writable. -/
  protects : Rewrite → Bool

/-- The source's `WritePatch`. -/
def writePatch (writing : Writing) (memory : Memory) (rewrite : Rewrite) : Option Memory :=
  if writing.atLoad then
    patchCode (writing.protects rewrite) memory rewrite.address rewrite.bytes
  else patchRunningCode (writing.protects rewrite) memory rewrite.address rewrite.bytes

/-- Write rewrites in order and count those that were written. -/
def writePatches (writing : Writing) (memory : Memory) : List Rewrite → ℕ × Memory
  | [] => (0, memory)
  | rewrite :: rewrites =>
    match writePatch writing memory rewrite with
    | some written =>
      let rest := writePatches writing written rewrites
      (rest.1 + 1, rest.2)
    | none => writePatches writing memory rewrites

/-- A rewrite that is written. -/
def Writing.Writes (writing : Writing) (rewrite : Rewrite) : Prop :=
  (writing.atLoad = true ∨ FitsWord rewrite.address rewrite.bytes.length) ∧
    writing.protects rewrite = true

instance (writing : Writing) : DecidablePred writing.Writes := fun _ =>
  inferInstanceAs (Decidable (_ ∧ _))

section Writing

variable {writing : Writing}

/-- A patch is written whole or not at all. -/
theorem writePatch_eq (memory : Memory) (rewrite : Rewrite) :
    writePatch writing memory rewrite =
      if writing.Writes rewrite then some (memory.write rewrite.address rewrite.bytes)
      else none := by
  by_cases hload : writing.atLoad = true
  · by_cases hprotects : writing.protects rewrite = true
    · simp [writePatch, Writing.Writes, patchCode, hload, hprotects]
    · simp [writePatch, Writing.Writes, patchCode, hload, hprotects]
  · rw [writePatch, if_neg hload, patchRunningCode_eq]
    by_cases hfits : FitsWord rewrite.address rewrite.bytes.length
    · simp [Writing.Writes, patchCode, hload, hfits]
    · simp [Writing.Writes, hload, hfits]

/-- The rewrites that are written, and no others, change memory. -/
theorem writePatches_eq (memory : Memory) (rewrites : List Rewrite) :
    writePatches writing memory rewrites =
      ((rewrites.filter writing.Writes).length,
        applyRewrites memory (rewrites.filter writing.Writes)) := by
  induction rewrites generalizing memory with
  | nil => rfl
  | cons rewrite rewrites ih =>
    rw [writePatches, writePatch_eq]
    by_cases hwrites : writing.Writes rewrite
    · rw [if_pos hwrites]
      dsimp only
      rw [ih, List.filter_cons_of_pos (by simpa using hwrites), List.length_cons]
      rfl
    · rw [if_neg hwrites]
      dsimp only
      rw [ih, List.filter_cons_of_neg (by simpa using hwrites)]

/-- None is skipped exactly when all can be written. -/
theorem skipped_eq_zero_iff (writing : Writing) (rewrites : List Rewrite) :
    rewrites.length - (rewrites.filter writing.Writes).length = 0 ↔
      ∀ rewrite ∈ rewrites, writing.Writes rewrite := by
  have hle := List.length_filter_le (fun rewrite => decide (writing.Writes rewrite)) rewrites
  constructor
  · intro h
    have hall := (List.length_filter_eq_length_iff).mp
      (show (rewrites.filter writing.Writes).length = rewrites.length by omega)
    exact fun rewrite hrewrite => of_decide_eq_true (hall rewrite hrewrite)
  · intro h
    rw [List.filter_eq_self.mpr fun rewrite hrewrite => decide_eq_true (h rewrite hrewrite),
      Nat.sub_self]

/-- A rewrite of one byte always fits a word. -/
theorem fitsWord_one (address : ℕ) : FitsWord address 1 :=
  ⟨Nat.one_ne_zero, lt_wordStart_add address⟩

/-- A rewrite of seven bytes fits when it begins in one of two places. -/
theorem fitsWord_seven_iff (address : ℕ) : FitsWord address 7 ↔ address % wordSize ≤ 1 := by
  have hle := Nat.mod_le address wordSize
  unfold FitsWord wordStart
  have hseven : (7 : ℕ) ≠ 0 := by decide
  have hsize : wordSize = 8 := rfl
  constructor
  · rintro ⟨_, h⟩
    omega
  · intro h
    exact ⟨hseven, by omega⟩

end Writing

/-! ### The metering flag -/

/-- What `flip_metering_forced` reports. -/
structure FlipReport where
  /-- Logged as a warning. -/
  warning : Bool
  flagOffset : Int32
  offValue : UInt8
  /-- The settings force the off value. -/
  overridden : Bool
  storesPatched : ℕ
  storesSkipped : ℕ
  modelVersionStore : ModelVersionStore
  atLoad : Bool
  deriving DecidableEq

/-- The line that patching the flag logs. -/
inductive FlipOutcome
  /-- `flip_metering_not_patched`, with the reason -/
  | notPatched (reason : String)
  | forced (report : FlipReport)
  deriving DecidableEq

/-- The source's `PatchFlipMetering`. -/
def patchFlipMetering (writing : Writing) (forced : Int32)
    (analysis : Except FlipMeteringProblem FlipMetering) (memory : Memory) :
    FlipOutcome × Memory :=
  match analysis with
  | .error problem => (.notPatched problem.text, memory)
  | .ok flip =>
    let written := writePatches writing memory flip.rewrites
    let patched := written.1
    let skipped := flip.rewrites.length - patched
    -- each of these can leave the flag able to select hardware metering
    let incomplete := patched = 0 ∨ flip.modelVersionStore = .unfit ∨ 0 < skipped
    (.forced
      { warning := incomplete
        flagOffset := flip.flagOffset
        offValue := flip.offValue
        overridden := 0 ≤ forced
        storesPatched := patched
        storesSkipped := skipped
        modelVersionStore := flip.modelVersionStore
        atLoad := writing.atLoad },
      written.2)

section Flag

variable {hde : Hde64} {scanner : Scanner} {memory : Memory} {configured : Int32}
  {image code : Span} {flip : FlipMetering} {writing : Writing}

/-- What an analysis is made of: the constant stores' rewrites, of one byte each,
and behind them at most one of a whole store. -/
structure Parts (hde : Hde64) (scanner : Scanner) (memory : Memory) (code : Span)
    (flip : FlipMetering) (register : Option Rewrite) : Prop where
  positive : 127 < flip.flagOffset
  boolean : flip.offValue ≤ 1
  store : ∀ rewrite ∈ register, ∃ modrm : UInt8, modrm &&& 0xF8 = 0x80 ∧ modrm ≠ 0x84 ∧
    rewrite.bytes = plainStore modrm flip.flagOffset flip.offValue
  rewrites : flip.rewrites =
    storeRewrites hde scanner memory code flip.flagOffset flip.offValue ++ register.toList

theorem exists_parts (hlaw : DecodesRegisterStores hde)
    (hflip : analyzeFlipMetering hde scanner memory (flipMeteringValue configured) image code =
      .ok flip) : ∃ register, Parts hde scanner memory code flip register := by
  obtain ⟨marker, fallback, _, hfallback, hflag, hoffValue, hrewrites⟩ :=
    analyzeFlipMetering_eq_ok hflip
  obtain ⟨reference, _, hstore⟩ := List.exists_of_findSome?_eq_some hfallback
  obtain ⟨hboolean, hdeep⟩ := fallbackStore_spec hstore
  have hpositive : 127 < flip.flagOffset := by rw [hflag]; exact hdeep
  have hoff : flip.offValue ≤ 1 := by
    rw [hoffValue]
    exact offValueOf_le (flipMeteringValue_le configured) hboolean
  rcases analyzeModelVersionStore_rewrites hde scanner memory image code
      ⟨fallback.base, flip.flagOffset⟩ flip.offValue with
    hnone | ⟨_, instruction, bytes, hdecode, hregister, hbytes, hone⟩
  · refine ⟨none, hpositive, hoff, nofun, ?_⟩
    rw [hrewrites, hnone]
    rfl
  · obtain ⟨_, modrm, hmodrm, hplain, _, hplainStore⟩ :=
      plainStore_of_asImmediateByteStore hlaw hdecode hregister hbytes
    refine ⟨some ⟨instruction.address, bytes⟩, hpositive, hoff, ?_, ?_⟩
    · intro rewrite hrewrite
      cases hrewrite
      exact ⟨modrm, hmodrm, hplain, hplainStore⟩
    · rw [hrewrites, hone]
      rfl

/-- With or without the whole store behind them, the constant stores' rewrites
leave no store of the on value. -/
theorem Parts.no_onStore {register : Option Rewrite}
    (h : Parts hde scanner memory code flip register) {behind : List Rewrite}
    (hbehind : behind = [] ∨ behind = register.toList) (address : ℕ) :
    ¬OnStoreAt (applyRewrites memory
      (storeRewrites hde scanner memory code flip.flagOffset flip.offValue ++ behind)) code
        flip.flagOffset flip.offValue address := by
  have hstores : ¬OnStoreAt (applyRewrites memory
      (storeRewrites hde scanner memory code flip.flagOffset flip.offValue)) code flip.flagOffset
        flip.offValue address := no_onStore_rewritten hde scanner h.positive h.boolean address
  have hnone : behind = [] → ¬OnStoreAt (applyRewrites memory
      (storeRewrites hde scanner memory code flip.flagOffset flip.offValue ++ behind)) code
        flip.flagOffset flip.offValue address := by
    rintro rfl
    rwa [List.append_nil]
  rcases hbehind with hempty | hregister
  · exact hnone hempty
  · cases register with
    | none => exact hnone hregister
    | some rewrite =>
      obtain ⟨modrm, hmodrm, hplain, hbytes⟩ := h.store rewrite rfl
      rw [hregister, Option.toList_some, applyRewrites_concat, hbytes]
      exact no_onStore_registerStore h.positive h.boolean hmodrm hplain hstores

/-- The report of an analysis that found the flag. -/
theorem patchFlipMetering_ok (forced : Int32) :
    (patchFlipMetering writing forced (.ok flip) memory).2 =
      applyRewrites memory (flip.rewrites.filter writing.Writes) := by
  dsimp only [patchFlipMetering]
  rw [writePatches_eq]

/-- No warning is logged exactly when there was something to rewrite, no store
was left for want of room, and every rewrite was written. -/
theorem no_warning_iff {forced : Int32} {report : FlipReport}
    (hreport : (patchFlipMetering writing forced (.ok flip) memory).1 = .forced report) :
    report.warning = false ↔ flip.rewrites ≠ [] ∧ flip.modelVersionStore ≠ .unfit ∧
      ∀ rewrite ∈ flip.rewrites, writing.Writes rewrite := by
  have hall := skipped_eq_zero_iff writing flip.rewrites
  dsimp only [patchFlipMetering] at hreport
  rw [writePatches_eq, FlipOutcome.forced.injEq] at hreport
  rw [← hreport]
  dsimp only
  rw [decide_eq_false_iff_not, not_or, not_or, not_lt, Nat.le_zero, hall]
  constructor
  · rintro ⟨hsome, hfits, hwritten⟩
    refine ⟨?_, hfits, hwritten⟩
    rintro hempty
    rw [hempty] at hsome
    exact hsome rfl
  · rintro ⟨hsome, hfits, hwritten⟩
    refine ⟨?_, hfits, hwritten⟩
    rw [List.filter_eq_self.mpr fun rewrite hrewrite => decide_eq_true (hwritten rewrite hrewrite)]
    exact fun hempty => hsome (List.length_eq_zero_iff.mp hempty)

/-- A report without a warning stands for a plugin with every rewrite in place:
no store of the on value to the flag is left in its code. -/
theorem forced_without_warning (hlaw : DecodesRegisterStores hde)
    (hflip : analyzeFlipMetering hde scanner memory (flipMeteringValue configured) image code =
      .ok flip) {report : FlipReport}
    (hreport : (patchFlipMetering writing (flipMeteringValue configured) (.ok flip) memory).1 =
      .forced report) (hwarning : report.warning = false) :
    let after := (patchFlipMetering writing (flipMeteringValue configured) (.ok flip) memory).2
    after = applyRewrites memory flip.rewrites ∧
      ∀ address, ¬OnStoreAt after code flip.flagOffset flip.offValue address := by
  obtain ⟨_, _, hwritten⟩ := (no_warning_iff hreport).mp hwarning
  obtain ⟨register, hparts⟩ := exists_parts hlaw hflip
  have hafter : (patchFlipMetering writing (flipMeteringValue configured) (.ok flip) memory).2 =
      applyRewrites memory flip.rewrites := by
    rw [patchFlipMetering_ok,
      List.filter_eq_self.mpr fun rewrite hrewrite => decide_eq_true (hwritten rewrite hrewrite)]
  refine ⟨hafter, fun address => ?_⟩
  rw [hafter, hparts.rewrites]
  exact hparts.no_onStore (.inr rfl) address

/-- With its page writable a rewrite is skipped only while the plugin runs, and
only when it does not fit a word. -/
theorem writes_iff (hpages : ∀ rewrite, writing.protects rewrite = true) (rewrite : Rewrite) :
    writing.Writes rewrite ↔
      writing.atLoad = true ∨ FitsWord rewrite.address rewrite.bytes.length := by
  simp [Writing.Writes, hpages]

/-- Every constant store's rewrite is written. -/
theorem filter_storeRewrites (hpages : ∀ rewrite, writing.protects rewrite = true) :
    (storeRewrites hde scanner memory code flip.flagOffset flip.offValue).filter writing.Writes =
      storeRewrites hde scanner memory code flip.flagOffset flip.offValue := by
  refine List.filter_eq_self.mpr fun rewrite hrewrite => decide_eq_true ?_
  obtain ⟨address, _, rfl⟩ := mem_storeRewrites_iff.mp hrewrite
  exact (writes_iff hpages _).mpr (.inr (fitsWord_one _))

/-- Of the whole store, all or nothing is written. -/
theorem filter_register (register : Option Rewrite) :
    register.toList.filter writing.Writes = [] ∨
      register.toList.filter writing.Writes = register.toList := by
  cases register with
  | none => exact .inl rfl
  | some rewrite =>
    by_cases hwrites : writing.Writes rewrite
    · exact .inr (List.filter_cons_of_pos (by simpa using hwrites))
    · exact .inl (List.filter_cons_of_neg (by simpa using hwrites))

/-- Even while the plugin runs no constant store of the on value survives the
patch, so long as its pages can be written: all that can be skipped is the one
whole store, when it begins past the second byte of its word. -/
theorem running_leaves_no_constant (hlaw : DecodesRegisterStores hde)
    (hflip : analyzeFlipMetering hde scanner memory (flipMeteringValue configured) image code =
      .ok flip) (hpages : ∀ rewrite, writing.protects rewrite = true) {report : FlipReport}
    (hreport : (patchFlipMetering writing (flipMeteringValue configured) (.ok flip) memory).1 =
      .forced report) :
    (∀ address, ¬OnStoreAt
      (patchFlipMetering writing (flipMeteringValue configured) (.ok flip) memory).2 code
        flip.flagOffset flip.offValue address) ∧
      report.storesSkipped ≤ 1 ∧
      (report.storesSkipped = 1 ↔ writing.atLoad = false ∧
        ∃ rewrite ∈ flip.rewrites, rewrite.bytes.length = 7 ∧ 1 < rewrite.address % wordSize) := by
  obtain ⟨register, hparts⟩ := exists_parts hlaw hflip
  have hfilter : flip.rewrites.filter writing.Writes =
      storeRewrites hde scanner memory code flip.flagOffset flip.offValue ++
        register.toList.filter writing.Writes := by
    rw [hparts.rewrites, List.filter_append, filter_storeRewrites hpages]
  have hskipped : report.storesSkipped =
      register.toList.length - (register.toList.filter writing.Writes).length := by
    dsimp only [patchFlipMetering] at hreport
    rw [writePatches_eq, FlipOutcome.forced.injEq] at hreport
    rw [← hreport]
    dsimp only
    rw [hfilter, hparts.rewrites, List.length_append, List.length_append]
    omega
  refine ⟨fun address => ?_, ?_, ?_⟩
  · rw [patchFlipMetering_ok, hfilter]
    exact hparts.no_onStore (filter_register register) address
  · rw [hskipped]
    cases register with
    | none => exact Nat.zero_le _
    | some rewrite =>
      rw [Option.toList_some, List.length_singleton]
      exact Nat.sub_le _ _
  · have hconstant : ∀ rewrite ∈
        storeRewrites hde scanner memory code flip.flagOffset flip.offValue,
          rewrite.bytes.length = 1 := by
      intro rewrite hrewrite
      obtain ⟨_, _, rfl⟩ := mem_storeRewrites_iff.mp hrewrite
      rfl
    rw [hskipped]
    cases register with
    | none =>
      constructor
      · intro h
        cases h
      · rintro ⟨_, rewrite, hrewrite, hseven, _⟩
        rw [hparts.rewrites, Option.toList_none, List.append_nil] at hrewrite
        rw [hconstant rewrite hrewrite] at hseven
        cases hseven
    | some store =>
      obtain ⟨modrm, _, _, hbytes⟩ := hparts.store store rfl
      have hseven : store.bytes.length = 7 := by rw [hbytes, length_plainStore]
      have hwrites := writes_iff hpages store
      rw [hseven, fitsWord_seven_iff] at hwrites
      rw [Option.toList_some, List.length_singleton]
      constructor
      · intro h
        have hnot : ¬writing.Writes store := by
          intro hstore
          rw [List.filter_cons_of_pos (by simpa using hstore)] at h
          cases h
        rw [hwrites, not_or, Bool.not_eq_true, not_le] at hnot
        refine ⟨hnot.1, store, ?_, hseven, hnot.2⟩
        rw [hparts.rewrites]
        exact List.mem_append_right _ List.mem_cons_self
      · rintro ⟨hrunning, rewrite, hrewrite, hlength, hpast⟩
        rw [hparts.rewrites] at hrewrite
        have hsame : rewrite = store := by
          rcases List.mem_append.mp hrewrite with hstore | hstore
          · rw [hconstant rewrite hstore] at hlength
            cases hlength
          · exact List.mem_singleton.mp hstore
        rw [hsame] at hpast
        have hnot : ¬writing.Writes store := by
          rw [hwrites, not_or, Bool.not_eq_true, not_le]
          exact ⟨hrunning, hpast⟩
        rw [List.filter_cons_of_neg (by simpa using hnot)]
        rfl

/-- The plugin whose register store begins in the middle of a word. -/
theorem registerFlip_found : analyzeFlipMetering Hde64.part Scanner.exhaustive registerPlugin
    (flipMeteringValue (-1)) registerImage registerCode = .ok registerFlip := by
  decide +kernel

/-- Patched at load all of it is written, without a warning. -/
theorem forced_without_warning_register :
    let after := (patchFlipMetering ⟨true, fun _ => true⟩ (flipMeteringValue (-1))
      (.ok registerFlip) registerPlugin).2
    after = applyRewrites registerPlugin registerFlip.rewrites ∧
      ∀ address, ¬OnStoreAt after registerCode 0x38BC 0 address := by
  have hreport : (patchFlipMetering ⟨true, fun _ => true⟩ (flipMeteringValue (-1))
      (.ok registerFlip) registerPlugin).1 =
        .forced ⟨false, 0x38BC, 0, false, 2, 0, .register, true⟩ := by
    decide +kernel
  exact forced_without_warning decodesRegisterStores_part registerFlip_found hreport rfl

/-- Patched while it runs the register store is left, and reported. -/
theorem running_leaves_no_constant_register :
    (∀ address, ¬OnStoreAt (patchFlipMetering ⟨false, fun _ => true⟩ (flipMeteringValue (-1))
      (.ok registerFlip) registerPlugin).2 registerCode 0x38BC 0 address) ∧
      ∃ rewrite ∈ registerFlip.rewrites,
        rewrite.bytes.length = 7 ∧ 1 < rewrite.address % wordSize := by
  have hreport : (patchFlipMetering ⟨false, fun _ => true⟩ (flipMeteringValue (-1))
      (.ok registerFlip) registerPlugin).1 =
        .forced ⟨true, 0x38BC, 0, false, 1, 1, .register, false⟩ := by
    decide +kernel
  have h := running_leaves_no_constant decodesRegisterStores_part registerFlip_found
    (fun _ => rfl) hreport
  exact ⟨h.1, (h.2.2.mp rfl).2⟩

end Flag

/-! ### The frame clamp -/

/-- The instruction that does nothing, of the length of the one it replaces. -/
def threeByteNop : Bytes := [0x0F, 0x1F, 0x00]

/-- The line that patching the clamp logs. -/
inductive ClampOutcome
  /-- `frame_clamp_not_found`, with the number of matches -/
  | notFound (clamps : ℕ)
  /-- `frame_clamp_removed`, a warning unless it was -/
  | removed (ok : Bool) (compiledLimit : UInt32)
  deriving DecidableEq

/-- The source's `PatchFrameClamp`. -/
def patchFrameClamp (writing : Writing) (analysis : ℕ × Option FrameClamp) (memory : Memory) :
    ClampOutcome × Memory :=
  match analysis.2 with
  | none => (.notFound analysis.1, memory)
  | some clamp =>
    match writePatch writing memory ⟨clamp.cmov, threeByteNop⟩ with
    | some written => (.removed true clamp.limit, written)
    | none => (.removed false clamp.limit, memory)

section Clamp

variable {scanner : Scanner} {memory : Memory} {code : Span} {writing : Writing}
  {clamps : ℕ} {clamp : FrameClamp}

/-- Where the code holds the clamp. -/
def clampsAt (memory : Memory) (code : Span) : List ℕ :=
  (allMatches frameCountClamp (memory.view code)).map (code.data + ·)

/-- The analysis by what the scan finds. -/
theorem value_analyzeFrameClamp :
    (analyzeFrameClamp scanner code).value memory =
      match clampsAt memory code with
      | [address] =>
        let limit := Codec.u32.decode (memory.view ⟨address + clampLimitOffset, 4⟩)
        (1, if limit = 0 ∨ maxPlausibleFrameLimit < limit then none
          else some ⟨limit, address + clampCmovOffset⟩)
      | matched => (matched.length, none) := by
  have hscan : scanner.findAllPattern (memory.view code) frameCountClamp =
      allMatches frameCountClamp (memory.view code) :=
    scanner.findAllPattern_eq _ _ (by decide)
  rw [analyzeFrameClamp, value_bind, value_view, hscan, ← clampsAt]
  generalize clampsAt memory code = found
  cases found with
  | nil => rfl
  | cons address more =>
    cases more with
    | nil => rfl
    | cons other more => rfl

/-- A clamp is found where the one match is. -/
theorem clampsAt_of_found
    (h : (analyzeFrameClamp scanner code).value memory = (clamps, some clamp)) :
    ∃ address, clampsAt memory code = [address] ∧ clamp.cmov = address + clampCmovOffset := by
  rw [value_analyzeFrameClamp] at h
  split at h
  · rename_i address hclamps
    dsimp only at h
    rw [Prod.mk.injEq] at h
    split at h
    · cases h.2
    · refine ⟨address, hclamps, ?_⟩
      rw [← Option.some.inj h.2]
  · cases h

/-- The bytes of the clamp, one by one. -/
theorem mem_clampsAt {address : ℕ} : address ∈ clampsAt memory code ↔
    code.data ≤ address ∧ address + 10 ≤ code.data + code.size ∧
      memory.byte address = 0xBA ∧ memory.byte (address + 5) = 0x3B ∧
      memory.byte (address + 6) = 0xCA ∧ memory.byte (address + 7) = 0x0F ∧
      memory.byte (address + 8) = 0x42 ∧ memory.byte (address + 9) = 0xD1 := by
  have hexact : ∀ b c : UInt8, (exactly b).accepts c = true ↔ c = b := by decide +kernel
  have hany : ∀ c : UInt8, anyByte.accepts c = true := by decide +kernel
  rw [clampsAt, mem_spanMatches_accepts (by decide)]
  constructor
  · rintro ⟨hstart, hend, hall⟩
    exact ⟨hstart, hend, (hexact _ _).mp (hall 0 (by decide)), (hexact _ _).mp (hall 5 (by decide)),
      (hexact _ _).mp (hall 6 (by decide)), (hexact _ _).mp (hall 7 (by decide)),
      (hexact _ _).mp (hall 8 (by decide)), (hexact _ _).mp (hall 9 (by decide))⟩
  · rintro ⟨hstart, hend, h₀, h₅, h₆, h₇, h₈, h₉⟩
    refine ⟨hstart, hend, fun i hi => ?_⟩
    have hten : i < 10 := hi
    interval_cases i
    · exact (hexact _ _).mpr h₀
    · exact hany _
    · exact hany _
    · exact hany _
    · exact hany _
    · exact (hexact _ _).mpr h₅
    · exact (hexact _ _).mpr h₆
    · exact (hexact _ _).mpr h₇
    · exact (hexact _ _).mpr h₈
    · exact (hexact _ _).mpr h₉

/-- One byte after the conditional move is replaced. -/
theorem byte_nop (memory : Memory) (address a : ℕ) :
    (memory.write address threeByteNop).byte a =
      if a = address then 0x0F else if a = address + 1 then 0x1F
      else if a = address + 2 then 0x00 else memory.byte a := by
  have hlength : threeByteNop.length = 3 := rfl
  by_cases h₀ : a = address
  · subst h₀
    simp [Memory.write, threeByteNop]
  · by_cases h₁ : a = address + 1
    · subst h₁
      simp [Memory.write, threeByteNop]
    · by_cases h₂ : a = address + 2
      · subst h₂
        simp [Memory.write, threeByteNop]
      · rw [if_neg h₀, if_neg h₁, if_neg h₂]
        apply Memory.byte_write_of_not_covered
        omega

/-- Patching the clamp takes it out for good: the analysis finds none afterwards,
so the patch is not applied twice. A three-byte no-op stands in place of the
move, whose first byte it shares, and its other two are all that has changed. -/
theorem clamp_removed
    (hfound : (analyzeFrameClamp scanner code).value memory = (clamps, some clamp))
    (hwrites : writing.Writes ⟨clamp.cmov, threeByteNop⟩) :
    let outcome := patchFrameClamp writing (clamps, some clamp) memory
    outcome.1 = .removed true clamp.limit ∧
      (analyzeFrameClamp scanner code).value outcome.2 = (0, none) ∧
      (outcome.2.byte clamp.cmov = 0x0F ∧ outcome.2.byte (clamp.cmov + 1) = 0x1F ∧
        outcome.2.byte (clamp.cmov + 2) = 0x00) ∧
      ∀ a, outcome.2.byte a ≠ memory.byte a ↔ a = clamp.cmov + 1 ∨ a = clamp.cmov + 2 := by
  obtain ⟨address, hclamps, hcmov⟩ := clampsAt_of_found hfound
  have hat : address ∈ clampsAt memory code := by
    rw [hclamps]
    exact List.mem_cons_self
  obtain ⟨_, _, _, _, _, h₇, hmove₁, hmove₂⟩ := mem_clampsAt.mp hat
  have hpatched : patchFrameClamp writing (clamps, some clamp) memory =
      (.removed true clamp.limit, memory.write clamp.cmov threeByteNop) := by
    simp only [patchFrameClamp, writePatch_eq, if_pos hwrites]
  have hbyte := byte_nop memory clamp.cmov
  have hsame : ∀ a, a ≠ clamp.cmov + 1 → a ≠ clamp.cmov + 2 →
      (memory.write clamp.cmov threeByteNop).byte a = memory.byte a := by
    intro a ha₁ ha₂
    rw [hbyte, if_neg ha₁, if_neg ha₂]
    split
    · rename_i ha
      rw [ha, hcmov]
      exact h₇.symm
    · rfl
  have hmove : clamp.cmov = address + 7 := hcmov
  have hfirst : (memory.write clamp.cmov threeByteNop).byte clamp.cmov = 0x0F := by
    rw [hbyte, if_pos rfl]
  have hsecond : (memory.write clamp.cmov threeByteNop).byte (clamp.cmov + 1) = 0x1F := by
    rw [hbyte, if_neg (by omega), if_pos rfl]
  have hthird : (memory.write clamp.cmov threeByteNop).byte (clamp.cmov + 2) = 0x00 := by
    rw [hbyte, if_neg (by omega), if_neg (by omega), if_pos rfl]
  have hchanged : ∀ a, (memory.write clamp.cmov threeByteNop).byte a ≠ memory.byte a ↔
      a = clamp.cmov + 1 ∨ a = clamp.cmov + 2 := by
    intro a
    constructor
    · intro hdiffers
      by_contra hother
      rw [not_or] at hother
      exact hdiffers (hsame a hother.1 hother.2)
    · rintro (rfl | rfl)
      · rw [hsecond, hmove, hmove₁]
        decide
      · rw [hthird, hmove, hmove₂]
        decide
  have hnone : clampsAt (memory.write clamp.cmov threeByteNop) code = [] := by
    rw [List.eq_nil_iff_forall_not_mem]
    intro other hother
    obtain ⟨hstart, hend, h₀, h₅, h₆, h₇', h₈, h₉⟩ := mem_clampsAt.mp hother
    -- none of the bytes asked for is one of the two written, so it was there before
    have hapart : ∀ i value : ℕ, (value = 0xBA ∨ value = 0x3B ∨ value = 0xCA ∨ value = 0x0F ∨
        value = 0x42 ∨ value = 0xD1) →
        (memory.write clamp.cmov threeByteNop).byte (other + i) = UInt8.ofNat value →
          memory.byte (other + i) = UInt8.ofNat value := by
      intro i value hvalue hwas
      rw [← hwas]
      refine (hsame _ ?_ ?_).symm
      · intro hi
        rw [hi, hbyte, if_neg (by omega), if_pos rfl] at hwas
        rcases hvalue with rfl | rfl | rfl | rfl | rfl | rfl <;> exact absurd hwas (by decide)
      · intro hi
        rw [hi, hbyte, if_neg (by omega), if_neg (by omega), if_pos rfl] at hwas
        rcases hvalue with rfl | rfl | rfl | rfl | rfl | rfl <;> exact absurd hwas (by decide)
    have hbefore : other ∈ clampsAt memory code :=
      mem_clampsAt.mpr ⟨hstart, hend, hapart 0 0xBA (by simp) h₀, hapart 5 0x3B (by simp) h₅,
        hapart 6 0xCA (by simp) h₆, hapart 7 0x0F (by simp) h₇', hapart 8 0x42 (by simp) h₈,
        hapart 9 0xD1 (by simp) h₉⟩
    rw [hclamps, List.mem_singleton] at hbefore
    rw [hbefore, hbyte, hcmov] at h₈
    exact absurd h₈ (by simp [clampCmovOffset])
  dsimp only
  rw [hpatched]
  refine ⟨rfl, ?_, ⟨hfirst, hsecond, hthird⟩, hchanged⟩
  rw [value_analyzeFrameClamp, hnone]
  rfl

/-- A plugin compiled to allow four frames. -/
def clampedPlugin : Memory :=
  nops.write 0x2001 [0xBA, 0x04, 0x00, 0x00, 0x00, 0x3B, 0xCA, 0x0F, 0x42, 0xD1]

def clampedCode : Span := ⟨0x2000, 32⟩

/-- The clamp's move lies in one word, so it can be taken out while the plugin
runs. -/
theorem clamp_removed_running :
    let outcome := patchFrameClamp ⟨false, fun _ => true⟩ (1, some ⟨4, 0x2008⟩) clampedPlugin
    outcome.1 = .removed true 4 ∧
      (analyzeFrameClamp Scanner.exhaustive clampedCode).value outcome.2 = (0, none) ∧
      (outcome.2.byte 0x2008 = 0x0F ∧ outcome.2.byte (0x2008 + 1) = 0x1F ∧
        outcome.2.byte (0x2008 + 2) = 0x00) ∧
      ∀ a, outcome.2.byte a ≠ clampedPlugin.byte a ↔ a = 0x2008 + 1 ∨ a = 0x2008 + 2 :=
  clamp_removed (by decide +kernel) (by decide)

end Clamp

end OpenDlssg.PluginPatching
