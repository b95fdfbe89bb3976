import OpenDlssg.DecoderExtent
import OpenDlssg.MarkerPath
import OpenDlssg.MultiFrameGates
import OpenDlssg.TracedReads

/-!
# What the patch analyses read

The analyses of a plugin and of a runtime scan the code and decode forward from
what they find. They are told again as computations that keep account of what they
read, and give what they gave before.
-/

namespace OpenDlssg.AnalysisReads

open ByteCodec ProcessMemory PatternScan X86Decode DecoderExtent
open PluginAnalysis (leaRipRelative leaRel32Offset flipMeteringMarker instructionsAfterMarker
  modelVersionParameter instructionsAfterModelVersion byteStoreSignature onValue offValueOf
  ModelVersionStore FlipMetering FlipMeteringProblem)
open MultiFrameGates (Gate Encoding parameterPrefix multiFrameParameter maxParameterLength
  instructionsToPublication encodings)
open TracedReads TracedReads.Reading

/-! ### Decoding -/

section Decoding

variable {hde : Hde64} (extent : Extent hde)

/-- The fields the disassembler reports for the bytes at an address. -/
def disasm (address : ℕ) : Reading Hde64s where
  run memory :=
    (hde.disasm (streamAt memory address), [⟨address, extent.size (streamAt memory address)⟩])
  depends first second h := by
    have hsame := extent.same (streamAt first address) (streamAt second address) fun i hi =>
      h.2 _ List.mem_cons_self (address + i) ⟨Nat.le_add_right _ _, Nat.add_lt_add_left hi _⟩
    rw [hsame.1, hsame.2]

/-- The fields of the instruction at an address, unless the pointer is null or
the bytes are not an instruction. -/
def decoded (address : ℕ) : Reading (Option Hde64s) :=
  if address = 0 then pure none
  else do
    let fields ← disasm extent address
    return if fields.len ≠ 0 ∧ fields.flags.error = false then some fields else none

/-- The source's `Decode`. -/
def decode (address : ℕ) : Reading (Option Instruction) := do
  let fields ← decoded extent address
  return fields.map fun fields => ⟨address, fields.len⟩

/-- The source's `ConditionTested`. -/
def conditionTested (instruction : Instruction) : Reading Condition := do
  match ← decoded extent instruction.address with
  | none => return .notConditional
  | some fields => return conditionOf fields

/-- The source's `AsByteStore`. -/
def asByteStore (instruction : Instruction) : Reading (Option ByteStore) := do
  let fields ← decoded extent instruction.address
  return fields.bind byteStoreOf

/-- The source's `AsRegisterByteStore`. -/
def asRegisterByteStore (instruction : Instruction) : Reading (Option ByteField) := do
  match ← decoded extent instruction.address with
  | none => return none
  | some fields =>
    return if isPlainRegisterByteStore fields then some ⟨baseRegister fields, displacement fields⟩
      else none

/-- The source's `AsImmediateByteStore`. -/
def asImmediateByteStore (instruction : Instruction) (value : UInt8) : Reading (Option Bytes) := do
  match ← decoded extent instruction.address with
  | none => return none
  | some fields =>
    return if isPlainRegisterByteStore fields then
        let encoded := immediateByteStore fields value
        if encoded.length ≠ instruction.length then none else some encoded
      else none

/-- The source's `RipRelativeOperand`. -/
def ripRelativeOperand (instruction : Instruction) : Reading (Option ℕ) := do
  match ← decoded extent instruction.address with
  | none => return none
  | some fields =>
    return if fields.flags.modrm && fields.modrmMod == 0 && fields.modrmRm == 5 then
        some (offsetAddress instruction.next (displacement fields))
      else none

/-- The source's `IsReturnOrJump`. -/
def isReturnOrJump (instruction : Instruction) : Reading Bool := do
  match ← decoded extent instruction.address with
  | none => return false
  | some fields => return isReturnOrJumpFields fields

variable {memory : Memory}

/-- An instruction traced is the instruction. -/
@[simp] theorem value_decoded (address : ℕ) :
    (decoded extent address).value memory = X86Decode.decoded hde memory address := by
  unfold decoded X86Decode.decoded
  split <;> rfl

/-- So is its decoding. -/
@[simp] theorem value_decode (address : ℕ) :
    (decode extent address).value memory = X86Decode.decode hde memory address := by
  rw [decode, value_bind, value_decoded]
  rfl

/-- So is the condition it tests. -/
@[simp] theorem value_conditionTested (instruction : Instruction) :
    (conditionTested extent instruction).value memory =
      X86Decode.conditionTested hde memory instruction := by
  rw [conditionTested, value_bind, value_decoded, X86Decode.conditionTested]
  cases X86Decode.decoded hde memory instruction.address <;> rfl

/-- So is what it stores. -/
@[simp] theorem value_asByteStore (instruction : Instruction) :
    (asByteStore extent instruction).value memory = X86Decode.asByteStore hde memory instruction := by
  rw [asByteStore, value_bind, value_decoded]
  rfl

/-- So is what it stores from a register. -/
@[simp] theorem value_asRegisterByteStore (instruction : Instruction) :
    (asRegisterByteStore extent instruction).value memory =
      X86Decode.asRegisterByteStore hde memory instruction := by
  rw [asRegisterByteStore, value_bind, value_decoded, X86Decode.asRegisterByteStore]
  cases X86Decode.decoded hde memory instruction.address <;> rfl

/-- So is what it stores as a constant. -/
@[simp] theorem value_asImmediateByteStore (instruction : Instruction) (value : UInt8) :
    (asImmediateByteStore extent instruction value).value memory =
      X86Decode.asImmediateByteStore hde memory instruction value := by
  rw [asImmediateByteStore, value_bind, value_decoded, X86Decode.asImmediateByteStore]
  cases X86Decode.decoded hde memory instruction.address <;> rfl

/-- So is the address its operand names. -/
@[simp] theorem value_ripRelativeOperand (instruction : Instruction) :
    (ripRelativeOperand extent instruction).value memory =
      X86Decode.ripRelativeOperand hde memory instruction := by
  rw [ripRelativeOperand, value_bind, value_decoded, X86Decode.ripRelativeOperand]
  cases X86Decode.decoded hde memory instruction.address <;> rfl

/-- And so is whether it leaves the code. -/
@[simp] theorem value_isReturnOrJump (instruction : Instruction) :
    (isReturnOrJump extent instruction).value memory =
      X86Decode.isReturnOrJump hde memory instruction := by
  rw [isReturnOrJump, value_bind, value_decoded, X86Decode.isReturnOrJump]
  cases X86Decode.decoded hde memory instruction.address <;> rfl

end Decoding

/-! ### The analysis of a plugin -/

/-- `mov edx, limit; cmp ecx, edx; cmovb edx, ecx` -/
def frameCountClamp : Signature :=
  literal [0xBA] ++ [anyByte, anyByte, anyByte, anyByte] ++ literal [0x3B, 0xCA, 0x0F, 0x42, 0xD1]

/-- Where the limit is in the clamp. -/
def clampLimitOffset : ℕ := 1

/-- Where the conditional move is in the clamp. -/
def clampCmovOffset : ℕ := 7

/-- A frame count the plugin could plausibly have been compiled to allow. -/
def maxPlausibleFrameLimit : UInt32 := 8

/-- The plugin's limit and the instruction that applies it. -/
structure FrameClamp where
  limit : UInt32
  cmov : ℕ
  deriving DecidableEq

/-- Everything the patches would change in a plugin. -/
structure Analysis where
  flipMetering : Except FlipMeteringProblem FlipMetering
  frameClamp : Option FrameClamp
  frameClampMatches : ℕ

section Plugin

variable {hde : Hde64} (extent : Extent hde) (scanner : Scanner)

/-- The instructions that load the address `target`. -/
def findReferences (code : Span) (target : ℕ) : Reading (List ℕ) := do
  let data ← view code
  filterMap
    (fun lea => do
      let rel ← view ⟨lea + leaRel32Offset, 4⟩
      return if offsetAddress (lea + leaRel32Offset + 4) (Codec.u32.decode rel).toInt32 = target then
          some lea
        else none)
    ((scanner.findAllPattern data leaRipRelative).map (code.data + ·))

/-- The first store of a boolean deep in an object among the next instructions. -/
def fallbackStoreFrom : ℕ → ℕ → Reading (Option ByteStore)
  | 0, _ => pure none
  | fuel + 1, cursor => do
    match ← decode extent cursor with
    | none => return none
    | some instruction =>
      match ← asByteStore extent instruction with
      | some store =>
        if store.value ≤ 1 ∧ 127 < store.displacement then return some store
        else fallbackStoreFrom fuel instruction.next
      | none => fallbackStoreFrom fuel instruction.next

/-- The source's `FallbackStore`. -/
def fallbackStore (reference : ℕ) : Reading (Option ByteStore) :=
  fallbackStoreFrom extent instructionsAfterMarker reference

/-- The first store to the flag among the next instructions of the same
straight-line code, and what is done about it. -/
def modelVersionStoreFrom (flag : ByteField) (offValue : UInt8) :
    ℕ → ℕ → Reading (Option (ModelVersionStore × List PluginAnalysis.Rewrite))
  | 0, _ => pure none
  | fuel + 1, cursor => do
    match ← decode extent cursor with
    | none => return none
    | some instruction =>
      let leaves ← isReturnOrJump extent instruction
      if leaves then return none
      else
        let constant ← asByteStore extent instruction
        if constant.any fun constant => ⟨constant.base, constant.displacement⟩ == flag then
          return some (.constant, [])
        else
          let register ← asRegisterByteStore extent instruction
          if register = some flag then
            match ← asImmediateByteStore extent instruction offValue with
            | none => return some (.unfit, [])
            | some bytes => return some (.register, [⟨instruction.address, bytes⟩])
          else modelVersionStoreFrom flag offValue fuel instruction.next

/-- The source's `AnalyzeModelVersionStore`. -/
def analyzeModelVersionStore (image code : Span) (flag : ByteField) (offValue : UInt8) :
    Reading (ModelVersionStore × List PluginAnalysis.Rewrite) := do
  let data ← view image
  match scanner.findPattern data (literal modelVersionParameter) with
  | none => return (.absent, [])
  | some parameter =>
    let references ← findReferences scanner code (image.data + parameter)
    let found ← findSome
      (modelVersionStoreFrom extent flag offValue instructionsAfterModelVersion) references
    return found.getD (.absent, [])

/-- The rewrite of the store at a match, when decoding there confirms it. -/
def storeRewrite (flagOffset : Int32) (offValue : UInt8) (address : ℕ) :
    Reading (Option PluginAnalysis.Rewrite) := do
  match ← decode extent address with
  | none => return none
  | some instruction =>
    match ← asByteStore extent instruction with
    | none => return none
    | some store =>
      return if store.displacement = flagOffset ∧ store.value = onValue offValue then
          some ⟨address + instruction.length - 1, [offValue]⟩
        else none

/-- The rewrites of the constant stores of the on value. -/
def storeRewrites (code : Span) (flagOffset : Int32) (offValue : UInt8) :
    Reading (List PluginAnalysis.Rewrite) := do
  let data ← view code
  filterMap (storeRewrite extent flagOffset offValue)
    ((scanner.findAllPattern data (byteStoreSignature flagOffset (onValue offValue))).map
      (code.data + ·))

/-- The source's `AnalyzeFlipMetering`. -/
def analyzeFlipMetering (forced : Int32) (image code : Span) :
    Reading (Except FlipMeteringProblem FlipMetering) := do
  let data ← view image
  match scanner.findPattern data (literal flipMeteringMarker) with
  | none => return .error .markerNotFound
  | some marker =>
    match ← findReferences scanner code (image.data + marker) with
    | [] => return .error .markerNeverReferenced
    | references =>
      match ← findSome (fallbackStore extent) references with
      | none => return .error .noStoreFollowsMarker
      | some fallback =>
        let offValue := offValueOf forced fallback
        let stores ← storeRewrites extent scanner code fallback.displacement offValue
        let modelVersion ← analyzeModelVersionStore extent scanner image code
          ⟨fallback.base, fallback.displacement⟩ offValue
        return .ok
          { flagOffset := fallback.displacement
            offValue := offValue
            rewrites := stores ++ modelVersion.2
            modelVersionStore := modelVersion.1 }

/-- The source's `AnalyzeFrameClamp`: the matches of the clamp, and the clamp when it is the
only one and plausible. -/
def analyzeFrameClamp (code : Span) : Reading (ℕ × Option FrameClamp) := do
  let data ← view code
  match (scanner.findAllPattern data frameCountClamp).map (code.data + ·) with
  | [clamp] =>
    let word ← view ⟨clamp + clampLimitOffset, 4⟩
    let limit := Codec.u32.decode word
    return (1, if limit = 0 ∨ maxPlausibleFrameLimit < limit then none
      else some ⟨limit, clamp + clampCmovOffset⟩)
  | matched => return (matched.length, none)

/-- The source's `AnalyzePlugin`. -/
def analyzePlugin (forced : Int32) (image code : Span) : Reading Analysis := do
  let flip ← analyzeFlipMetering extent scanner forced image code
  let clamp ← analyzeFrameClamp scanner code
  return ⟨flip, clamp.2, clamp.1⟩

variable {memory : Memory}

/-- The references found traced are those found. -/
theorem value_findReferences (code : Span) (target : ℕ) :
    (findReferences scanner code target).value memory =
      PluginAnalysis.findReferences scanner memory code target := by
  rw [findReferences, value_bind, value_filterMap, value_view, PluginAnalysis.findReferences,
    ← List.filterMap_eq_filter]
  refine List.filterMap_congr fun lea _ => ?_
  have hword : Codec.u32.decode (memory.view ⟨lea + leaRel32Offset, 4⟩) =
      dword (streamAt memory lea) leaRel32Offset := rfl
  rw [value_bind, value_view, hword]
  simp [Option.guard]

/-- The walk to a fallback store, traced, is the walk. -/
theorem value_fallbackStoreFrom (fuel cursor : ℕ) :
    (fallbackStoreFrom extent fuel cursor).value memory =
      PluginAnalysis.fallbackStoreFrom hde memory fuel cursor := by
  induction fuel generalizing cursor with
  | zero => rfl
  | succ fuel ih =>
    rw [fallbackStoreFrom, value_bind, value_decode, PluginAnalysis.fallbackStoreFrom]
    cases X86Decode.decode hde memory cursor with
    | none => rfl
    | some instruction =>
      dsimp only
      rw [value_bind, value_asByteStore]
      cases X86Decode.asByteStore hde memory instruction with
      | none => exact ih instruction.next
      | some store =>
        dsimp only
        split
        · rfl
        · exact ih instruction.next

/-- So it is from a reference on. -/
theorem value_fallbackStore (reference : ℕ) :
    (fallbackStore extent reference).value memory = PluginAnalysis.fallbackStore hde memory reference :=
  value_fallbackStoreFrom extent instructionsAfterMarker reference

/-- The walk to the model version's store, traced, is the walk. -/
theorem value_modelVersionStoreFrom (flag : ByteField) (offValue : UInt8) (fuel cursor : ℕ) :
    (modelVersionStoreFrom extent flag offValue fuel cursor).value memory =
      PluginAnalysis.modelVersionStoreFrom hde memory flag offValue fuel cursor := by
  induction fuel generalizing cursor with
  | zero => rfl
  | succ fuel ih =>
    rw [modelVersionStoreFrom, value_bind, value_decode, PluginAnalysis.modelVersionStoreFrom]
    cases X86Decode.decode hde memory cursor with
    | none => rfl
    | some instruction =>
      dsimp only
      rw [value_bind, value_isReturnOrJump]
      split
      · rfl
      · rw [value_bind, value_asByteStore]
        split
        · rfl
        · rw [value_bind, value_asRegisterByteStore]
          split
          · rw [value_bind, value_asImmediateByteStore]
            cases X86Decode.asImmediateByteStore hde memory instruction offValue <;> rfl
          · exact ih instruction.next

/-- The analysis of that store, traced, is the analysis. -/
theorem value_analyzeModelVersionStore (image code : Span) (flag : ByteField) (offValue : UInt8) :
    (analyzeModelVersionStore extent scanner image code flag offValue).value memory =
      PluginAnalysis.analyzeModelVersionStore hde scanner memory image code flag offValue := by
  rw [analyzeModelVersionStore, value_bind, value_view, PluginAnalysis.analyzeModelVersionStore]
  cases scanner.findPattern (memory.view image) (literal modelVersionParameter) with
  | none => rfl
  | some parameter =>
    dsimp only
    rw [value_bind, value_bind, value_findReferences, value_findSome, value_pure]
    simp only [value_modelVersionStoreFrom]

/-- The rewrites found traced are those found. -/
theorem value_storeRewrites (code : Span) (flagOffset : Int32) (offValue : UInt8) :
    (storeRewrites extent scanner code flagOffset offValue).value memory =
      PluginAnalysis.storeRewrites hde scanner memory code flagOffset offValue := by
  rw [storeRewrites, value_bind, value_view, value_filterMap, PluginAnalysis.storeRewrites]
  refine List.filterMap_congr fun address _ => ?_
  rw [storeRewrite, value_bind, value_decode, PluginAnalysis.storeRewrite]
  cases X86Decode.decode hde memory address with
  | none => rfl
  | some instruction =>
    dsimp only
    rw [value_bind, value_asByteStore]
    cases X86Decode.asByteStore hde memory instruction <;> rfl

/-- The analysis that keeps account of its reads is the analysis. -/
theorem value_analyzeFlipMetering (forced : Int32) (image code : Span) :
    (analyzeFlipMetering extent scanner forced image code).value memory =
      PluginAnalysis.analyzeFlipMetering hde scanner memory forced image code := by
  rw [analyzeFlipMetering, value_bind, value_view, PluginAnalysis.analyzeFlipMetering]
  cases scanner.findPattern (memory.view image) (literal flipMeteringMarker) with
  | none => rfl
  | some marker =>
    dsimp only
    rw [value_bind, value_findReferences]
    cases PluginAnalysis.findReferences scanner memory code (image.data + marker) with
    | nil => rfl
    | cons reference references =>
      dsimp only
      rw [value_bind, value_findSome, funext (value_fallbackStore extent)]
      cases (reference :: references).findSome? (PluginAnalysis.fallbackStore hde memory) with
      | none => rfl
      | some fallback =>
        dsimp only
        rw [value_bind, value_bind, value_storeRewrites, value_analyzeModelVersionStore, value_pure]

end Plugin

/-! ### The gates of a runtime -/

section Runtime

variable {hde : Hde64} (extent : Extent hde) (scanner : Scanner)

/-- The text at an address, when it lies inside the image and names a published
parameter. -/
def parameterAt (image : Span) (address : ℕ) : Reading Bytes :=
  if address < image.data ∨ image.data + image.size ≤ address then pure []
  else do
    let available := image.data + image.size - address
    match ← safeCopy address (min available (maxParameterLength - 1)) with
    | none => return []
    | some text =>
      let name := text.takeWhile (· ≠ 0)
      return if parameterPrefix.isPrefixOf name then name else []

/-- The name an instruction's operand points at. -/
def parameterOf (image : Span) : Option ℕ → Reading Bytes
  | none => pure []
  | some operand => parameterAt image operand

/-- The published parameter whose name one of the next instructions loads. -/
def publishedParameterFrom (image : Span) : ℕ → ℕ → Reading Bytes
  | 0, _ => pure []
  | fuel + 1, cursor => do
    match ← decode extent cursor with
    | none => return []
    | some instruction =>
      let operand ← ripRelativeOperand extent instruction
      let name ← parameterOf image operand
      if name ≠ [] then return name else publishedParameterFrom image fuel instruction.next

/-- The source's `PublishedParameter`. -/
def publishedParameter (image : Span) (compare : ℕ) : Reading Bytes :=
  publishedParameterFrom extent image instructionsToPublication compare

/-- What the instruction behind a comparison asks of the flags. -/
def conditionRead : Option Instruction → Reading Condition
  | none => pure .notConditional
  | some consumer => conditionTested extent consumer

/-- The gate at a match, when decoding there reads a comparison of the expected
length. -/
def gateAt (image : Span) (immediate address : ℕ) : Reading (Option Gate) := do
  match ← decode extent address with
  | none => return none
  | some compare =>
    if compare.length ≠ immediate + 4 then return none
    else
      let consumer ← decode extent compare.next
      let condition ← conditionRead extent consumer
      let publishes ← publishedParameter extent image compare.next
      return some
        { immediate := address + immediate
          publishes := publishes
          condition := condition
          unlock := condition == .ordering &&
            (publishes.isEmpty || publishes == multiFrameParameter) }

/-- The gates of one encoding. -/
def gatesOf (image code : Span) (encoding : Encoding) : Reading (List Gate) := do
  let data ← view code
  filterMap (gateAt extent image encoding.immediate)
    ((scanner.findAllPattern data encoding.pattern).map (code.data + ·))

/-- The gates of some encodings. -/
def gatesOfAll (image code : Span) : List Encoding → Reading (List Gate)
  | [] => pure []
  | encoding :: rest => do
    let gates ← gatesOf extent scanner image code encoding
    let others ← gatesOfAll image code rest
    return gates ++ others

/-- The source's `FindMultiFrameGates`. -/
def findMultiFrameGates (image code : Span) : Reading (List Gate) :=
  gatesOfAll extent scanner image code encodings

variable {memory : Memory}

/-- The parameter named at an address, traced, is the parameter. -/
theorem value_parameterAt (image : Span) (address : ℕ) :
    (parameterAt image address).value memory = MultiFrameGates.parameterAt memory image address := by
  unfold parameterAt MultiFrameGates.parameterAt
  split
  · rfl
  · rw [value_bind, value_safeCopy]
    dsimp only
    cases memory.safeCopy address
      (min (image.data + image.size - address) (maxParameterLength - 1)) <;> rfl

/-- So is the one an operand names. -/
theorem value_parameterOf (image : Span) (operand : Option ℕ) :
    (parameterOf image operand).value memory =
      (operand.map (MultiFrameGates.parameterAt memory image)).getD [] := by
  cases operand with
  | none => rfl
  | some address => exact value_parameterAt image address

/-- The walk to a published parameter, traced, is the walk. -/
theorem value_publishedParameterFrom (image : Span) (fuel cursor : ℕ) :
    (publishedParameterFrom extent image fuel cursor).value memory =
      MultiFrameGates.publishedParameterFrom hde memory image fuel cursor := by
  induction fuel generalizing cursor with
  | zero => rfl
  | succ fuel ih =>
    rw [publishedParameterFrom, value_bind, value_decode, MultiFrameGates.publishedParameterFrom]
    cases X86Decode.decode hde memory cursor with
    | none => rfl
    | some instruction =>
      dsimp only
      rw [value_bind, value_bind, value_ripRelativeOperand, value_parameterOf]
      split
      · rfl
      · exact ih instruction.next

/-- A gate traced is the gate. -/
theorem value_gateAt (image : Span) (immediate address : ℕ) :
    (gateAt extent image immediate address).value memory =
      MultiFrameGates.gateAt hde memory image immediate address := by
  rw [gateAt, value_bind, value_decode, MultiFrameGates.gateAt]
  cases X86Decode.decode hde memory address with
  | none => rfl
  | some compare =>
    dsimp only
    split
    · rfl
    · have hpublishes : (publishedParameter extent image compare.next).value memory =
          MultiFrameGates.publishedParameter hde memory image compare.next :=
        value_publishedParameterFrom extent image _ _
      rw [value_bind, value_bind, value_bind, value_pure, hpublishes, value_decode]
      cases X86Decode.decode hde memory compare.next with
      | none => rfl
      | some consumer =>
        rw [conditionRead, value_conditionTested]

/-- The search that keeps account of its reads is the search. -/
theorem value_findMultiFrameGates (image code : Span) :
    (findMultiFrameGates extent scanner image code).value memory =
      MultiFrameGates.findMultiFrameGates hde scanner memory image code := by
  have hone : ∀ encoding, (gatesOf extent scanner image code encoding).value memory =
      MultiFrameGates.gatesOf hde scanner memory image code encoding := by
    intro encoding
    rw [gatesOf, value_bind, value_view, value_filterMap, MultiFrameGates.gatesOf]
    exact List.filterMap_congr fun address _ => value_gateAt extent image _ address
  have hall : ∀ list, (gatesOfAll extent scanner image code list).value memory =
      list.flatMap (MultiFrameGates.gatesOf hde scanner memory image code) := by
    intro list
    induction list with
    | nil => rfl
    | cons encoding rest ih =>
      rw [gatesOfAll, value_bind, value_bind, value_pure, hone, ih, List.flatMap_cons]
  exact hall encodings

end Runtime

end OpenDlssg.AnalysisReads
