import OpenDlssg.PatternScan
import OpenDlssg.X86Decode

/-!
# The flip-metering stores of the Streamline plugin

The plugin's own fallback, found behind a marker string, names its metering
flag and the value that means off. Every constant store of the opposite value
to the flag is to be rewritten, and so is the register store behind the
model-version parameter. The constant stores are found by a byte signature and
confirmed by decoding at the match; what that scan finds is characterised
exactly. A store through a SIB byte, which a base of r12 always needs, is not
among it.
-/

namespace OpenDlssg.PluginAnalysis

open ByteCodec ProcessMemory PatternScan X86Decode

/-! ### The analysis -/

/-- `lea r64, [rip + rel32]` -/
def leaRipRelative : Signature :=
  [⟨0xFA, 0x48⟩, exactly 0x8D, ⟨0xC7, 0x05⟩, anyByte, anyByte, anyByte, anyByte]

/-- Offset of the displacement in such an instruction. -/
def leaRel32Offset : ℕ := 3

/-- Logged by the plugin from the code that picks flip metering. -/
def flipMeteringMarker : Bytes := ascii "FG1 DLL has been detected"

/-- How far past the marker's reference the fallback's store may stand. -/
def instructionsAfterMarker : ℕ := 64

/-- The parameter newer plugins read to decide flip metering, with its
terminator. -/
def modelVersionParameter : Bytes := ascii "DLSSG.ModelVersion" ++ [0]

/-- How far past that reference the store may stand. -/
def instructionsAfterModelVersion : ℕ := 32

/-- Bytes to put at an address. -/
structure Rewrite where
  address : ℕ
  bytes : Bytes
  deriving DecidableEq

/-- How the store after the model-version check was handled. -/
inductive ModelVersionStore
  | absent
  | constant
  | register
  | unfit
  deriving DecidableEq

/-- The analysis of a plugin's flip metering. -/
structure FlipMetering where
  /-- The flag's offset within the plugin's context. -/
  flagOffset : Int32
  offValue : UInt8
  /-- Code to overwrite so that nothing can set the flag to its on value. -/
  rewrites : List Rewrite
  modelVersionStore : ModelVersionStore
  deriving DecidableEq

/-- Why there is no analysis. -/
inductive FlipMeteringProblem
  | markerNotFound
  | markerNeverReferenced
  | noStoreFollowsMarker
  deriving DecidableEq

/-- The problem as it is reported. -/
def FlipMeteringProblem.text : FlipMeteringProblem → String
  | markerNotFound => "marker string not found"
  | markerNeverReferenced => "marker string is never referenced"
  | noStoreFollowsMarker => "no store follows the marker"

/-- `mov byte ptr [reg + displacement], value` as a signature. -/
def byteStoreSignature (displacement : Int32) (value : UInt8) : Signature :=
  literal [0xC6] ++ [⟨0xF8, 0x80⟩] ++
    literal (Codec.u32.encode displacement.toUInt32 ++ [value])

/-- The value opposite to the off value. -/
def onValue (offValue : UInt8) : UInt8 := if offValue ≠ 0 then 0 else 1

/-- The off value the fallback stores, unless one is forced. -/
def offValueOf (forced : Int32) (fallback : ByteStore) : UInt8 :=
  if 0 ≤ forced then forced.toUInt32.toUInt8 else fallback.value

section Analysis

variable (hde : Hde64) (scanner : Scanner) (memory : Memory)

/-- The instructions that load the address `target`. -/
def findReferences (code : Span) (target : ℕ) : List ℕ :=
  ((scanner.findAllPattern (memory.view code) leaRipRelative).map (code.data + ·)).filter
    fun lea =>
      offsetAddress (lea + leaRel32Offset + 4)
        (dword (streamAt memory lea) leaRel32Offset).toInt32 == target

/-- The first store of a boolean deep in an object among the next instructions. -/
def fallbackStoreFrom : ℕ → ℕ → Option ByteStore
  | 0, _ => none
  | fuel + 1, cursor =>
    match decode hde memory cursor with
    | none => none
    | some instruction =>
      match asByteStore hde memory instruction with
      | some store =>
        if store.value ≤ 1 ∧ 127 < store.displacement then some store
        else fallbackStoreFrom fuel instruction.next
      | none => fallbackStoreFrom fuel instruction.next

/-- The source's `FallbackStore`. -/
def fallbackStore (reference : ℕ) : Option ByteStore :=
  fallbackStoreFrom hde memory instructionsAfterMarker reference

/-- The first store to the flag among the next instructions of the same
straight-line code, and what is done about it. -/
def modelVersionStoreFrom (flag : ByteField) (offValue : UInt8) :
    ℕ → ℕ → Option (ModelVersionStore × List Rewrite)
  | 0, _ => none
  | fuel + 1, cursor =>
    match decode hde memory cursor with
    | none => none
    | some instruction =>
      if isReturnOrJump hde memory instruction then none
      else if (asByteStore hde memory instruction).any
          fun constant => ⟨constant.base, constant.displacement⟩ == flag then
        some (.constant, [])
      else if asRegisterByteStore hde memory instruction = some flag then
        match asImmediateByteStore hde memory instruction offValue with
        | none => some (.unfit, [])
        | some bytes => some (.register, [⟨instruction.address, bytes⟩])
      else modelVersionStoreFrom flag offValue fuel instruction.next

/-- The source's `AnalyzeModelVersionStore`. -/
def analyzeModelVersionStore (image code : Span) (flag : ByteField) (offValue : UInt8) :
    ModelVersionStore × List Rewrite :=
  match scanner.findPattern (memory.view image) (literal modelVersionParameter) with
  | none => (.absent, [])
  | some parameter =>
    ((findReferences scanner memory code (image.data + parameter)).findSome?
      (modelVersionStoreFrom hde memory flag offValue instructionsAfterModelVersion)).getD
        (.absent, [])

/-- The rewrite of the store at a match, when decoding there confirms it. -/
def storeRewrite (flagOffset : Int32) (offValue : UInt8) (address : ℕ) : Option Rewrite :=
  match decode hde memory address with
  | none => none
  | some instruction =>
    match asByteStore hde memory instruction with
    | none => none
    | some store =>
      if store.displacement = flagOffset ∧ store.value = onValue offValue then
        some ⟨address + instruction.length - 1, [offValue]⟩
      else none

/-- The rewrites of the constant stores of the on value. -/
def storeRewrites (code : Span) (flagOffset : Int32) (offValue : UInt8) : List Rewrite :=
  ((scanner.findAllPattern (memory.view code)
    (byteStoreSignature flagOffset (onValue offValue))).map (code.data + ·)).filterMap
      (storeRewrite hde memory flagOffset offValue)

/-- The source's `AnalyzeFlipMetering`. -/
def analyzeFlipMetering (forced : Int32) (image code : Span) :
    Except FlipMeteringProblem FlipMetering :=
  match scanner.findPattern (memory.view image) (literal flipMeteringMarker) with
  | none => .error .markerNotFound
  | some marker =>
    match findReferences scanner memory code (image.data + marker) with
    | [] => .error .markerNeverReferenced
    | references =>
      match references.findSome? (fallbackStore hde memory) with
      | none => .error .noStoreFollowsMarker
      | some fallback =>
        let offValue := offValueOf forced fallback
        let (modelVersionStore, registerRewrites) :=
          analyzeModelVersionStore hde scanner memory image code
            ⟨fallback.base, fallback.displacement⟩ offValue
        .ok
          { flagOffset := fallback.displacement
            offValue := offValue
            rewrites :=
              storeRewrites hde scanner memory code fallback.displacement offValue ++
                registerRewrites
            modelVersionStore := modelVersionStore }

end Analysis

/-! ### The encodings of a store -/

/-- An encoding of `mov byte ptr [base + displacement], value` with a 32-bit
displacement and no index register. -/
structure StoreEncoding where
  /-- Legacy prefixes: segment overrides, operand size, repeats. -/
  prefixes : Bytes
  rex : Option UInt8
  /-- The base register, 0 (rax) to 15 (r15). -/
  base : UInt8
  sib : Option UInt8
  displacement : Int32
  value : UInt8
  prefixes_legacy : ∀ p ∈ prefixes, p ∈ [0x26, 0x2E, 0x36, 0x3E, 0x64, 0x65, 0x66, 0xF2, 0xF3]
  rex_range : ∀ r ∈ rex, r &&& 0xF0 = 0x40
  base_lt : base < 16
  base_ne_rsp : base ≠ 4
  /-- REX.B extends the base. -/
  rex_base : (rex.any fun r => r &&& 1 == 1) = (8 ≤ base)
  /-- ModRM `rm` 100 does not name a base: it announces a SIB byte. -/
  base_of_no_sib : sib = none → base &&& 7 ≠ 4
  /-- A SIB byte with index 100, not extended by REX.X, has no index. -/
  sib_indexless : ∀ s ∈ sib, (s >>> 3) &&& 7 = 4 ∧ s &&& 7 = base &&& 7 ∧
    (rex.any fun r => r &&& 2 == 2) = false

namespace StoreEncoding

/-- ModRM with `mod` 10 and `reg` 000. -/
def modrm (encoding : StoreEncoding) : UInt8 :=
  0x80 ||| if encoding.sib.isSome then 4 else encoding.base &&& 7

/-- The bytes before the opcode. -/
def lead (encoding : StoreEncoding) : Bytes := encoding.prefixes ++ encoding.rex.toList

/-- The bytes from the opcode on. -/
def tail (encoding : StoreEncoding) : Bytes :=
  [0xC6, encoding.modrm] ++ encoding.sib.toList ++
    Codec.u32.encode encoding.displacement.toUInt32 ++ [encoding.value]

/-- The instruction. -/
def bytes (encoding : StoreEncoding) : Bytes := encoding.lead ++ encoding.tail

/-- The instruction stands at an address of the code. -/
def StandsAt (encoding : StoreEncoding) (memory : Memory) (code : Span) (address : ℕ) : Prop :=
  address ≠ 0 ∧ code.data ≤ address ∧
    address + encoding.bytes.length ≤ code.data + code.size ∧
    memory.bytes address encoding.bytes.length = encoding.bytes

/-- Where its immediate byte is. -/
def immediateAddress (encoding : StoreEncoding) (address : ℕ) : ℕ :=
  address + encoding.bytes.length - 1

end StoreEncoding

/-! ### What the scan for constant stores finds -/

/-- The seven bytes of a store without prefix or SIB byte. -/
def plainStore (modrm : UInt8) (displacement : Int32) (value : UInt8) : Bytes :=
  [0xC6, modrm] ++ (Codec.u32.encode displacement.toUInt32 ++ [value])

theorem length_plainStore (modrm : UInt8) (displacement : Int32) (value : UInt8) :
    (plainStore modrm displacement value).length = 7 := by
  have hword : (Codec.u32.encode displacement.toUInt32).length = 4 := Codec.u32.length_encode _
  simp only [plainStore, List.length_append, List.length_cons, List.length_nil, hword]

/-- The stores a scan of the code for the signature stops at. -/
theorem mem_storeMatches {memory : Memory} {code : Span} {displacement : Int32} {value : UInt8}
    {address : ℕ} :
    address ∈ (allMatches (byteStoreSignature displacement value) (memory.view code)).map
        (code.data + ·) ↔
      code.data ≤ address ∧ address + 7 ≤ code.data + code.size ∧
        ∃ modrm, modrm &&& 0xF8 = 0x80 ∧
          memory.bytes address 7 = plainStore modrm displacement value := by
  have hrest : (Codec.u32.encode displacement.toUInt32 ++ [value]).length = 5 := by
    rw [List.length_append, Codec.length_encode]
    rfl
  rw [byteStoreSignature, mem_spanMatches_masked, hrest]
  rfl

/-- The stream at a plain store. -/
theorem streamAt_plainStore {memory : Memory} {address : ℕ} {modrm value : UInt8}
    {displacement : Int32} (h : memory.bytes address 7 = plainStore modrm displacement value) :
    streamAt memory address 0 = 0xC6 ∧ streamAt memory address 1 = modrm ∧
      dword (streamAt memory address) 2 = displacement.toUInt32 ∧
      streamAt memory address 6 = value := by
  have hlist : memory.bytes address 7 =
      [streamAt memory address 0, streamAt memory address 1] ++
        [streamAt memory address 2, streamAt memory address 3, streamAt memory address 4,
          streamAt memory address 5] ++ [streamAt memory address 6] := rfl
  have hword : (Codec.u32.encode displacement.toUInt32).length = 4 := Codec.u32.length_encode _
  rw [hlist, plainStore, List.append_assoc] at h
  obtain ⟨hopcode, hrest⟩ := List.append_inj h rfl
  obtain ⟨hdisplacement, hvalue⟩ := List.append_inj hrest hword.symm
  have hdword : dword (streamAt memory address) 2 = displacement.toUInt32 := by
    rw [← Codec.u32.decode_encode displacement.toUInt32 [], List.append_nil, ← hdisplacement]
    rfl
  simp only [List.cons.injEq, and_true] at hopcode hvalue
  exact ⟨hopcode.1, hopcode.2, hdword, hvalue⟩

/-- A plain store decodes to the store it is. -/
theorem decode_plainStore (hde : Hde64) {memory : Memory} {address : ℕ} {modrm value : UInt8}
    {displacement : Int32} (hnull : address ≠ 0) (hmodrm : modrm &&& 0xF8 = 0x80)
    (hplain : modrm ≠ 0x84) (h : memory.bytes address 7 = plainStore modrm displacement value) :
    decode hde memory address = some ⟨address, 7⟩ ∧
      asByteStore hde memory ⟨address, 7⟩ = some ⟨modrm &&& 7, displacement, value⟩ := by
  obtain ⟨hopcode, hsecond, hdisplacement, hvalue⟩ := streamAt_plainStore h
  have hstream := hde.mov_disp32 (streamAt memory address) hopcode
    (by rw [hsecond]; exact hmodrm) (by rw [hsecond]; exact hplain)
  rw [hsecond, hdisplacement, hvalue] at hstream
  have hfields : decoded hde memory address =
      some (movByteDisp32 modrm displacement.toUInt32 value) :=
    decoded_eq_some.mpr ⟨hnull, Nat.succ_ne_zero 6, rfl, hstream⟩
  refine ⟨decode_eq_some.mpr ⟨_, hfields, rfl⟩, ?_⟩
  rw [asByteStore, hfields]
  exact byteStoreOf_movByteDisp32 hmodrm

/-- Decoding at a match confirms the store unless its ModRM byte announces a
SIB byte. -/
theorem storeRewrite_plainStore {hde : Hde64} {memory : Memory} {address : ℕ} {modrm : UInt8}
    {displacement : Int32} {offValue : UInt8} (hnull : address ≠ 0)
    (hmodrm : modrm &&& 0xF8 = 0x80)
    (h : memory.bytes address 7 = plainStore modrm displacement (onValue offValue)) :
    storeRewrite hde memory displacement offValue address =
      if modrm = 0x84 then none else some ⟨address + 6, [offValue]⟩ := by
  split
  · rename_i hsib
    obtain ⟨hopcode, hsecond, _, _⟩ := streamAt_plainStore h
    rw [hsib] at hsecond
    have hflag := hde.mov_sib (streamAt memory address) hopcode hsecond
    unfold storeRewrite
    cases hdecode : decode hde memory address with
    | none => rfl
    | some instruction =>
      obtain ⟨fields, hfields, rfl⟩ := decode_eq_some.mp hdecode
      have hstream := (decoded_eq_some.mp hfields).2.2.2
      rw [hstream] at hflag
      have hnone : byteStoreOf fields = none := by
        cases hstore : byteStoreOf fields with
        | none => rfl
        | some store =>
          have hclear := (shape_of_byteStoreOf hstore).2
          rw [hflag] at hclear
          cases hclear
      have hstore : asByteStore hde memory ⟨address, fields.len⟩ = none := by
        simp only [asByteStore, hfields, Option.bind_some, hnone]
      simp only [hstore]
  · rename_i hplain
    obtain ⟨hdecode, hstore⟩ := decode_plainStore hde hnull hmodrm hplain h
    unfold storeRewrite
    simp only [hdecode, hstore, true_and, if_true]
    rfl

/-- Nothing is decoded at the null address. -/
theorem storeRewrite_null {hde : Hde64} {memory : Memory} {displacement : Int32}
    {offValue : UInt8} : storeRewrite hde memory displacement offValue 0 = none := rfl

/-- The rewrites of the constant stores: one for each plain store of the on
value in the code, putting the off value over its immediate. -/
theorem mem_storeRewrites {hde : Hde64} {scanner : Scanner} {memory : Memory} {code : Span}
    {displacement : Int32} {offValue : UInt8} {rewrite : Rewrite} :
    rewrite ∈ storeRewrites hde scanner memory code displacement offValue ↔
      ∃ address modrm, modrm &&& 0xF8 = 0x80 ∧ modrm ≠ 0x84 ∧ address ≠ 0 ∧
        code.data ≤ address ∧ address + 7 ≤ code.data + code.size ∧
        memory.bytes address 7 = plainStore modrm displacement (onValue offValue) ∧
        rewrite = ⟨address + 6, [offValue]⟩ := by
  have hsignature : byteStoreSignature displacement (onValue offValue) ≠ [] := by
    simp [byteStoreSignature, literal]
  rw [storeRewrites, scanner.findAllPattern_eq _ _ hsignature, List.mem_filterMap]
  constructor
  · rintro ⟨address, hmatch, hrewrite⟩
    obtain ⟨hstart, hend, modrm, hmodrm, hbytes⟩ := mem_storeMatches.mp hmatch
    have hnull : address ≠ 0 := by
      rintro rfl
      rw [storeRewrite_null] at hrewrite
      cases hrewrite
    rw [storeRewrite_plainStore hnull hmodrm hbytes] at hrewrite
    split at hrewrite
    · cases hrewrite
    · rename_i hplain
      have hsame := Option.some.inj hrewrite
      exact ⟨address, modrm, hmodrm, hplain, hnull, hstart, hend, hbytes, hsame.symm⟩
  · rintro ⟨address, modrm, hmodrm, hplain, hnull, hstart, hend, hbytes, rfl⟩
    refine ⟨address, mem_storeMatches.mpr ⟨hstart, hend, modrm, hmodrm, hbytes⟩, ?_⟩
    rw [storeRewrite_plainStore hnull hmodrm hbytes, if_neg hplain]

/-- What the search for the model-version store rewrites: nothing, or the register
store it stopped at. -/
theorem modelVersionStoreFrom_rewrites {hde : Hde64} {memory : Memory} {flag : ByteField}
    {offValue : UInt8} {fuel cursor : ℕ} {answer : ModelVersionStore × List Rewrite}
    (h : modelVersionStoreFrom hde memory flag offValue fuel cursor = some answer) :
    answer.2 = [] ∨ ∃ address instruction bytes,
      decode hde memory address = some instruction ∧
        asRegisterByteStore hde memory instruction = some flag ∧
        asImmediateByteStore hde memory instruction offValue = some bytes ∧
        answer.2 = [⟨instruction.address, bytes⟩] := by
  induction fuel generalizing cursor with
  | zero => cases h
  | succ fuel ih =>
    rw [modelVersionStoreFrom] at h
    split at h
    · cases h
    · rename_i instruction hdecode
      split at h
      · cases h
      · split at h
        · cases h
          exact Or.inl rfl
        · split at h
          · rename_i hregister
            split at h
            · cases h
              exact Or.inl rfl
            · rename_i bytes hbytes
              cases h
              exact Or.inr ⟨cursor, instruction, bytes, hdecode, hregister, hbytes, rfl⟩
          · exact ih h

/-- The same over all references to the parameter. -/
theorem analyzeModelVersionStore_rewrites (hde : Hde64) (scanner : Scanner) (memory : Memory)
    (image code : Span) (flag : ByteField) (offValue : UInt8) :
    (analyzeModelVersionStore hde scanner memory image code flag offValue).2 = [] ∨
      ∃ address instruction bytes, decode hde memory address = some instruction ∧
        asRegisterByteStore hde memory instruction = some flag ∧
        asImmediateByteStore hde memory instruction offValue = some bytes ∧
        (analyzeModelVersionStore hde scanner memory image code flag offValue).2 =
          [⟨instruction.address, bytes⟩] := by
  unfold analyzeModelVersionStore
  split
  · exact Or.inl rfl
  · rename_i parameter _
    cases hfound : (findReferences scanner memory code (image.data + parameter)).findSome?
        (modelVersionStoreFrom hde memory flag offValue instructionsAfterModelVersion) with
    | none => exact Or.inl rfl
    | some answer =>
      obtain ⟨_, _, hanswer⟩ := List.exists_of_findSome?_eq_some hfound
      exact modelVersionStoreFrom_rewrites hanswer

/-- The register store's rewrite replaces a whole instruction. -/
theorem length_registerRewrite {hde : Hde64} {scanner : Scanner} {memory : Memory}
    {image code : Span} {flag : ByteField} {offValue : UInt8} {rewrite : Rewrite}
    (h : rewrite ∈ (analyzeModelVersionStore hde scanner memory image code flag offValue).2) :
    7 ≤ rewrite.bytes.length := by
  rcases analyzeModelVersionStore_rewrites hde scanner memory image code flag offValue with
    hnone | ⟨_, _, bytes, _, _, hbytes, hone⟩
  · rw [hnone] at h
    cases h
  · rw [hone] at h
    rw [List.mem_singleton.mp h]
    exact length_asImmediateByteStore hbytes

/-- An analysis that finds the flag: the references it searched, the fallback's
store behind the first that has one, and what is made of it. -/
theorem analyzeFlipMetering_eq_ok {hde : Hde64} {scanner : Scanner} {memory : Memory}
    {forced : Int32} {image code : Span} {flip : FlipMetering}
    (h : analyzeFlipMetering hde scanner memory forced image code = .ok flip) :
    ∃ marker fallback,
      scanner.findPattern (memory.view image) (literal flipMeteringMarker) = some marker ∧
        (findReferences scanner memory code (image.data + marker)).findSome?
          (fallbackStore hde memory) = some fallback ∧
        flip.flagOffset = fallback.displacement ∧ flip.offValue = offValueOf forced fallback ∧
        flip.rewrites =
          storeRewrites hde scanner memory code flip.flagOffset flip.offValue ++
            (analyzeModelVersionStore hde scanner memory image code
              ⟨fallback.base, flip.flagOffset⟩ flip.offValue).2 := by
  unfold analyzeFlipMetering at h
  split at h
  · cases h
  · rename_i marker hmarker
    split at h
    · cases h
    · split at h
      · cases h
      · rename_i fallback hfallback
        cases h
        exact ⟨marker, fallback, hmarker, hfallback, rfl, rfl, rfl⟩

/-- What an analysis that finds the flag is made of. -/
theorem analyzeFlipMetering_rewrites {hde : Hde64} {scanner : Scanner} {memory : Memory}
    {forced : Int32} {image code : Span} {flip : FlipMetering}
    (h : analyzeFlipMetering hde scanner memory forced image code = .ok flip) :
    ∃ registerRewrites : List Rewrite, (∀ r ∈ registerRewrites, 7 ≤ r.bytes.length) ∧
      flip.rewrites =
        storeRewrites hde scanner memory code flip.flagOffset flip.offValue ++
          registerRewrites := by
  obtain ⟨_, _, _, _, _, _, hrewrites⟩ := analyzeFlipMetering_eq_ok h
  exact ⟨_, fun r hr => length_registerRewrite hr, hrewrites⟩

/-! ### Which stores are missed -/

namespace StoreEncoding

variable {encoding : StoreEncoding} {memory : Memory} {code : Span} {address : ℕ}

/-- The opcode and what follows it, where they stand. -/
theorem StandsAt.tail_stands (h : encoding.StandsAt memory code address) :
    memory.bytes (address + encoding.lead.length) encoding.tail.length = encoding.tail :=
  (Memory.bytes_append h.2.2.2).2

/-- The SIB byte is part of the encoding exactly when ModRM announces it. -/
theorem modrm_of_sib_none (hsib : encoding.sib = none) :
    encoding.modrm &&& 0xF8 = 0x80 ∧ encoding.modrm ≠ 0x84 := by
  have hbase := encoding.base_of_no_sib hsib
  have hmodrm : encoding.modrm = 0x80 ||| (encoding.base &&& 7) := by
    simp [modrm, hsib]
  rw [hmodrm]
  generalize encoding.base = base at hbase
  revert base
  decide +kernel

theorem modrm_of_sib_some {s : UInt8} (hsib : encoding.sib = some s) :
    encoding.modrm = 0x84 := by
  simp only [modrm, hsib, Option.isSome_some, if_true]
  rfl

/-- Without SIB byte the tail is a plain store. -/
theorem tail_of_sib_none (hsib : encoding.sib = none) :
    encoding.tail = plainStore encoding.modrm encoding.displacement encoding.value := by
  simp only [tail, plainStore, hsib, Option.toList_none, List.append_nil, List.append_assoc]

/-- With a SIB byte the tail is one byte longer and begins with the opcode and
the ModRM byte that announces it. -/
theorem tail_of_sib_some {s : UInt8} (hsib : encoding.sib = some s) :
    ∃ rest, encoding.tail = [0xC6, 0x84] ++ rest ∧ rest.length = 6 := by
  have hword : (Codec.u32.encode encoding.displacement.toUInt32).length = 4 :=
    Codec.u32.length_encode _
  refine ⟨s :: (Codec.u32.encode encoding.displacement.toUInt32 ++ [encoding.value]), ?_, ?_⟩
  · simp only [tail, hsib, modrm_of_sib_some hsib, Option.toList_some,
      List.cons_append, List.nil_append]
  · simp only [List.length_cons, List.length_append, hword, List.length_nil]

end StoreEncoding

/-- A store of the on value to the flag, in any encoding with a 32-bit
displacement, stands at an address of the code. -/
structure OnStore (flip : FlipMetering) (memory : Memory) (code : Span)
    (encoding : StoreEncoding) (address : ℕ) : Prop where
  stands : encoding.StandsAt memory code address
  to_flag : encoding.displacement = flip.flagOffset
  of_onValue : encoding.value = onValue flip.offValue

/-- A store is among the rewrites exactly when it has no SIB byte. -/
theorem store_rewritten_iff {hde : Hde64} {scanner : Scanner} {memory : Memory} {forced : Int32}
    {image code : Span} {flip : FlipMetering}
    (hflip : analyzeFlipMetering hde scanner memory forced image code = .ok flip)
    {encoding : StoreEncoding} {address : ℕ}
    (hstore : OnStore flip memory code encoding address) :
    ⟨encoding.immediateAddress address, [flip.offValue]⟩ ∈ flip.rewrites ↔
      encoding.sib = none := by
  obtain ⟨registerRewrites, hlong, hrewrites⟩ := analyzeFlipMetering_rewrites hflip
  obtain ⟨hstands, hflag, hon⟩ := hstore
  have htail := hstands.tail_stands
  have hlength : encoding.bytes.length = encoding.lead.length + encoding.tail.length :=
    List.length_append
  obtain ⟨hnull, hstart, hend, _⟩ := hstands
  rw [hrewrites, List.mem_append, mem_storeRewrites]
  constructor
  · rintro (⟨store, modrm, hmodrm, hplain, _, _, _, hbytes, hsame⟩ | hregister)
    · cases hsib : encoding.sib with
      | none => rfl
      | some s =>
        exfalso
        obtain ⟨rest, hrest, hsix⟩ := StoreEncoding.tail_of_sib_some hsib
        have himmediate := congrArg Rewrite.address hsame
        have height : encoding.tail.length = 8 := by
          rw [hrest, List.length_append, hsix]
          rfl
        -- such a match would begin at the ModRM byte, which is not its opcode
        have hmatch : store = address + encoding.lead.length + 1 := by
          simp only [StoreEncoding.immediateAddress] at himmediate
          omega
        have hopcode := (streamAt_plainStore hbytes).1
        rw [hrest] at htail
        have hbegin := (Memory.bytes_append htail).1
        have hsecond : memory.byte (address + encoding.lead.length + 1) = 0x84 := by
          have hpair : memory.bytes (address + encoding.lead.length) 2 =
              [memory.byte (address + encoding.lead.length),
                memory.byte (address + encoding.lead.length + 1)] := rfl
          rw [List.length_cons, List.length_singleton, hpair] at hbegin
          simp only [List.cons.injEq, and_true] at hbegin
          exact hbegin.2
        rw [streamAt, Nat.add_zero, hmatch, hsecond] at hopcode
        exact absurd hopcode (by decide)
    · have hseven := hlong _ hregister
      simp at hseven
  · intro hsib
    obtain ⟨hmodrm, hplain⟩ := StoreEncoding.modrm_of_sib_none hsib
    rw [StoreEncoding.tail_of_sib_none hsib, length_plainStore, hflag, hon] at htail
    have hseven : encoding.tail.length = 7 := by
      rw [StoreEncoding.tail_of_sib_none hsib, length_plainStore]
    left
    refine ⟨address + encoding.lead.length, encoding.modrm, hmodrm, hplain, by omega, by omega,
      by omega, htail, ?_⟩
    have himmediate : encoding.immediateAddress address = address + encoding.lead.length + 6 := by
      simp only [StoreEncoding.immediateAddress]
      omega
    rw [himmediate]

/-- Every store of the on value to the flag has its immediate rewritten exactly
when none of them is encoded with a SIB byte. -/
theorem missesNoStore_iff {hde : Hde64} {scanner : Scanner} {memory : Memory} {forced : Int32}
    {image code : Span} {flip : FlipMetering}
    (hflip : analyzeFlipMetering hde scanner memory forced image code = .ok flip) :
    (∀ encoding address, OnStore flip memory code encoding address →
      ⟨encoding.immediateAddress address, [flip.offValue]⟩ ∈ flip.rewrites) ↔
      ∀ encoding address, OnStore flip memory code encoding address → encoding.sib = none := by
  constructor
  · intro hall encoding address hstore
    exact (store_rewritten_iff hflip hstore).mp (hall encoding address hstore)
  · intro hnone encoding address hstore
    exact (store_rewritten_iff hflip hstore).mpr (hnone encoding address hstore)

/-- A plugin that clears its flag behind the marker's reference, and sets it
once through r12 and once through rbx. -/
def r12Plugin : Memory :=
  Memory.write { byte := fun _ => 0x90, readable := fun _ => true } 0x1000
    ([0x48, 0x8D, 0x0D, 0x1D, 0x00, 0x00, 0x00] ++               -- lea rcx, marker
      [0xE8, 0x00, 0x00, 0x00, 0x00] ++                           -- call
      [0xC6, 0x83, 0xBC, 0x38, 0x00, 0x00, 0x00] ++               -- mov byte ptr [rbx+38BCh], 0
      [0x41, 0xC6, 0x84, 0x24, 0xBC, 0x38, 0x00, 0x00, 0x01] ++   -- mov byte ptr [r12+38BCh], 1
      [0xC6, 0x83, 0xBC, 0x38, 0x00, 0x00, 0x01] ++               -- mov byte ptr [rbx+38BCh], 1
      [0xC3] ++ flipMeteringMarker)

def r12Image : Span := ⟨0x1000, 61⟩

def r12Code : Span := ⟨0x1000, 36⟩

/-- What the analysis makes of that plugin. -/
def r12Flip : FlipMetering := ⟨0x38BC, 0, [⟨0x1022, [0]⟩], .absent⟩

theorem r12Flip_found :
    analyzeFlipMetering Hde64.part Scanner.exhaustive r12Plugin (-1) r12Image r12Code =
      .ok r12Flip := by
  decide +kernel

/-- The store through r12. -/
def r12Store : StoreEncoding where
  prefixes := []
  rex := some 0x41
  base := 12
  sib := some 0x24
  displacement := 0x38BC
  value := 1
  prefixes_legacy := by
    intro p hp
    cases hp
  rex_range := by
    rintro r ⟨⟩
    decide
  base_lt := by decide
  base_ne_rsp := by decide
  rex_base := by decide
  base_of_no_sib := by
    intro h
    cases h
  sib_indexless := by
    rintro s ⟨⟩
    decide

/-- The analysis finds the flag, and the store through r12 is not rewritten. -/
theorem r12Store_missed :
    analyzeFlipMetering Hde64.part Scanner.exhaustive r12Plugin (-1) r12Image r12Code =
        .ok r12Flip ∧
      OnStore r12Flip r12Plugin r12Code r12Store 0x1013 ∧
      ⟨r12Store.immediateAddress 0x1013, [r12Flip.offValue]⟩ ∉ r12Flip.rewrites := by
  have hstands : r12Store.StandsAt r12Plugin r12Code 0x1013 :=
    ⟨by decide, by decide, by decide +kernel, by decide +kernel⟩
  exact ⟨r12Flip_found, ⟨hstands, rfl, rfl⟩, by decide +kernel⟩

theorem missesNoStore_r12 :
    (∀ encoding address, OnStore r12Flip r12Plugin r12Code encoding address →
      ⟨encoding.immediateAddress address, [r12Flip.offValue]⟩ ∈ r12Flip.rewrites) ↔
      ∀ encoding address, OnStore r12Flip r12Plugin r12Code encoding address →
        encoding.sib = none :=
  missesNoStore_iff r12Flip_found

end OpenDlssg.PluginAnalysis
