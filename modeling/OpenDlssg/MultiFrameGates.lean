import OpenDlssg.PatternScan
import OpenDlssg.X86Decode

/-!
# The multi-frame gates of the runtime

A comparison against Blackwell's id is a gate when the instruction behind it
reads it as an ordering and no other parameter is published from it. The gates
that are moved are characterised by the bytes of the comparison, its reader
and the name loaded behind it. The flags of a comparison live on past that
reader, so an equality test further down the same path can read them too.
-/

namespace OpenDlssg.MultiFrameGates

open ByteCodec ProcessMemory PatternScan X86Decode

/-- The builds checked carry two to four comparisons. -/
def maxGates : ℕ := 4

def nvApiAda : UInt32 := 0x190

def nvApiBlackwell : UInt32 := 0x1B0

/-- What the names of published parameters begin with. -/
def parameterPrefix : Bytes := ascii "DLSSG."

def multiFrameParameter : Bytes := ascii "DLSSG.MultiFrameCountMax"

def maxParameterLength : ℕ := 64

/-- How far past a comparison its result is published. -/
def instructionsToPublication : ℕ := 8

/-- A comparison against Blackwell's id, classified. -/
structure Gate where
  /-- Address of the immediate compared against. -/
  immediate : ℕ
  /-- The parameter it feeds, empty when none is found. -/
  publishes : Bytes
  /-- How its result is read. -/
  condition : Condition
  /-- Whether it is rewritten. -/
  unlock : Bool
  deriving DecidableEq

/-- An encoding of the comparison and where its immediate is. -/
structure Encoding where
  pattern : Signature
  immediate : ℕ

/-- `cmp eax, imm32` -/
def eaxEncoding : Encoding := ⟨literal (0x3D :: Codec.u32.encode nvApiBlackwell), 1⟩

/-- `cmp r32, imm32`, also behind a REX prefix. -/
def regEncoding : Encoding :=
  ⟨literal [0x81] ++ [⟨0xF8, 0xF8⟩] ++ literal (Codec.u32.encode nvApiBlackwell), 2⟩

/-- The source's `Encodings`. -/
def encodings : List Encoding := [eaxEncoding, regEncoding]

section Analysis

variable (hde : Hde64) (scanner : Scanner) (memory : Memory)

/-- The text at an address, when it lies inside the image and names a published
parameter. -/
def parameterAt (image : Span) (address : ℕ) : Bytes :=
  if address < image.data ∨ image.data + image.size ≤ address then []
  else
    let available := image.data + image.size - address
    match memory.safeCopy address (min available (maxParameterLength - 1)) with
    | none => []
    | some text =>
      let name := text.takeWhile (· ≠ 0)
      if parameterPrefix.isPrefixOf name then name else []

/-- The published parameter whose name one of the next instructions loads. -/
def publishedParameterFrom (image : Span) : ℕ → ℕ → Bytes
  | 0, _ => []
  | fuel + 1, cursor =>
    match decode hde memory cursor with
    | none => []
    | some instruction =>
      let name := ((ripRelativeOperand hde memory instruction).map
        (parameterAt memory image)).getD []
      if name ≠ [] then name else publishedParameterFrom image fuel instruction.next

/-- The source's `PublishedParameter`. -/
def publishedParameter (image : Span) (compare : ℕ) : Bytes :=
  publishedParameterFrom hde memory image instructionsToPublication compare

/-- The gate at a match, when decoding there reads a comparison of the expected
length. -/
def gateAt (image : Span) (immediate address : ℕ) : Option Gate :=
  match decode hde memory address with
  | none => none
  | some compare =>
    if compare.length ≠ immediate + 4 then none
    else
      let condition :=
        match decode hde memory compare.next with
        | none => .notConditional
        | some consumer => conditionTested hde memory consumer
      let publishes := publishedParameter hde memory image compare.next
      some
        { immediate := address + immediate
          publishes := publishes
          condition := condition
          unlock := condition == .ordering &&
            (publishes.isEmpty || publishes == multiFrameParameter) }

/-- The gates of one encoding. -/
def gatesOf (image code : Span) (encoding : Encoding) : List Gate :=
  ((scanner.findAllPattern (memory.view code) encoding.pattern).map (code.data + ·)).filterMap
    (gateAt hde memory image encoding.immediate)

/-- The source's `FindMultiFrameGates`. -/
def findMultiFrameGates (image code : Span) : List Gate :=
  encodings.flatMap (gatesOf hde scanner memory image code)

/-- The words the source's `UnlockMultiFrame` writes, and where: Ada's id over
each gate that is moved, or nothing when the build does not look as expected. -/
def unlockWrites (gates : List Gate) : List (ℕ × UInt32) :=
  if gates.countP (·.unlock) = 0 ∨ maxGates < gates.length then []
  else (gates.filter (·.unlock)).map fun gate => (gate.immediate, nvApiAda)

end Analysis

/-! ### The comparisons that are moved -/

/-- The bytes of a comparison against Blackwell's id stand at an address of the
code; `next` is the address behind them. -/
inductive Compares (memory : Memory) (code : Span) (address : ℕ) : ℕ → Prop
  | eax (hnull : address ≠ 0) (hstart : code.data ≤ address)
      (hend : address + 5 ≤ code.data + code.size)
      (hbytes : memory.bytes address 5 = 0x3D :: Codec.u32.encode nvApiBlackwell) :
      Compares memory code address (address + 5)
  | reg (modrm : UInt8) (hmodrm : modrm &&& 0xF8 = 0xF8) (hnull : address ≠ 0)
      (hstart : code.data ≤ address) (hend : address + 6 ≤ code.data + code.size)
      (hbytes : memory.bytes address 6 = [0x81, modrm] ++ Codec.u32.encode nvApiBlackwell) :
      Compares memory code address (address + 6)

/-- The instruction at an address reads the flags as an ordering, and nothing
but the multi-frame count is published from there. -/
structure ReadAsFloor (hde : Hde64) (memory : Memory) (image : Span) (next : ℕ)
    (reader : Instruction) : Prop where
  reader_decoded : decode hde memory next = some reader
  ordering : conditionTested hde memory reader = .ordering
  publishes : publishedParameter hde memory image next = [] ∨
    publishedParameter hde memory image next = multiFrameParameter

section Finder

variable {hde : Hde64} {scanner : Scanner} {memory : Memory} {image code : Span}

/-- What a decoded comparison is classified as. -/
theorem gateAt_eq_some {immediate address : ℕ} {gate : Gate} :
    gateAt hde memory image immediate address = some gate ∧ gate.unlock = true ↔
      decode hde memory address = some ⟨address, immediate + 4⟩ ∧
        (∃ reader, ReadAsFloor hde memory image (address + (immediate + 4)) reader) ∧
        gate =
          { immediate := address + immediate
            publishes := publishedParameter hde memory image (address + (immediate + 4))
            condition := .ordering
            unlock := true } := by
  unfold gateAt
  constructor
  · rintro ⟨h, hunlock⟩
    split at h
    · cases h
    · rename_i compare hcompare
      split at h
      · cases h
      · rename_i hlength
        obtain ⟨fields, _, rfl⟩ := decode_eq_some.mp hcompare
        have hsize : fields.len = immediate + 4 := not_not.mp hlength
        rw [hsize] at hcompare h
        simp only [Instruction.next] at h
        cases h
        simp only [Bool.and_eq_true, Bool.or_eq_true, beq_iff_eq, List.isEmpty_iff] at hunlock
        obtain ⟨hordering, hpublishes⟩ := hunlock
        split at hordering
        · cases hordering
        · rename_i reader hreader
          refine ⟨hcompare, ⟨reader, hreader, hordering, hpublishes⟩, ?_⟩
          simp only [hordering, Gate.mk.injEq, true_and, Bool.and_eq_true,
            Bool.or_eq_true, beq_iff_eq, List.isEmpty_iff, beq_self_eq_true]
          exact hpublishes
  · rintro ⟨hcompare, ⟨reader, hreader, hordering, hpublishes⟩, rfl⟩
    refine ⟨?_, rfl⟩
    have hunlock : (publishedParameter hde memory image (address + (immediate + 4))).isEmpty ||
        publishedParameter hde memory image (address + (immediate + 4)) == multiFrameParameter := by
      simpa only [Bool.or_eq_true, beq_iff_eq, List.isEmpty_iff] using hpublishes
    simp only [hcompare, ne_eq, not_true, if_false, Instruction.next, hreader, hordering, hunlock,
      beq_self_eq_true, Bool.true_and]

/-- The stream at some bytes begins with the first of them. -/
theorem streamAt_zero {address n : ℕ} {first : UInt8} {rest : Bytes}
    (h : memory.bytes address (n + 1) = first :: rest) : streamAt memory address 0 = first := by
  have hhead := congrArg List.head? h
  rw [Memory.bytes, List.range_succ_eq_map] at hhead
  simpa [streamAt] using hhead

/-- The stream at some bytes goes on with the second of them. -/
theorem streamAt_one {address n : ℕ} {first second : UInt8} {rest : Bytes}
    (h : memory.bytes address (n + 2) = first :: second :: rest) :
    streamAt memory address 1 = second := by
  have hdrop := congrArg (List.drop 1) h
  rw [Memory.drop_bytes] at hdrop
  exact streamAt_zero hdrop

/-- The disassembler reads each comparison whole. -/
theorem Compares.decoded (hde : Hde64) {address next : ℕ} (h : Compares memory code address next) :
    decode hde memory address = some ⟨address, next - address⟩ := by
  cases h with
  | eax hnull _ _ hbytes =>
    obtain ⟨hlen, herror⟩ := hde.cmp_eax _ (streamAt_zero hbytes)
    have hfields := decoded_eq_some.mpr ⟨hnull, by omega, herror, rfl⟩
    refine decode_eq_some.mpr ⟨_, hfields, ?_⟩
    rw [hlen, Nat.add_sub_cancel_left]
  | reg modrm hmodrm hnull _ _ hbytes =>
    have hsecond := streamAt_one hbytes
    obtain ⟨hlen, herror⟩ := hde.cmp_reg _ (streamAt_zero hbytes) (by rw [hsecond]; exact hmodrm)
    have hfields := decoded_eq_some.mpr ⟨hnull, by omega, herror, rfl⟩
    refine decode_eq_some.mpr ⟨_, hfields, ?_⟩
    rw [hlen, Nat.add_sub_cancel_left]

/-- Where the scan for `cmp eax, imm32` stops. -/
theorem mem_eaxMatches {address : ℕ} :
    address ∈ (allMatches eaxEncoding.pattern (memory.view code)).map (code.data + ·) ↔
      code.data ≤ address ∧ address + 5 ≤ code.data + code.size ∧
        memory.bytes address 5 = 0x3D :: Codec.u32.encode nvApiBlackwell :=
  mem_spanMatches_literal (by decide)

/-- Where the scan for `cmp r32, imm32` stops. -/
theorem mem_regMatches {address : ℕ} :
    address ∈ (allMatches regEncoding.pattern (memory.view code)).map (code.data + ·) ↔
      code.data ≤ address ∧ address + 6 ≤ code.data + code.size ∧
        ∃ modrm, modrm &&& 0xF8 = 0xF8 ∧
          memory.bytes address 6 = [0x81, modrm] ++ Codec.u32.encode nvApiBlackwell :=
  mem_spanMatches_masked

/-- A gate of one encoding, by where the comparison stands. -/
theorem mem_gatesOf {encoding : Encoding} (hpattern : encoding.pattern ≠ []) {gate : Gate} :
    gate ∈ gatesOf hde scanner memory image code encoding ↔
      ∃ address ∈ (allMatches encoding.pattern (memory.view code)).map (code.data + ·),
        gateAt hde memory image encoding.immediate address = some gate := by
  rw [gatesOf, scanner.findAllPattern_eq _ _ hpattern, List.mem_filterMap]

/-- A decoded instruction does not lie at the null address. -/
theorem ne_zero_of_decode {address : ℕ} {instruction : Instruction}
    (h : decode hde memory address = some instruction) : address ≠ 0 := by
  obtain ⟨_, hfields, _⟩ := decode_eq_some.mp h
  exact (decoded_eq_some.mp hfields).1

/-- The gates that are moved are the comparisons against Blackwell's id that
are read as a floor. -/
theorem exists_unlocked_iff (scanner : Scanner) {next : ℕ} :
    (∃ gate ∈ findMultiFrameGates hde scanner memory image code,
      gate.unlock = true ∧ gate.immediate + 4 = next) ↔
      ∃ address reader, Compares memory code address next ∧
        ReadAsFloor hde memory image next reader := by
  have heax : eaxEncoding.pattern ≠ [] := by decide
  have hreg : regEncoding.pattern ≠ [] := by decide
  constructor
  · rintro ⟨gate, hgate, hunlock, rfl⟩
    simp only [findMultiFrameGates, encodings, List.flatMap_cons, List.flatMap_nil,
      List.append_nil, List.mem_append, mem_gatesOf heax, mem_gatesOf hreg] at hgate
    rcases hgate with ⟨address, hmatch, hgate⟩ | ⟨address, hmatch, hgate⟩
    · obtain ⟨hcompare, ⟨reader, hreader⟩, rfl⟩ := gateAt_eq_some.mp ⟨hgate, hunlock⟩
      obtain ⟨hstart, hend, hbytes⟩ := mem_eaxMatches.mp hmatch
      exact ⟨address, reader, .eax (ne_zero_of_decode hcompare) hstart hend hbytes, hreader⟩
    · obtain ⟨hcompare, ⟨reader, hreader⟩, rfl⟩ := gateAt_eq_some.mp ⟨hgate, hunlock⟩
      obtain ⟨hstart, hend, modrm, hmodrm, hbytes⟩ := mem_regMatches.mp hmatch
      exact ⟨address, reader, .reg modrm hmodrm (ne_zero_of_decode hcompare) hstart hend hbytes,
        hreader⟩
  · rintro ⟨address, reader, hcompare, hreader⟩
    have hdecode := hcompare.decoded hde
    simp only [findMultiFrameGates, encodings, List.flatMap_cons, List.flatMap_nil,
      List.append_nil, List.mem_append, mem_gatesOf heax, mem_gatesOf hreg]
    cases hcompare with
    | eax hnull hstart hend hbytes =>
      rw [Nat.add_sub_cancel_left] at hdecode
      obtain ⟨hgate, hunlock⟩ := gateAt_eq_some.mpr ⟨hdecode, ⟨reader, hreader⟩, rfl⟩
      have hmatch := mem_eaxMatches.mpr ⟨hstart, hend, hbytes⟩
      exact ⟨_, .inl ⟨address, hmatch, hgate⟩, hunlock, rfl⟩
    | reg modrm hmodrm hnull hstart hend hbytes =>
      rw [Nat.add_sub_cancel_left] at hdecode
      obtain ⟨hgate, hunlock⟩ := gateAt_eq_some.mpr ⟨hdecode, ⟨reader, hreader⟩, rfl⟩
      have hmatch := mem_regMatches.mpr ⟨hstart, hend, modrm, hmodrm, hbytes⟩
      exact ⟨_, .inr ⟨address, hmatch, hgate⟩, hunlock, rfl⟩

end Finder

/-! ### Who else reads the flags -/

/-- Which instructions write the flags. A call counts as one that does: what it
runs is not the code behind it. -/
structure FlagUse (hde : Hde64) where
  writesFlags : ByteStream → Bool
  /-- Conditional jumps, sets and moves leave the flags as they are. -/
  readers_keep : ∀ b, (hde.disasm b).flags.error = false →
    conditionOf (hde.disasm b) ≠ .notConditional → writesFlags b = false

/-- An equality condition reads the flags an address is reached with, on the
fall-through path and before another instruction writes them. -/
inductive EqualityRead (hde : Hde64) (use : FlagUse hde) (memory : Memory) : ℕ → Prop
  | here {address : ℕ} {instruction : Instruction}
      (hdecode : decode hde memory address = some instruction)
      (hequality : conditionTested hde memory instruction = .equality) :
      EqualityRead hde use memory address
  | next {address : ℕ} {instruction : Instruction}
      (hdecode : decode hde memory address = some instruction)
      (hkeeps : use.writesFlags (streamAt memory address) = false)
      (hfalls : isReturnOrJump hde memory instruction = false)
      (hread : EqualityRead hde use memory instruction.next) :
      EqualityRead hde use memory address

/-- The opcodes a condition stands in. -/
theorem opcode_of_condition {fields : Hde64s} (h : conditionOf fields ≠ .notConditional) :
    within fields.opcode 0x70 0x7F = true ∨ fields.opcode = 0x0F := by
  by_contra hneither
  obtain ⟨hshort, hescape⟩ := not_or.mp hneither
  apply h
  simp only [conditionOf, if_neg hshort, if_pos hescape]

/-- A conditional instruction is neither a return nor an unconditional jump. -/
theorem isReturnOrJumpFields_of_condition {fields : Hde64s}
    (h : conditionOf fields ≠ .notConditional) : isReturnOrJumpFields fields = false := by
  have hclear : ∀ opcode : UInt8, within opcode 0x70 0x7F = true ∨ opcode = 0x0F →
      (opcode == 0xC3 || opcode == 0xC2 || (opcode == 0xE9 || opcode == 0xEB)) = false ∧
        (opcode == 0xFF) = false := by
    decide +kernel
  obtain ⟨hdirect, hindirect⟩ := hclear fields.opcode (opcode_of_condition h)
  simp only [isReturnOrJumpFields, hdirect, hindirect, Bool.false_and, Bool.or_false]

section Readers

variable {hde : Hde64} {use : FlagUse hde} {memory : Memory}

/-- Behind an ordering condition the same flags are still there to be read. -/
theorem equalityRead_after_ordering {address : ℕ} {reader : Instruction}
    (hdecode : decode hde memory address = some reader)
    (hordering : conditionTested hde memory reader = .ordering) :
    EqualityRead hde use memory address ↔ EqualityRead hde use memory reader.next := by
  constructor
  · intro hread
    cases hread with
    | here hsame hequality =>
      rw [hdecode, Option.some.injEq] at hsame
      rw [← hsame, hordering] at hequality
      cases hequality
    | next hsame _ _ hread =>
      rw [hdecode, Option.some.injEq] at hsame
      rwa [hsame]
  · intro hread
    obtain ⟨fields, hfields, rfl⟩ := decode_eq_some.mp hdecode
    obtain ⟨_, _, herror, hstream⟩ := decoded_eq_some.mp hfields
    have hcondition : conditionOf fields ≠ .notConditional := by
      simp only [conditionTested, hfields] at hordering
      rw [hordering]
      decide
    have hkeeps : use.writesFlags (streamAt memory address) = false :=
      use.readers_keep _ (by rw [hstream]; exact herror) (by rw [hstream]; exact hcondition)
    have hfalls : isReturnOrJump hde memory ⟨address, fields.len⟩ = false := by
      simp only [isReturnOrJump, hfields]
      exact isReturnOrJumpFields_of_condition hcondition
    exact .next hdecode hkeeps hfalls hread

/-- No gate that is moved has its flags read for equality exactly when no
comparison read as a floor is followed, behind that reader, by an equality
condition on the same flags. -/
theorem onlyPureFloors_iff (use : FlagUse hde) (scanner : Scanner) (memory : Memory)
    (image code : Span) :
    (∀ gate ∈ findMultiFrameGates hde scanner memory image code,
      gate.unlock = true → ¬EqualityRead hde use memory (gate.immediate + 4)) ↔
      ∀ address next reader, Compares memory code address next →
        ReadAsFloor hde memory image next reader → ¬EqualityRead hde use memory reader.next := by
  constructor
  · intro hgates address next reader hcompare hreader hread
    obtain ⟨gate, hgate, hunlock, hnext⟩ :=
      (exists_unlocked_iff scanner).mpr ⟨address, reader, hcompare, hreader⟩
    apply hgates gate hgate hunlock
    rw [hnext]
    exact (equalityRead_after_ordering hreader.reader_decoded hreader.ordering).mpr hread
  · intro hfloors gate hgate hunlock hread
    obtain ⟨address, reader, hcompare, hreader⟩ :=
      (exists_unlocked_iff scanner).mp ⟨gate, hgate, hunlock, rfl⟩
    apply hfloors address _ reader hcompare hreader
    exact (equalityRead_after_ordering hreader.reader_decoded hreader.ordering).mp hread

end Readers

/-- The instructions of the decoder's part that write the flags. -/
def FlagUse.part : FlagUse Hde64.part where
  writesFlags b := (disasmPart b).opcode ∈ [0x3D, 0x81, 0x85, 0xE8, 0xFF]
  readers_keep b _ hcondition := by
    have hopcode : within (disasmPart b).opcode 0x70 0x7F = true ∨
        (disasmPart b).opcode = 0x0F := opcode_of_condition hcondition
    generalize (disasmPart b).opcode = opcode at hopcode
    revert opcode
    decide +kernel

/-- A three-way test against Blackwell's id: `cmp`, `jg`, `je`. -/
def threeWayRuntime : Memory :=
  Memory.write { byte := fun _ => 0x90, readable := fun _ => true } 0x1000
    [0x3D, 0xB0, 0x01, 0x00, 0x00, 0x7F, 0x02, 0x74, 0x05, 0xC3]

def threeWaySpan : Span := ⟨0x1000, 32⟩

/-- Its comparison is moved, although `je` reads the same flags. -/
theorem threeWay_moved :
    (∃ gate ∈ findMultiFrameGates Hde64.part Scanner.exhaustive threeWayRuntime threeWaySpan
        threeWaySpan,
      gate.unlock = true ∧
        EqualityRead Hde64.part FlagUse.part threeWayRuntime (gate.immediate + 4)) ∧
      unlockWrites (findMultiFrameGates Hde64.part Scanner.exhaustive threeWayRuntime threeWaySpan
        threeWaySpan) = [(0x1001, nvApiAda)] := by
  have hgates : findMultiFrameGates Hde64.part Scanner.exhaustive threeWayRuntime threeWaySpan
      threeWaySpan = [⟨0x1001, [], .ordering, true⟩] := by
    decide +kernel
  have hgreater : decode Hde64.part threeWayRuntime 0x1005 = some ⟨0x1005, 2⟩ := by
    decide +kernel
  have hequal : decode Hde64.part threeWayRuntime 0x1007 = some ⟨0x1007, 2⟩ := by
    decide +kernel
  have hread : EqualityRead Hde64.part FlagUse.part threeWayRuntime 0x1005 :=
    .next hgreater (by decide +kernel) (by decide +kernel) (.here hequal (by decide +kernel))
  rw [hgates]
  exact ⟨⟨_, List.mem_singleton_self _, rfl, hread⟩, by decide +kernel⟩

end OpenDlssg.MultiFrameGates
