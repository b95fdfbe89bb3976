import OpenDlssg.ProcessMemory

/-!
# Single x86-64 instructions

What an instruction does, read off the fields a length disassembler reports
for the bytes at an address. The disassembler is a parameter: it stands for
HDE64, with the encodings the Intel manual gives for the instructions the
analyses look for. A decoder for a small part of the instruction set satisfies
the same encodings and lets every definition here be evaluated.
-/

namespace OpenDlssg.X86Decode

open ByteCodec ProcessMemory

/-- The bytes from an address on. -/
abbrev ByteStream := ℕ → UInt8

/-- The bytes of memory from an address on. -/
def streamAt (memory : Memory) (address : ℕ) : ByteStream := fun i => memory.byte (address + i)

/-- The little-endian 32-bit word at a position of a stream. -/
def dword (b : ByteStream) (i : ℕ) : UInt32 :=
  Codec.u32.decode [b i, b (i + 1), b (i + 2), b (i + 3)]

/-- The flags the disassembler reports, `F_MODRM` and its siblings. -/
structure Flags where
  /-- `F_MODRM` -/
  modrm : Bool := false
  /-- `F_SIB` -/
  sib : Bool := false
  /-- `F_IMM8` -/
  imm8 : Bool := false
  /-- `F_DISP8` -/
  disp8 : Bool := false
  /-- `F_DISP32` -/
  disp32 : Bool := false
  /-- `F_ERROR` -/
  error : Bool := false
  /-- `F_PREFIX_ANY & ~F_PREFIX_REX` -/
  prefixesOtherThanRex : Bool := false
  deriving DecidableEq

/-- The decoded fields of one instruction, the disassembler's `hde64s`. -/
structure Hde64s where
  len : ℕ := 0
  flags : Flags := {}
  opcode : UInt8 := 0
  opcode2 : UInt8 := 0
  modrm : UInt8 := 0
  rexX : Bool := false
  rexB : Bool := false
  disp8 : UInt8 := 0
  disp32 : UInt32 := 0
  imm8 : UInt8 := 0
  deriving DecidableEq

/-- ModRM `mod`. -/
def Hde64s.modrmMod (decoded : Hde64s) : UInt8 := decoded.modrm >>> 6

/-- ModRM `reg`. -/
def Hde64s.modrmReg (decoded : Hde64s) : UInt8 := (decoded.modrm >>> 3) &&& 7

/-- ModRM `rm`. -/
def Hde64s.modrmRm (decoded : Hde64s) : UInt8 := decoded.modrm &&& 7

/-- `mov byte ptr [base + disp32], imm8` without prefixes or SIB byte, as it
is decoded. -/
def movByteDisp32 (modrm : UInt8) (displacement : UInt32) (value : UInt8) : Hde64s where
  len := 7
  flags := { modrm := true, disp32 := true, imm8 := true }
  opcode := 0xC6
  modrm := modrm
  disp32 := displacement
  imm8 := value

/-- A disassembler, with the Intel manual's encodings of the instructions that
decide what the analyses find. -/
structure Hde64 where
  /-- The source's `hde64_disasm`. -/
  disasm : ByteStream → Hde64s
  /-- `C6 /0` with a 32-bit displacement and a base register named by ModRM. -/
  mov_disp32 : ∀ b, b 0 = 0xC6 → b 1 &&& 0xF8 = 0x80 → b 1 ≠ 0x84 →
    disasm b = movByteDisp32 (b 1) (dword b 2) (b 6)
  /-- ModRM `rm` 100 is followed by a SIB byte. -/
  mov_sib : ∀ b, b 0 = 0xC6 → b 1 = 0x84 → (disasm b).flags.sib = true
  /-- `cmp eax, imm32` -/
  cmp_eax : ∀ b, b 0 = 0x3D → (disasm b).len = 5 ∧ (disasm b).flags.error = false
  /-- `cmp r32, imm32` -/
  cmp_reg : ∀ b, b 0 = 0x81 → b 1 &&& 0xF8 = 0xF8 →
    (disasm b).len = 6 ∧ (disasm b).flags.error = false

/-- An instruction at an address. -/
structure Instruction where
  address : ℕ
  length : ℕ
  deriving DecidableEq

/-- The address behind the instruction. -/
def Instruction.next (instruction : Instruction) : ℕ := instruction.address + instruction.length

/-- `mov byte ptr [base + displacement], value` -/
structure ByteStore where
  /-- The register holding the object, 0 (rax) to 15 (r15). -/
  base : UInt8
  displacement : Int32
  value : UInt8
  deriving DecidableEq

/-- A byte field of an object held in a register. -/
structure ByteField where
  base : UInt8
  displacement : Int32
  deriving DecidableEq

/-- What a conditional instruction asks of the flags. -/
inductive Condition
  | notConditional
  /-- below, above, less, greater, and their negations -/
  | ordering
  /-- equal, not equal -/
  | equality
  /-- sign, overflow, parity -/
  | other
  deriving DecidableEq

/-- The address a displacement away, in a 64-bit address space. -/
def offsetAddress (address : ℕ) (displacement : Int32) : ℕ :=
  (((address : ℤ) + displacement.toInt) % 2 ^ 64).toNat

section Decoding

variable (hde : Hde64) (memory : Memory)

/-- The fields of the instruction at an address, unless the pointer is null or
the bytes are not an instruction. -/
def decoded (address : ℕ) : Option Hde64s :=
  if address = 0 then none
  else
    let fields := hde.disasm (streamAt memory address)
    if fields.len ≠ 0 ∧ fields.flags.error = false then some fields else none

/-- The source's `Decode`. -/
def decode (address : ℕ) : Option Instruction :=
  (decoded hde memory address).map fun fields => ⟨address, fields.len⟩

end Decoding

/-- The displacement of the memory operand. -/
def displacement (fields : Hde64s) : Int32 :=
  if fields.flags.disp32 then fields.disp32.toInt32
  else if fields.flags.disp8 then fields.disp8.toInt8.toInt32
  else 0

/-- The base register of a ModRM memory operand. -/
def baseRegister (fields : Hde64s) : UInt8 := fields.modrmRm + if fields.rexB then 8 else 0

/-- The source's `FromConditionCode`. -/
def fromConditionCode (code : UInt8) : Condition :=
  if code ∈ [0x2, 0x3, 0x6, 0x7, 0xC, 0xD, 0xE, 0xF] then .ordering
  else if code ∈ [0x4, 0x5] then .equality
  else .other

/-- The source's `Within`. -/
def within (value first last : UInt8) : Bool := first ≤ value && value ≤ last

/-- The condition the fields of an instruction carry: `jcc rel8` is one byte,
`cmovcc`, `jcc rel32` and `setcc` stand behind the 0F escape. -/
def conditionOf (fields : Hde64s) : Condition :=
  if within fields.opcode 0x70 0x7F then fromConditionCode (fields.opcode &&& 0x0F)
  else if fields.opcode ≠ 0x0F then .notConditional
  else if within fields.opcode2 0x40 0x4F || within fields.opcode2 0x80 0x8F ||
      within fields.opcode2 0x90 0x9F then
    fromConditionCode (fields.opcode2 &&& 0x0F)
  else .notConditional

/-- The constant byte store the fields describe. -/
def byteStoreOf (fields : Hde64s) : Option ByteStore :=
  let movByteImmediate :=
    fields.opcode == 0xC6 && fields.flags.modrm && fields.modrmReg == 0 && fields.flags.imm8
  let registerPlusDisplacement :=
    (fields.modrmMod == 1 || fields.modrmMod == 2) && !fields.flags.sib
  if movByteImmediate && registerPlusDisplacement then
    some ⟨baseRegister fields, displacement fields, fields.imm8⟩
  else none

/-- A register byte store to `[base + disp32]` with no SIB byte and no prefix
but REX. -/
def isPlainRegisterByteStore (fields : Hde64s) : Bool :=
  (fields.opcode == 0x88 && fields.flags.modrm) && (fields.modrmMod == 2 && !fields.flags.sib) &&
    !fields.flags.prefixesOtherThanRex

/-- The immediate form of a register byte store: the REX prefix keeps only the
bits of the memory operand. -/
def immediateByteStore (fields : Hde64s) (value : UInt8) : Bytes :=
  let memoryRex : UInt8 := (if fields.rexX then 0x02 else 0) ||| (if fields.rexB then 0x01 else 0)
  (if memoryRex ≠ 0 then [0x40 ||| memoryRex] else []) ++
    [0xC6, fields.modrm &&& ~~~0x38] ++ Codec.u32.encode fields.disp32 ++ [value]

/-- Whether the fields are those of `ret` or an unconditional `jmp`. -/
def isReturnOrJumpFields (fields : Hde64s) : Bool :=
  (fields.opcode == 0xC3 || fields.opcode == 0xC2) ||
    (fields.opcode == 0xE9 || fields.opcode == 0xEB) ||
    (fields.opcode == 0xFF && fields.flags.modrm && fields.modrmReg == 4)

section Instructions

variable (hde : Hde64) (memory : Memory)

/-- The source's `ConditionTested`. -/
def conditionTested (instruction : Instruction) : Condition :=
  match decoded hde memory instruction.address with
  | none => .notConditional
  | some fields => conditionOf fields

/-- The source's `AsByteStore`. -/
def asByteStore (instruction : Instruction) : Option ByteStore :=
  (decoded hde memory instruction.address).bind byteStoreOf

/-- The source's `AsRegisterByteStore`. -/
def asRegisterByteStore (instruction : Instruction) : Option ByteField :=
  match decoded hde memory instruction.address with
  | none => none
  | some fields =>
    if isPlainRegisterByteStore fields then some ⟨baseRegister fields, displacement fields⟩
    else none

/-- The source's `AsImmediateByteStore`. -/
def asImmediateByteStore (instruction : Instruction) (value : UInt8) : Option Bytes :=
  match decoded hde memory instruction.address with
  | none => none
  | some fields =>
    if isPlainRegisterByteStore fields then
      let encoded := immediateByteStore fields value
      if encoded.length ≠ instruction.length then none else some encoded
    else none

/-- The source's `RipRelativeOperand`. -/
def ripRelativeOperand (instruction : Instruction) : Option ℕ :=
  match decoded hde memory instruction.address with
  | none => none
  | some fields =>
    if fields.flags.modrm && fields.modrmMod == 0 && fields.modrmRm == 5 then
      some (offsetAddress instruction.next (displacement fields))
    else none

/-- The source's `IsReturnOrJump`. -/
def isReturnOrJump (instruction : Instruction) : Bool :=
  match decoded hde memory instruction.address with
  | none => false
  | some fields => isReturnOrJumpFields fields

end Instructions

variable {hde : Hde64} {memory : Memory}

/-- The fields at an address that is not null. -/
theorem decoded_eq_some {address : ℕ} {fields : Hde64s} :
    decoded hde memory address = some fields ↔ address ≠ 0 ∧ fields.len ≠ 0 ∧
      fields.flags.error = false ∧ hde.disasm (streamAt memory address) = fields := by
  unfold decoded
  by_cases hnull : address = 0
  · rw [if_pos hnull]
    constructor
    · intro h
      cases h
    · intro h
      exact absurd hnull h.1
  · rw [if_neg hnull]
    dsimp only
    split
    · rename_i hvalid
      rw [Option.some.injEq]
      constructor
      · rintro rfl
        exact ⟨hnull, hvalid.1, hvalid.2, rfl⟩
      · intro h
        exact h.2.2.2
    · rename_i hinvalid
      constructor
      · intro h
        cases h
      · rintro ⟨_, hlen, herror, rfl⟩
        exact absurd ⟨hlen, herror⟩ hinvalid

/-- An instruction lies where it was decoded. -/
theorem decode_eq_some {address : ℕ} {instruction : Instruction} :
    decode hde memory address = some instruction ↔
      ∃ fields, decoded hde memory address = some fields ∧
        instruction = ⟨address, fields.len⟩ := by
  unfold decode
  rw [Option.map_eq_some_iff]
  constructor
  · rintro ⟨fields, hfields, heq⟩
    exact ⟨fields, hfields, heq.symm⟩
  · rintro ⟨fields, hfields, heq⟩
    exact ⟨fields, hfields, heq.symm⟩

/-- A constant byte store is a `mov` without SIB byte. -/
theorem shape_of_byteStoreOf {fields : Hde64s} {store : ByteStore}
    (h : byteStoreOf fields = some store) : fields.opcode = 0xC6 ∧ fields.flags.sib = false := by
  unfold byteStoreOf at h
  dsimp only at h
  split at h
  · rename_i hshape
    simp only [Bool.and_eq_true, Bool.not_eq_true', beq_iff_eq] at hshape
    exact ⟨hshape.1.1.1.1, hshape.2.2⟩
  · cases h

/-- What a constant byte store with a 32-bit displacement is read as. -/
theorem byteStoreOf_movByteDisp32 {modrm value : UInt8} {word : UInt32}
    (hmodrm : modrm &&& 0xF8 = 0x80) :
    byteStoreOf (movByteDisp32 modrm word value) = some ⟨modrm &&& 7, word.toInt32, value⟩ := by
  have hmod : modrm >>> 6 = 2 := by
    revert modrm
    decide +kernel
  have hreg : (modrm >>> 3) &&& 7 = 0 := by
    revert modrm
    decide +kernel
  simp [byteStoreOf, movByteDisp32, Hde64s.modrmMod, Hde64s.modrmReg, Hde64s.modrmRm, baseRegister,
    displacement, hmod, hreg]

/-- The immediate form is at least seven bytes long. -/
theorem length_immediateByteStore (fields : Hde64s) (value : UInt8) :
    7 ≤ (immediateByteStore fields value).length := by
  have hword : (Codec.u32.encode fields.disp32).length = 4 := Codec.u32.length_encode _
  simp only [immediateByteStore, List.length_append, List.length_cons, List.length_nil, hword]
  omega

/-- An instruction is only replaced by one at least seven bytes long. -/
theorem length_asImmediateByteStore {instruction : Instruction} {value : UInt8} {bs : Bytes}
    (h : asImmediateByteStore hde memory instruction value = some bs) : 7 ≤ bs.length := by
  unfold asImmediateByteStore at h
  split at h
  · cases h
  · rename_i fields _
    split at h
    · dsimp only at h
      split at h
      · cases h
      · have hsame := Option.some.inj h
        have hlong := length_immediateByteStore fields value
        rwa [hsame] at hlong
    · cases h

/-! ### A decoder for part of the instruction set -/

/-- Whether an opcode is followed by a ModRM byte, and the bytes of its
immediate. -/
def operandLayout (opcode opcode2 : UInt8) : Option (Bool × ℕ) :=
  if opcode = 0x0F then
    if within opcode2 0x40 0x4F || within opcode2 0x90 0x9F then some (true, 0)
    else if within opcode2 0x80 0x8F then some (false, 4)
    else none
  else if within opcode 0x70 0x7F || opcode = 0xEB then some (false, 1)
  else if opcode ∈ [0x3D, 0xE8, 0xE9] then some (false, 4)
  else if opcode ∈ [0x90, 0xC3] then some (false, 0)
  else if opcode ∈ [0x85, 0x88, 0x89, 0x8B, 0x8D, 0xFF] then some (true, 0)
  else if opcode = 0x81 then some (true, 4)
  else if opcode = 0xC6 then some (true, 1)
  else none

/-- Whether a memory operand has a SIB byte. -/
def hasSib (modrm : UInt8) : Bool := modrm >>> 6 != 3 && modrm &&& 7 == 4

/-- The bytes of a memory operand's displacement. -/
def displacementSize (modrm sib : UInt8) : ℕ :=
  if modrm >>> 6 = 1 then 1
  else if modrm >>> 6 = 2 then 4
  else if modrm >>> 6 = 0 ∧ (modrm &&& 7 = 5 ∨ (modrm &&& 7 = 4 ∧ sib &&& 7 = 5)) then 4
  else 0

/-- Decode the memory operand and the immediate behind an opcode that ends at
position `i`. -/
def disasmOperands (b : ByteStream) (start : Hde64s) (i : ℕ) : Bool × ℕ → Hde64s
  | (false, immediate) =>
    { start with len := i + immediate, imm8 := if immediate = 0 then 0 else b i }
  | (true, immediate) =>
    let modrm := b i
    let operand := i + 1 + (hasSib modrm).toNat
    let size := displacementSize modrm (b (i + 1))
    { start with
      len := operand + size + immediate
      modrm := modrm
      flags :=
        { modrm := true, sib := hasSib modrm, disp8 := size == 1, disp32 := size == 4,
          imm8 := immediate == 1 }
      disp8 := if size = 1 then b operand else 0
      disp32 := if size = 4 then dword b operand else 0
      imm8 := if immediate = 1 then b (operand + size) else 0 }

/-- Decode an instruction of the part, behind an optional REX prefix. -/
def disasmPart (b : ByteStream) : Hde64s :=
  let rexed := b 0 &&& 0xF0 == 0x40
  let i := rexed.toNat
  let start : Hde64s :=
    { opcode := b i
      opcode2 := if b i = 0x0F then b (i + 1) else 0
      rexX := rexed && b 0 &&& 2 == 2
      rexB := rexed && b 0 &&& 1 == 1 }
  match operandLayout start.opcode start.opcode2 with
  | none => { start with flags := { error := true } }
  | some layout => disasmOperands b start (if b i = 0x0F then i + 2 else i + 1) layout

/-- Without prefix or escape the operands follow the first byte. -/
theorem disasmPart_plain {b : ByteStream} {layout : Bool × ℕ} (hrex : b 0 &&& 0xF0 ≠ 0x40)
    (hescape : b 0 ≠ 0x0F) (hlayout : operandLayout (b 0) 0 = some layout) :
    disasmPart b = disasmOperands b { opcode := b 0 } 1 layout := by
  have hrexed : (b 0 &&& 0xF0 == 0x40) = false := by simpa using hrex
  unfold disasmPart
  simp only [hrexed, Bool.toNat_false, if_neg hescape, Bool.false_and, hlayout, Nat.zero_add]

/-- The decoder of the part agrees with the manual. -/
def Hde64.part : Hde64 where
  disasm := disasmPart
  mov_disp32 b hopcode hmodrm hsib := by
    have hmod : b 1 >>> 6 = 2 := by
      generalize b 1 = modrm at hmodrm
      revert modrm
      decide +kernel
    have hplain : hasSib (b 1) = false := by
      generalize b 1 = modrm at hmodrm hsib
      revert modrm
      decide +kernel
    have hlayout : operandLayout (b 0) 0 = some (true, 1) := by rw [hopcode]; rfl
    rw [disasmPart_plain (by rw [hopcode]; decide) (by rw [hopcode]; decide) hlayout]
    simp [disasmOperands, hplain, displacementSize, movByteDisp32, hopcode, hmod]
  mov_sib b hopcode hmodrm := by
    have hlayout : operandLayout (b 0) 0 = some (true, 1) := by rw [hopcode]; rfl
    rw [disasmPart_plain (by rw [hopcode]; decide) (by rw [hopcode]; decide) hlayout]
    simp only [disasmOperands, hmodrm]
    rfl
  cmp_eax b hopcode := by
    have hlayout : operandLayout (b 0) 0 = some (false, 4) := by rw [hopcode]; rfl
    rw [disasmPart_plain (by rw [hopcode]; decide) (by rw [hopcode]; decide) hlayout]
    exact ⟨rfl, rfl⟩
  cmp_reg b hopcode hmodrm := by
    have hmod : b 1 >>> 6 = 3 := by
      generalize b 1 = modrm at hmodrm
      revert modrm
      decide +kernel
    have hlayout : operandLayout (b 0) 0 = some (true, 4) := by rw [hopcode]; rfl
    rw [disasmPart_plain (by rw [hopcode]; decide) (by rw [hopcode]; decide) hlayout]
    simp [disasmOperands, hasSib, displacementSize, hmod]

end OpenDlssg.X86Decode
