import OpenDlssg.X86Decode

/-!
# How much a disassembler reads

Of the bytes at an address a disassembler reads the instruction they are, and of
bytes that are none it reads no more than an instruction can have. The decoder for
part of the instruction set is one of that kind.
-/

namespace OpenDlssg.DecoderExtent

open X86Decode

/-- How much of the bytes at an address a disassembler reads: something at least, 15 bytes at most
and of an instruction nothing but its own bytes, which are no more than 15 either. It depends on
nothing else. -/
structure Extent (hde : Hde64) where
  size : ByteStream → ℕ
  size_pos : ∀ b, 0 < size b
  size_le : ∀ b, size b ≤ 15
  len_le : ∀ b, (hde.disasm b).len ≤ 15
  size_le_len : ∀ b, (hde.disasm b).len ≠ 0 → (hde.disasm b).flags.error = false →
    size b ≤ (hde.disasm b).len
  same : ∀ b b', (∀ i < size b, b' i = b i) → hde.disasm b' = hde.disasm b ∧ size b' = size b

/-- Where the opcode ends, behind an optional REX prefix and the 0F escape. -/
def opcodeEnd (b : ByteStream) : ℕ :=
  if b (b 0 &&& 0xF0 == 0x40).toNat = 0x0F then (b 0 &&& 0xF0 == 0x40).toNat + 2
  else (b 0 &&& 0xF0 == 0x40).toNat + 1

/-- How much the decoder of the part reads: an instruction, or the opcode it does not know. -/
def partSize (b : ByteStream) : ℕ :=
  if (disasmPart b).flags.error then opcodeEnd b else (disasmPart b).len

/-- An opcode takes one to three bytes, its prefix included. -/
theorem opcodeEnd_le (b : ByteStream) : 0 < opcodeEnd b ∧ opcodeEnd b ≤ 3 := by
  have hrex : (b 0 &&& 0xF0 == 0x40).toNat ≤ 1 := Bool.toNat_le _
  unfold opcodeEnd
  split <;> omega

/-- No immediate of these opcodes is longer than four bytes. -/
theorem immediate_le {opcode opcode2 : UInt8} {layout : Bool × ℕ}
    (h : operandLayout opcode opcode2 = some layout) : layout.2 ≤ 4 := by
  unfold operandLayout at h
  split_ifs at h <;> cases h <;> decide

/-- Operands lie behind the opcode, ten bytes of them at most. -/
theorem len_disasmOperands (b : ByteStream) (start : Hde64s) (i : ℕ) (layout : Bool × ℕ) :
    i ≤ (disasmOperands b start i layout).len ∧
      (disasmOperands b start i layout).len ≤ i + 6 + layout.2 ∧
      (disasmOperands b start i layout).flags.error =
        (if layout.1 then false else start.flags.error) := by
  obtain ⟨operands, immediate⟩ := layout
  cases operands with
  | false => exact ⟨Nat.le_add_right _ _, by simp only [disasmOperands]; omega, rfl⟩
  | true =>
    have hsib : (hasSib (b i)).toNat ≤ 1 := Bool.toNat_le _
    have hsize : displacementSize (b i) (b (i + 1)) ≤ 4 := by
      unfold displacementSize
      split_ifs <;> omega
    simp only [disasmOperands]
    exact ⟨by omega, by omega, rfl⟩

/-- Only a SIB byte tells more about the displacement than ModRM does. -/
theorem displacementSize_eq {modrm : UInt8} (h : hasSib modrm = false) (first second : UInt8) :
    displacementSize modrm first = displacementSize modrm second := by
  unfold displacementSize
  by_cases hmod : modrm >>> 6 = 0
  · have hrm : modrm &&& 7 ≠ 4 := by
      intro hrm
      rw [hasSib, hmod, hrm] at h
      exact absurd h (by decide)
    simp [hmod, hrm]
  · simp [hmod]

/-- The operands of an instruction are read from its own bytes. -/
theorem disasmOperands_congr {b b' : ByteStream} {start : Hde64s} {i : ℕ} {layout : Bool × ℕ}
    (h : ∀ j < (disasmOperands b start i layout).len, b' j = b j) :
    disasmOperands b' start i layout = disasmOperands b start i layout := by
  obtain ⟨operands, immediate⟩ := layout
  cases operands with
  | false =>
    simp only [disasmOperands] at h ⊢
    by_cases himmediate : immediate = 0
    · simp [himmediate]
    · rw [h i (by omega)]
  | true =>
    simp only [disasmOperands] at h ⊢
    have hmodrm : b' i = b i := h i (by omega)
    have hsize : displacementSize (b i) (b' (i + 1)) = displacementSize (b i) (b (i + 1)) := by
      cases hsib : hasSib (b i) with
      | false => exact displacementSize_eq hsib _ _
      | true =>
        rw [hsib] at h
        rw [h (i + 1) (by simp only [Bool.toNat_true]; omega)]
    rw [hmodrm, hsize]
    generalize displacementSize (b i) (b (i + 1)) = size at h ⊢
    generalize i + 1 + (hasSib (b i)).toNat = operand at h ⊢
    have hdisp8 : (if size = 1 then b' operand else 0) = if size = 1 then b operand else 0 := by
      split_ifs
      · exact h operand (by omega)
      · rfl
    have hdisp32 : (if size = 4 then dword b' operand else 0) =
        if size = 4 then dword b operand else 0 := by
      split_ifs
      · rw [dword, dword, h operand (by omega), h (operand + 1) (by omega), h (operand + 2) (by omega),
          h (operand + 3) (by omega)]
      · rfl
    have himm8 : (if immediate = 1 then b' (operand + size) else 0) =
        if immediate = 1 then b (operand + size) else 0 := by
      split_ifs
      · exact h (operand + size) (by omega)
      · rfl
    rw [hdisp8, hdisp32, himm8]

/-- What the decoder of the part knows from the opcode: its prefix, its layout and where it ends. -/
def opcodeFields (b : ByteStream) : Hde64s where
  opcode := b (b 0 &&& 0xF0 == 0x40).toNat
  opcode2 := if b (b 0 &&& 0xF0 == 0x40).toNat = 0x0F then b ((b 0 &&& 0xF0 == 0x40).toNat + 1) else 0
  rexX := (b 0 &&& 0xF0 == 0x40) && b 0 &&& 2 == 2
  rexB := (b 0 &&& 0xF0 == 0x40) && b 0 &&& 1 == 1

/-- An opcode that has no layout is an error. -/
theorem disasmPart_none {b : ByteStream}
    (h : operandLayout (opcodeFields b).opcode (opcodeFields b).opcode2 = none) :
    disasmPart b = { opcodeFields b with flags := { error := true } } := by
  unfold disasmPart
  dsimp only [opcodeFields] at h ⊢
  rw [h]

/-- An opcode the part knows is decoded with its operands. -/
theorem disasmPart_some {b : ByteStream} {layout : Bool × ℕ}
    (h : operandLayout (opcodeFields b).opcode (opcodeFields b).opcode2 = some layout) :
    disasmPart b = disasmOperands b (opcodeFields b) (opcodeEnd b) layout := by
  unfold disasmPart
  dsimp only [opcodeFields] at h ⊢
  rw [h]
  rfl

/-- So much is read of it. -/
theorem partSize_some {b : ByteStream} {layout : Bool × ℕ}
    (h : operandLayout (opcodeFields b).opcode (opcodeFields b).opcode2 = some layout) :
    partSize b = (disasmOperands b (opcodeFields b) (opcodeEnd b) layout).len := by
  have herror := (len_disasmOperands b (opcodeFields b) (opcodeEnd b) layout).2.2
  unfold partSize
  rw [disasmPart_some h, herror, if_neg]
  split <;> exact Bool.false_ne_true

/-- Of an opcode the part does not know, no more is read. -/
theorem partSize_none {b : ByteStream}
    (h : operandLayout (opcodeFields b).opcode (opcodeFields b).opcode2 = none) :
    partSize b = opcodeEnd b := by
  unfold partSize
  rw [disasmPart_none h]
  rfl

/-- The opcode is read at any rate. -/
theorem opcodeEnd_le_partSize (b : ByteStream) : opcodeEnd b ≤ partSize b := by
  cases h : operandLayout (opcodeFields b).opcode (opcodeFields b).opcode2 with
  | none => exact (partSize_none h).ge
  | some layout =>
    rw [partSize_some h]
    exact (len_disasmOperands b (opcodeFields b) (opcodeEnd b) layout).1

/-- The opcode is read from its own bytes. -/
theorem opcode_congr {b b' : ByteStream} (h : ∀ j < opcodeEnd b, b' j = b j) :
    opcodeFields b' = opcodeFields b ∧ opcodeEnd b' = opcodeEnd b := by
  have hfirst : b' 0 = b 0 := h 0 (opcodeEnd_le b).1
  have hopcode : b' (b 0 &&& 0xF0 == 0x40).toNat = b (b 0 &&& 0xF0 == 0x40).toNat :=
    h _ (by unfold opcodeEnd; split <;> omega)
  unfold opcodeFields opcodeEnd
  rw [hfirst, hopcode]
  by_cases hescape : b (b 0 &&& 0xF0 == 0x40).toNat = 0x0F
  · have hsecond : b' ((b 0 &&& 0xF0 == 0x40).toNat + 1) = b ((b 0 &&& 0xF0 == 0x40).toNat + 1) :=
      h _ (by rw [opcodeEnd, if_pos hescape]; omega)
    rw [hsecond]
    exact ⟨rfl, rfl⟩
  · rw [if_neg hescape, if_neg hescape]
    exact ⟨rfl, rfl⟩

/-- The decoder of the part reads the instruction it decodes. -/
def partExtent : Extent Hde64.part where
  size := partSize
  size_pos b := (opcodeEnd_le b).1.trans_le (opcodeEnd_le_partSize b)
  size_le b := by
    have hopcode := opcodeEnd_le b
    cases h : operandLayout (opcodeFields b).opcode (opcodeFields b).opcode2 with
    | none =>
      rw [partSize_none h]
      omega
    | some layout =>
      have hlen := len_disasmOperands b (opcodeFields b) (opcodeEnd b) layout
      have himmediate := immediate_le h
      rw [partSize_some h]
      omega
  len_le b := by
    have hopcode := opcodeEnd_le b
    have hlen : (disasmPart b).len ≤ 15 := by
      cases h : operandLayout (opcodeFields b).opcode (opcodeFields b).opcode2 with
      | none =>
        rw [disasmPart_none h]
        exact Nat.zero_le _
      | some layout =>
        have hoperands := len_disasmOperands b (opcodeFields b) (opcodeEnd b) layout
        have himmediate := immediate_le h
        rw [disasmPart_some h]
        omega
    exact hlen
  size_le_len b _ herror := by
    have hvalid : (disasmPart b).flags.error = false := herror
    unfold partSize
    rw [hvalid]
    exact le_rfl
  same b b' h := by
    obtain ⟨hfields, hend⟩ := opcode_congr fun j hj => h j (hj.trans_le (opcodeEnd_le_partSize b))
    cases hlayout : operandLayout (opcodeFields b).opcode (opcodeFields b).opcode2 with
    | none =>
      have hlayout' := hlayout
      rw [← hfields] at hlayout'
      refine ⟨?_, ?_⟩
      · exact (disasmPart_none hlayout').trans (by rw [hfields]; exact (disasmPart_none hlayout).symm)
      · rw [partSize_none hlayout, partSize_none hlayout', hend]
    | some layout =>
      have hlayout' := hlayout
      rw [← hfields] at hlayout'
      have hoperands : disasmOperands b' (opcodeFields b) (opcodeEnd b) layout =
          disasmOperands b (opcodeFields b) (opcodeEnd b) layout :=
        disasmOperands_congr fun j hj => h j (by rw [partSize_some hlayout]; exact hj)
      refine ⟨?_, ?_⟩
      · refine (disasmPart_some hlayout').trans ?_
        rw [hfields, hend, hoperands]
        exact (disasmPart_some hlayout).symm
      · rw [partSize_some hlayout, partSize_some hlayout', hfields, hend, hoperands]

end OpenDlssg.DecoderExtent
