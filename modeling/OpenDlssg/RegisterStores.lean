import OpenDlssg.PluginAnalysis

/-!
# A register store and its immediate form

A store of a byte register to a field is replaced in place by a store of a
constant to the same field. The new encoding is as long as the old one
exactly where the old one's REX prefix served its source register alone, and
it decodes to the same field.
-/

namespace OpenDlssg.RegisterStores

open ByteCodec ProcessMemory X86Decode PluginAnalysis

/-- `mov byte ptr [base + disp32], r8` with its opcode at a position of the
stream and no SIB byte, and the fields it is decoded to. -/
structure RegisterStoreAt (b : ByteStream) (position : ℕ) (fields : Hde64s) : Prop where
  opcode_eq : b position = 0x88
  modrm_eq : fields.modrm = b (position + 1)
  /-- ModRM `rm` 100 would announce a SIB byte. -/
  rm_ne : fields.modrm &&& 7 ≠ 4
  disp32_flag : fields.flags.disp32 = true
  disp32_eq : fields.disp32 = dword b (position + 2)
  len_eq : fields.len = position + 6

/-- The Intel manual's encodings of such a store: the bare opcode, or one REX
prefix before it whose X and B bits are reported. -/
structure DecodesRegisterStores (hde : Hde64) : Prop where
  plain : ∀ b, (hde.disasm b).flags.error = false → isPlainRegisterByteStore (hde.disasm b) = true →
    (RegisterStoreAt b 0 (hde.disasm b) ∧ (hde.disasm b).rexX = false ∧
        (hde.disasm b).rexB = false) ∨
      (b 0 &&& 0xF0 = 0x40 ∧ RegisterStoreAt b 1 (hde.disasm b) ∧
        (hde.disasm b).rexX = (b 0 &&& 2 == 2) ∧ (hde.disasm b).rexB = (b 0 &&& 1 == 1))

/-- The immediate form keeps a REX prefix only for the memory operand. -/
theorem immediateByteStore_length (fields : Hde64s) (value : UInt8) :
    (immediateByteStore fields value).length = if fields.rexX || fields.rexB then 8 else 7 := by
  have hword : (Codec.u32.encode fields.disp32).length = 4 := Codec.u32.length_encode _
  simp only [immediateByteStore, List.length_append, List.length_cons, List.length_nil, hword]
  cases fields.rexX with
  | false =>
    cases fields.rexB with
    | false => rfl
    | true => rfl
  | true =>
    cases fields.rexB with
    | false => rfl
    | true => rfl

/-- Without one it is a plain store through the same ModRM `rm`. -/
theorem immediateByteStore_plain {fields : Hde64s} (value : UInt8) (hx : fields.rexX = false)
    (hb : fields.rexB = false) : immediateByteStore fields value =
      plainStore (fields.modrm &&& ~~~0x38) fields.disp32.toInt32 value := by
  have hword : fields.disp32.toInt32.toUInt32 = fields.disp32 := UInt32.toUInt32_toInt32 _
  simp only [immediateByteStore, plainStore, hx, hb, hword, List.append_assoc]
  rfl

/-- The ModRM byte of a store with a 32-bit displacement and no SIB byte, with
its register field cleared, still names the base. -/
theorem cleared_modrm {modrm : UInt8} (hmod : modrm >>> 6 = 2) (hrm : modrm &&& 7 ≠ 4) :
    (modrm &&& ~~~0x38) &&& 0xF8 = 0x80 ∧ modrm &&& ~~~0x38 ≠ 0x84 ∧
      (modrm &&& ~~~0x38) &&& 7 = modrm &&& 7 := by
  revert modrm
  decide +kernel

/-- The X and B bits of a REX prefix are clear together. -/
theorem rex_clear_iff (rex : UInt8) :
    ((rex &&& 2 == 2) || (rex &&& 1 == 1)) = false ↔ rex &&& 3 = 0 := by
  revert rex
  decide +kernel

section Instructions

variable {hde : Hde64} {memory : Memory} {address : ℕ} {instruction : Instruction}

/-- A register store accepted at an address: its fields, as decoded there. -/
theorem fields_of_registerStore {field : ByteField}
    (hdecode : decode hde memory address = some instruction)
    (hfield : asRegisterByteStore hde memory instruction = some field) :
    ∃ fields, decoded hde memory address = some fields ∧ instruction = ⟨address, fields.len⟩ ∧
      isPlainRegisterByteStore fields = true ∧
      field = ⟨baseRegister fields, displacement fields⟩ := by
  obtain ⟨fields, hfields, rfl⟩ := decode_eq_some.mp hdecode
  unfold asRegisterByteStore at hfield
  rw [hfields] at hfield
  dsimp only at hfield
  split at hfield
  · rename_i hplain
    exact ⟨fields, hfields, rfl, hplain, (Option.some.inj hfield).symm⟩
  · cases hfield

/-- What re-encoding a register store comes to. -/
theorem asImmediateByteStore_of_fields {fields : Hde64s}
    (hfields : decoded hde memory address = some fields)
    (hplain : isPlainRegisterByteStore fields = true) (value : UInt8) :
    asImmediateByteStore hde memory ⟨address, fields.len⟩ value =
      if (immediateByteStore fields value).length ≠ fields.len then none
      else some (immediateByteStore fields value) := by
  unfold asImmediateByteStore
  rw [hfields]
  dsimp only
  rw [if_pos hplain]

/-- A register store is re-encoded exactly where it carries a REX prefix whose X
and B bits are clear, and is then seven bytes long. -/
theorem asImmediateByteStore_isSome (hlaw : DecodesRegisterStores hde) {fields : Hde64s}
    (hfields : decoded hde memory address = some fields)
    (hplain : isPlainRegisterByteStore fields = true) (value : UInt8) :
    ((asImmediateByteStore hde memory ⟨address, fields.len⟩ value).isSome = true ↔
        memory.byte address &&& 0xF0 = 0x40 ∧ memory.byte address &&& 3 = 0) ∧
      ((asImmediateByteStore hde memory ⟨address, fields.len⟩ value).isSome = true →
        fields.rexX = false ∧ fields.rexB = false ∧
          ∃ position, RegisterStoreAt (streamAt memory address) position fields) := by
  obtain ⟨_, _, herror, hstream⟩ := decoded_eq_some.mp hfields
  have hfirst : streamAt memory address 0 = memory.byte address := rfl
  have hshape := hlaw.plain (streamAt memory address) (by rw [hstream]; exact herror)
    (by rw [hstream]; exact hplain)
  rw [hstream, hfirst] at hshape
  have hlength := immediateByteStore_length fields value
  rw [asImmediateByteStore_of_fields hfields hplain]
  rcases hshape with ⟨hstore, hx, hb⟩ | ⟨hrex, hstore, hx, hb⟩
  · -- without prefix the immediate form is a byte longer
    have hopcode : memory.byte address = 0x88 := hstore.opcode_eq
    have hlong : (immediateByteStore fields value).length ≠ fields.len := by
      rw [hlength, hx, hb, hstore.len_eq]
      decide
    rw [if_pos hlong, hopcode]
    exact ⟨⟨fun h => (by cases h), fun h => absurd h.1 (by decide)⟩, fun h => by cases h⟩
  · have hlen : fields.len = 7 := hstore.len_eq
    have hclear := rex_clear_iff (memory.byte address)
    rw [← hx, ← hb] at hclear
    cases hmemory : (fields.rexX || fields.rexB) with
    | true =>
      -- a prefix that extends the memory operand is kept, and no longer fits
      have hlong : (immediateByteStore fields value).length ≠ fields.len := by
        rw [hlength, hmemory, hlen]
        decide
      rw [if_pos hlong]
      refine ⟨⟨fun h => (by cases h), fun h => ?_⟩, fun h => by cases h⟩
      rw [hclear.mpr h.2] at hmemory
      cases hmemory
    | false =>
      have hfits : (immediateByteStore fields value).length = fields.len := by
        rw [hlength, hmemory, hlen]
        rfl
      obtain ⟨hxf, hbf⟩ := Bool.or_eq_false_iff.mp hmemory
      rw [if_neg (not_not.mpr hfits)]
      exact ⟨⟨fun _ => ⟨hrex, hclear.mp hmemory⟩, fun _ => rfl⟩, fun _ => ⟨hxf, hbf, 1, hstore⟩⟩

/-- The bytes of a re-encoded register store: a plain store of the value to the
same field, as long as the instruction. -/
theorem plainStore_of_asImmediateByteStore (hlaw : DecodesRegisterStores hde) {field : ByteField}
    (hdecode : decode hde memory address = some instruction)
    (hfield : asRegisterByteStore hde memory instruction = some field) {value : UInt8}
    {bytes : Bytes} (hbytes : asImmediateByteStore hde memory instruction value = some bytes) :
    instruction.length = 7 ∧ ∃ modrm, modrm &&& 0xF8 = 0x80 ∧ modrm ≠ 0x84 ∧
      modrm &&& 7 = field.base ∧ bytes = plainStore modrm field.displacement value := by
  obtain ⟨fields, hfields, rfl, hplain, rfl⟩ := fields_of_registerStore hdecode hfield
  have hsome : (asImmediateByteStore hde memory ⟨address, fields.len⟩ value).isSome = true := by
    rw [hbytes]
    rfl
  obtain ⟨hx, hb, _, hstore⟩ := (asImmediateByteStore_isSome hlaw hfields hplain value).2 hsome
  rw [asImmediateByteStore_of_fields hfields hplain] at hbytes
  split at hbytes
  · cases hbytes
  · rename_i hfits
    have hmod : fields.modrm >>> 6 = 2 := by
      simp only [isPlainRegisterByteStore, Hde64s.modrmMod, Bool.and_eq_true, beq_iff_eq] at hplain
      exact hplain.1.2.1
    obtain ⟨hmodrm, hsib, hrm⟩ := cleared_modrm hmod hstore.rm_ne
    have hbase : baseRegister fields = fields.modrm &&& 7 := by
      simp only [baseRegister, Hde64s.modrmRm, hb, Bool.false_eq_true, if_false, UInt8.add_zero]
    have hdisplacement : displacement fields = fields.disp32.toInt32 := by
      rw [displacement, if_pos hstore.disp32_flag]
    have himmediate := immediateByteStore_plain value hx hb
    rw [not_not, himmediate, length_plainStore] at hfits
    refine ⟨hfits.symm, _, hmodrm, hsib, by rw [hrm, hbase], ?_⟩
    rw [← Option.some.inj hbytes, himmediate, hdisplacement]

/-- A register store is re-encoded exactly where it carries a REX prefix whose X
and B bits are clear, in as many bytes, which decode wherever they stand to a
store of the value to the same field. -/
theorem asImmediateByteStore_sameField (hlaw : DecodesRegisterStores hde) {field : ByteField}
    (hdecode : decode hde memory address = some instruction)
    (hfield : asRegisterByteStore hde memory instruction = some field) (value : UInt8) :
    ((asImmediateByteStore hde memory instruction value).isSome = true ↔
        memory.byte address &&& 0xF0 = 0x40 ∧ memory.byte address &&& 3 = 0) ∧
      ∀ bytes, asImmediateByteStore hde memory instruction value = some bytes →
        bytes.length = instruction.length ∧
          ∀ (target : Memory) (start : ℕ), start ≠ 0 → target.bytes start bytes.length = bytes →
            decode hde target start = some ⟨start, instruction.length⟩ ∧
              asByteStore hde target ⟨start, instruction.length⟩ =
                some ⟨field.base, field.displacement, value⟩ := by
  refine ⟨?_, fun bytes hbytes => ?_⟩
  · obtain ⟨fields, hfields, rfl, hplain, _⟩ := fields_of_registerStore hdecode hfield
    exact (asImmediateByteStore_isSome hlaw hfields hplain value).1
  · obtain ⟨hlength, modrm, hmodrm, hsib, hbase, rfl⟩ :=
      plainStore_of_asImmediateByteStore hlaw hdecode hfield hbytes
    rw [hlength, length_plainStore]
    refine ⟨rfl, fun target start hstart hstands => ?_⟩
    obtain ⟨hagain, hread⟩ := decode_plainStore hde hstart hmodrm hsib hstands
    rw [hbase] at hread
    exact ⟨hagain, hread⟩

end Instructions

/-- Behind its REX prefix, if any, a register store of the part is its operands. -/
theorem disasmPart_store {b : ByteStream} (hopcode : (disasmPart b).opcode = 0x88) :
    b (b 0 &&& 0xF0 == 0x40).toNat = 0x88 ∧
      disasmPart b = disasmOperands b
        { opcode := 0x88
          rexX := (b 0 &&& 0xF0 == 0x40) && b 0 &&& 2 == 2
          rexB := (b 0 &&& 0xF0 == 0x40) && b 0 &&& 1 == 1 }
        ((b 0 &&& 0xF0 == 0x40).toNat + 1) (true, 0) := by
  have hfirst : b (b 0 &&& 0xF0 == 0x40).toNat = 0x88 := by
    rw [← hopcode]
    unfold disasmPart
    dsimp only
    split
    · rfl
    · rename_i layout _
      obtain ⟨operand, immediate⟩ := layout
      cases operand with
      | false => rfl
      | true => rfl
  refine ⟨hfirst, ?_⟩
  unfold disasmPart
  dsimp only
  rw [hfirst]
  rfl

/-- The decoder of the part agrees with the manual on register stores. -/
theorem decodesRegisterStores_part : DecodesRegisterStores Hde64.part where
  plain b _ hplain := by
    change isPlainRegisterByteStore (disasmPart b) = true at hplain
    change (RegisterStoreAt b 0 (disasmPart b) ∧ _) ∨ _
    have hopcode : (disasmPart b).opcode = 0x88 := by
      simp only [isPlainRegisterByteStore, Bool.and_eq_true, beq_iff_eq] at hplain
      exact hplain.1.1.1
    obtain ⟨hfirst, hfields⟩ := disasmPart_store hopcode
    rw [hfields] at hplain
    simp only [isPlainRegisterByteStore, disasmOperands, Hde64s.modrmMod, Bool.and_eq_true,
      Bool.not_eq_true', beq_iff_eq, hasSib] at hplain
    obtain ⟨⟨_, hmod, hsib⟩, _⟩ := hplain
    rw [hmod] at hsib
    have hrm : b ((b 0 &&& 0xF0 == 0x40).toNat + 1) &&& 7 ≠ 4 := by
      intro hfour
      rw [hfour] at hsib
      exact absurd hsib (by decide)
    have hnone : hasSib (b ((b 0 &&& 0xF0 == 0x40).toNat + 1)) = false := by
      rw [hasSib, hmod, beq_eq_false_iff_ne.mpr hrm, Bool.and_false]
    have hsize : ∀ sib, displacementSize (b ((b 0 &&& 0xF0 == 0x40).toNat + 1)) sib = 4 := by
      intro sib
      rw [displacementSize, hmod]
      rfl
    have hstore : RegisterStoreAt b (b 0 &&& 0xF0 == 0x40).toNat (disasmPart b) := by
      rw [hfields]
      simp only [disasmOperands, hnone, hsize]
      exact ⟨hfirst, rfl, hrm, rfl, rfl, rfl⟩
    have hx : (disasmPart b).rexX = ((b 0 &&& 0xF0 == 0x40) && b 0 &&& 2 == 2) := by
      rw [hfields]
      rfl
    have hb : (disasmPart b).rexB = ((b 0 &&& 0xF0 == 0x40) && b 0 &&& 1 == 1) := by
      rw [hfields]
      rfl
    cases hrex : (b 0 &&& 0xF0 == 0x40) with
    | false =>
      rw [hrex] at hstore hx hb
      exact Or.inl ⟨hstore, hx, hb⟩
    | true =>
      rw [hrex] at hstore hx hb
      exact Or.inr ⟨beq_iff_eq.mp hrex, hstore, hx, hb⟩

/-- `mov byte ptr [rbx+4520h], dil` at 0x1000. -/
def dilStore : Memory :=
  Memory.write { byte := fun _ => 0x90, readable := fun _ => true } 0x1000
    [0x40, 0x88, 0xBB, 0x20, 0x45, 0x00, 0x00]

/-- Its prefix serves its source alone, so it is replaced in place. -/
theorem asImmediateByteStore_sameField_dil :
    ((asImmediateByteStore Hde64.part dilStore ⟨0x1000, 7⟩ 1).isSome = true ↔
        dilStore.byte 0x1000 &&& 0xF0 = 0x40 ∧ dilStore.byte 0x1000 &&& 3 = 0) ∧
      ∀ bytes, asImmediateByteStore Hde64.part dilStore ⟨0x1000, 7⟩ 1 = some bytes →
        bytes.length = 7 ∧
          ∀ (target : Memory) (start : ℕ), start ≠ 0 → target.bytes start bytes.length = bytes →
            decode Hde64.part target start = some ⟨start, 7⟩ ∧
              asByteStore Hde64.part target ⟨start, 7⟩ = some ⟨3, 0x4520, 1⟩ := by
  have hdecode : decode Hde64.part dilStore 0x1000 = some ⟨0x1000, 7⟩ := by decide +kernel
  have hfield : asRegisterByteStore Hde64.part dilStore ⟨0x1000, 7⟩ = some ⟨3, 0x4520⟩ := by
    decide +kernel
  exact asImmediateByteStore_sameField decodesRegisterStores_part hdecode hfield 1

/-- The immediate form. -/
example : asImmediateByteStore Hde64.part dilStore ⟨0x1000, 7⟩ 1 =
    some [0xC6, 0x83, 0x20, 0x45, 0x00, 0x00, 0x01] := by decide +kernel

end OpenDlssg.RegisterStores
