import OpenDlssg.AnalysisReads

/-!
# Walks from one instruction to the next

Every walk of the analyses decodes one instruction behind the other until one
stops it, and no instruction begins before the one it follows ends. So a walk
stays in the image exactly when its last instruction does.
-/

namespace OpenDlssg.WalkReads

open ByteCodec ProcessMemory PatternScan X86Decode DecoderExtent TracedReads TracedReads.Reading
open PluginAnalysis MarkerPath MultiFrameGates

section Walks

variable {hde : Hde64} (extent : Extent hde) (memory : Memory) (image : Span)

/-- The instruction at an address ends inside the image, or the bytes do that are looked at when it
is none. -/
def EndsInside (address : ℕ) : Prop :=
  address ≠ 0 → address + extent.size (streamAt memory address) ≤ image.data + image.size

/-- The last address a walk decodes that starts at an address and goes at most so many instructions
further: the first with an instruction that stops it or with none. -/
def lastDecoded (hde : Hde64) (memory : Memory) (stops : Instruction → Bool) : ℕ → ℕ → ℕ
  | 0, address => address
  | more + 1, address =>
    match decode hde memory address with
    | none => address
    | some instruction =>
      if stops instruction then address else lastDecoded hde memory stops more instruction.next

end Walks

section Decoding

variable {hde : Hde64} {extent : Extent hde} {memory : Memory} {image : Span}

/-- The next instruction begins behind what was read of the last. -/
theorem next_ge (extent : Extent hde) {address : ℕ} {instruction : Instruction}
    (h : decode hde memory address = some instruction) :
    instruction.address = address ∧
      address + extent.size (streamAt memory address) ≤ instruction.next := by
  obtain ⟨fields, hfields, rfl⟩ := decode_eq_some.mp h
  obtain ⟨_, hlen, herror, rfl⟩ := decoded_eq_some.mp hfields
  exact ⟨rfl, Nat.add_le_add_left (extent.size_le_len _ hlen herror) address⟩

theorem lt_next (extent : Extent hde) {address : ℕ} {instruction : Instruction}
    (h : decode hde memory address = some instruction) : address < instruction.next := by
  have hnext := (next_ge extent h).2
  have hpos := extent.size_pos (streamAt memory address)
  omega

/-- Decoding reads the instruction at an address. -/
theorem readsOnly_decoded {address : ℕ} (haddress : image.data ≤ address) :
    ReadsOnly image memory (AnalysisReads.decoded extent address) ↔
      EndsInside extent memory image address := by
  unfold AnalysisReads.decoded EndsInside
  split
  · rename_i hnull
    exact iff_of_true (readsOnly_pure _) fun h => absurd hnull h
  · rename_i hnull
    have hpos := extent.size_pos (streamAt memory address)
    rw [readsOnly_bind, and_iff_left (readsOnly_pure _)]
    constructor
    · intro h _
      have hlast := h ⟨address, extent.size (streamAt memory address)⟩ List.mem_cons_self
        (address + (extent.size (streamAt memory address) - 1)) ⟨Nat.le_add_right _ _, by
          dsimp only
          omega⟩
      have hend := hlast.2
      omega
    · intro h read hread covered hcovered
      obtain rfl := List.mem_singleton.mp hread
      have hend := h hnull
      have hupper := hcovered.2
      dsimp only at hupper
      exact ⟨haddress.trans hcovered.1, by omega⟩

theorem readsOnly_decode {address : ℕ} (haddress : image.data ≤ address) :
    ReadsOnly image memory (AnalysisReads.decode extent address) ↔
      EndsInside extent memory image address := by
  rw [AnalysisReads.decode, readsOnly_bind, and_iff_left (readsOnly_pure _), readsOnly_decoded haddress]

/-- To decode and go on is to read the instruction and what its continuation reads. -/
theorem readsOnly_decode_bind {α : Type} {address : ℕ} {after : Option Instruction → Reading α}
    (haddress : image.data ≤ address) (hnone : ReadsOnly image memory (after none)) :
    ReadsOnly image memory (AnalysisReads.decode extent address >>= after) ↔
      EndsInside extent memory image address ∧ ∀ instruction,
        decode hde memory address = some instruction →
          ReadsOnly image memory (after (some instruction)) := by
  rw [readsOnly_bind, readsOnly_decode haddress, AnalysisReads.value_decode]
  refine and_congr_right fun _ => ?_
  cases decode hde memory address with
  | none => exact iff_of_true hnone fun instruction h => by cases h
  | some instruction => simp only [Option.some.injEq, forall_eq']

/-- A question about an instruction decodes it again and reads nothing else. -/
theorem readsOnly_ask {α : Type} {address : ℕ} {answer : Option Hde64s → Reading α}
    (hanswer : ∀ fields, (answer fields).reads memory = [])
    (h : ReadsOnly image memory (AnalysisReads.decoded extent address)) :
    ReadsOnly image memory (AnalysisReads.decoded extent address >>= answer) := by
  refine readsOnly_bind.mpr ⟨h, fun read hread => ?_⟩
  rw [hanswer] at hread
  cases hread

/-! ### Walks -/

/-- A walk goes forward. -/
theorem le_lastDecoded (extent : Extent hde) (stops : Instruction → Bool) (more address : ℕ) :
    address ≤ lastDecoded hde memory stops more address := by
  induction more generalizing address with
  | zero => exact le_rfl
  | succ more ih =>
    rw [lastDecoded]
    cases hdecode : decode hde memory address with
    | none => exact le_rfl
    | some instruction =>
      dsimp only
      split
      · exact le_rfl
      · exact (lt_next extent hdecode).le.trans (ih instruction.next)

/-- A walk goes no further than its instructions are long. -/
theorem lastDecoded_le (extent : Extent hde) (memory : Memory) (stops : Instruction → Bool)
    (more address : ℕ) : lastDecoded hde memory stops more address ≤ address + 15 * more := by
  induction more generalizing address with
  | zero => exact le_rfl
  | succ more ih =>
    rw [lastDecoded]
    cases hdecode : decode hde memory address with
    | none => exact Nat.le_add_right _ _
    | some instruction =>
      obtain ⟨fields, hfields, rfl⟩ := decode_eq_some.mp hdecode
      have hlen := extent.len_le (streamAt memory address)
      rw [(decoded_eq_some.mp hfields).2.2.2] at hlen
      dsimp only
      split
      · exact Nat.le_add_right _ _
      · have hrest := ih (address + fields.len)
        dsimp only [Instruction.next]
        omega

/-- An instruction followed by another ends where that one begins, at the latest. -/
theorem endsInside_of_next {address last : ℕ} {instruction : Instruction}
    (hdecode : decode hde memory address = some instruction) (hlast : instruction.next ≤ last)
    (h : EndsInside extent memory image last) : EndsInside extent memory image address := by
  intro _
  have hnext := (next_ge extent hdecode).2
  have hlt := lt_next extent hdecode
  have hend := h (by omega)
  omega

/-- A loop that decodes, looks at the instruction and goes on behind it unless that one stops it
reads inside the image exactly when the last instruction of its walk ends there. -/
theorem readsOnly_walk {α : Type} {loop : ℕ → ℕ → Reading α} {stops : Instruction → Bool}
    (hzero : ∀ address, ReadsOnly image memory (loop 0 address))
    (hstep : ∀ fuel address, image.data ≤ address →
      (ReadsOnly image memory (loop (fuel + 1) address) ↔
        EndsInside extent memory image address ∧ ∀ instruction,
          decode hde memory address = some instruction → stops instruction = false →
            ReadsOnly image memory (loop fuel instruction.next)))
    (more : ℕ) {address : ℕ} (haddress : image.data ≤ address) :
    ReadsOnly image memory (loop (more + 1) address) ↔
      EndsInside extent memory image (lastDecoded hde memory stops more address) := by
  induction more generalizing address with
  | zero =>
    rw [hstep 0 address haddress]
    exact and_iff_left fun instruction _ _ => hzero instruction.next
  | succ more ih =>
    rw [hstep (more + 1) address haddress, lastDecoded]
    cases hdecode : decode hde memory address with
    | none => exact and_iff_left fun instruction h => by cases h
    | some instruction =>
      dsimp only
      have hlt := lt_next extent hdecode
      have hnext := @ih instruction.next (by omega)
      cases hstops : stops instruction with
      | true =>
        rw [if_pos rfl]
        refine and_iff_left fun other hother hgoes => ?_
        rw [← Option.some.inj hother, hstops] at hgoes
        cases hgoes
      | false =>
        rw [if_neg Bool.false_ne_true, ← hnext]
        constructor
        · intro h
          exact h.2 instruction rfl hstops
        · intro h
          refine ⟨?_, fun other hother _ => Option.some.inj hother ▸ h⟩
          exact endsInside_of_next hdecode (le_lastDecoded extent stops more _) (hnext.mp h)

end Decoding

/-! ### The walks of the analyses -/

section Loops

variable {hde : Hde64} {extent : Extent hde} {memory : Memory} {image : Span}

/-- Decoding again an instruction that ends inside the image reads inside it. -/
theorem readsOnly_again {address : ℕ} (haddress : image.data ≤ address) {instruction : Instruction}
    (hdecode : decode hde memory address = some instruction)
    (hends : EndsInside extent memory image address) :
    ReadsOnly image memory (AnalysisReads.decoded extent instruction.address) := by
  rw [(next_ge extent hdecode).1]
  exact (readsOnly_decoded haddress).mpr hends

/-- The walk from a reference to the marker stops at a flag store. -/
theorem readsOnly_fallbackStore {reference : ℕ} (hreference : image.data ≤ reference) :
    ReadsOnly image memory (AnalysisReads.fallbackStore extent reference) ↔
      EndsInside extent memory image (lastDecoded hde memory (isFlagStore hde memory)
        (instructionsAfterMarker - 1) reference) := by
  refine readsOnly_walk (fun _ => readsOnly_pure _) ?_ (instructionsAfterMarker - 1) hreference
  intro fuel address haddress
  rw [AnalysisReads.fallbackStoreFrom]
  refine Iff.trans (readsOnly_decode_bind haddress ?_) ?_
  · exact readsOnly_pure _
  refine and_congr_right fun hends => forall₂_congr fun instruction hdecode => ?_
  have hask : ReadsOnly image memory (AnalysisReads.asByteStore extent instruction) :=
    readsOnly_ask (fun _ => rfl) (readsOnly_again haddress hdecode hends)
  dsimp only
  rw [readsOnly_bind, and_iff_right hask, AnalysisReads.value_asByteStore]
  cases hstore : asByteStore hde memory instruction with
  | none =>
    have hgoes : isFlagStore hde memory instruction = false := by rw [isFlagStore, hstore]; rfl
    exact ⟨fun h _ => h, fun h => h hgoes⟩
  | some store =>
    have hstops : isFlagStore hde memory instruction =
        decide (store.value ≤ 1 ∧ 127 < store.displacement) := by rw [isFlagStore, hstore]; rfl
    dsimp only
    split
    · rename_i hflag
      rw [hstops, decide_eq_true hflag]
      exact iff_of_true (readsOnly_pure _) fun h => by cases h
    · rename_i hflag
      rw [hstops, decide_eq_false hflag]
      exact ⟨fun h _ => h, fun h => h rfl⟩

/-- An instruction that stores to the flag, a constant or a register. -/
def storesTo (hde : Hde64) (memory : Memory) (flag : ByteField) (instruction : Instruction) : Bool :=
  ((asByteStore hde memory instruction).any fun constant =>
      ⟨constant.base, constant.displacement⟩ == flag) ||
    asRegisterByteStore hde memory instruction == some flag

/-- The walk from a reference to the model-version parameter stops at a store to the flag, and at
what leaves the path. -/
theorem readsOnly_modelVersionStore {flag : ByteField} {offValue : UInt8} {reference : ℕ}
    (hreference : image.data ≤ reference) :
    ReadsOnly image memory (AnalysisReads.modelVersionStoreFrom extent flag offValue
        instructionsAfterModelVersion reference) ↔
      EndsInside extent memory image (lastDecoded hde memory
        (fun i => isReturnOrJump hde memory i || storesTo hde memory flag i)
        (instructionsAfterModelVersion - 1) reference) := by
  refine readsOnly_walk (fun _ => readsOnly_pure _) ?_ (instructionsAfterModelVersion - 1) hreference
  intro fuel address haddress
  rw [AnalysisReads.modelVersionStoreFrom]
  refine Iff.trans (readsOnly_decode_bind haddress ?_) ?_
  · exact readsOnly_pure _
  refine and_congr_right fun hends => forall₂_congr fun instruction hdecode => ?_
  have hagain : ReadsOnly image memory (AnalysisReads.decoded extent instruction.address) :=
    readsOnly_again haddress hdecode hends
  have hleaves : ReadsOnly image memory (AnalysisReads.isReturnOrJump extent instruction) :=
    readsOnly_ask (fun fields => by cases fields <;> rfl) hagain
  have hconstant : ReadsOnly image memory (AnalysisReads.asByteStore extent instruction) :=
    readsOnly_ask (fun _ => rfl) hagain
  have hregister : ReadsOnly image memory (AnalysisReads.asRegisterByteStore extent instruction) :=
    readsOnly_ask (fun fields => by cases fields <;> rfl) hagain
  have himmediate :
      ReadsOnly image memory (AnalysisReads.asImmediateByteStore extent instruction offValue) :=
    readsOnly_ask (fun fields => by cases fields <;> rfl) hagain
  dsimp only
  rw [readsOnly_bind, and_iff_right hleaves, AnalysisReads.value_isReturnOrJump]
  cases hreturn : isReturnOrJump hde memory instruction with
  | true => exact iff_of_true (readsOnly_pure _) fun h => by cases h
  | false =>
    rw [if_neg Bool.false_ne_true, readsOnly_bind, and_iff_right hconstant,
      AnalysisReads.value_asByteStore, Bool.false_or, storesTo]
    split
    · rename_i hflag
      rw [hflag]
      exact iff_of_true (readsOnly_pure _) fun h => by cases h
    · rename_i hother
      rw [Bool.not_eq_true] at hother
      rw [hother, Bool.false_or, readsOnly_bind, and_iff_right hregister,
        AnalysisReads.value_asRegisterByteStore]
      split
      · rename_i hflag
        rw [hflag, readsOnly_bind, and_iff_right himmediate]
        refine iff_of_true ?_ fun h => by simp at h
        cases (AnalysisReads.asImmediateByteStore extent instruction offValue).value memory <;>
          exact readsOnly_pure _
      · rename_i hflag
        exact ⟨fun h _ => h, fun h => h (beq_eq_false_iff_ne.mpr hflag)⟩

/-- The text of a parameter is read up to the end of the image. -/
theorem readsOnly_parameterAt (address : ℕ) :
    ReadsOnly image memory (AnalysisReads.parameterAt image address) := by
  unfold AnalysisReads.parameterAt
  split
  · exact readsOnly_pure _
  · rename_i hinside
    have havailable := min_le_left (image.data + image.size - address) (maxParameterLength - 1)
    refine readsOnly_bind.mpr ⟨readsOnly_safeCopy ⟨?_, ?_⟩, ?_⟩
    · dsimp only
      omega
    · dsimp only
      omega
    · split <;> exact readsOnly_pure _

theorem readsOnly_parameterOf (operand : Option ℕ) :
    ReadsOnly image memory (AnalysisReads.parameterOf image operand) := by
  cases operand with
  | none => exact readsOnly_pure _
  | some address => exact readsOnly_parameterAt address

/-- An instruction that loads the name of a published parameter. -/
def namesParameter (hde : Hde64) (memory : Memory) (image : Span) (instruction : Instruction) : Bool :=
  ((ripRelativeOperand hde memory instruction).map (parameterAt memory image)).getD [] != []

/-- The walk behind a comparison stops at the name of a parameter. -/
theorem readsOnly_publishedParameter {compare : ℕ} (hcompare : image.data ≤ compare) :
    ReadsOnly image memory (AnalysisReads.publishedParameter extent image compare) ↔
      EndsInside extent memory image (lastDecoded hde memory (namesParameter hde memory image)
        (instructionsToPublication - 1) compare) := by
  refine readsOnly_walk (fun _ => readsOnly_pure _) ?_ (instructionsToPublication - 1) hcompare
  intro fuel address haddress
  rw [AnalysisReads.publishedParameterFrom]
  refine Iff.trans (readsOnly_decode_bind haddress ?_) ?_
  · exact readsOnly_pure _
  refine and_congr_right fun hends => forall₂_congr fun instruction hdecode => ?_
  have hoperand : ReadsOnly image memory (AnalysisReads.ripRelativeOperand extent instruction) :=
    readsOnly_ask (fun fields => by cases fields <;> rfl) (readsOnly_again haddress hdecode hends)
  dsimp only
  rw [readsOnly_bind, and_iff_right hoperand, AnalysisReads.value_ripRelativeOperand, readsOnly_bind,
    and_iff_right (readsOnly_parameterOf _), AnalysisReads.value_parameterOf, namesParameter]
  split
  · rename_i hname
    refine iff_of_true (readsOnly_pure _) fun h => ?_
    exact absurd (bne_eq_false_iff_eq.mp h) hname
  · rename_i hname
    exact ⟨fun h _ => h, fun h => h (bne_eq_false_iff_eq.mpr (not_not.mp hname))⟩

/-- A walk whose last instruction ends inside the image begins with one that does. -/
theorem endsInside_of_lastDecoded {stops : Instruction → Bool} {more address : ℕ}
    (h : EndsInside extent memory image (lastDecoded hde memory stops more address)) :
    EndsInside extent memory image address := by
  cases more with
  | zero => exact h
  | succ more =>
    rw [lastDecoded] at h
    cases hdecode : decode hde memory address with
    | none =>
      rw [hdecode] at h
      exact h
    | some instruction =>
      rw [hdecode] at h
      dsimp only at h
      split at h
      · exact h
      · exact endsInside_of_next hdecode (le_lastDecoded extent stops more _) h

end Loops

end OpenDlssg.WalkReads
