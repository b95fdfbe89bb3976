import OpenDlssg.BlobFieldView
import OpenDlssg.CubinRoute

/-!
# The parameter block is given back as it came

While a replacement is handed over, a block's pointer and length fields are
overwritten, once or twice, around a driver that may write anything. Each
time nothing else of the block is changed, and on return both fields hold the
bytes they came with: what was read there is written back byte for byte,
whatever width and place the fields have.
-/

namespace OpenDlssg.BlockRestoration

open ByteCodec ProcessMemory CubinParams CubinRoute BlobFieldView Substitute SubstituteSafety

/-- Whether an address belongs to a block's pointer or length field. -/
def InFields (fields : BlobFields) (params address : ℕ) : Prop :=
  (params + fields.dataOffset ≤ address ∧ address < params + fields.dataOffset + 8) ∨
    (params + fields.sizeOffset ≤ address ∧
      address < params + fields.sizeOffset + sizeWidth fields)

/-- Whether an address belongs to a block of the largest size. -/
def InBlock (params address : ℕ) : Prop :=
  params ≤ address ∧ address < params + kMaxStructSize

/-- A memory with a replacement in a block's fields: nothing else of the block
changed, and nothing else of memory but the replacement's own storage. -/
structure HandedOver (call : Call) (fields : BlobFields) (image : Bytes)
    (before handed : Memory) : Prop where
  block_eq : ∀ address, InBlock call.params address → ¬InFields fields call.params address →
    handed.byte address = before.byte address
  storage : ∀ address, handed.byte address ≠ before.byte address →
    InFields fields call.params address ∨
      (call.buffer image ≤ address ∧ address < call.buffer image + image.length)

/-- The driver's calls from one memory to the one left after the last: each is
handed a replacement in what the call before left. -/
inductive Exchange (driver : Driver) (call : Call) (fields : BlobFields) :
    Memory → List Memory → Memory → Prop
  | returned (memory : Memory) : Exchange driver call fields memory [] memory
  | handed {before memory left : Memory} {rest : List Memory} (image : Bytes)
      (hhanded : HandedOver call fields image before memory)
      (hrest : Exchange driver call fields (driver memory call.params).2 rest left) :
      Exchange driver call fields before (memory :: rest) left

/-- A call that gives its block back. -/
structure GivenBack (driver : Driver) (call : Call) (fields : BlobFields) (outcome : Outcome) :
    Prop where
  /-- The calls of the driver, from the entry state on, and what is written
  afterwards: the two fields alone. -/
  exchange : ∃ left, Exchange driver call fields call.memory outcome.received left ∧
    ∀ address, ¬InFields fields call.params address →
      outcome.memory.byte address = left.byte address
  /-- What a call sees changed since entry are the fields and what the driver
  wrote in a call before. -/
  changed : ∀ front memory back, outcome.received = front ++ memory :: back →
    ∀ address, InBlock call.params address → memory.byte address ≠ call.memory.byte address →
      InFields fields call.params address ∨
        ∃ earlier ∈ front, (driver earlier call.params).2.byte address ≠ earlier.byte address
  /-- On return both fields are as on entry. -/
  restored : ∀ address, InFields fields call.params address →
    outcome.memory.byte address = call.memory.byte address

section Fields

variable {memory : Memory} {params : ℕ} {fields : BlobFields} {data size : ℕ}

/-- Writing back bytes that were read there restores them, and only them. -/
theorem byte_write_bytes (later : Memory) (start length address : ℕ) :
    (later.write start (memory.bytes start length)).byte address =
      if start ≤ address ∧ address < start + length then memory.byte address
      else later.byte address := by
  by_cases hin : start ≤ address ∧ address < start + length
  · have hindex : address - start < (memory.bytes start length).length := by
      rw [Memory.length_bytes]
      omega
    have hbyte : (memory.bytes start length).getD (address - start) 0 = memory.byte address := by
      rw [List.getD_eq_getElem _ _ hindex, Memory.getElem_bytes, Nat.add_sub_of_le hin.1]
    simp only [Memory.write, Memory.length_bytes, if_pos hin, hbyte]
  · simp only [Memory.write, Memory.length_bytes, if_neg hin]

/-- A block whose image was read has fields that hold it. -/
theorem bytes_of_readBlob (h : readBlob memory params fields = some (data, size)) :
    fields.valid = true ∧ params ≠ 0 ∧
      leBytes 8 data = memory.bytes (params + fields.dataOffset) 8 ∧
      leBytes (sizeWidth fields) size =
        memory.bytes (params + fields.sizeOffset) (sizeWidth fields) := by
  have hback : ∀ start width, leBytes width (leNat (memory.bytes start width)) =
      memory.bytes start width := by
    intro start width
    have hcopy := leBytes_leNat (memory.bytes start width)
    rwa [Memory.length_bytes] at hcopy
  unfold readBlob at h
  by_cases hnone : fields.valid = false ∨ params = 0
  · rw [if_pos hnone] at h
    cases h
  · rw [if_neg hnone] at h
    obtain ⟨hvalid, hparams⟩ := not_or.mp hnone
    obtain ⟨pointer, hpointer, hlength⟩ := Option.bind_eq_some_iff.mp h
    obtain ⟨_, _, hdata⟩ := readAt_u64_iff.mp (congrArg (Option.map UInt64.toNat) hpointer)
    refine ⟨Bool.not_eq_false _ ▸ hvalid, hparams, ?_⟩
    unfold sizeWidth
    cases hwide : fields.sizeIs64bit with
    | true =>
      rw [hwide, if_pos rfl] at hlength
      obtain ⟨stored, hstored, hpair⟩ := Option.map_eq_some_iff.mp hlength
      obtain ⟨_, _, hsize⟩ := readAt_u64_iff.mp (congrArg (Option.map UInt64.toNat) hstored)
      obtain ⟨rfl, rfl⟩ := Prod.mk.inj hpair
      rw [if_pos rfl, ← hdata, ← hsize]
      exact ⟨hback _ _, hback _ _⟩
    | false =>
      rw [hwide, if_neg Bool.false_ne_true] at hlength
      obtain ⟨stored, hstored, hpair⟩ := Option.map_eq_some_iff.mp hlength
      obtain ⟨_, _, hsize⟩ := readAt_u32_iff.mp (congrArg (Option.map UInt32.toNat) hstored)
      obtain ⟨rfl, rfl⟩ := Prod.mk.inj hpair
      rw [if_neg Bool.false_ne_true, ← hdata, ← hsize]
      exact ⟨hback _ _, hback _ _⟩

/-- Writing back the image that was read restores both fields, even where they
overlap, and nothing else. -/
theorem byte_writeBlob_restored (h : readBlob memory params fields = some (data, size))
    (later : Memory) (address : ℕ) :
    (InFields fields params address →
        (writeBlob later params fields data size).byte address = memory.byte address) ∧
      (¬InFields fields params address →
        (writeBlob later params fields data size).byte address = later.byte address) := by
  obtain ⟨hvalid, hparams, hdata, hsize⟩ := bytes_of_readBlob h
  have hfields : ¬(fields.valid = false ∨ params = 0) := by
    rw [hvalid]
    exact not_or.mpr ⟨Bool.noConfusion, hparams⟩
  unfold writeBlob
  rw [if_neg hfields, show (if fields.sizeIs64bit then 8 else 4) = sizeWidth fields from rfl, hdata,
    hsize, byte_write_bytes, byte_write_bytes]
  unfold InFields
  refine ⟨fun hin => ?_, fun hout => ?_⟩
  · split
    · rfl
    · rename_i hsizeOut
      rw [if_pos (hin.resolve_right hsizeOut)]
  · obtain ⟨hdataOut, hsizeOut⟩ := not_or.mp hout
    rw [if_neg hsizeOut, if_neg hdataOut]

/-- A write to a block changes its two fields alone. -/
theorem byte_writeBlob_of_not_inFields {address : ℕ} (hout : ¬InFields fields params address) :
    (writeBlob memory params fields data size).byte address = memory.byte address := by
  obtain ⟨hdataOut, hsizeOut⟩ := not_or.mp hout
  have hlen := length_leBytes (sizeWidth fields) size
  unfold writeBlob
  split
  · rfl
  · rw [show (if fields.sizeIs64bit then 8 else 4) = sizeWidth fields from rfl,
      Memory.byte_write_of_not_covered (by omega),
      Memory.byte_write_of_not_covered (by rw [length_leBytes]; omega)]

end Fields

section Calls

variable {driver : Driver} {call : Call} {fields : BlobFields}

/-- A replacement is handed over in the fields and its own storage. -/
theorem handedOver_withImage (memory : Memory) (image : Bytes) :
    HandedOver call fields image memory (withImage call fields memory image) := by
  have hkept : ∀ address, ¬InFields fields call.params address →
      (address < call.buffer image ∨ call.buffer image + image.length ≤ address) →
      (withImage call fields memory image).byte address = memory.byte address := by
    intro address hout hstorage
    unfold withImage
    rw [byte_writeBlob_of_not_inFields hout, Memory.byte_write_of_not_covered hstorage]
  refine ⟨fun address hblock hout => hkept address hout ?_, fun address hchanged => ?_⟩
  · obtain ⟨hlow, hhigh⟩ := hblock
    have happart := call.buffer_apart image
    omega
  · by_contra hnone
    obtain ⟨hout, hstorage⟩ := not_or.mp hnone
    exact hchanged (hkept address hout (by omega))

/-- What a call of an exchange sees changed was changed by the driver before,
or is in the fields. -/
theorem Exchange.changed {before left : Memory} {received : List Memory}
    (h : Exchange driver call fields before received left) :
    ∀ front memory back, received = front ++ memory :: back →
      ∀ address, InBlock call.params address → memory.byte address ≠ before.byte address →
        InFields fields call.params address ∨
          ∃ earlier ∈ front, (driver earlier call.params).2.byte address ≠ earlier.byte address := by
  induction h with
  | returned _ =>
    intro front memory back hsplit
    exact absurd hsplit.symm (List.append_ne_nil_of_right_ne_nil _ (List.cons_ne_nil _ _))
  | @handed before first left rest image hhanded _ ih =>
    intro front memory back hsplit address hblock hchanged
    by_cases hin : InFields fields call.params address
    · exact Or.inl hin
    · have hfirst := hhanded.block_eq address hblock hin
      cases front with
      | nil =>
        rw [List.nil_append] at hsplit
        rw [← (List.cons.inj hsplit).1] at hchanged
        exact absurd hfirst hchanged
      | cons head front =>
        rw [List.cons_append] at hsplit
        obtain ⟨rfl, hrest⟩ := List.cons.inj hsplit
        by_cases hwrote : (driver first call.params).2.byte address = first.byte address
        · have hlater : memory.byte address ≠ (driver first call.params).2.byte address := by
            rw [hwrote, hfirst]
            exact hchanged
          rcases ih front memory back hrest address hblock hlater with hin' | ⟨earlier, hmem, hwrote'⟩
          · exact Or.inl hin'
          · exact Or.inr ⟨earlier, List.mem_cons_of_mem _ hmem, hwrote'⟩
        · exact Or.inr ⟨first, List.mem_cons_self, hwrote⟩

/-- A replacement handed over once or twice leaves the block as it came. -/
theorem givenBack_createSubstituted (env : Environment) (detected : UInt32) {data size : ℕ}
    (hread : readBlob call.memory call.params fields = some (data, size)) (answer : Answer)
    (s : State) :
    GivenBack driver call fields
      (createSubstituted env detected driver call fields data size answer s) := by
  have hrestore := fun later address => byte_writeBlob_restored hread later address
  unfold createSubstituted
  dsimp only
  split
  · have hexchange : Exchange driver call fields call.memory _ _ :=
      Exchange.handed (answer.image.getD [])
        (handedOver_withImage call.memory (answer.image.getD [])) (Exchange.returned _)
    exact ⟨⟨_, hexchange, fun address => (hrestore _ address).2⟩, hexchange.changed,
      fun address => (hrestore _ address).1⟩
  · rename_i again _
    have hexchange : Exchange driver call fields call.memory _ _ :=
      Exchange.handed (answer.image.getD [])
        (handedOver_withImage call.memory (answer.image.getD []))
        (Exchange.handed again.1 (handedOver_withImage _ again.1) (Exchange.returned _))
    exact ⟨⟨_, hexchange, fun address => (hrestore _ address).2⟩, hexchange.changed,
      fun address => (hrestore _ address).1⟩

/-- What a call was found to carry is what its block holds. -/
theorem readBlob_of_readCubinCall {memory : Memory} {params : ℕ} {found : Option BlobFields}
    {cubinCall : CubinCall} (h : (readCubinCall memory params found).1 = some cubinCall) :
    readBlob memory params cubinCall.fields = some (cubinCall.data, cubinCall.size) ∧
      cubinCall.data ≠ 0 ∧ cubinCall.size ≠ 0 := by
  unfold readCubinCall at h
  split at h
  · cases h
  · obtain ⟨known, _, hknown⟩ := Option.bind_eq_some_iff.mp h
    obtain ⟨blob, hblob, hcall⟩ := Option.bind_eq_some_iff.mp hknown
    split at hcall
    · cases hcall
    · rename_i hempty
      cases hcall
      exact ⟨hblob, not_or.mp hempty⟩

/-- A call whose image is replaced gives its block back as it came. -/
theorem hookedCreateCubin_givesBack (env : Environment) (detected : UInt32) {found : Option BlobFields}
    {s : State} {cubinCall : CubinCall} (hactive : s.active = true)
    (hread : (readCubinCall call.memory call.params found).1 = some cubinCall)
    (hdecision : (Substitute.decide env detected call.caller
      (some (call.memory.bytes cubinCall.data cubinCall.size)) s).1.decision = .substituted) :
    GivenBack driver call cubinCall.fields
      (hookedCreateCubinShaderExV2 env detected (some driver) call found s).1 := by
  obtain ⟨hblob, hdata, hsize⟩ := readBlob_of_readCubinCall hread
  unfold hookedCreateCubinShaderExV2 handled
  dsimp only
  rw [hactive, Bool.not_true, if_neg Bool.false_ne_true, hread]
  dsimp only
  rw [hblob]
  dsimp only
  rw [if_neg (not_or.mpr ⟨hdata, hsize⟩), hdecision]
  exact givenBack_createSubstituted env detected hblob _ _

end Calls

/-- A driver that rejects every block and overwrites its first bytes. -/
def scribblingDriver : Driver := fun memory params =>
  (1, memory.write params (List.replicate 0x20 0xCC))

/-- The block of a container that is retargeted comes back from it as it was. -/
theorem hookedCreateCubin_givesBack_scribbled :
    ∃ cubinCall, (readCubinCall (sampleCall adaContainer).memory (sampleCall adaContainer).params
        none).1 = some cubinCall ∧
      GivenBack scribblingDriver (sampleCall adaContainer) cubinCall.fields
        (hookedCreateCubinShaderExV2 (sampleEnvironment ampereBuild) 0 (some scribblingDriver)
          (sampleCall adaContainer) none readyState).1 := by
  have hcarried : (readCubinCall (sampleCall adaContainer).memory (sampleCall adaContainer).params
      none).1.map (fun found => (found.data, found.size)) = some (0x3000, adaContainer.length) := by
    decide +kernel
  have hdecision : (Substitute.decide (sampleEnvironment ampereBuild) 0 (sampleCall adaContainer).caller
      (some ((sampleCall adaContainer).memory.bytes 0x3000 adaContainer.length))
      readyState).1.decision = .substituted := by
    decide +kernel
  obtain ⟨cubinCall, hread, hplace⟩ := Option.map_eq_some_iff.mp hcarried
  obtain ⟨hdata, hsize⟩ := Prod.mk.inj hplace
  refine ⟨cubinCall, hread, hookedCreateCubin_givesBack (sampleEnvironment ampereBuild) 0 rfl hread ?_⟩
  rw [hdata, hsize]
  exact hdecision

end OpenDlssg.BlockRestoration
