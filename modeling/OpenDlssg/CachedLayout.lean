import OpenDlssg.BlockRestoration

/-!
# A layout found in one block and used in another

The places found in the first block that can be located are kept for the
process and read and written in every later block. The search confines them
to the size its own block declares; a later block that declares less and
whose following bytes pass for an image is read, and overwritten, past its
end.
-/

namespace OpenDlssg.CachedLayout

open ByteCodec ProcessMemory CubinParams CubinRoute BlobFieldView BlockRestoration

/-- A parameter block that opens with a size in the accepted range, and the
memory it stands in when it is passed. -/
structure Block where
  memory : Memory
  params : ℕ
  declared : UInt64
  declared_eq : readAt Codec.u64 memory params = some declared
  declared_min : kMinStructSize ≤ declared.toNat
  declared_max : declared.toNat ≤ kMaxStructSize

namespace Block

variable (block : Block)

/-- What the block's own search finds. -/
def layout : BlobFields := locateBlob block.memory block.params

/-- Where the fields of a layout end, the one that ends last. -/
def reach (fields : BlobFields) : ℕ :=
  max (fields.dataOffset + 8) (fields.sizeOffset + sizeWidth fields)

/-- Whether the block holds a pointer and a length at the places of a layout:
both readable, neither zero. -/
def Carries (fields : BlobFields) : Prop :=
  ∃ data size, readBlob block.memory block.params fields = some (data, size) ∧ data ≠ 0 ∧ size ≠ 0

/-- A block that declares its size is searched that far. -/
theorem structSize_eq : structSize block.memory block.params = block.declared.toNat := by
  unfold structSize
  rw [block.declared_eq]
  exact if_pos ⟨block.declared_min, block.declared_max⟩

/-- A search that succeeds has found a container's pointer and length. -/
theorem found_layout (h : block.layout.valid = true) :
    ∃ dataOffset length, Found block.memory block.params dataOffset length block.layout := by
  cases hdata : findDataField block.memory block.params (structSize block.memory block.params) with
  | some found => exact ⟨found.1, found.2, found_of_locateBlob h hdata⟩
  | none =>
    have hparams := params_ne_zero_of_locateBlob h
    unfold layout locateBlob at h
    dsimp only at h
    rw [if_neg hparams, hdata] at h
    split at h
    · cases h
    · cases h

/-- What a search finds carries the size of the block it was made in. -/
theorem structSize_layout (h : block.layout.valid = true) :
    block.layout.structSize = block.declared.toNat := by
  have hparams := params_ne_zero_of_locateBlob h
  rw [← block.structSize_eq]
  unfold layout locateBlob at h ⊢
  dsimp only at h ⊢
  rw [if_neg hparams] at h ⊢
  split
  · rename_i hwindow
    rw [if_pos hwindow] at h
    cases h
  · cases hdata : findDataField block.memory block.params
        (structSize block.memory block.params) with
    | none => rfl
    | some found =>
      dsimp only
      split
      · rfl
      · rfl

/-- A layout lies inside the block it was found in. -/
theorem reach_layout (h : block.layout.valid = true) :
    reach block.layout ≤ block.declared.toNat := by
  obtain ⟨_, _, hfound⟩ := block.found_layout h
  obtain ⟨_, _, hdata⟩ := (mem_fieldOffsets (by decide)).mp hfound.data_slot
  obtain ⟨_, _, hsize⟩ := (mem_fieldOffsets (by decide)).mp hfound.size_slot
  have hoffset := hfound.dataOffset_eq
  have hwidth : block.layout.sizeOffset + sizeWidth block.layout ≤ block.layout.structSize := by
    unfold sizeWidth
    split
    · rename_i hwide
      exact (hfound.wide_iff.mp hwide).1
    · exact hsize
  rw [block.structSize_layout h] at hdata hwidth
  unfold reach
  omega

end Block

/-- Read the calls of blocks passed one after another: each block with what it
was found to carry. -/
def readCalls : List Block → Option BlobFields → List (Block × Option CubinCall)
  | [], _ => []
  | block :: blocks, found =>
    (block, (readCubinCall block.memory block.params found).1) ::
      readCalls blocks (readCubinCall block.memory block.params found).2

/-- The fields of every call returned lie inside the block it was read from. -/
def InsideOwnBlock (blocks : List Block) : Prop :=
  ∀ entry ∈ readCalls blocks none, ∀ call, entry.2 = some call →
    call.fields.dataOffset + 8 ≤ entry.1.declared.toNat ∧
      call.fields.sizeOffset + sizeWidth call.fields ≤ entry.1.declared.toNat

/-- The blocks behind the first one located declare room for its fields, unless
nothing that looks like an image stands there. -/
def RoomBehindFirst (blocks : List Block) : Prop :=
  ∀ first back, blocks.dropWhile (fun block => !block.layout.valid) = first :: back →
    ∀ block ∈ back, block.Carries first.layout → Block.reach first.layout ≤ block.declared.toNat

/-- Every block passed is read, in order. -/
theorem map_fst_readCalls (blocks : List Block) (found : Option BlobFields) :
    (readCalls blocks found).map (fun entry => entry.1) = blocks := by
  induction blocks generalizing found with
  | nil => rfl
  | cons block blocks ih => rw [readCalls, List.map_cons, ih]

section Reading

variable {block : Block} {blocks : List Block}

/-- Once known, the fields are what every call is read through. -/
theorem readCubinCall_known (known : BlobFields) :
    (readCubinCall block.memory block.params (some known)).2 = some known ∧
      ((∃ call, (readCubinCall block.memory block.params (some known)).1 = some call ∧
        call.fields = known) ↔ block.Carries known) ∧
      ∀ call, (readCubinCall block.memory block.params (some known)).1 = some call →
        call.fields = known := by
  have hfields : ∀ call, (readCubinCall block.memory block.params (some known)).1 = some call →
      call.fields = known := by
    intro call hcall
    unfold readCubinCall at hcall
    split at hcall
    · cases hcall
    · dsimp only [fields, Option.bind_some] at hcall
      obtain ⟨blob, _, hbuilt⟩ := Option.bind_eq_some_iff.mp hcall
      split at hbuilt
      · cases hbuilt
      · cases hbuilt
        rfl
  refine ⟨?_, ⟨fun ⟨call, hcall, hsame⟩ => ?_, fun ⟨data, size, hread, hdata, hsize⟩ => ?_⟩, hfields⟩
  · unfold readCubinCall
    split
    · rfl
    · rfl
  · obtain ⟨hread, hdata, hsize⟩ := readBlob_of_readCubinCall hcall
    rw [hsame] at hread
    exact ⟨call.data, call.size, hread, hdata, hsize⟩
  · have hparams : block.params ≠ 0 := (bytes_of_readBlob hread).2.1
    refine ⟨⟨known, data, size, readName block.memory block.params known⟩, ?_, rfl⟩
    unfold readCubinCall
    rw [if_neg hparams]
    dsimp only [fields, Option.bind_some]
    rw [hread, Option.bind_some, if_neg (not_or.mpr ⟨hdata, hsize⟩)]

/-- With the fields known, each block is read through them. -/
theorem readCalls_known (known : BlobFields) (blocks : List Block) :
    readCalls blocks (some known) = blocks.map fun block =>
      (block, (readCubinCall block.memory block.params (some known)).1) := by
  induction blocks with
  | nil => rfl
  | cons block blocks ih =>
    rw [readCalls, (readCubinCall_known known).1, ih, List.map_cons]

/-- The first block located makes its own layout known. -/
theorem readCubinCall_located (h : block.layout.valid = true) :
    readCubinCall block.memory block.params none =
      readCubinCall block.memory block.params (some block.layout) := by
  have hknown : fields block.memory block.params none = some block.layout := by
    unfold Block.layout at h ⊢
    unfold fields
    dsimp only
    rw [if_pos h]
  have hparams := params_ne_zero_of_locateBlob h
  unfold readCubinCall
  rw [if_neg hparams, if_neg hparams, hknown]
  rfl

/-- A block that is not located returns nothing and makes nothing known. -/
theorem readCubinCall_not_located (h : block.layout.valid = false) :
    readCubinCall block.memory block.params none = (none, none) := by
  have hnone : fields block.memory block.params none = none := by
    unfold Block.layout at h
    unfold fields
    dsimp only
    rw [h, if_neg Bool.false_ne_true]
  unfold readCubinCall
  split
  · rfl
  · rw [hnone]
    rfl

/-- Fields that end inside a size. -/
theorem reach_le_iff {fields : BlobFields} {size : ℕ} : Block.reach fields ≤ size ↔
    fields.dataOffset + 8 ≤ size ∧ fields.sizeOffset + sizeWidth fields ≤ size := by
  unfold Block.reach
  exact max_le_iff

/-- Blocks read through one layout stay inside themselves where those that carry
an image at its places have room for it. -/
theorem inside_known_iff (known : BlobFields) (blocks : List Block) :
    (∀ entry ∈ readCalls blocks (some known), ∀ call, entry.2 = some call →
        call.fields.dataOffset + 8 ≤ entry.1.declared.toNat ∧
          call.fields.sizeOffset + sizeWidth call.fields ≤ entry.1.declared.toNat) ↔
      ∀ block ∈ blocks, block.Carries known → Block.reach known ≤ block.declared.toNat := by
  rw [readCalls_known, List.forall_mem_map]
  refine forall_congr' fun block => imp_congr_right fun _ => ?_
  obtain ⟨_, hcarries, hfields⟩ := @readCubinCall_known block known
  rw [reach_le_iff, ← hcarries]
  refine ⟨fun h ⟨call, hcall, hsame⟩ => hsame ▸ h call hcall, fun h call hcall => ?_⟩
  rw [hfields call hcall]
  exact h ⟨call, hcall, hfields call hcall⟩

/-- Every call lies inside its own block exactly where each block behind the
first one located, if it carries an image at that one's places, declares a
size that reaches past them. -/
theorem insideOwnBlock_iff (blocks : List Block) :
    InsideOwnBlock blocks ↔ RoomBehindFirst blocks := by
  unfold InsideOwnBlock RoomBehindFirst
  induction blocks with
  | nil =>
    simp only [readCalls, List.not_mem_nil, List.dropWhile_nil, reduceCtorEq, false_implies, implies_true]
  | cons block blocks ih =>
    cases hlocated : block.layout.valid with
    | false =>
      rw [readCalls, readCubinCall_not_located hlocated, List.dropWhile_cons, hlocated, Bool.not_false,
        if_pos rfl, ← ih, List.forall_mem_cons]
      exact and_iff_right fun call hcall => by cases hcall
    | true =>
      rw [List.dropWhile_cons, hlocated, Bool.not_true, if_neg Bool.false_ne_true]
      have hread : readCalls (block :: blocks) none = readCalls (block :: blocks) (some block.layout) := by
        rw [readCalls, readCalls, readCubinCall_located hlocated]
      rw [hread, inside_known_iff, List.forall_mem_cons]
      have hfirst := block.reach_layout hlocated
      constructor
      · rintro ⟨_, hback⟩ first back hsplit
        obtain ⟨rfl, rfl⟩ := List.cons.inj hsplit
        exact hback
      · intro hback
        exact ⟨fun _ => hfirst, hback block blocks rfl⟩

end Reading

/-- A memory with a container at 0x3000, a block of 0x30 bytes at 0x2000 that
keeps its pointer and length in the last two words, and at 0x4000 a block of
0x20 bytes with two other numbers behind it. -/
def twoBlocks : Memory :=
  (((Memory.mk (fun _ => 0) fun _ => true).write 0x3000 adaContainer).write 0x2000
    (leBytes 8 0x30 ++ List.replicate 0x18 0 ++ leBytes 8 0x3000 ++
      leBytes 8 adaContainer.length)).write 0x4000
        (leBytes 8 0x20 ++ List.replicate 0x18 0 ++ leBytes 8 7 ++ leBytes 8 9)

/-- The block that is located. -/
def wideBlock : Block where
  memory := twoBlocks
  params := 0x2000
  declared := 0x30
  declared_eq := by decide +kernel
  declared_min := by decide
  declared_max := by decide

/-- The block that ends before its places. -/
def narrowBlock : Block where
  memory := twoBlocks
  params := 0x4000
  declared := 0x20
  declared_eq := by decide +kernel
  declared_min := by decide
  declared_max := by decide

/-- The pointer of a call read from the narrow block stands right behind it. -/
theorem narrowBlock_read_outside : ¬InsideOwnBlock [wideBlock, narrowBlock] := by
  intro hinside
  have hread : ((readCalls [wideBlock, narrowBlock] none)[1]?.bind (·.2)).map
      (fun call => call.fields.dataOffset) = some 0x20 := by
    decide +kernel
  obtain ⟨call, hcall, hoffset⟩ := Option.map_eq_some_iff.mp hread
  obtain ⟨entry, hentry, hreturned⟩ := Option.bind_eq_some_iff.mp hcall
  have hblock : some entry.1 = some narrowBlock := by
    have hmap := congrArg (·[1]?) (map_fst_readCalls [wideBlock, narrowBlock] none)
    rw [List.getElem?_map, hentry] at hmap
    exact hmap
  rw [Option.some.injEq] at hblock
  have hbound := (hinside entry (List.mem_of_getElem? hentry) call hreturned).1
  rw [hoffset, hblock] at hbound
  exact absurd hbound (by decide)

end OpenDlssg.CachedLayout
