import OpenDlssg.CubinParams
import OpenDlssg.SubstituteSafety

/-!
# The Direct3D 12 cubin route over a sequence of calls

The hook learns where blocks keep their image from the first block that
carries a container and remembers it for the process. Once it knows, a call's
outcome is a function of the call alone; before that a block without a
container is passed to the driver as it is.
-/

namespace OpenDlssg.CubinRoute

open ByteCodec ProcessMemory CubinImage FatbinContainer FatbinRetarget ProviderIndex
open ProviderLookup ProviderAnswers CubinParams Substitute SubstituteSafety TransitionRuns

/-- Status of a call that fails without reaching the driver. -/
def kNvApiError : UInt32 := 0xFFFFFFFF

/-- The driver's entry point: what it returns for a block, and the memory it
leaves. It reads the image a block points at and does not write to it. -/
abbrev Driver := Memory → ℕ → UInt32 × Memory

/-- One call of the entry point. -/
structure Call where
  memory : Memory
  /-- Address of the parameter block. -/
  params : ℕ
  caller : Option HModule
  /-- Where the storage of a replacement image is allocated. -/
  buffer : Bytes → ℕ
  /-- New storage does not overlap the block. -/
  buffer_apart : ∀ image, buffer image + image.length ≤ params ∨
    params + kMaxStructSize ≤ buffer image

/-- What a block was found to carry. -/
structure CubinCall where
  fields : BlobFields
  data : ℕ
  size : ℕ
  /-- The entry-point name, for the log. -/
  kernel : Bytes

/-- The fields known once a block has been searched with what was known before. -/
def fields (memory : Memory) (params : ℕ) (found : Option BlobFields) : Option BlobFields :=
  match found with
  | some known => some known
  | none =>
    let located := locateBlob memory params
    if located.valid then some located else none

/-- The image a block carries, and the fields known afterwards. -/
def readCubinCall (memory : Memory) (params : ℕ) (found : Option BlobFields) :
    Option CubinCall × Option BlobFields :=
  if params = 0 then (none, found)
  else
    let known := fields memory params found
    (known.bind fun fields =>
      (readBlob memory params fields).bind fun blob =>
        if blob.1 = 0 ∨ blob.2 = 0 then none
        else some ⟨fields, blob.1, blob.2, readName memory params fields⟩, known)

/-- What became of a call. -/
structure Outcome where
  status : UInt32
  /-- The memory each time the driver was handed the block, in order. -/
  received : List Memory
  /-- The memory left when the call returns. -/
  memory : Memory

/-- Hand the driver the block as it is. -/
def passed (driver : Driver) (call : Call) : Outcome :=
  let answer := driver call.memory call.params
  ⟨answer.1, [call.memory], answer.2⟩

/-- The memory with a replacement in place of the image a block carries. -/
def withImage (call : Call) (places : BlobFields) (memory : Memory) (image : Bytes) : Memory :=
  writeBlob (memory.write (call.buffer image) image) call.params places (call.buffer image) image.length

/-- Hand the driver a replacement, once more built from the closest PTX when it
rejects one built from newer PTX, and restore the block. -/
def createSubstituted (env : Environment) (detected : UInt32) (driver : Driver) (call : Call)
    (places : BlobFields) (data size : ℕ) (answer : Answer) (s : State) : Outcome :=
  let handed := withImage call places call.memory (answer.image.getD [])
  let first := driver handed call.params
  let retry := if first.1 = 0 then none
    else fallback env detected call.caller (some (call.memory.bytes data size)) answer.sourceArch s
  match retry with
  | none => ⟨first.1, [handed], writeBlob first.2 call.params places data size⟩
  | some again =>
    let handedAgain := withImage call places first.2 again.1
    let second := driver handedAgain call.params
    ⟨second.1, [handed, handedAgain], writeBlob second.2 call.params places data size⟩

/-- Decide for the image a block carries at known places and act on it. -/
def handled (env : Environment) (detected : UInt32) (driver : Driver) (call : Call)
    (places : BlobFields) (s : State) : Outcome × State :=
  match readBlob call.memory call.params places with
  | none => (passed driver call, s)
  | some (data, size) =>
    if data = 0 ∨ size = 0 then (passed driver call, s)
    else
      let decided := Substitute.decide env detected call.caller
        (some (call.memory.bytes data size)) s
      match decided.1.decision with
      | .unchanged => (passed driver call, decided.2)
      | .refused => (⟨kNvApiError, [], call.memory⟩, decided.2)
      | .substituted =>
        (createSubstituted env detected driver call places data size decided.1 decided.2, decided.2)

/-- The hook: the call's outcome, the fields known and the engine afterwards. -/
def hookedCreateCubinShaderExV2 (env : Environment) (detected : UInt32) (original : Option Driver)
    (call : Call) (found : Option BlobFields) (s : State) : Outcome × Option BlobFields × State :=
  match original with
  | none => (⟨kNvApiError, [], call.memory⟩, found, s)
  | some driver =>
    if !s.active then (passed driver call, found, s)
    else
      let read := readCubinCall call.memory call.params found
      match read.1 with
      | none => (passed driver call, read.2, s)
      | some cubinCall =>
        let done := handled env detected driver call cubinCall.fields s
        (done.1, read.2, done.2)

/-- The fields known and the engine after a sequence of calls. -/
def runCalls (env : Environment) (detected : UInt32) (driver : Driver) (calls : List Call)
    (found : Option BlobFields) (s : State) : Option BlobFields × State :=
  calls.foldl
    (fun known call => (hookedCreateCubinShaderExV2 env detected (some driver) call known.1 known.2).2)
    (found, s)

/-- Two states of the engine that decide alike: same options, activity, indexes
and target. -/
structure SameSetting (detected : UInt32) (s t : State) : Prop where
  options_eq : s.options = t.options
  active_eq : s.active = t.active
  indexes_eq : s.indexes = t.indexes
  target_eq : (targetSm detected s).1 = (targetSm detected t).1

variable (env : Environment) (detected : UInt32) {driver : Driver}

/-- Resolving the target leaves the engine's activity alone. -/
theorem active_targetSm (s : State) : (targetSm detected s).2.active = s.active := by
  unfold targetSm resolveTarget
  split
  · split
    · rfl
    · rfl
  · rfl

/-- A target once resolved stays. -/
theorem targetSm_targetSm (s : State) :
    (targetSm detected (targetSm detected s).2).1 = (targetSm detected s).1 := by
  rw [targetSm_fst, targetSm_fst, active_targetSm]
  by_cases hactive : s.active = true
  · rw [if_pos hactive, if_pos hactive]
    unfold targetSm resolveTarget
    rw [if_pos hactive]
    cases htarget : s.target with
    | some sm =>
      dsimp only
      rw [htarget]
    | none => rfl
  · rw [if_neg hactive, if_neg hactive]

/-- Counting a decision changes nothing decisions depend on. -/
theorem sameSetting_logDecision (answer : Answer) (s : State) (n : UInt32) :
    SameSetting detected s (logDecision answer { s with decisions := n }) := by
  unfold logDecision
  split
  · split
    · exact ⟨rfl, rfl, rfl, by rw [targetSm_fst, targetSm_fst]; rfl⟩
    · exact ⟨rfl, rfl, rfl, by rw [targetSm_fst, targetSm_fst]; rfl⟩
  · exact ⟨rfl, rfl, rfl, by rw [targetSm_fst, targetSm_fst]; rfl⟩
  · exact ⟨rfl, rfl, rfl, by rw [targetSm_fst, targetSm_fst]; rfl⟩

theorem SameSetting.symm {detected : UInt32} {s t : State} (h : SameSetting detected s t) :
    SameSetting detected t s :=
  ⟨h.options_eq.symm, h.active_eq.symm, h.indexes_eq.symm, h.target_eq.symm⟩

theorem SameSetting.trans {detected : UInt32} {s t u : State} (h : SameSetting detected s t)
    (h' : SameSetting detected t u) : SameSetting detected s u :=
  ⟨h.options_eq.trans h'.options_eq, h.active_eq.trans h'.active_eq,
    h.indexes_eq.trans h'.indexes_eq, h.target_eq.trans h'.target_eq⟩

/-- Resolving the target changes nothing decisions depend on. -/
theorem sameSetting_targetSm (s : State) :
    SameSetting detected s (targetSm detected s).2 :=
  ⟨(targetSm_keeps detected s).1.symm, (active_targetSm detected s).symm,
    (targetSm_keeps detected s).2.symm, (targetSm_targetSm detected s).symm⟩

/-- A decision changes nothing later decisions depend on. -/
theorem sameSetting_decide (caller : Option HModule) (blob : Option Bytes) (s : State) :
    SameSetting detected s (Substitute.decide env detected caller blob s).2 :=
  (sameSetting_targetSm detected s).trans (sameSetting_logDecision detected _ _ _)

/-- What is decided for a blob reads the setting alone. -/
theorem decideFrom_congr {s t : State} (hactive : s.active = t.active)
    (hindexes : s.indexes = t.indexes) (caller : Option HModule) (blob : Option Bytes)
    (source : PtxSource) (target : UInt32) :
    decideFrom env s caller blob source target = decideFrom env t caller blob source target := by
  unfold decideFrom
  rw [hactive, hindexes]

/-- States of one setting decide alike. -/
theorem decide_congr {detected : UInt32} {s t : State} (h : SameSetting detected s t) (caller : Option HModule)
    (blob : Option Bytes) : (Substitute.decide env detected caller blob s).1 =
      (Substitute.decide env detected caller blob t).1 := by
  have hs := sameSetting_targetSm detected s
  have ht := sameSetting_targetSm detected t
  have hoptions : (targetSm detected s).2.options = (targetSm detected t).2.options :=
    hs.options_eq.symm.trans (h.options_eq.trans ht.options_eq)
  have hfrom := decideFrom_congr env (hs.active_eq.symm.trans (h.active_eq.trans ht.active_eq))
    (hs.indexes_eq.symm.trans (h.indexes_eq.trans ht.indexes_eq)) caller blob
    (preferredSource (targetSm detected t).2.options) (targetSm detected t).1
  unfold Substitute.decide
  dsimp only
  rw [h.target_eq, hoptions, hfrom]

/-- States of one setting fall back alike. -/
theorem fallback_congr {detected : UInt32} {s t : State} (h : SameSetting detected s t) (caller : Option HModule)
    (blob : Option Bytes) (rejected : UInt32) :
    fallback env detected caller blob rejected s = fallback env detected caller blob rejected t := by
  have hs := sameSetting_targetSm detected s
  have ht := sameSetting_targetSm detected t
  have hfrom := decideFrom_congr env (hs.active_eq.symm.trans (h.active_eq.trans ht.active_eq))
    (hs.indexes_eq.symm.trans (h.indexes_eq.trans ht.indexes_eq)) caller blob .closest
    (targetSm detected t).1
  unfold fallback
  dsimp only
  rw [h.options_eq, h.target_eq, hfrom]

/-- At the same places, in one setting, a replacement is handed over alike. -/
theorem createSubstituted_congr {detected : UInt32} {call : Call} {places places' : BlobFields} {s t : State}
    (hplaces : places.SamePlaces places') (h : SameSetting detected s t) (data size : ℕ)
    (answer : Answer) : createSubstituted env detected driver call places data size answer s =
      createSubstituted env detected driver call places' data size answer t := by
  have hwith : ∀ memory image, withImage call places memory image =
      withImage call places' memory image := fun memory image => writeBlob_congr hplaces _ _ _ _
  unfold createSubstituted
  simp only [hwith, writeBlob_congr hplaces, fallback_congr env h]

/-- At the same places, in one setting, a call has one outcome. -/
theorem handled_congr {detected : UInt32} {call : Call} {places places' : BlobFields} {s t : State}
    (hplaces : places.SamePlaces places') (h : SameSetting detected s t) :
    (handled env detected driver call places s).1 = (handled env detected driver call places' t).1 := by
  unfold handled
  rw [readBlob_congr hplaces]
  cases readBlob call.memory call.params places' with
  | none => rfl
  | some blob =>
    obtain ⟨data, size⟩ := blob
    dsimp only
    split
    · rfl
    · have hdecide := decide_congr env h call.caller (some (call.memory.bytes data size))
      have hafter := h.trans (sameSetting_decide env detected call.caller
        (some (call.memory.bytes data size)) t)
      have hbefore := sameSetting_decide env detected call.caller
        (some (call.memory.bytes data size)) s
      have hsame : SameSetting detected
          (Substitute.decide env detected call.caller (some (call.memory.bytes data size)) s).2
          (Substitute.decide env detected call.caller (some (call.memory.bytes data size)) t).2 :=
        hbefore.symm.trans hafter
      rw [hdecide]
      split
      · rfl
      · rfl
      · exact createSubstituted_congr env hplaces hsame data size _

/-- Whether a block's own search finds its image, which takes a container. -/
def located (call : Call) : Bool := (locateBlob call.memory call.params).valid

/-- Where every block of a layout keeps its image: two fields that do not
overlap, inside the largest block. -/
structure Layout where
  places : BlobFields
  valid_eq : places.valid = true
  dataOffset_le : places.dataOffset + 8 ≤ kMaxStructSize
  sizeOffset_le : places.sizeOffset + 8 ≤ kMaxStructSize
  apart : places.dataOffset + 8 ≤ places.sizeOffset ∨
    places.sizeOffset + (if places.sizeIs64bit then 8 else 4) ≤ places.dataOffset

/-- A block of a layout: whatever its search finds stands where the layout says. -/
def Layout.Shared (layout : Layout) (call : Call) : Prop :=
  located call = true → (locateBlob call.memory call.params).SamePlaces layout.places

/-- A located block makes its fields known. -/
theorem fields_of_located {call : Call} (h : located call = true) :
    fields call.memory call.params none = some (locateBlob call.memory call.params) := by
  unfold fields
  unfold located at h
  dsimp only
  rw [h, if_pos rfl]

/-- A block that is not located makes nothing known. -/
theorem fields_of_not_located {call : Call} (h : located call = false) :
    fields call.memory call.params none = none := by
  unfold fields
  unfold located at h
  dsimp only
  rw [h, if_neg (by decide)]

/-- A call while active leaves known what reading its block made known. -/
theorem known_after_call {s : State} (hactive : s.active = true) (call : Call)
    (found : Option BlobFields) :
    (hookedCreateCubinShaderExV2 env detected (some driver) call found s).2.1 =
      (readCubinCall call.memory call.params found).2 := by
  unfold hookedCreateCubinShaderExV2
  rw [hactive]
  dsimp only
  rw [if_neg (by decide)]
  cases (readCubinCall call.memory call.params found).1 with
  | none => rfl
  | some cubinCall => rfl

/-- A call changes nothing later decisions depend on. -/
theorem setting_after_call (s : State) (call : Call) (found : Option BlobFields) :
    SameSetting detected s (hookedCreateCubinShaderExV2 env detected (some driver) call found s).2.2 := by
  have hself : SameSetting detected s s := ⟨rfl, rfl, rfl, rfl⟩
  have hhandled : ∀ places, SameSetting detected s (handled env detected driver call places s).2 := by
    intro places
    unfold handled
    cases readBlob call.memory call.params places with
    | none => exact hself
    | some blob =>
      dsimp only
      split
      · exact hself
      · have hdecide := sameSetting_decide env detected call.caller
          (some (call.memory.bytes blob.1 blob.2)) s
        split
        · exact hdecide
        · exact hdecide
        · exact hdecide
  unfold hookedCreateCubinShaderExV2
  dsimp only
  split
  · exact hself
  · split
    · exact hself
    · exact hhandled _

/-- Once the fields are known, a call is handled at them. -/
theorem outcome_of_known {s : State} (hactive : s.active = true) {call : Call}
    {found : Option BlobFields} {known : BlobFields}
    (hknown : fields call.memory call.params found = some known) :
    (hookedCreateCubinShaderExV2 env detected (some driver) call found s).1 =
      (handled env detected driver call known s).1 := by
  unfold hookedCreateCubinShaderExV2 readCubinCall handled
  rw [hactive, hknown]
  dsimp only
  rw [if_neg (by decide)]
  by_cases hparams : call.params = 0
  · have hnone : readBlob call.memory call.params known = none := by
      unfold readBlob
      rw [if_pos (Or.inr hparams)]
    rw [if_pos hparams, hnone]
  · rw [if_neg hparams, Option.bind_some]
    cases hblob : readBlob call.memory call.params known with
    | none => rfl
    | some blob =>
      dsimp only
      rw [Option.bind_some]
      by_cases hempty : blob.1 = 0 ∨ blob.2 = 0
      · rw [if_pos hempty, if_pos hempty]
      · rw [if_neg hempty, if_neg hempty]
        dsimp only
        rw [hblob]
        dsimp only
        rw [if_neg hempty]

/-- While the fields are not known, a block whose own search fails is passed on. -/
theorem outcome_of_unknown {s : State} (hactive : s.active = true) {call : Call}
    (hmissing : located call = false) :
    (hookedCreateCubinShaderExV2 env detected (some driver) call none s).1 = passed driver call := by
  have hfields := fields_of_not_located hmissing
  unfold hookedCreateCubinShaderExV2 readCubinCall
  rw [hactive, hfields]
  dsimp only
  rw [if_neg (by decide)]
  by_cases hparams : call.params = 0
  · rw [if_pos hparams]
  · rw [if_neg hparams]
    rfl

/-- What is known after a sequence of calls of one layout: nothing while none of
their blocks was located, and the layout's places from the first one on. -/
theorem runCalls_spec (driver : Driver) {s : State} (hactive : s.active = true) (layout : Layout)
    (calls : List Call)
    (hshared : ∀ call ∈ calls, layout.Shared call) :
    SameSetting detected s (runCalls env detected driver calls none s).2 ∧
      (((runCalls env detected driver calls none s).1 = none ∧ ∀ call ∈ calls, located call = false) ∨
        ((∃ call ∈ calls, located call = true) ∧
          ∃ known, (runCalls env detected driver calls none s).1 = some known ∧
            known.SamePlaces layout.places)) := by
  induction calls using List.reverseRecOn with
  | nil => exact ⟨⟨rfl, rfl, rfl, rfl⟩, Or.inl ⟨rfl, fun _ h => by cases h⟩⟩
  | append_singleton calls call ih =>
    have hstep : runCalls env detected driver (calls ++ [call]) none s =
        (hookedCreateCubinShaderExV2 env detected (some driver) call
          (runCalls env detected driver calls none s).1
          (runCalls env detected driver calls none s).2).2 := by
      unfold runCalls
      rw [List.foldl_append, List.foldl_cons, List.foldl_nil]
    obtain ⟨hsetting, hknown⟩ := ih fun c hc => hshared c (List.mem_append_left _ hc)
    have hlive : (runCalls env detected driver calls none s).2.active = true := by
      rw [← hsetting.active_eq, hactive]
    have hlast := hshared call (List.mem_append_right _ (List.mem_singleton_self _))
    rw [hstep, known_after_call env detected hlive]
    refine ⟨hsetting.trans (setting_after_call env detected _ call _), ?_⟩
    unfold readCubinCall
    rcases hknown with ⟨hnone, hmissing⟩ | ⟨⟨earlier, hmem, hearlier⟩, known, hsome, hplaces⟩
    · rw [hnone]
      cases hlocated : located call with
      | false =>
        have hfields := fields_of_not_located hlocated
        refine Or.inl ⟨?_, ?_⟩
        · split
          · rfl
          · exact hfields
        · intro c hc
          rcases List.mem_append.mp hc with hc | hc
          · exact hmissing c hc
          · rw [List.mem_singleton.mp hc]
            exact hlocated
      | true =>
        have hfields := fields_of_located hlocated
        rw [if_neg (params_ne_zero_of_locateBlob hlocated)]
        exact Or.inr ⟨⟨call, by simp, hlocated⟩, _, hfields, hlast hlocated⟩
    · rw [hsome]
      refine Or.inr ⟨⟨earlier, List.mem_append_left _ hmem, hearlier⟩, known, ?_, hplaces⟩
      split
      · rfl
      · rfl

/-- A memory a block was handed over in with a replacement in it: the block holds
the replacement's address and its length, and the replacement is at the address. -/
def CarriesReplacement (target : UInt32) (call : Call) (layout : Layout) (memory : Memory) : Prop :=
  ∃ image, Replacement target image ∧
    memory.bytes (call.params + layout.places.dataOffset) 8 = leBytes 8 (call.buffer image) ∧
    memory.bytes (call.params + layout.places.sizeOffset)
        (if layout.places.sizeIs64bit then 8 else 4) =
      leBytes (if layout.places.sizeIs64bit then 8 else 4) image.length ∧
    memory.bytes (call.buffer image) image.length = image

/-- Writing a replacement makes the block carry it. -/
theorem carriesReplacement_withImage {target : UInt32} {call : Call} {layout : Layout}
    (hparams : call.params ≠ 0) (memory : Memory) {image : Bytes} (hfits : Replacement target image) :
    CarriesReplacement target call layout (withImage call layout.places memory image) := by
  have happart := call.buffer_apart image
  refine ⟨image, hfits, ?_, ?_, ?_⟩
  · exact bytes_writeBlob_pointer _ _ layout.valid_eq hparams layout.apart
  · exact bytes_writeBlob_length _ _ layout.valid_eq hparams
  · unfold withImage
    rw [bytes_writeBlob_of_disjoint _ _ layout.dataOffset_le layout.sizeOffset_le happart,
      Memory.bytes_write_self]

/-- A call handled at the layout's places never hands the driver an image that
does not run on the target. -/
theorem handled_unrunnable {s : State} (hown : OwnImages env.process env.scanner s.indexes)
    (htarget : (targetSm detected s).1 ≠ 0) {call : Call} (layout : Layout) {data size : ℕ}
    (hcarried : readBlob call.memory call.params layout.places = some (data, size))
    (hdata : data ≠ 0) (hsize : size ≠ 0)
    (hkind : cubinArch (call.memory.bytes data size) ≠ 0 ∨
      containerSize (call.memory.bytes data size) ≠ 0)
    (hbad : ¬Runnable (targetSm detected s).1 (call.memory.bytes data size)) :
    ∀ memory ∈ (handled env detected driver call layout.places s).1.received,
      CarriesReplacement (targetSm detected s).1 call layout memory := by
  have hparams : call.params ≠ 0 := by
    intro hzero
    unfold readBlob at hcarried
    rw [if_pos (Or.inr hzero)] at hcarried
    cases hcarried
  obtain ⟨hpass, hswap⟩ := decide_spec hown detected htarget call.caller hkind
  have hsetting := sameSetting_decide env detected call.caller
    (some (call.memory.bytes data size)) s
  unfold handled
  rw [hcarried]
  dsimp only
  rw [if_neg (not_or.mpr ⟨hdata, hsize⟩)]
  cases hdecision : (Substitute.decide env detected call.caller
      (some (call.memory.bytes data size)) s).1.decision with
  | unchanged => exact absurd (hpass hdecision) hbad
  | refused => exact fun memory h => by cases h
  | substituted =>
    obtain ⟨_, image, himage, hfits⟩ := hswap hdecision
    have hfirst : ∀ memory, CarriesReplacement (targetSm detected s).1 call layout
        (withImage call layout.places memory image) := fun memory =>
      carriesReplacement_withImage hparams memory hfits
    dsimp only
    unfold createSubstituted
    dsimp only
    rw [himage, Option.getD_some]
    split
    · intro memory hmem
      rw [List.mem_singleton.mp hmem]
      exact hfirst _
    · rename_i again hretry
      have hagain : Replacement (targetSm detected s).1 again.1 := by
        split at hretry
        · cases hretry
        · rw [hsetting.target_eq] at htarget ⊢
          rw [hsetting.indexes_eq] at hown
          exact fallback_spec hown htarget hkind hretry
      intro memory hmem
      rcases List.mem_cons.mp hmem with hmem | hmem
      · rw [hmem]
        exact hfirst _
      · rw [List.mem_singleton.mp hmem]
        exact carriesReplacement_withImage hparams _ hagain

/-- Over blocks of one layout, a call whose own block is located, or that comes
after one that was, has an outcome fixed by the call alone, and never hands the
driver an image that does not run; any other call is passed on as it is. -/
theorem cubinRoute_orderFree {env : Environment} {detected : UInt32} {s : State}
    (hreach : (engine env).Reachable s) (hactive : s.active = true)
    (htarget : (targetSm detected s).1 ≠ 0) (layout : Layout) (calls : List Call) (call : Call)
    (hshared : ∀ c ∈ calls ++ [call], layout.Shared c) :
    ((located call = true ∨ ∃ c ∈ calls, located c = true) →
        (hookedCreateCubinShaderExV2 env detected (some driver) call
            (runCalls env detected driver calls none s).1
            (runCalls env detected driver calls none s).2).1 =
          (handled env detected driver call layout.places s).1 ∧
        ∀ data size, readBlob call.memory call.params layout.places = some (data, size) →
          data ≠ 0 → size ≠ 0 →
          (cubinArch (call.memory.bytes data size) ≠ 0 ∨
            containerSize (call.memory.bytes data size) ≠ 0) →
          ¬Runnable (targetSm detected s).1 (call.memory.bytes data size) →
          ∀ memory ∈ (hookedCreateCubinShaderExV2 env detected (some driver) call
              (runCalls env detected driver calls none s).1
              (runCalls env detected driver calls none s).2).1.received,
            CarriesReplacement (targetSm detected s).1 call layout memory) ∧
      ((located call = false ∧ ∀ c ∈ calls, located c = false) →
        (hookedCreateCubinShaderExV2 env detected (some driver) call
            (runCalls env detected driver calls none s).1
            (runCalls env detected driver calls none s).2).1 = passed driver call) := by
  obtain ⟨hsetting, hknown⟩ := runCalls_spec env detected driver hactive layout calls
    fun c hc => hshared c (List.mem_append_left _ hc)
  have hlive : (runCalls env detected driver calls none s).2.active = true := by
    rw [← hsetting.active_eq, hactive]
  have hlast := hshared call (List.mem_append_right _ (List.mem_singleton_self _))
  have hsame : (located call = true ∨ ∃ c ∈ calls, located c = true) →
      (hookedCreateCubinShaderExV2 env detected (some driver) call
          (runCalls env detected driver calls none s).1
          (runCalls env detected driver calls none s).2).1 =
        (handled env detected driver call layout.places s).1 := by
    intro hsome
    rcases hknown with ⟨hnone, hmissing⟩ | ⟨_, known, hfound, hplaces⟩
    · have hlocated : located call = true := by
        refine hsome.resolve_right ?_
        rintro ⟨c, hc, hloc⟩
        rw [hmissing c hc] at hloc
        cases hloc
      rw [hnone, outcome_of_known env detected hlive (fields_of_located hlocated)]
      exact handled_congr env (hlast hlocated) hsetting.symm
    · have hfields : fields call.memory call.params
          (runCalls env detected driver calls none s).1 = some known := by
        rw [hfound]
        rfl
      rw [outcome_of_known env detected hlive hfields]
      exact handled_congr env hplaces hsetting.symm
  refine ⟨fun hsome => ⟨hsame hsome, ?_⟩, ?_⟩
  · intro data size hcarried hdata hsize hkind hbad
    rw [hsame hsome]
    exact handled_unrunnable env detected (ownImages_of_reachable hreach) htarget layout hcarried hdata
      hsize hkind hbad
  · intro hmissing
    rcases hknown with ⟨hnone, _⟩ | ⟨⟨c, hc, hloc⟩, _⟩
    · rw [hnone]
      exact outcome_of_unknown env detected hlive hmissing.1
    · rw [hmissing.2 c hc] at hloc
      cases hloc

/-- A call from runtime 9, which is not indexed, whose block at 0x2000 declares
its size and carries the image at 0x3000 and its length. -/
def sampleCall (image : Bytes) : Call where
  memory := ((Memory.mk (fun _ => 0) fun _ => true).write 0x3000 image).write 0x2000
    (leBytes 8 0x20 ++ leBytes 8 0x3000 ++ leBytes 8 image.length)
  params := 0x2000
  caller := some 9
  buffer _ := 0x8000
  buffer_apart _ := Or.inr (by decide)

/-- A container of one PTX image for sm_89. -/
def adaContainer : Bytes :=
  fileHeader.encode ⟨kMagic, 1, 16, 80⟩ ++
    entryHeader.encode ⟨kKindPtx, 0, 64, 16, 0, 0, 0, 89, (0, 0), 0, 0, 0⟩ ++
    ascii ".target sm_89\n" ++ [0, 0]

/-- Where the sample blocks keep their image. -/
def sampleLayout : Layout where
  places := { valid := true, structSize := 0x20, dataOffset := 8, sizeOffset := 0x10, sizeIs64bit := true }
  valid_eq := rfl
  dataOffset_le := by decide
  sizeOffset_le := by decide
  apart := Or.inl (by decide)

/-- A driver that accepts every block. -/
def sampleDriver : Driver := fun memory _ => (0, memory)

/-- A block that carries a bare cubin is not located by its own search. -/
theorem located_adaBuild : located (sampleCall adaBuild) = false := by decide +kernel

/-- The block of a container is located where the layout says. -/
theorem shared_adaContainer : sampleLayout.Shared (sampleCall adaContainer) :=
  fun _ => ⟨by decide +kernel, by decide +kernel, by decide +kernel, by decide +kernel⟩

/-- The block of a bare cubin is of the same layout. -/
theorem shared_adaBuild : sampleLayout.Shared (sampleCall adaBuild) := by
  intro h
  rw [located_adaBuild] at h
  cases h

/-- The two sample blocks share one layout. -/
theorem shared_sampleCalls :
    ∀ c ∈ [sampleCall adaContainer] ++ [sampleCall adaBuild], sampleLayout.Shared c := by
  intro c hc
  rcases List.mem_cons.mp hc with hc | hc
  · rw [hc]
    exact shared_adaContainer
  · rw [List.mem_singleton.mp hc]
    exact shared_adaBuild

/-- After a container's block, the outcome for a bare cubin's is its own. -/
theorem cubinRoute_after_container :
    (hookedCreateCubinShaderExV2 (sampleEnvironment ampereBuild) 0 (some sampleDriver)
        (sampleCall adaBuild)
        (runCalls (sampleEnvironment ampereBuild) 0 sampleDriver [sampleCall adaContainer] none
          readyState).1
        (runCalls (sampleEnvironment ampereBuild) 0 sampleDriver [sampleCall adaContainer] none
          readyState).2).1 =
      (handled (sampleEnvironment ampereBuild) 0 sampleDriver (sampleCall adaBuild)
        sampleLayout.places readyState).1 := by
  have hactive : readyState.active = true := rfl
  have htarget : (targetSm 0 readyState).1 ≠ 0 := by decide +kernel
  have hlocated : located (sampleCall adaContainer) = true := by decide +kernel
  exact ((cubinRoute_orderFree readyState_reachable hactive htarget sampleLayout
    [sampleCall adaContainer] (sampleCall adaBuild) shared_sampleCalls).1
      (Or.inr ⟨_, List.mem_singleton_self _, hlocated⟩)).1

/-- The block of a bare cubin that does not run is refused after a container's
block and reaches the driver as it is when it comes first. -/
theorem first_cubin_reaches_driver :
    ¬Runnable (targetSm 0 readyState).1 adaBuild ∧
      (hookedCreateCubinShaderExV2 (sampleEnvironment ampereBuild) 0 (some sampleDriver)
        (sampleCall adaBuild) none readyState).1 = passed sampleDriver (sampleCall adaBuild) ∧
      ¬∀ calls : List Call, (∀ c ∈ calls ++ [sampleCall adaBuild], sampleLayout.Shared c) →
        (hookedCreateCubinShaderExV2 (sampleEnvironment ampereBuild) 0 (some sampleDriver)
            (sampleCall adaBuild)
            (runCalls (sampleEnvironment ampereBuild) 0 sampleDriver calls none readyState).1
            (runCalls (sampleEnvironment ampereBuild) 0 sampleDriver calls none readyState).2).1 =
          (hookedCreateCubinShaderExV2 (sampleEnvironment ampereBuild) 0 (some sampleDriver)
            (sampleCall adaBuild) none readyState).1 := by
  have hfirst : (hookedCreateCubinShaderExV2 (sampleEnvironment ampereBuild) 0 (some sampleDriver)
      (sampleCall adaBuild) none readyState).1 = passed sampleDriver (sampleCall adaBuild) :=
    outcome_of_unknown _ _ rfl located_adaBuild
  refine ⟨?_, hfirst, fun h => ?_⟩
  · have harch : canRun false (cubinArch adaBuild) (targetSm 0 readyState).1 = false := by
      decide +kernel
    have hdescribe : describe adaBuild = none := by decide +kernel
    rintro (hcubin | ⟨images, himages, _⟩)
    · rw [harch] at hcubin
      exact absurd hcubin.2 (by decide)
    · rw [hdescribe] at himages
      cases himages
  · have hreceived := congrArg (fun outcome => outcome.received.length) (h _ shared_sampleCalls)
    rw [hfirst] at hreceived
    have hrefused : (hookedCreateCubinShaderExV2 (sampleEnvironment ampereBuild) 0 (some sampleDriver)
        (sampleCall adaBuild)
        (runCalls (sampleEnvironment ampereBuild) 0 sampleDriver [sampleCall adaContainer] none
          readyState).1
        (runCalls (sampleEnvironment ampereBuild) 0 sampleDriver [sampleCall adaContainer] none
          readyState).2).1.received.length = 0 := by decide +kernel
    exact absurd (hrefused.symm.trans hreceived) (by decide)

end OpenDlssg.CubinRoute
