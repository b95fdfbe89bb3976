import OpenDlssg.CallTraces
import OpenDlssg.DriverProtocol

/-!
# What the driver is handed on the module routes

On Vulkan, and on Direct3D 12 from runtime 310.7, a runtime hands the
driver one image for a whole module. Calls on both routes interleave with each
other and with everything else the engine does: runtimes are indexed, the GPU is
identified, the target is resolved. Whatever the driver is handed in a call's
name is on one trace. None of it is a cubin or a container of images the target
cannot run; of PTX text nothing is said.
-/

namespace OpenDlssg.ModuleRoutes

open ByteCodec CallTraces CubinImage DriverProtocol FatbinContainer FatbinRetarget ProviderIndex
open ProviderLookup PtxSelection Substitute SubstituteSafety TransitionRuns

/-- An address; the null pointer is 0. -/
abbrev Pointer := ℕ

/-- `VkCuModuleCreateInfoNVX`. -/
structure CuModuleCreateInfo where
  type : UInt32
  reserved : UInt32
  next : Pointer
  /-- the image, `data_size` bytes; absent where `data` is null -/
  data : Option Bytes
  deriving DecidableEq

/-- The arguments of a call, on either route. An image is a pointer and a
length; the length is 32 bits wide on Direct3D 12. -/
inductive Arguments
  | direct3d12 (device : Pointer) (blob : Option Bytes) (outModule : Pointer)
  | vulkan (device : Pointer) (info : Option CuModuleCreateInfo) (allocator outModule : Pointer)
  deriving DecidableEq

/-- `VK_ERROR_UNKNOWN`, as the status is read in `CreateSubstituted`. -/
def kVkErrorUnknown : UInt32 := 0xFFFFFFF3

/-- `VK_ERROR_INITIALIZATION_FAILED`, the answer for an image that is refused. -/
def kVkErrorInitializationFailed : UInt32 := 0xFFFFFFFD

namespace Arguments

/-- The image a call carries. -/
def image : Arguments → Option Bytes
  | .direct3d12 _ blob _ => blob
  | .vulkan _ info _ _ => info.bind CuModuleCreateInfo.data

/-- Whether a decision is made for a call. -/
def intercepted : Arguments → Bool
  | .direct3d12 _ blob _ => blob.any (· ≠ [])
  | .vulkan _ info _ _ => info.isSome

/-- The bytes of an image that a 32-bit length covers. -/
def narrowed (image : Bytes) : Bytes := image.take (UInt32.ofNat image.length).toNat

/-- The arguments with another image and nothing else changed. -/
def withImage (image : Bytes) : Arguments → Arguments
  | .direct3d12 device _ outModule => .direct3d12 device (some (narrowed image)) outModule
  | .vulkan device info allocator outModule =>
    .vulkan device (info.map fun info => { info with data := some image }) allocator outModule

/-- The answer while the driver's function is not known. -/
def unknown : Arguments → UInt32
  | .direct3d12 .. => CubinRoute.kNvApiError
  | .vulkan .. => kVkErrorUnknown

/-- The answer where the image is refused. -/
def refused : Arguments → UInt32
  | .direct3d12 .. => CubinRoute.kNvApiError
  | .vulkan .. => kVkErrorInitializationFailed

end Arguments

/-- What a call asks for, and the runtime it comes from. -/
structure Request where
  arguments : Arguments
  caller : Option HModule

/-- Where a call is. -/
inductive Pc
  /-- before the driver's function is looked up -/
  | lookUp
  | decide
  /-- the driver is handed what came -/
  | pass
  | create (substitution : Substitution)
  /-- the driver refused the first image -/
  | retry (status : UInt32) (substitution : Substitution)
  | createAgain (substitution : Substitution)
  | report (status : UInt32)
  | returned (status : UInt32)

/-- What calls do that can be seen. -/
inductive Event
  | called (i : ℕ) (arguments : Arguments)
  | decided (i : ℕ) (target : UInt32) (decision : Decision)
  /-- the driver was handed arguments and gave a status -/
  | received (i : ℕ) (handed : Arguments) (status : UInt32)
  /-- `ReportDriverResult` was told a status -/
  | reported (i : ℕ) (status : UInt32)
  deriving DecidableEq

/-- The call an event belongs to. -/
def Event.call : Event → ℕ
  | .called i _ | .decided i _ _ | .received i _ _ | .reported i _ => i

/-- What a step is answered: the driver's function is known, what the CUDA
driver detects, and the driver's status. -/
structure Answer where
  original : Bool
  detected : UInt32
  status : UInt32

/-- Where a call goes once it is decided. -/
def decidedPc (arguments : Arguments) (answer : Substitute.Answer) : Pc :=
  match answer.decision with
  | .unchanged => .pass
  -- the Vulkan driver would accept the image and hang the GPU
  | .refused => .returned arguments.refused
  | .substituted => .create (substitutionOf answer)

/-- The next step of a call of `HookedCreateCuModule`, on either route. -/
def callStep (env : Environment) (engine : Substitute.State) (answer : Answer) (i : ℕ)
    (call : Call Request Pc) : Option (Pc × Substitute.State × List Event) :=
  let arguments := call.request.arguments
  match call.pc with
  | .lookUp =>
    if !answer.original then some (.returned arguments.unknown, engine, [])
    else if arguments.intercepted then some (.decide, engine, [])
    else some (.pass, engine, [])
  | .decide =>
    let decided := Substitute.decide env answer.detected call.request.caller arguments.image engine
    some (decidedPc arguments decided.1, decided.2,
      [.decided i (targetSm answer.detected engine).1 decided.1.decision])
  | .pass => some (.returned answer.status, engine, [.received i arguments answer.status])
  | .create substitution =>
    some (if answer.status = 0 then .report answer.status else .retry answer.status substitution,
      engine, [.received i (arguments.withImage substitution.image) answer.status])
  | .retry status substitution =>
    let retried := fallbackInto env answer.detected call.request.caller arguments.image substitution
      engine
    some (if retried.1 then .createAgain retried.2 else .report status, engine, [])
  | .createAgain substitution =>
    some (.report answer.status, engine,
      [.received i (arguments.withImage substitution.image) answer.status])
  | .report status => some (.returned status, engine, [.reported i status])
  | .returned _ => none

/-- A step's events are its call's. -/
theorem owner_callStep (env : Environment) (engine : Substitute.State) (answer : Answer) (i : ℕ)
    (call : Call Request Pc) (next : Pc × Substitute.State × List Event)
    (h : callStep env engine answer i call = some next) : ∀ event ∈ next.2.2, event.call = i := by
  obtain ⟨request, pc⟩ := call
  cases pc with
  | lookUp =>
    dsimp only [callStep] at h
    split at h
    · cases h
      simp
    · split at h <;> cases h <;> simp
  | returned status => cases h
  | _ =>
    cases h
    simp [Event.call]

/-- The two entry points, as calls of one routine beside the rest of the
engine. -/
def routes (env : Environment) :
    Routine Substitute.State Request Answer Pc Event Substitute.Action where
  start := .lookUp
  called i request := .called i request.arguments
  owner := Event.call
  step := callStep env
  other := (engine env).step
  owner_called _ _ := rfl
  owner_step := owner_callStep env

/-- The system of all calls on the two routes, and the engine. -/
abbrev system (env : Environment) := (routes env).system {}

/-! ### What may be handed over -/

/-- A cubin or a container of images. -/
def Recognised (blob : Bytes) : Prop := cubinArch blob ≠ 0 ∨ containerSize blob ≠ 0

/-- What the driver may be handed in a call's name, by what was decided for the
call before. Of an image passed on that is neither a cubin nor a container nothing
is asked. -/
inductive MayReceive (before : List Event) (i : ℕ) (arguments : Arguments) : Arguments → Prop
  /-- no image came -/
  | ignored (himage : arguments.intercepted = false) : MayReceive before i arguments arguments
  | passed (target : UInt32) (hdecided : .decided i target .unchanged ∈ before)
      (hruns : target ≠ 0 → ∀ blob, arguments.image = some blob → Recognised blob →
        Runnable target blob) : MayReceive before i arguments arguments
  | replaced (target : UInt32) (blob image : Bytes) (hdecided : .decided i target .substituted ∈ before)
      (htarget : target ≠ 0) (hblob : arguments.image = some blob)
      (himage : Recognised blob → Replacement target image ∧
        (arguments.withImage image).image = some image) :
      MayReceive before i arguments (arguments.withImage image)

/-- Every event is as it may be after those before it. -/
def Allowed (before : List Event) : Event → Prop
  | .received i handed _ => ∃ arguments, .called i arguments ∈ before ∧
      MayReceive before i arguments handed
  | .reported i status => ∃ handed, .received i handed status ∈ before
  | _ => True

/-- The events of a call that has returned, and its status. -/
inductive Complete (i : ℕ) (arguments : Arguments) : List Event → UInt32 → Prop
  | unknown : Complete i arguments [.called i arguments] arguments.unknown
  | ignored (status : UInt32) (himage : arguments.intercepted = false) :
      Complete i arguments [.called i arguments, .received i arguments status] status
  | passed (target status : UInt32) : Complete i arguments
      [.called i arguments, .decided i target .unchanged, .received i arguments status] status
  | refused (target : UInt32) : Complete i arguments
      [.called i arguments, .decided i target .refused] arguments.refused
  /-- the first image is accepted, or there is no other to try -/
  | once (target status : UInt32) (image : Bytes) : Complete i arguments
      [.called i arguments, .decided i target .substituted,
        .received i (arguments.withImage image) status, .reported i status] status
  | twice (target refusal status : UInt32) (image second : Bytes) (hrefusal : refusal ≠ 0) :
      Complete i arguments
        [.called i arguments, .decided i target .substituted,
          .received i (arguments.withImage image) refusal,
          .received i (arguments.withImage second) status, .reported i status] status

/-! ### A 32-bit length covers every replacement -/

/-- The size of a mapped section is a 32-bit field of its header. -/
def Mapped (process : Process) : Prop :=
  ∀ runtime, ∀ code ∈ process.readableSections runtime, code.size < 2 ^ 32

section Lengths

variable {env : Environment}

/-- A retargeted container is short, whatever its source expands to. -/
theorem length_retarget {lz4 : Bytes → ℕ → Option Bytes} {order : ArchSort} {container out : Bytes}
    {arch : UInt32} {choice : PtxSource} {report : Report}
    (h : (retarget lz4 order container arch choice report).1 = some out) :
    out.length < 2 ^ 32 := by
  obtain ⟨_, source, module, _, _, hsource, _, hrebuild, _⟩ := retarget_some h
  obtain ⟨images, hdescribe, hmem, hptx, hmodule, _⟩ :=
    rightSource_of_retargetSource hsource
  have hsmall := length_payload_le hdescribe hmem hmodule
  have hrewritten := length_rewriteTargetDirective_le module arch
  have hpadded := length_padded_le (rewriteTargetDirective module arch).1
  obtain ⟨_, _, rebuilt, _, _, hbytes, _, _, _, _, hptxEq⟩ :=
    rebuild_parts hdescribe hmem hptx (by omega) hrebuild
  have hfile := rebuilt.file.headerSize.toNat_lt
  have hentry := rebuilt.entryHeader_max
  have hlength := rebuilt.length_bytes
  have hmax : kMaxEntryHeaderSize = 0x200 := rfl
  rw [rebuilt.fatSize_eq, hptxEq] at hlength
  rw [← hbytes]
  omega

/-- A native twin lies in one section. -/
theorem length_native (hmapped : Mapped env.process) {indexes : Indexes}
    (hown : OwnImages env.process env.scanner indexes) {provider : Option HModule} {cubin : Bytes}
    {target : UInt32} {native : Blob}
    (h : findNativeCubin indexes provider cubin target = some native) :
    (env.process.memory.view native).length < 2 ^ 32 := by
  obtain ⟨runtime, _, found, _, _, _, hmem, _, _, rfl⟩ := findNativeCubin_eq_some hown h
  obtain ⟨⟨code, hcode, hcovers, hfits⟩, _, _⟩ := mem_indexedCubins hmem
  have hsize := hmapped runtime code hcode
  have hstart := hcovers.1
  rw [ProcessMemory.Memory.length_view]
  have hblob : found.blob.size = found.identity.size := rfl
  omega

/-- So is whatever replaces a cubin. -/
theorem length_decideCubin (hmapped : Mapped env.process) {indexes : Indexes}
    (hown : OwnImages env.process env.scanner indexes) (caller : Option HModule) (blob : Bytes)
    (arch target : UInt32) (source : PtxSource) {image : Bytes}
    (h : (decideCubin env indexes caller blob arch target source).image = some image) :
    image.length < 2 ^ 32 := by
  unfold decideCubin at h
  dsimp only at h
  split at h
  · cases h
  · cases hnative : findNativeCubin indexes (answeringProvider indexes caller) blob target with
    | some native =>
      rw [hnative] at h
      cases h
      exact length_native hmapped hown hnative
    | none =>
      rw [hnative] at h
      cases hcontainer : findContainerForCubin indexes (answeringProvider indexes caller) blob with
      | none =>
        rw [hcontainer] at h
        cases h
      | some container =>
        rw [hcontainer] at h
        dsimp only at h
        cases hretarget : (retarget env.lz4 env.order (env.process.memory.view container) target
            source {}).1 with
        | none =>
          rw [hretarget] at h
          cases h
        | some rebuilt =>
          rw [hretarget] at h
          cases h
          exact length_retarget hretarget

/-- And whatever replaces a cubin or a container. -/
theorem length_decideFrom (hmapped : Mapped env.process) {engine : Substitute.State}
    (hown : OwnImages env.process env.scanner engine.indexes) (caller : Option HModule)
    {blob : Bytes} (source : PtxSource) (target : UInt32) (hkind : Recognised blob) {image : Bytes}
    (h : (decideFrom env engine caller (some blob) source target).image = some image) :
    image.length < 2 ^ 32 := by
  unfold decideFrom at h
  dsimp only at h
  split at h
  · cases h
  · split at h
    · exact length_decideCubin hmapped hown caller blob _ target source h
    · rename_i harch
      rw [if_pos (hkind.resolve_left harch)] at h
      cases hretarget : (retarget env.lz4 env.order blob target source {}).1 with
      | some rebuilt =>
        rw [hretarget] at h
        cases h
        exact length_retarget hretarget
      | none =>
        rw [hretarget] at h
        dsimp only at h
        split at h
        · cases h
        · cases h

end Lengths

/-! ### What a call knows -/

section Steps

variable {env : Environment} {engine : Substitute.State} {trace : List Event} {i : ℕ}

/-- A call holds a replacement for the image it came with. -/
def Supplied (trace : List Event) (i : ℕ) (arguments : Arguments) (substitution : Substitution) :
    Prop :=
  ∃ target blob, .decided i target .substituted ∈ trace ∧ target ≠ 0 ∧ arguments.image = some blob ∧
    (Recognised blob → Replacement target substitution.image ∧
      (arguments.withImage substitution.image).image = some substitution.image)

/-- What a call knows, by where it is. -/
def Known (trace : List Event) (i : ℕ) (arguments : Arguments) : Pc → Prop
  | .lookUp => True
  | .decide => True
  | .pass => MayReceive trace i arguments arguments
  | .create substitution => Supplied trace i arguments substitution
  | .retry status substitution =>
    Supplied trace i arguments substitution ∧ ∃ handed, .received i handed status ∈ trace
  | .createAgain substitution => Supplied trace i arguments substitution
  | .report status => ∃ handed, .received i handed status ∈ trace
  | .returned _ => True

/-- The events of a call, by where it is. -/
def Past (i : ℕ) (request : Request) (events : List Event) : Pc → Prop
  | .lookUp | .decide => events = [.called i request.arguments]
  | .pass => events = [.called i request.arguments] ∧ request.arguments.intercepted = false ∨
      ∃ target, events = [.called i request.arguments, .decided i target .unchanged]
  | .create _ => ∃ target, events = [.called i request.arguments, .decided i target .substituted]
  | .retry status _ => status ≠ 0 ∧ ∃ target image,
      events = [.called i request.arguments, .decided i target .substituted,
        .received i (request.arguments.withImage image) status]
  | .createAgain _ => ∃ target refusal image, refusal ≠ 0 ∧
      events = [.called i request.arguments, .decided i target .substituted,
        .received i (request.arguments.withImage image) refusal]
  | .report status => (∃ target image,
      events = [.called i request.arguments, .decided i target .substituted,
        .received i (request.arguments.withImage image) status]) ∨
      ∃ target refusal image second, refusal ≠ 0 ∧
        events = [.called i request.arguments, .decided i target .substituted,
          .received i (request.arguments.withImage image) refusal,
          .received i (request.arguments.withImage second) status]
  | .returned status => Complete i request.arguments events status

/-- What holds of the engine and the trace. -/
structure Common (env : Environment) (engine : Substitute.State) (trace : List Event) : Prop where
  reached : (Substitute.engine env).Reachable engine
  /-- one architecture is decided for -/
  targets : ∀ i target decision, .decided i target decision ∈ trace → target ≠ 0 →
    Settled target ∅ engine
  allowed : Justified Allowed trace

theorem MayReceive.append {before : List Event} {arguments handed : Arguments}
    (h : MayReceive before i arguments handed) (events : List Event) :
    MayReceive (before ++ events) i arguments handed := by
  cases h with
  | ignored himage => exact .ignored himage
  | passed target hdecided hruns => exact .passed target (List.mem_append_left _ hdecided) hruns
  | replaced target blob image hdecided htarget hblob himage =>
    exact .replaced target blob image (List.mem_append_left _ hdecided) htarget hblob himage

theorem Supplied.append {arguments : Arguments} {substitution : Substitution}
    (h : Supplied trace i arguments substitution) (events : List Event) :
    Supplied (trace ++ events) i arguments substitution := by
  obtain ⟨target, blob, hdecided, hrest⟩ := h
  exact ⟨target, blob, List.mem_append_left _ hdecided, hrest⟩

theorem Known.append {arguments : Arguments} {pc : Pc} (h : Known trace i arguments pc)
    (events : List Event) : Known (trace ++ events) i arguments pc := by
  cases pc with
  | lookUp => trivial
  | decide => trivial
  | pass => exact MayReceive.append h events
  | create substitution => exact Supplied.append h events
  | retry status substitution =>
    obtain ⟨hsupplied, handed, hreceived⟩ := h
    exact ⟨hsupplied.append events, handed, List.mem_append_left _ hreceived⟩
  | createAgain substitution => exact Supplied.append h events
  | report status =>
    obtain ⟨handed, hreceived⟩ := h
    exact ⟨handed, List.mem_append_left _ hreceived⟩
  | returned status => trivial

/-- What holds a target holds it whatever the indexes. -/
theorem Settled.of_any {target : UInt32} {indexes : Indexes} (h : Settled target indexes engine) :
    Settled target ∅ engine :=
  ⟨h.active, h.target_eq, fun runtime index hlookup => by
    rw [AList.lookup_empty] at hlookup
    cases hlookup⟩

/-- A replacement is handed over whole. -/
theorem image_withImage {arguments : Arguments} {blob image : Bytes}
    (hblob : arguments.image = some blob) (hlength : image.length < 2 ^ 32) :
    (arguments.withImage image).image = some image := by
  cases arguments with
  | direct3d12 device blob outModule =>
    have hwhole : (UInt32.ofNat image.length).toNat = image.length :=
      UInt32.toNat_ofNat_of_lt' hlength
    simp only [Arguments.withImage, Arguments.narrowed, Arguments.image, hwhole, List.take_length]
  | vulkan device info allocator outModule =>
    cases info with
    | none => cases hblob
    | some info => rfl

/-- A decision to substitute supplies a replacement. -/
theorem supplied_of_decided (hmapped : Mapped env.process)
    (hown : OwnImages env.process env.scanner engine.indexes) {detected : UInt32}
    {caller : Option HModule} {arguments : Arguments}
    (h : (Substitute.decide env detected caller arguments.image engine).1.decision = .substituted)
    (hdecided : .decided i (targetSm detected engine).1 .substituted ∈ trace) :
    Supplied trace i arguments
      (substitutionOf (Substitute.decide env detected caller arguments.image engine).1) := by
  obtain ⟨_, source, hanswer⟩ := decide_substituted h
  have hfirst := h
  rw [hanswer] at hfirst
  cases hblob : arguments.image with
  | none =>
    rw [hblob] at hfirst
    cases hfirst
  | some blob =>
    rw [hblob] at h hfirst hanswer
    have htarget : (targetSm detected engine).1 ≠ 0 :=
      fun hzero => decideFrom_nothing (.inl hzero) hfirst
    refine ⟨_, blob, hdecided, htarget, hblob, fun hkind => ?_⟩
    obtain ⟨_, image, himage, hreplacement⟩ :=
      (decide_spec hown detected htarget caller hkind).2 h
    have hsame : (substitutionOf (Substitute.decide env detected caller (some blob) engine).1).image =
        image := by
      rw [substitutionOf, himage]
      rfl
    rw [hsame]
    refine ⟨hreplacement, image_withImage hblob ?_⟩
    rw [hanswer] at himage
    rw [← (targetSm_keeps detected engine).2] at hown
    exact length_decideFrom hmapped hown caller source _ hkind himage

/-- So does rebuilding one the driver refused. -/
theorem supplied_of_retried (hmapped : Mapped env.process) (h : Common env engine trace)
    {detected : UInt32} {caller : Option HModule} {arguments : Arguments}
    {substitution : Substitution} (hsupplied : Supplied trace i arguments substitution)
    (hretried : (fallbackInto env detected caller arguments.image substitution engine).1 = true) :
    Supplied trace i arguments
      (fallbackInto env detected caller arguments.image substitution engine).2 := by
  obtain ⟨target, blob, hdecided, htarget, hblob, _⟩ := hsupplied
  have hown := ownImages_of_reachable h.reached
  rw [hblob] at hretried ⊢
  obtain ⟨hdecision, _, image, himage, hinto⟩ :=
    fallbackInto_true (h.targets i target _ hdecided htarget) hretried
  refine ⟨target, blob, hdecided, htarget, hblob, fun hkind => ?_⟩
  obtain ⟨made, hmade, hreplacement⟩ := (decideFrom_spec hown caller .closest htarget hkind).2 hdecision
  have hsame : made = image := Option.some.inj (hmade.symm.trans himage)
  rw [hinto]
  rw [hsame] at hreplacement
  exact ⟨hreplacement, image_withImage hblob
    (length_decideFrom hmapped hown caller .closest target hkind himage)⟩

/-- A decision to pass an image on is for one that runs. -/
theorem mayReceive_of_unchanged (hown : OwnImages env.process env.scanner engine.indexes)
    {detected : UInt32} {caller : Option HModule} {arguments : Arguments}
    (h : (Substitute.decide env detected caller arguments.image engine).1.decision = .unchanged)
    (hdecided : .decided i (targetSm detected engine).1 .unchanged ∈ trace) :
    MayReceive trace i arguments arguments := by
  refine .passed _ hdecided fun htarget blob hblob hkind => ?_
  rw [hblob] at h
  exact (decide_spec hown detected htarget caller hkind).1 h

/-- The events of a step follow those before it. -/
theorem past_callStep {answer : Answer} {call : Call Request Pc}
    {next : Pc × Substitute.State × List Event} {events : List Event}
    (hpast : Past i call.request events call.pc) (h : callStep env engine answer i call = some next) :
    Past i call.request (events ++ next.2.2) next.1 := by
  obtain ⟨request, pc⟩ := call
  cases pc with
  | lookUp =>
    have hpast : events = [.called i request.arguments] := hpast
    dsimp only [callStep] at h
    rw [hpast]
    split at h
    · cases h
      exact .unknown
    · split at h
      · cases h
        rfl
      · rename_i himage
        cases h
        exact .inl ⟨rfl, Bool.not_eq_true _ ▸ himage⟩
  | decide =>
    have hpast : events = [.called i request.arguments] := hpast
    cases h
    rw [hpast]
    dsimp only
    unfold decidedPc
    split
    · rename_i hdecision
      exact .inr ⟨_, by rw [hdecision]; rfl⟩
    · rename_i hdecision
      rw [hdecision]
      exact .refused _
    · rename_i hdecision
      exact ⟨_, by rw [hdecision]; rfl⟩
  | pass =>
    cases h
    rcases hpast with ⟨hpast, himage⟩ | ⟨target, hpast⟩
    · rw [hpast]
      exact .ignored _ himage
    · rw [hpast]
      exact .passed _ _
  | create substitution =>
    obtain ⟨target, hpast⟩ := hpast
    cases h
    rw [hpast]
    dsimp only
    split
    · exact .inl ⟨target, substitution.image, rfl⟩
    · rename_i hrefusal
      exact ⟨hrefusal, target, substitution.image, rfl⟩
  | retry status substitution =>
    obtain ⟨hrefusal, target, image, hpast⟩ := hpast
    cases h
    rw [hpast]
    dsimp only
    split
    · exact ⟨target, status, image, hrefusal, rfl⟩
    · exact .inl ⟨target, image, rfl⟩
  | createAgain substitution =>
    obtain ⟨target, refusal, image, hrefusal, hpast⟩ := hpast
    cases h
    rw [hpast]
    exact .inr ⟨target, refusal, image, substitution.image, hrefusal, rfl⟩
  | report status =>
    cases h
    rcases hpast with ⟨target, image, hpast⟩ | ⟨target, refusal, image, second, hrefusal, hpast⟩
    · rw [hpast]
      exact .once target status image
    · rw [hpast]
      exact .twice target refusal status image second hrefusal
  | returned status => cases h

/-- A call that is made changes nothing. -/
theorem Common.make (h : Common env engine trace) (i : ℕ) (request : Request) :
    Common env engine (trace ++ [.called i request.arguments]) := by
  refine ⟨h.reached, ?_, h.allowed.concat trivial⟩
  intro j target decision hdecided
  rcases List.mem_append.mp hdecided with hin | hnow
  · exact h.targets j target decision hin
  · cases List.mem_singleton.mp hnow

/-- An event that is not a decision. -/
theorem Common.concat (h : Common env engine trace) {event : Event} (hevent : Allowed trace event)
    (hother : ∀ j target decision, event ≠ .decided j target decision) :
    Common env engine (trace ++ [event]) := by
  refine ⟨h.reached, ?_, h.allowed.concat hevent⟩
  intro j target decision hdecided
  rcases List.mem_append.mp hdecided with hin | hnow
  · exact h.targets j target decision hin
  · exact absurd (List.mem_singleton.mp hnow).symm (hother j target decision)

/-- A decision settles the target, or there is none. -/
theorem Common.decide (h : Common env engine trace) (detected : UInt32) (caller : Option HModule)
    (blob : Option Bytes) (i : ℕ) (decision : Decision) :
    Common env (Substitute.decide env detected caller blob engine).2
      (trace ++ [.decided i (targetSm detected engine).1 decision]) := by
  have hstep : (Substitute.engine env).step engine (.decide detected caller blob) =
      some (Substitute.decide env detected caller blob engine).2 := rfl
  refine ⟨.next h.reached trivial hstep, ?_, h.allowed.concat trivial⟩
  intro j target other hdecided htarget
  rcases List.mem_append.mp hdecided with hin | hnow
  · exact (h.targets j target other hin htarget).step hstep
  · cases List.mem_singleton.mp hnow
    exact Settled.of_any ((settled_targetSm htarget).logDecision _)

/-- What others do to the engine. -/
theorem Common.interfere (h : Common env engine trace) {action : Substitute.Action}
    {engine' : Substitute.State} (hstep : (Substitute.engine env).step engine action = some engine') :
    Common env engine' trace :=
  ⟨.next h.reached trivial hstep,
    fun j target decision hdecided htarget => (h.targets j target decision hdecided htarget).step hstep,
    h.allowed⟩

/-- A step of a call keeps what holds and what it knows. -/
theorem Common.advance (hmapped : Mapped env.process) (h : Common env engine trace) {answer : Answer}
    {call : Call Request Pc} {next : Pc × Substitute.State × List Event}
    (hcalled : .called i call.request.arguments ∈ trace)
    (hknown : Known trace i call.request.arguments call.pc)
    (hstep : callStep env engine answer i call = some next) :
    Common env next.2.1 (trace ++ next.2.2) ∧
      Known (trace ++ next.2.2) i call.request.arguments next.1 := by
  obtain ⟨request, pc⟩ := call
  have hown := ownImages_of_reachable h.reached
  have hsupplied : ∀ substitution status, Supplied trace i request.arguments substitution →
      Allowed trace (.received i (request.arguments.withImage substitution.image) status) := by
    rintro substitution status ⟨target, blob, hdecided, htarget, hblob, himage⟩
    exact ⟨request.arguments, hcalled, .replaced target blob _ hdecided htarget hblob himage⟩
  have hlast : ∀ event, event ∈ trace ++ [event] :=
    fun event => List.mem_append_right _ List.mem_cons_self
  cases pc with
  | lookUp =>
    dsimp only [callStep] at hstep
    split at hstep
    · cases hstep
      rw [List.append_nil]
      exact ⟨h, trivial⟩
    · split at hstep
      · cases hstep
        rw [List.append_nil]
        exact ⟨h, trivial⟩
      · rename_i himage
        cases hstep
        rw [List.append_nil]
        exact ⟨h, .ignored (Bool.not_eq_true _ ▸ himage)⟩
  | decide =>
    cases hstep
    refine ⟨h.decide _ _ _ i _, ?_⟩
    dsimp only
    unfold decidedPc
    split
    · rename_i hdecision
      rw [hdecision]
      exact mayReceive_of_unchanged hown hdecision (hlast _)
    · trivial
    · rename_i hdecision
      rw [hdecision]
      exact supplied_of_decided hmapped hown hdecision (hlast _)
  | pass =>
    cases hstep
    exact ⟨h.concat ⟨request.arguments, hcalled, hknown⟩ nofun, trivial⟩
  | create substitution =>
    cases hstep
    refine ⟨h.concat (hsupplied _ _ hknown) nofun, ?_⟩
    dsimp only
    split
    · exact ⟨_, hlast _⟩
    · exact ⟨Supplied.append hknown _, _, hlast _⟩
  | retry status substitution =>
    cases hstep
    rw [List.append_nil]
    refine ⟨h, ?_⟩
    dsimp only
    split
    · rename_i hretried
      exact supplied_of_retried hmapped h hknown.1 hretried
    · exact hknown.2
  | createAgain substitution =>
    cases hstep
    exact ⟨h.concat (hsupplied _ _ hknown) nofun, _, hlast _⟩
  | report status =>
    cases hstep
    exact ⟨h.concat hknown nofun, trivial⟩
  | returned status => cases hstep

end Steps

/-- What the two entry points rely on and keep. -/
def discipline {env : Environment} (hmapped : Mapped env.process) : Discipline (routes env) {} where
  Common := Common env
  Known _ trace i call :=
    .called i call.request.arguments ∈ trace ∧ Known trace i call.request.arguments call.pc
  Past := Past
  Change _ _ trace _ trace' := ∃ events, trace' = trace ++ events
  initially := ⟨.start rfl, nofun, Justified.nil⟩
  make i request _ h :=
    ⟨h.make i request, ⟨List.mem_append_right _ List.mem_cons_self, trivial⟩, _, rfl⟩
  first _ _ := rfl
  advance h hcall _ hstep := by
    obtain ⟨hcommon, hknown⟩ := h.advance hmapped hcall.1 hcall.2 hstep
    exact ⟨hcommon, ⟨List.mem_append_left _ hcall.1, hknown⟩, _, rfl⟩
  onward := past_callStep
  interfere h hstep := ⟨h.interfere hstep, [], (List.append_nil _).symm⟩
  stable _ h hchange := by
    obtain ⟨events, hgrown⟩ := hchange
    rw [hgrown]
    exact ⟨List.mem_append_left _ h.1, h.2.append events⟩

/-- However calls on the two routes interleave with each other and with the rest
of the engine, a cubin or a container the driver is handed runs on the target or
was made for it, unless the engine had no target when the call was decided; all
decisions that had one had the same. A call refused hands nothing over, and one
whose image is replaced hands over one replacement, or another after the driver
refused the first, and reports the last status. -/
theorem driver_receives_runnable {env : Environment} (hmapped : Mapped env.process)
    {s : State Substitute.State Request Pc Event} (h : (system env).Reachable s) :
    Justified Allowed s.trace ∧
      (∀ i target decision, .decided i target decision ∈ s.trace → target ≠ 0 →
        s.shared.target = some target) ∧
      ∀ i request status, s.calls i = some ⟨request, .returned status⟩ →
        Complete i request.arguments ((routes env).own s.trace i) status := by
  have hkeeps := (discipline hmapped).keeps_of_reachable h
  refine ⟨hkeeps.common.allowed, ?_, fun i request status hcall => hkeeps.past i _ hcall⟩
  intro i target decision hdecided htarget
  exact (hkeeps.common.targets i target decision hdecided htarget).target_eq

/-- A container with builds for two newer architectures comes over Vulkan, whose
driver refuses the first replacement, and over Direct3D 12 in between. -/
def crossingRun : List (Action Request Answer Substitute.Action) :=
  let accepts : Answer := ⟨true, 0, 0⟩
  [.other (.configure { targetSm := 86, multiFrame := true }), .other (.activate 0 0),
    .make 0 ⟨.vulkan 1 (some ⟨0, 0, 0, some bothBuilds⟩) 0 2, none⟩, .advance 0 accepts,
    .make 1 ⟨.direct3d12 1 (some bothBuilds) 2, none⟩, .advance 0 accepts, .advance 1 accepts,
    .advance 0 ⟨true, 0, 218⟩, .advance 1 accepts, .advance 0 accepts, .advance 1 accepts,
    .other (.buildProviderIndex (some 7)), .advance 0 accepts, .advance 0 accepts,
    .advance 1 accepts]

/-- Where it ends. -/
def crossingState : State Substitute.State Request Pc Event :=
  ((system (sampleEnvironment [])).runUnder (fun _ _ => True) { shared := {} } crossingRun).getD
    { shared := {} }

theorem mapped_sampleEnvironment : Mapped (sampleEnvironment []).process := by
  intro runtime code hcode
  rw [List.mem_singleton.mp hcode]
  decide

theorem driver_receives_runnable_crossing :
    .decided 0 86 .substituted ∈ crossingState.trace ∧ .reported 0 0 ∈ crossingState.trace ∧
      .reported 1 0 ∈ crossingState.trace ∧ Justified Allowed crossingState.trace :=
  ⟨by decide +kernel, by decide +kernel, by decide +kernel,
    (driver_receives_runnable mapped_sampleEnvironment
      (System.reachable_getD_runUnder (.start rfl) (by decide +kernel))).1⟩

end OpenDlssg.ModuleRoutes
