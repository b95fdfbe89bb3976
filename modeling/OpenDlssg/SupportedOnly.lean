import OpenDlssg.ArchAnswers
import OpenDlssg.ModuleRoutes
import OpenDlssg.VulkanResolutions

/-!
# Nothing changes before a supported GPU

Every hook and the worker run in one process, their calls in any order and a
step at a time. Until NVAPI has answered with an architecture the engine enables,
callers are told what the driver answered, kernels reach the driver as they came,
runtimes and plugins are left as they are and Reflex is not wrapped.
-/

namespace OpenDlssg.SupportedOnly

open ArchAnswers ByteCodec CallTraces CubinRoute ProviderIndex SpoofCallers Substitute TransitionRuns
open VulkanResolutions (Function)
open WidePaths (WString)

/-- Whether the Reflex wrappers are handed out. -/
inductive Wrapping
  | undecided
  | wrap
  | leave
  deriving DecidableEq

/-- What the calls share: the record of architectures with the engine, the fields
known of cubin parameter blocks, and what was decided about Reflex. -/
structure Shared where
  arch : ArchAnswers.State := {}
  found : Option CubinParams.BlobFields := none
  wrapping : Wrapping := .undecided
  presentPacingFix : Bool := true

/-- What surrounds the process: the engine's surroundings, and the driver of the
cubin route. -/
structure Surroundings where
  engine : Environment
  driver : Driver

/-- What is called: the hooks, and what the loader does with a component. -/
inductive Request
  /-- `NvAPI_GPU_GetArchInfo`, by a module -/
  | getArchInfo (caller : Option WString)
  | setRawScgPriority
  | createCubinShader (call : CubinRoute.Call)
  | createCuModule (request : ModuleRoutes.Request)
  /-- `MaybeUnlockMultiFrame` -/
  | unlockMultiFrame (module : HModule) (atLoad : Bool)
  /-- `PreparePlugin`, or the worker's scan -/
  | patchPlugin (module : HModule) (atLoad : Bool)
  /-- `VulkanWrapper` -/
  | wrapper (function : Function)

/-- Where a call is. -/
inductive Pc
  | start
  | record (status : UInt32) (info : ArchInfo)
  | activate (status : UInt32) (info : ArchInfo)
  | tell (status : UInt32) (info : ArchInfo)
  | passScg
  | passCubin
  | handleCubin
  | cuModule (pc : ModuleRoutes.Pc)
  | claimGates
  | patch
  | readArchitecture
  | exchangeWrapping (architecture : Architecture)
  | readWrapping
  | returned

/-- What calls do that others can see. -/
inductive Event
  | called (i : ℕ) (request : Request)
  /-- NVAPI's own answer about a GPU -/
  | answered (i : ℕ) (status : UInt32) (info : Option ArchInfo)
  /-- what the caller got, beside what NVAPI answered -/
  | told (i : ℕ) (info given : Option ArchInfo)
  /-- `NvAPI_D3D12_SetRawScgPriority` was answered without the driver -/
  | stubbed (i : ℕ)
  | scgPassed (i : ℕ)
  /-- the driver was handed the block as it came -/
  | cubinPassed (i : ℕ) (outcome : Outcome)
  /-- the image of the block was decided on -/
  | cubinHandled (i : ℕ) (outcome : Outcome)
  | cuModule (event : ModuleRoutes.Event)
  /-- the runtime's gates were claimed, to be moved -/
  | unlocked (i : ℕ) (module : HModule)
  /-- `multi_frame_deferred` -/
  | deferred (i : ℕ)
  /-- `streamline::PatchPlugin` was called -/
  | patched (i : ℕ) (module : HModule) (atLoad : Bool)
  /-- the wrapper of the kernel route was given, which decides call by call -/
  | kernelWrapper (i : ℕ) (function : Function)
  /-- a Reflex wrapper was given, or none -/
  | reflexWrapper (i : ℕ) (function : Function) (wrapped : Bool)
  /-- `reflex_pacing_skipped` -/
  | skipped (i : ℕ)

/-- The call an event belongs to. -/
def Event.call : Event → ℕ
  | .called i _ | .answered i _ _ | .told i _ _ | .stubbed i | .scgPassed i | .cubinPassed i _
  | .cubinHandled i _ | .unlocked i _ | .deferred i | .patched i _ _ | .kernelWrapper i _
  | .reflexWrapper i _ _ | .skipped i => i
  | .cuModule event => event.call

/-- What a step is answered: the driver's function is known, its status, what it
tells of the GPU, what CUDA detects, and whether a claim is the first. -/
structure Answer where
  original : Bool := true
  status : UInt32 := 0
  info : Option ArchInfo := none
  detected : UInt32 := 0
  claimed : Bool := true

/-- A step of a call, what it leaves and what can be seen of it. -/
abbrev Stepped := Option (Pc × Shared × List Event)

/-- The shared state with the record of architectures replaced. -/
def Shared.withArch (shared : Shared) (arch : ArchAnswers.State) : Shared :=
  { shared with arch := arch }

/-- The shared state with the engine replaced. -/
def Shared.withEngine (shared : Shared) (engine : Substitute.State) : Shared :=
  shared.withArch { shared.arch with engine := engine }

/-- A step of `HookedGetArchInfo`. -/
def archStep (shared : Shared) (answer : Answer) (i : ℕ) (caller : Option WString) : Pc → Stepped
  | .start =>
    if !answer.original then some (.returned, shared, [])
    else
      match answer.info with
      | none => some (.returned, shared, [.answered i answer.status none])
      | some info =>
        some (.record answer.status info, shared, [.answered i answer.status (some info)])
  | .record status info =>
    let recorded := shared.withArch (recordAnswer info shared.arch)
    if status ≠ 0 ∨ !knownVersion info then
      some (.returned, shared, [.told i (some info) (some info)])
    else if !isSupported info.architecture then
      some (.returned, recorded, [.told i (some info) (some info)])
    else some (.activate status info, recorded, [])
  | .activate status info =>
    some (.tell status info, shared.withArch (activateFor info shared.arch), [])
  | .tell _ info =>
    let given :=
      if !callerIsSpoofed shared.arch.spoofCallers caller || !shared.arch.spoofEnabled then info
      else { info with architecture := kNvApiAda }
    some (.returned, shared, [.told i (some info) (some given)])
  | _ => none

/-- A step of `HookedSetRawScgPriority`. -/
def scgStep (shared : Shared) (i : ℕ) : Pc → Stepped
  | .start =>
    if shared.arch.spoofEnabled && shared.arch.stubScgPriority &&
        isSupported shared.arch.realArchitecture then
      some (.returned, shared, [.stubbed i])
    else some (.passScg, shared, [])
  | .passScg => some (.returned, shared, [.scgPassed i])
  | _ => none

/-- A step of `HookedCreateCubinShaderExV2`. -/
def cubinStep (env : Surroundings) (shared : Shared) (answer : Answer) (i : ℕ)
    (call : CubinRoute.Call) : Pc → Stepped
  | .start =>
    if !answer.original then some (.returned, shared, [])
    else some (if shared.arch.engine.active then .handleCubin else .passCubin, shared, [])
  | .passCubin => some (.returned, shared, [.cubinPassed i (passed env.driver call)])
  | .handleCubin =>
    let handled := hookedCreateCubinShaderExV2 env.engine answer.detected (some env.driver) call
      shared.found shared.arch.engine
    some (.returned, { shared.withEngine handled.2.2 with found := handled.2.1 },
      [.cubinHandled i handled.1])
  | _ => none

/-- A step of `HookedCreateCuModule`, on either route. -/
def cuModuleStep (env : Surroundings) (shared : Shared) (answer : Answer) (i : ℕ)
    (request : ModuleRoutes.Request) (pc : ModuleRoutes.Pc) : Stepped :=
  let answered : ModuleRoutes.Answer := ⟨answer.original, answer.detected, answer.status⟩
  (ModuleRoutes.callStep env.engine shared.arch.engine answered i ⟨request, pc⟩).map fun next =>
    (.cuModule next.1, shared.withEngine next.2.1, next.2.2.map .cuModule)

/-- A step of `MaybeUnlockMultiFrame`. -/
def unlockStep (shared : Shared) (answer : Answer) (i : ℕ) (module : HModule) (atLoad : Bool) :
    Pc → Stepped
  | .start =>
    match realArchitecture shared.arch with
    | .supported => some (.claimGates, shared, [])
    | .unknown => some (.returned, shared, if atLoad then [.deferred i] else [])
    | .notNeeded => some (.returned, shared, [])
  | .claimGates => some (.returned, shared, if answer.claimed then [.unlocked i module] else [])
  | _ => none

/-- A step of `PreparePlugin`, and of the worker's scan. -/
def patchStep (shared : Shared) (i : ℕ) (module : HModule) (atLoad : Bool) : Pc → Stepped
  | .start =>
    if realArchitecture shared.arch = .supported then some (.patch, shared, [])
    else some (.returned, shared, [])
  | .patch => some (.returned, shared, [.patched i module atLoad])
  | _ => none

/-- The wrapper a call gives by what was decided. -/
def given (i : ℕ) (function : Function) (wrapping : Wrapping) : Event :=
  .reflexWrapper i function (wrapping = .wrap)

/-- A step of `ShouldWrap`, in `ReflexWrapper`. -/
def wrapStep (shared : Shared) (i : ℕ) (function : Function) : Pc → Stepped
  | .start =>
    if shared.wrapping = .undecided then some (.readArchitecture, shared, [])
    else some (.returned, shared, [given i function shared.wrapping])
  | .readArchitecture => some (.exchangeWrapping (realArchitecture shared.arch), shared, [])
  | .exchangeWrapping architecture =>
    if shared.wrapping = .undecided then
      let wrap := architecture = .supported ∧ shared.presentPacingFix
      some (.readWrapping, { shared with wrapping := if wrap then .wrap else .leave },
        if architecture = .unknown then [.skipped i] else [])
    else some (.readWrapping, shared, [])
  | .readWrapping => some (.returned, shared, [given i function shared.wrapping])
  | _ => none

/-- A step of `VulkanWrapper`. -/
def wrapperStep (shared : Shared) (i : ℕ) (function : Function) (pc : Pc) : Stepped :=
  match function with
  | .createCuModule | .createCuFunction =>
    match pc with
    | .start => some (.returned, shared, [.kernelWrapper i function])
    | _ => none
  | .setLatencySleepMode | .latencySleep => wrapStep shared i function pc

/-- The next step of a call. -/
def callStep (env : Surroundings) (shared : Shared) (answer : Answer) (i : ℕ)
    (call : CallTraces.Call Request Pc) : Stepped :=
  match call.request with
  | .getArchInfo caller => archStep shared answer i caller call.pc
  | .setRawScgPriority => scgStep shared i call.pc
  | .createCubinShader request => cubinStep env shared answer i request call.pc
  | .createCuModule request =>
    match call.pc with
    | .start => cuModuleStep env shared answer i request .lookUp
    | .cuModule pc => cuModuleStep env shared answer i request pc
    | _ => none
  | .unlockMultiFrame module atLoad => unlockStep shared answer i module atLoad call.pc
  | .patchPlugin module atLoad => patchStep shared i module atLoad call.pc
  | .wrapper function => wrapperStep shared i function call.pc

/-- What else the process does: its settings, and the engine's calls that do not
come from these hooks. -/
inductive Other
  | setSpoofEnabled (enabled : Bool)
  | setStubScgPriority (enabled : Bool)
  | setSpoofCallers (modules : List WString)
  | setPresentPacingFix (enabled : Bool)
  | engine (action : Substitute.Action)

/-- Only an answer of NVAPI activates the engine. -/
def otherStep (env : Surroundings) (shared : Shared) : Other → Option Shared
  | .setSpoofEnabled enabled => some (shared.withArch { shared.arch with spoofEnabled := enabled })
  | .setStubScgPriority enabled =>
    some (shared.withArch { shared.arch with stubScgPriority := enabled })
  | .setSpoofCallers modules => some (shared.withArch { shared.arch with spoofCallers := modules })
  | .setPresentPacingFix enabled => some { shared with presentPacingFix := enabled }
  | .engine action =>
    if activates action then none
    else ((Substitute.engine env.engine).step shared.arch.engine action).map shared.withEngine

section Owners

variable {env : Surroundings} {shared : Shared} {answer : Answer} {i : ℕ} {pc : Pc}
  {next : Pc × Shared × List Event}

/-- The events of an architecture query are its own. -/
theorem owner_archStep {caller : Option WString}
    (h : archStep shared answer i caller pc = some next) : ∀ event ∈ next.2.2, event.call = i := by
  cases pc with
  | start =>
    dsimp only [archStep] at h
    split at h
    · cases h
      simp
    · split at h <;> cases h <;> simp [Event.call]
  | record status info =>
    dsimp only [archStep] at h
    split at h
    · cases h
      simp [Event.call]
    · split at h <;> cases h <;> simp [Event.call]
  | activate status info =>
    cases h
    simp
  | tell status info =>
    cases h
    simp [Event.call]
  | _ => cases h

/-- So are those of a module creation. -/
theorem owner_cuModuleStep {request : ModuleRoutes.Request} {at' : ModuleRoutes.Pc}
    (h : cuModuleStep env shared answer i request at' = some next) :
    ∀ event ∈ next.2.2, event.call = i := by
  obtain ⟨stepped, hstepped, rfl⟩ := Option.map_eq_some_iff.mp h
  intro event hevent
  obtain ⟨inner, hinner, rfl⟩ := List.mem_map.mp hevent
  exact ModuleRoutes.owner_callStep _ _ _ _ _ _ hstepped inner hinner

/-- And those of resolving a function of Reflex. -/
theorem owner_wrapStep {function : Function} (h : wrapStep shared i function pc = some next) :
    ∀ event ∈ next.2.2, event.call = i := by
  cases pc with
  | start =>
    dsimp only [wrapStep] at h
    split at h <;> cases h <;> simp [Event.call, given]
  | readArchitecture =>
    cases h
    simp
  | exchangeWrapping architecture =>
    dsimp only [wrapStep] at h
    split at h
    · cases h
      dsimp only
      split <;> simp [Event.call]
    · cases h
      simp
  | readWrapping =>
    cases h
    simp [Event.call, given]
  | _ => cases h

/-- A step's events are its call's. -/
theorem owner_callStep (env : Surroundings) (shared : Shared) (answer : Answer) (i : ℕ)
    (call : CallTraces.Call Request Pc) (next : Pc × Shared × List Event)
    (h : callStep env shared answer i call = some next) : ∀ event ∈ next.2.2, event.call = i := by
  obtain ⟨request, pc⟩ := call
  cases request with
  | getArchInfo caller => exact owner_archStep h
  | setRawScgPriority =>
    cases pc with
    | start =>
      dsimp only [callStep, scgStep] at h
      split at h <;> cases h <;> simp [Event.call]
    | passScg =>
      cases h
      simp [Event.call]
    | _ => cases h
  | createCubinShader request =>
    cases pc with
    | start =>
      dsimp only [callStep, cubinStep] at h
      split at h <;> cases h <;> simp
    | passCubin =>
      cases h
      simp [Event.call]
    | handleCubin =>
      cases h
      simp [Event.call]
    | _ => cases h
  | createCuModule request =>
    cases pc with
    | start => exact owner_cuModuleStep h
    | cuModule at' => exact owner_cuModuleStep h
    | _ => cases h
  | unlockMultiFrame module atLoad =>
    cases pc with
    | start =>
      dsimp only [callStep, unlockStep] at h
      split at h
      · cases h
        simp
      · cases h
        dsimp only
        split <;> simp [Event.call]
      · cases h
        simp
    | claimGates =>
      cases h
      dsimp only
      split <;> simp [Event.call]
    | _ => cases h
  | patchPlugin module atLoad =>
    cases pc with
    | start =>
      dsimp only [callStep, patchStep] at h
      split at h <;> cases h <;> simp
    | patch =>
      cases h
      simp [Event.call]
    | _ => cases h
  | wrapper function =>
    cases function with
    | setLatencySleepMode => exact owner_wrapStep h
    | latencySleep => exact owner_wrapStep h
    | _ =>
      cases pc with
      | start =>
        cases h
        simp [Event.call]
      | _ => cases h

end Owners

/-- All hooks and the worker, as calls of one routine. -/
def calls (env : Surroundings) : Routine Shared Request Answer Pc Event Other where
  start := .start
  called := .called
  owner := Event.call
  step := callStep env
  other := otherStep env
  owner_called _ _ := rfl
  owner_step := owner_callStep env

/-- The system of all calls in a process. -/
abbrev system (env : Surroundings) := (calls env).system {}

/-! ### What may happen -/

/-- NVAPI answered with an architecture the engine enables. -/
def Event.enables : Event → Bool
  | .answered _ status (some info) =>
    status == 0 && knownVersion info && isSupported info.architecture
  | _ => false

/-- It has done so. -/
def Supported (trace : List Event) : Prop := ∃ event ∈ trace, event.enables = true

/-- An event that changes what a game, a runtime or the driver sees. -/
def Event.changes : Event → Prop
  | .told _ info given => given ≠ info
  | .stubbed _ | .cubinHandled .. | .unlocked .. | .patched .. => True
  | .cuModule (.decided _ _ decision) => decision ≠ .unchanged
  | .reflexWrapper _ _ wrapped => wrapped = true
  | _ => False

/-- Nothing is changed before a supported answer. -/
def Allowed (before : List Event) (event : Event) : Prop := event.changes → Supported before

/-- Once NVAPI has answered with a supported GPU, it has. -/
theorem Supported.append {trace : List Event} (h : Supported trace) (events : List Event) :
    Supported (trace ++ events) := by
  obtain ⟨event, hevent, henables⟩ := h
  exact ⟨event, List.mem_append_left _ hevent, henables⟩

/-- What is done where nothing is changed. -/
inductive Untouched (env : Surroundings) (i : ℕ) : Request → List Event → Prop
  /-- the driver's function is not known, or there is nothing to be done -/
  | nothing (request : Request) : Untouched env i request [.called i request]
  | answered (caller : Option WString) (status : UInt32) :
    Untouched env i (.getArchInfo caller)
      [.called i (.getArchInfo caller), .answered i status none]
  | told (caller : Option WString) (status : UInt32) (info : ArchInfo) :
    Untouched env i (.getArchInfo caller)
      [.called i (.getArchInfo caller), .answered i status (some info),
        .told i (some info) (some info)]
  | scgPassed : Untouched env i .setRawScgPriority [.called i .setRawScgPriority, .scgPassed i]
  | cubinPassed (call : CubinRoute.Call) : Untouched env i (.createCubinShader call)
    [.called i (.createCubinShader call), .cubinPassed i (passed env.driver call)]
  | ignored (request : ModuleRoutes.Request) (status : UInt32) :
    Untouched env i (.createCuModule request)
      [.called i (.createCuModule request), .cuModule (.received i request.arguments status)]
  | unchanged (request : ModuleRoutes.Request) (target status : UInt32) :
    Untouched env i (.createCuModule request)
      [.called i (.createCuModule request), .cuModule (.decided i target .unchanged),
        .cuModule (.received i request.arguments status)]
  | deferred (module : HModule) : Untouched env i (.unlockMultiFrame module true)
    [.called i (.unlockMultiFrame module true), .deferred i]
  | kernelWrapper (function : Function) : Untouched env i (.wrapper function)
    [.called i (.wrapper function), .kernelWrapper i function]
  | unwrapped (function : Function) (skipped : List Event) : skipped = [] ∨ skipped = [.skipped i] →
    Untouched env i (.wrapper function)
      (.called i (.wrapper function) :: skipped ++ [.reflexWrapper i function false])

/-- A call that has returned. -/
def Pc.done : Pc → Bool
  | .returned | .cuModule (.returned _) => true
  | _ => false

/-- What a call that changed nothing has done, by where it is. -/
def Plain (env : Surroundings) (i : ℕ) (request : Request) (events : List Event) : Pc → Prop
  | .returned | .cuModule (.returned _) => Untouched env i request events
  | .record status info | .activate status info | .tell status info =>
    events = [.called i request, .answered i status (some info)]
  | .cuModule .pass => events = [.called i request] ∨
      ∃ target, events = [.called i request, .cuModule (.decided i target .unchanged)]
  | .cuModule .lookUp | .cuModule .decide => events = [.called i request]
  -- a module that is replaced was decided so
  | .cuModule _ => False
  | .readWrapping => ∃ skipped, events = .called i request :: skipped ∧
      (skipped = [] ∨ skipped = [.skipped i])
  | _ => events = [.called i request]

/-- The events of a call, by where it is: one of them is a change, or none. -/
def Past (env : Surroundings) (i : ℕ) (request : Request) (events : List Event) (pc : Pc) : Prop :=
  (∃ event ∈ events, event.changes) ∨ Plain env i request events pc

section Plainly

variable {env : Surroundings} {shared : Shared} {answer : Answer} {i : ℕ} {pc : Pc}
  {next : Pc × Shared × List Event} {events : List Event}

/-- A call whose last event changes something is accounted for by that. -/
theorem Past.of_last {request : Request} {event : Event} (h : event.changes) :
    Past env i request (events ++ [event]) pc :=
  .inl ⟨event, List.mem_append_right _ List.mem_cons_self, h⟩

/-- An architecture query that has changed nothing goes on so, or says what it changed. -/
theorem plain_archStep {caller : Option WString}
    (hplain : Plain env i (.getArchInfo caller) events pc)
    (h : archStep shared answer i caller pc = some next) :
    Past env i (.getArchInfo caller) (events ++ next.2.2) next.1 := by
  cases pc with
  | start =>
    have hplain : events = [.called i (.getArchInfo caller)] := hplain
    rw [hplain]
    dsimp only [archStep] at h
    split at h
    · cases h
      exact .inr (.nothing _)
    · split at h
      · cases h
        exact .inr (.answered caller answer.status)
      · cases h
        exact .inr rfl
  | record status info =>
    have hplain : events = [.called i (.getArchInfo caller), .answered i status (some info)] := hplain
    rw [hplain]
    dsimp only [archStep] at h
    split at h
    · cases h
      exact .inr (.told caller status info)
    · split at h
      · cases h
        exact .inr (.told caller status info)
      · cases h
        exact .inr rfl
  | activate status info =>
    cases h
    rw [List.append_nil]
    exact .inr hplain
  | tell status info =>
    have hplain : events = [.called i (.getArchInfo caller), .answered i status (some info)] := hplain
    cases h
    dsimp only
    split
    · rw [hplain]
      exact .inr (.told caller status info)
    · by_cases hsame : kNvApiAda = info.architecture
      · rw [hplain, hsame]
        exact .inr (.told caller status info)
      · refine .of_last fun hgiven => hsame ?_
        exact congrArg ArchInfo.architecture (Option.some.inj hgiven)
  | _ => cases h

/-- So does a module creation. -/
theorem plain_cuModuleStep {request : ModuleRoutes.Request} {at' : ModuleRoutes.Pc}
    (hplain : Plain env i (.createCuModule request) events (.cuModule at'))
    (h : cuModuleStep env shared answer i request at' = some next) :
    Past env i (.createCuModule request) (events ++ next.2.2) next.1 := by
  obtain ⟨stepped, hstepped, rfl⟩ := Option.map_eq_some_iff.mp h
  cases at' with
  | lookUp =>
    have hplain : events = [.called i (.createCuModule request)] := hplain
    rw [hplain]
    dsimp only [ModuleRoutes.callStep] at hstepped
    split at hstepped
    · cases hstepped
      exact .inr (.nothing _)
    · split at hstepped
      · cases hstepped
        exact .inr rfl
      · cases hstepped
        exact .inr (.inl rfl)
  | decide =>
    have hplain : events = [.called i (.createCuModule request)] := hplain
    cases hstepped
    by_cases hdecision : (Substitute.decide env.engine answer.detected request.caller
        request.arguments.image shared.arch.engine).1.decision = .unchanged
    · have hpc : ModuleRoutes.decidedPc request.arguments (Substitute.decide env.engine
          answer.detected request.caller request.arguments.image shared.arch.engine).1 = .pass := by
        unfold ModuleRoutes.decidedPc
        rw [hdecision]
      dsimp only
      rw [hplain, hpc, hdecision]
      exact .inr (.inr ⟨_, rfl⟩)
    · exact .of_last hdecision
  | pass =>
    cases hstepped
    rcases hplain with hplain | ⟨target, hplain⟩
    · rw [hplain]
      exact .inr (.ignored request answer.status)
    · rw [hplain]
      exact .inr (.unchanged request target answer.status)
  | returned status => cases hstepped
  | _ => exact hplain.elim

/-- And so does resolving a function of Reflex. -/
theorem plain_wrapStep {function : Function} (hplain : Plain env i (.wrapper function) events pc)
    (h : wrapStep shared i function pc = some next) :
    Past env i (.wrapper function) (events ++ next.2.2) next.1 := by
  have hgiven : ∀ skipped : List Event, events = .called i (.wrapper function) :: skipped →
      skipped = [] ∨ skipped = [.skipped i] → ∀ wrapping,
      Past env i (.wrapper function) (events ++ [given i function wrapping]) .returned := by
    intro skipped hevents hskipped wrapping
    by_cases hwrap : wrapping = .wrap
    · refine .of_last ?_
      exact decide_eq_true hwrap
    · unfold given
      rw [hevents, decide_eq_false hwrap]
      exact .inr (.unwrapped function skipped hskipped)
  cases pc with
  | start =>
    have hplain : events = [.called i (.wrapper function)] := hplain
    dsimp only [wrapStep] at h
    split at h
    · cases h
      rw [hplain]
      exact .inr rfl
    · cases h
      exact hgiven [] hplain (.inl rfl) shared.wrapping
  | readArchitecture =>
    cases h
    rw [List.append_nil]
    exact .inr hplain
  | exchangeWrapping architecture =>
    have hplain : events = [.called i (.wrapper function)] := hplain
    rw [hplain]
    dsimp only [wrapStep] at h
    split at h
    · cases h
      refine .inr ⟨if architecture = .unknown then [.skipped i] else [], rfl, ?_⟩
      split
      · exact .inr rfl
      · exact .inl rfl
    · cases h
      exact .inr ⟨[], rfl, .inl rfl⟩
  | readWrapping =>
    obtain ⟨skipped, hevents, hskipped⟩ := hplain
    cases h
    exact hgiven skipped hevents hskipped shared.wrapping
  | _ => cases h

/-- What a call has done goes on. -/
theorem past_callStep {call : CallTraces.Call Request Pc}
    (hpast : Past env i call.request events call.pc)
    (h : callStep env shared answer i call = some next) :
    Past env i call.request (events ++ next.2.2) next.1 := by
  rcases hpast with ⟨event, hevent, hchanges⟩ | hplain
  · exact .inl ⟨event, List.mem_append_left _ hevent, hchanges⟩
  · obtain ⟨request, pc⟩ := call
    cases request with
    | getArchInfo caller => exact plain_archStep hplain h
    | setRawScgPriority =>
      cases pc with
      | start =>
        dsimp only [callStep, scgStep] at h
        split at h
        · cases h
          exact .of_last trivial
        · cases h
          rw [List.append_nil]
          exact .inr hplain
      | passScg =>
        have hplain : events = [.called i .setRawScgPriority] := hplain
        cases h
        rw [hplain]
        exact .inr .scgPassed
      | _ => cases h
    | createCubinShader request =>
      cases pc with
      | start =>
        have hplain : events = [.called i (.createCubinShader request)] := hplain
        rw [hplain]
        dsimp only [callStep, cubinStep] at h
        split at h
        · cases h
          exact .inr (.nothing _)
        · cases h
          dsimp only
          split <;> exact .inr rfl
      | passCubin =>
        have hplain : events = [.called i (.createCubinShader request)] := hplain
        cases h
        rw [hplain]
        exact .inr (.cubinPassed request)
      | handleCubin =>
        cases h
        exact .of_last trivial
      | _ => cases h
    | createCuModule request =>
      cases pc with
      | start =>
        have hplain : Plain env i (.createCuModule request) events (.cuModule .lookUp) := hplain
        exact plain_cuModuleStep hplain h
      | cuModule at' => exact plain_cuModuleStep hplain h
      | _ => cases h
    | unlockMultiFrame module atLoad =>
      cases pc with
      | start =>
        have hplain : events = [.called i (.unlockMultiFrame module atLoad)] := hplain
        rw [hplain]
        dsimp only [callStep, unlockStep] at h
        split at h
        · cases h
          exact .inr rfl
        · cases h
          cases atLoad with
          | false => exact .inr (.nothing _)
          | true => exact .inr (.deferred module)
        · cases h
          exact .inr (.nothing _)
      | claimGates =>
        have hplain : events = [.called i (.unlockMultiFrame module atLoad)] := hplain
        cases h
        dsimp only
        split
        · exact .of_last trivial
        · rw [hplain]
          exact .inr (.nothing _)
      | _ => cases h
    | patchPlugin module atLoad =>
      cases pc with
      | start =>
        have hplain : events = [.called i (.patchPlugin module atLoad)] := hplain
        rw [hplain]
        dsimp only [callStep, patchStep] at h
        split at h
        · cases h
          exact .inr rfl
        · cases h
          exact .inr (.nothing _)
      | patch =>
        cases h
        exact .of_last trivial
      | _ => cases h
    | wrapper function =>
      cases function with
      | setLatencySleepMode => exact plain_wrapStep hplain h
      | latencySleep => exact plain_wrapStep hplain h
      | _ =>
        cases pc with
        | start =>
          have hplain : events = _ := hplain
          cases h
          rw [hplain]
          exact .inr (.kernelWrapper _)
        | _ => cases h

end Plainly

/-! ### What is known -/

section Steps

variable {env : Surroundings} {shared : Shared} {answer : Answer} {i : ℕ} {trace : List Event}

/-- What a call knows, by where it is: what NVAPI answered it, or that NVAPI
answered with a supported architecture. -/
def Known (trace : List Event) (i : ℕ) : Pc → Prop
  | .record status info => .answered i status (some info) ∈ trace
  | .activate .. | .tell .. | .handleCubin | .claimGates | .patch => Supported trace
  | .exchangeWrapping architecture => architecture = .supported → Supported trace
  | _ => True

/-- What holds of the shared state and the trace. -/
structure Common (shared : Shared) (trace : List Event) : Prop where
  recorded : isSupported shared.arch.realArchitecture = true → Supported trace
  activated : shared.arch.engine.activated = true → Supported trace
  wrapped : shared.wrapping = .wrap → Supported trace
  allowed : Justified Allowed trace

/-- What a call knows stays known. -/
theorem Known.append {pc : Pc} (h : Known trace i pc) (events : List Event) :
    Known (trace ++ events) i pc := by
  cases pc with
  | record status info => exact List.mem_append_left _ h
  | activate status info => exact Supported.append h events
  | tell status info => exact Supported.append h events
  | handleCubin => exact Supported.append h events
  | claimGates => exact Supported.append h events
  | patch => exact Supported.append h events
  | exchangeWrapping architecture => exact fun harch => (h harch).append events
  | _ => trivial

/-- The shared state says no more than it did. -/
theorem Common.keep (h : Common shared trace) {shared' : Shared} {events : List Event}
    (hrecorded : shared'.arch.realArchitecture = shared.arch.realArchitecture)
    (hactivated : shared'.arch.engine.activated = shared.arch.engine.activated)
    (hwrapped : shared'.wrapping = shared.wrapping)
    (hallowed : Justified Allowed (trace ++ events)) : Common shared' (trace ++ events) := by
  refine ⟨fun hyes => ?_, fun hyes => ?_, fun hyes => ?_, hallowed⟩
  · rw [hrecorded] at hyes
    exact (h.recorded hyes).append events
  · rw [hactivated] at hyes
    exact (h.activated hyes).append events
  · rw [hwrapped] at hyes
    exact (h.wrapped hyes).append events

/-- Once NVAPI has answered so, nothing more is to be shown. -/
theorem Common.of_supported (h : Supported trace) {shared' : Shared} {events : List Event}
    (hallowed : Justified Allowed (trace ++ events)) : Common shared' (trace ++ events) :=
  ⟨fun _ => h.append events, fun _ => h.append events, fun _ => h.append events, hallowed⟩

/-- The GPU is recorded as supported only once NVAPI has said so. -/
theorem supported_of_realArchitecture (h : Common shared trace)
    (hreal : realArchitecture shared.arch = .supported) : Supported trace := by
  refine h.recorded ?_
  unfold realArchitecture verdict at hreal
  split at hreal
  · cases hreal
  · split at hreal
    · assumption
    · cases hreal

/-- Then anything may follow. -/
theorem allowed_concat_of_supported (h : Justified Allowed trace) (hsupported : Supported trace)
    (event : Event) : Justified Allowed (trace ++ [event]) :=
  h.concat fun _ => hsupported

/-- What changes nothing may always follow. -/
theorem allowed_concat_of_quiet (h : Justified Allowed trace) {event : Event}
    (hquiet : ¬event.changes) : Justified Allowed (trace ++ [event]) :=
  h.concat fun hchanges => absurd hchanges hquiet

/-- An engine that is not active leaves every image as it is. -/
theorem decision_of_inactive {env : Environment} {detected : UInt32} {caller : Option HModule}
    {blob : Option Bytes} {engine : Substitute.State} (h : engine.active = false) :
    (Substitute.decide env detected caller blob engine).1.decision = .unchanged := by
  have htarget : targetSm detected engine = (0, engine) := by
    unfold targetSm
    rw [h]
    rfl
  have hfrom : ∀ source, (decideFrom env engine caller blob source 0).decision = .unchanged := by
    intro source
    unfold decideFrom
    cases blob with
    | none => rfl
    | some blob =>
      dsimp only
      rw [if_pos (.inl rfl)]
  unfold Substitute.decide withheld
  dsimp only
  rw [htarget]
  dsimp only
  rw [if_neg fun hwithheld => ?_]
  · exact hfrom _
  · rw [hfrom] at hwithheld
    cases hwithheld.1

/-- A step of a call keeps what holds and what it knows. -/
structure Kept (shared' : Shared) (trace : List Event) (i : ℕ) (pc : Pc) : Prop where
  common : Common shared' trace
  known : Known trace i pc

/-- A step that can be seen to change nothing. -/
theorem Common.quiet (h : Common shared trace) {event : Event} (hquiet : ¬event.changes) :
    Kept shared (trace ++ [event]) i .returned :=
  ⟨h.keep rfl rfl rfl (allowed_concat_of_quiet h.allowed hquiet), trivial⟩

/-- A step that cannot be seen. -/
theorem Common.silent (h : Common shared trace) {pc : Pc} (hknown : Known trace i pc) :
    Kept shared (trace ++ []) i pc := by
  rw [List.append_nil]
  exact ⟨h, hknown⟩

/-- A step that changes something, after a supported answer. -/
theorem Common.loud (h : Common shared trace) (hsupported : Supported trace) (event : Event)
    (shared' : Shared) : Kept shared' (trace ++ [event]) i .returned :=
  ⟨.of_supported hsupported (allowed_concat_of_supported h.allowed hsupported event), trivial⟩

/-- A step of an architecture query keeps what is known. -/
theorem kept_archStep {caller : Option WString} {pc : Pc} {next : Pc × Shared × List Event}
    (h : Common shared trace) (hknown : Known trace i pc)
    (hstep : archStep shared answer i caller pc = some next) :
    Kept next.2.1 (trace ++ next.2.2) i next.1 := by
  cases pc with
  | start =>
    dsimp only [archStep] at hstep
    split at hstep
    · cases hstep
      exact h.silent trivial
    · split at hstep
      · cases hstep
        exact h.quiet id
      · cases hstep
        exact ⟨h.keep rfl rfl rfl (allowed_concat_of_quiet h.allowed id),
          List.mem_append_right _ List.mem_cons_self⟩
  | record status info =>
    have hrecorded : ∀ events, Justified Allowed (trace ++ events) →
        (isSupported info.architecture = true → Supported trace) →
        Common (shared.withArch (recordAnswer info shared.arch)) (trace ++ events) := by
      intro events hallowed hsupported
      exact ⟨fun hyes => (hsupported hyes).append events,
        fun hyes => (h.activated hyes).append events,
        fun hyes => (h.wrapped hyes).append events, hallowed⟩
    dsimp only [archStep] at hstep
    split at hstep
    · cases hstep
      exact h.quiet fun hgiven => hgiven rfl
    · rename_i hread
      split at hstep
      · rename_i hnot
        cases hstep
        have hallowed : Justified Allowed (trace ++ [.told i (some info) (some info)]) :=
          allowed_concat_of_quiet h.allowed fun hgiven => hgiven rfl
        refine ⟨hrecorded _ hallowed fun hyes => ?_, trivial⟩
        rw [hyes] at hnot
        cases hnot
      · rename_i hyes
        obtain ⟨hstatus, hversion⟩ := not_or.mp hread
        have hsupported : Supported trace := by
          refine ⟨.answered i status (some info), hknown, ?_⟩
          have hzero : status = 0 := not_ne_iff.mp hstatus
          simpa [Event.enables, hzero] using And.intro hversion hyes
        cases hstep
        rw [List.append_nil]
        have hcommon := hrecorded [] (by rw [List.append_nil]; exact h.allowed) fun _ => hsupported
        rw [List.append_nil] at hcommon
        exact ⟨hcommon, hsupported⟩
  | activate status info =>
    have hsupported : Supported trace := hknown
    cases hstep
    rw [List.append_nil]
    exact ⟨⟨fun _ => hsupported, fun _ => hsupported, fun _ => hsupported, h.allowed⟩, hsupported⟩
  | tell status info =>
    cases hstep
    exact h.loud hknown _ _
  | _ => cases hstep

/-- So does one of a module creation. -/
theorem kept_cuModuleStep {request : ModuleRoutes.Request} {at' : ModuleRoutes.Pc}
    {next : Pc × Shared × List Event} (h : Common shared trace)
    (hstep : cuModuleStep env shared answer i request at' = some next) :
    Kept next.2.1 (trace ++ next.2.2) i next.1 := by
  obtain ⟨stepped, hstepped, rfl⟩ := Option.map_eq_some_iff.mp hstep
  have hsame : ∀ event : ModuleRoutes.Event,
      (∀ j target decision, event ≠ .decided j target decision) →
      Common (shared.withEngine shared.arch.engine) (trace ++ [.cuModule event]) := by
    intro event hevent
    refine h.keep rfl rfl rfl (allowed_concat_of_quiet h.allowed ?_)
    cases event with
    | decided j target decision => exact absurd rfl (hevent j target decision)
    | _ => exact id
  cases at' with
  | lookUp =>
    dsimp only [ModuleRoutes.callStep] at hstepped
    split at hstepped
    · cases hstepped
      exact h.silent trivial
    · split at hstepped <;> cases hstepped <;> exact h.silent trivial
  | decide =>
    have hengine : (Substitute.engine env.engine).step shared.arch.engine
        (.decide answer.detected request.caller request.arguments.image) =
        some (Substitute.decide env.engine answer.detected request.caller request.arguments.image
          shared.arch.engine).2 := rfl
    cases hstepped
    refine ⟨h.keep rfl (activated_step rfl hengine) rfl ?_, trivial⟩
    refine h.allowed.concat fun hchanged => ?_
    cases hactive : shared.arch.engine.active with
    | false => exact absurd (decision_of_inactive hactive) hchanged
    | true => exact h.activated (Bool.and_eq_true_iff.mp hactive).2
  | pass =>
    cases hstepped
    exact ⟨hsame _ nofun, trivial⟩
  | create substitution =>
    cases hstepped
    exact ⟨hsame _ nofun, trivial⟩
  | retry status substitution =>
    cases hstepped
    exact h.silent trivial
  | createAgain substitution =>
    cases hstepped
    exact ⟨hsame _ nofun, trivial⟩
  | report status =>
    cases hstepped
    exact ⟨hsame _ nofun, trivial⟩
  | returned status => cases hstepped

/-- And one of resolving a function of Reflex. -/
theorem kept_wrapStep {function : Function} {pc : Pc} {next : Pc × Shared × List Event}
    (h : Common shared trace) (hknown : Known trace i pc)
    (hstep : wrapStep shared i function pc = some next) :
    Kept next.2.1 (trace ++ next.2.2) i next.1 := by
  have hgiven : Kept shared (trace ++ [given i function shared.wrapping]) i .returned :=
    ⟨h.keep rfl rfl rfl (h.allowed.concat fun hwrap => h.wrapped (of_decide_eq_true hwrap)), trivial⟩
  cases pc with
  | start =>
    dsimp only [wrapStep] at hstep
    split at hstep
    · cases hstep
      exact h.silent trivial
    · cases hstep
      exact hgiven
  | readArchitecture =>
    cases hstep
    exact h.silent fun hreal => supported_of_realArchitecture h hreal
  | exchangeWrapping architecture =>
    dsimp only [wrapStep] at hstep
    split at hstep
    · cases hstep
      refine ⟨⟨fun hyes => (h.recorded hyes).append _, fun hyes => (h.activated hyes).append _,
        fun hwrap => ?_, ?_⟩, trivial⟩
      · dsimp only at hwrap
        split at hwrap
        · rename_i hwrapped
          exact (hknown hwrapped.1).append _
        · cases hwrap
      · dsimp only
        split
        · exact allowed_concat_of_quiet h.allowed id
        · rw [List.append_nil]
          exact h.allowed
    · cases hstep
      exact h.silent trivial
  | readWrapping =>
    cases hstep
    exact hgiven
  | _ => cases hstep

/-- A step of any call keeps what holds and what it knows. -/
theorem kept_callStep {call : CallTraces.Call Request Pc} {next : Pc × Shared × List Event}
    (h : Common shared trace) (hknown : Known trace i call.pc)
    (hstep : callStep env shared answer i call = some next) :
    Kept next.2.1 (trace ++ next.2.2) i next.1 := by
  obtain ⟨request, pc⟩ := call
  cases request with
  | getArchInfo caller => exact kept_archStep h hknown hstep
  | setRawScgPriority =>
    cases pc with
    | start =>
      dsimp only [callStep, scgStep] at hstep
      split at hstep
      · rename_i hstubbed
        cases hstep
        exact h.loud (h.recorded (Bool.and_eq_true_iff.mp hstubbed).2) _ _
      · cases hstep
        exact h.silent trivial
    | passScg =>
      cases hstep
      exact h.quiet id
    | _ => cases hstep
  | createCubinShader request =>
    cases pc with
    | start =>
      dsimp only [callStep, cubinStep] at hstep
      split at hstep
      · cases hstep
        exact h.silent trivial
      · cases hstep
        dsimp only
        split
        · rename_i hactive
          exact h.silent (h.activated (Bool.and_eq_true_iff.mp hactive).2)
        · exact h.silent trivial
    | passCubin =>
      cases hstep
      exact h.quiet id
    | handleCubin =>
      cases hstep
      exact h.loud hknown _ _
    | _ => cases hstep
  | createCuModule request =>
    cases pc with
    | start => exact kept_cuModuleStep h hstep
    | cuModule at' => exact kept_cuModuleStep h hstep
    | _ => cases hstep
  | unlockMultiFrame module atLoad =>
    cases pc with
    | start =>
      dsimp only [callStep, unlockStep] at hstep
      split at hstep
      · rename_i hreal
        cases hstep
        exact h.silent (supported_of_realArchitecture h hreal)
      · cases hstep
        dsimp only
        split
        · exact h.quiet id
        · exact h.silent trivial
      · cases hstep
        exact h.silent trivial
    | claimGates =>
      cases hstep
      dsimp only
      split
      · exact h.loud hknown _ _
      · exact h.silent trivial
    | _ => cases hstep
  | patchPlugin module atLoad =>
    cases pc with
    | start =>
      dsimp only [callStep, patchStep] at hstep
      split at hstep
      · rename_i hreal
        cases hstep
        exact h.silent (supported_of_realArchitecture h hreal)
      · cases hstep
        exact h.silent trivial
    | patch =>
      cases hstep
      exact h.loud hknown _ _
    | _ => cases hstep
  | wrapper function =>
    cases function with
    | setLatencySleepMode => exact kept_wrapStep h hknown hstep
    | latencySleep => exact kept_wrapStep h hknown hstep
    | _ =>
      cases pc with
      | start =>
        cases hstep
        exact h.quiet id
      | _ => cases hstep

/-- What else the process does keeps what holds. -/
theorem Common.interfere (h : Common shared trace) {other : Other} {shared' : Shared}
    (hother : otherStep env shared other = some shared') : Common shared' trace := by
  have hkeep : shared'.arch.realArchitecture = shared.arch.realArchitecture →
      shared'.arch.engine.activated = shared.arch.engine.activated →
      shared'.wrapping = shared.wrapping → Common shared' trace := by
    intro hrecorded hactivated hwrapped
    have hkept : Common shared' (trace ++ []) :=
      h.keep hrecorded hactivated hwrapped (by rw [List.append_nil]; exact h.allowed)
    rwa [List.append_nil] at hkept
  cases other with
  | engine action =>
    dsimp only [otherStep] at hother
    split at hother
    · cases hother
    · rename_i hnot
      obtain ⟨engine, hengine, rfl⟩ := Option.map_eq_some_iff.mp hother
      exact hkeep rfl (activated_step (Bool.not_eq_true _ ▸ hnot) hengine) rfl
  | _ =>
    cases hother
    exact hkeep rfl rfl rfl

end Steps

/-- What the calls of a process rely on and keep. -/
def discipline (env : Surroundings) : Discipline (calls env) {} where
  Common := Common
  Known _ trace i call := Known trace i call.pc
  Past := Past env
  Change _ _ trace _ trace' := ∃ events, trace' = trace ++ events
  initially := ⟨nofun, nofun, nofun, Justified.nil⟩
  make i request _ h := ⟨h.keep rfl rfl rfl (allowed_concat_of_quiet h.allowed id), trivial, _, rfl⟩
  first i request := .inr rfl
  advance h hknown _ hstep :=
    have hkept := kept_callStep h hknown hstep
    ⟨hkept.common, hkept.known, _, rfl⟩
  onward := past_callStep
  interfere h hother := ⟨h.interfere hother, [], (List.append_nil _).symm⟩
  stable _ h hchange := by
    obtain ⟨events, hgrown⟩ := hchange
    rw [hgrown]
    exact Known.append h events

section Pair

variable {env : Surroundings} {shared : Shared} {answer : Answer} {i : ℕ} {trace : List Event}

/-- A line that Reflex was resolved too early. -/
def Event.isSkipped : Event → Bool
  | .skipped _ => true
  | _ => false

/-- An event of `ReflexWrapper`. -/
def Event.ofReflex : Event → Bool
  | .skipped _ | .reflexWrapper .. => true
  | _ => false

/-- An answer of NVAPI about a GPU. -/
def Event.isAnswer : Event → Bool
  | .answered .. => true
  | _ => false

/-- NVAPI has not answered yet. -/
def Unanswered (trace : List Event) : Prop := ∀ event ∈ trace, event.isAnswer = false

/-- It had not answered before either. -/
theorem Unanswered.of_append {events : List Event} (h : Unanswered (trace ++ events)) :
    Unanswered trace := fun event hevent => h event (List.mem_append_left _ hevent)

/-- What was given agrees with what was decided, and a line was written only where
nothing is wrapped; before any answer the GPU is unknown, and what was decided was said. -/
structure Paired (shared : Shared) (trace : List Event) : Prop where
  given : ∀ i function wrapped, .reflexWrapper i function wrapped ∈ trace →
    shared.wrapping ≠ .undecided ∧ wrapped = decide (shared.wrapping = .wrap)
  skipped : trace.countP Event.isSkipped ≤ if shared.wrapping = .leave then 1 else 0
  unknown : Unanswered trace → shared.arch.realArchitecture = 0
  said : Unanswered trace → shared.wrapping ≠ .undecided → trace.countP Event.isSkipped = 1

/-- What a call knows of the decision by where it is: that it was taken where it
asks for it, and that NVAPI has answered where it saw a known GPU or records one. -/
def Decided (shared : Shared) (trace : List Event) : Pc → Prop
  | .readWrapping => shared.wrapping ≠ .undecided
  | .exchangeWrapping architecture => Unanswered trace → architecture = .unknown
  | .record _ _ => ¬Unanswered trace
  | _ => True

/-- What a step can do about Reflex, from where the call is. -/
inductive Reflects (shared : Shared) (trace : List Event) (i : ℕ) (before : Pc) :
    Pc → Shared → List Event → Prop
  | apart (pc : Pc) (shared' : Shared) (events : List Event) : shared'.wrapping = shared.wrapping →
    (Unanswered (trace ++ events) → shared'.arch.realArchitecture = shared.arch.realArchitecture) →
    (∀ event ∈ events, event.ofReflex = false) → Decided shared' (trace ++ events) pc →
    Reflects shared trace i before pc shared' events
  | waits (hdecided : shared.wrapping ≠ .undecided) :
    Reflects shared trace i before .readWrapping shared []
  | gives (function : Function) (hdecided : shared.wrapping ≠ .undecided) :
    Reflects shared trace i before .returned shared [given i function shared.wrapping]
  | decides (architecture : Architecture) (wrapping : Wrapping) :
    before = .exchangeWrapping architecture → shared.wrapping = .undecided → wrapping ≠ .undecided →
    (architecture = .unknown → wrapping = .leave) →
    Reflects shared trace i before .readWrapping { shared with wrapping := wrapping }
      (if architecture = .unknown then [.skipped i] else [])

/-- A call knows where its step leaves it. -/
theorem Reflects.decided {before pc : Pc} {shared' : Shared} {events : List Event}
    (h : Reflects shared trace i before pc shared' events) : Decided shared' (trace ++ events) pc := by
  cases h with
  | apart pc shared' events hsame harch hevents hpc => exact hpc
  | waits hdecided => exact hdecided
  | gives function hdecided => trivial
  | decides architecture wrapping hat hundecided hdecided => exact hdecided

/-- What a call knows of the decision survives while the decision stays and the trace grows. -/
theorem Decided.stable {shared' : Shared} {trace' : List Event} {pc : Pc}
    (h : Decided shared trace pc) (hgrows : trace <+: trace')
    (hstays : shared.wrapping ≠ .undecided → shared'.wrapping = shared.wrapping) :
    Decided shared' trace' pc := by
  have hearlier : Unanswered trace' → Unanswered trace := fun hunanswered event hevent =>
    hunanswered event (hgrows.subset hevent)
  cases pc with
  | readWrapping =>
    have hdecided : shared.wrapping ≠ .undecided := h
    change shared'.wrapping ≠ .undecided
    rw [hstays hdecided]
    exact hdecided
  | exchangeWrapping architecture => exact fun hunanswered => h (hearlier hunanswered)
  | record status info => exact fun hunanswered => h (hearlier hunanswered)
  | _ => trivial

/-- A step about anything else writes no line about Reflex. -/
theorem countP_isSkipped {events : List Event} (h : ∀ event ∈ events, event.ofReflex = false) :
    events.countP Event.isSkipped = 0 := by
  refine List.countP_eq_zero.mpr fun event hevent hskipped => ?_
  have happart := h event hevent
  cases event with
  | skipped j => cases happart
  | _ => cases hskipped

/-- The step that decides writes a line exactly where it saw no GPU. -/
theorem Reflects.count {before pc : Pc} {shared' : Shared} {events : List Event}
    (hpaired : Paired shared trace) (h : Reflects shared trace i before pc shared' events)
    (hundecided : shared.wrapping = .undecided) (hdecided : shared'.wrapping ≠ .undecided) :
    ∃ architecture, before = .exchangeWrapping architecture ∧
      (trace ++ events).countP Event.isSkipped = if architecture = .unknown then 1 else 0 := by
  have hbefore : trace.countP Event.isSkipped = 0 := by
    have hskipped := hpaired.skipped
    rw [hundecided] at hskipped
    exact Nat.le_zero.mp hskipped
  cases h with
  | apart pc shared' events hsame => exact absurd (hsame.trans hundecided) hdecided
  | waits => exact absurd hundecided hdecided
  | gives => exact absurd hundecided hdecided
  | decides architecture wrapping hat =>
    refine ⟨architecture, hat, ?_⟩
    rw [List.countP_append, hbefore]
    split
    · rfl
    · rfl

/-- A step keeps the pair. -/
theorem Paired.step {before pc : Pc} {shared' : Shared} {events : List Event}
    (hpaired : Paired shared trace) (hknown : Decided shared trace before)
    (h : Reflects shared trace i before pc shared' events) : Paired shared' (trace ++ events) := by
  cases h with
  | apart pc shared' events hsame harch hevents =>
    have hnone := countP_isSkipped hevents
    refine ⟨fun j function wrapped hgiven => ?_, ?_, fun hunanswered => ?_, fun hunanswered => ?_⟩
    · rw [hsame]
      rcases List.mem_append.mp hgiven with hin | hnow
      · exact hpaired.given j function wrapped hin
      · exact nomatch hevents _ hnow
    · rw [List.countP_append, hnone, hsame]
      exact hpaired.skipped
    · rw [harch hunanswered]
      exact hpaired.unknown hunanswered.of_append
    · rw [List.countP_append, hnone, hsame]
      exact hpaired.said hunanswered.of_append
  | waits =>
    rw [List.append_nil]
    exact hpaired
  | gives function hdecided =>
    refine ⟨fun j other wrapped hgiven => ?_, ?_, fun hunanswered => ?_, fun hunanswered => ?_⟩
    · rcases List.mem_append.mp hgiven with hin | hnow
      · exact hpaired.given j other wrapped hin
      · cases List.mem_singleton.mp hnow
        exact ⟨hdecided, rfl⟩
    · rw [List.countP_append]
      exact hpaired.skipped
    · exact hpaired.unknown hunanswered.of_append
    · rw [List.countP_append]
      exact hpaired.said hunanswered.of_append
  | decides architecture wrapping hat hundecided hdecided hleave =>
    obtain ⟨seen, hseen, hcount⟩ := Reflects.count hpaired
      (.decides architecture wrapping hat hundecided hdecided hleave) hundecided hdecided
    obtain rfl : architecture = seen := Pc.exchangeWrapping.inj (hat.symm.trans hseen)
    refine ⟨fun j function wrapped hgiven => ?_, ?_, fun hunanswered => ?_, fun hunanswered _ => ?_⟩
    · rcases List.mem_append.mp hgiven with hin | hnow
      · exact absurd hundecided (hpaired.given j function wrapped hin).1
      · split at hnow
        · cases List.mem_singleton.mp hnow
        · cases hnow
    · rw [hcount]
      by_cases hunknown : architecture = .unknown
      · rw [if_pos hunknown, if_pos (hleave hunknown)]
      · rw [if_neg hunknown]
        exact Nat.zero_le _
    · exact hpaired.unknown hunanswered.of_append
    · rw [hat] at hknown
      rw [hcount, if_pos (hknown hunanswered.of_append)]

end Pair

end OpenDlssg.SupportedOnly
