import OpenDlssg.ComponentClaims
import OpenDlssg.TransitionRuns

/-!
# Loads and the worker, interleaved

Any number of hooked loads of the runtime and the plugin run beside the
worker's scans. A load is counted from before its image is mapped until after
it has prepared it; the worker lists the mapped images, then reads the count,
and leaves every listed image alone unless the count was zero. Each step below
is one access to the memory they share. A load whose file name the hook does not
recognise is not counted: its image is one that is mapped elsewhere.
-/

namespace OpenDlssg.LoaderInterleaving

open RecordTable ComponentClaims TransitionRuns

/-- Where a load is in the source's `HookedLoadLibraryExW`. -/
inductive CallPc
  /-- before it is counted -/
  | entered
  /-- counted; the original loader, or the redirect's load, is under way -/
  | loading
  /-- the image is in the module list and the original has not returned -/
  | mapped (m : Module)
  /-- the original returned the image -/
  | loaded (m : Module)
  /-- in `RecordRuntime` -/
  | recording (m : Module) (proc : Proc)
  /-- in the rest of `PrepareRuntime`, or in `PatchPlugin` -/
  | preparing (m : Module) (proc : Proc)
  /-- prepared, and still counted -/
  | leaving (handle : Option Module)
  | returned (handle : Option Module)
  deriving DecidableEq

/-- The image a load works on. -/
def CallPc.image : CallPc → Option Module
  | .mapped m => some m
  | .loaded m => some m
  | .recording m _ => some m
  | .preparing m _ => some m
  | .leaving handle => handle
  | .returned handle => handle
  | _ => none

/-- A load of a file whose name the hook reads as a component's. -/
structure Call where
  component : Component
  pc : CallPc
  /-- Whether it has attempted to claim its image. -/
  attempted : Bool
  deriving DecidableEq

/-- Where the worker is in the source's `InspectLoadedModules`. -/
inductive WorkerPc
  | idle
  /-- the plugins are listed and the count is read next -/
  | pluginsListed (ms : List Module)
  | patching (ms : List Module)
  | patchingOne (m : Module) (proc : Proc) (ms : List Module)
  /-- in `InspectProvider`, recording the runtimes it listed -/
  | recordingAll (ms : List Module)
  | recordingOne (m : Module) (proc : Proc) (ms : List Module)
  /-- the known runtimes are listed and the count is read next -/
  | runtimesListed (ms : List Module)
  | inspecting (loading : Bool) (ms : List Module)
  | unlocking (m : Module) (proc : Proc) (ms : List Module)
  deriving DecidableEq

/-- The process: the shared memory, the loads so far and the worker. -/
structure State where
  shared : Shared
  /-- The load that first mapped an image, for those a counted load mapped. -/
  firstMapped : List (Module × ℕ)
  /-- The source's `g_component_loads`. -/
  componentLoads : ℕ
  calls : List Call
  worker : WorkerPc
  deriving DecidableEq

/-- A step of some thread. -/
inductive Action
  /-- a thread calls the hook on a file that names a component -/
  | enter (component : Component)
  /-- the loader maps the image of a load, or finds it mapped -/
  | map (c : ℕ) (m : Module)
  /-- the original returns no image -/
  | fail (c : ℕ)
  /-- an image arrives some other way: a static import, a load before the hooks -/
  | mapElsewhere (m : Module)
  /-- the next step of a load -/
  | call (c : ℕ)
  /-- the worker lists plugins that are mapped -/
  | listPlugins (ms : List Module)
  /-- the worker lists runtimes that are mapped -/
  | listRuntimes (ms : List Module)
  /-- the next step of the worker -/
  | worker
  deriving DecidableEq

/-- Put an image on the module list. -/
def mapImage (shared : Shared) (m : Module) : Shared := { shared with mapped := m :: shared.mapped }

/-- Where a load goes when the original has returned its image: into
`PrepareRuntime` or `PreparePlugin`. -/
def prepare (env : Environment) (component : Component) (m : Module) : CallPc :=
  match component with
  | .runtime => if env.isDlssgProvider m then .recording m .recordCheck else .leaving (some m)
  | .plugin =>
    if env.realArchitecture = .supported then .preparing m .patchClaim else .leaving (some m)

/-- The next step of a load that does not wait for the original loader. -/
def Call.next (env : Environment) (shared : Shared) (call : Call) : Option (Call × Shared) :=
  match call.pc with
  | .entered => some ({ call with pc := .loading }, shared)
  | .loading => none
  | .mapped m => some ({ call with pc := .loaded m }, shared)
  | .loaded m => some ({ call with pc := prepare env call.component m }, shared)
  | .recording m proc =>
    if proc = .done then some ({ call with pc := .preparing m .gatesKnown }, shared)
    else
      let (proc', after) := procStep env shared m proc
      some ({ call with pc := .recording m proc' }, after)
  | .preparing m proc =>
    if proc = .done then some ({ call with pc := .leaving (some m) }, shared)
    else
      let (proc', after) := procStep env shared m proc
      some
        ({ call with pc := .preparing m proc', attempted := call.attempted || proc.isClaim }, after)
  | .leaving handle => some ({ call with pc := .returned handle }, shared)
  | .returned _ => none

/-- The count after a load's next step. -/
def countAfter (componentLoads : ℕ) : CallPc → ℕ
  | .entered => componentLoads + 1
  | .leaving _ => componentLoads - 1
  | _ => componentLoads

/-- The source's `ComponentLoading`. -/
def componentLoading (componentLoads : ℕ) : Bool := 0 < componentLoads

/-- The next step of the worker, apart from listing modules. -/
def WorkerPc.next (env : Environment) (shared : Shared) (componentLoads : ℕ) :
    WorkerPc → Option (WorkerPc × Shared)
  | .idle => if env.realArchitecture = .supported then none else some (.patching [], shared)
  | .pluginsListed ms =>
    some (.patching (if componentLoading componentLoads then [] else ms), shared)
  | .patching [] => none
  | .patching (m :: ms) => some (.patchingOne m .patchClaim ms, shared)
  | .patchingOne m proc ms =>
    if proc = .done then some (.patching ms, shared)
    else
      let (proc', after) := procStep env shared m proc
      some (.patchingOne m proc' ms, after)
  | .recordingAll [] => some (.runtimesListed (shared.runtimes.map Runtime.module), shared)
  | .recordingAll (m :: ms) => some (.recordingOne m .recordCheck ms, shared)
  | .recordingOne m proc ms =>
    if proc = .done then some (.recordingAll ms, shared)
    else
      let (proc', after) := procStep env shared m proc
      some (.recordingOne m proc' ms, after)
  | .runtimesListed ms => some (.inspecting (componentLoading componentLoads) ms, shared)
  | .inspecting _ [] => some (.idle, shared)
  | .inspecting loading (m :: ms) =>
    if env.isDlssgProvider m && !loading then some (.unlocking m .gatesClaim ms, shared)
    else some (.inspecting loading ms, shared)
  | .unlocking m proc ms =>
    if proc = .done then some (.inspecting false ms, shared)
    else
      let (proc', after) := procStep env shared m proc
      some (.unlocking m proc' ms, after)

/-- The step an action takes, when it is enabled. -/
def step (env : Environment) (s : State) : Action → Option State
  | .enter component => some { s with calls := s.calls ++ [⟨component, .entered, false⟩] }
  | .map c m =>
    s.calls[c]?.bind fun call =>
      if call.pc = .loading ∧ env.component m = call.component then
        some
          { s with
            shared := mapImage s.shared m
            firstMapped :=
              if m ∈ s.shared.mapped then s.firstMapped else (m, c) :: s.firstMapped
            calls := s.calls.set c { call with pc := .mapped m } }
      else none
  | .fail c =>
    s.calls[c]?.bind fun call =>
      if call.pc = .loading then
        some { s with calls := s.calls.set c { call with pc := .leaving none } }
      else none
  | .mapElsewhere m => some { s with shared := mapImage s.shared m }
  | .call c =>
    s.calls[c]?.bind fun call =>
      (call.next env s.shared).map fun (call', after) =>
        { s with
          shared := after
          componentLoads := countAfter s.componentLoads call.pc
          calls := s.calls.set c call' }
  | .listPlugins ms =>
    if s.worker = .idle ∧ env.realArchitecture = .supported ∧
        ∀ m ∈ ms, m ∈ s.shared.mapped ∧ env.component m = .plugin then
      some { s with worker := .pluginsListed ms }
    else none
  | .listRuntimes ms =>
    if s.worker = .patching [] ∧
        ∀ m ∈ ms, m ∈ s.shared.mapped ∧ env.component m = .runtime then
      some { s with worker := .recordingAll ms }
    else none
  | .worker =>
    (s.worker.next env s.shared s.componentLoads).map fun (worker', after) =>
      { s with shared := after, worker := worker' }

/-- Nothing mapped, nothing recorded, no load under way. -/
def start : State := ⟨⟨[], [], []⟩, [], 0, [], .idle⟩

/-- The loader, from the moment its hooks are in. -/
def loader (env : Environment) : System State Action where
  init s := s = start
  step := step env

/-! ### What a step can do -/

/-- Every step: a load that begins, one that maps its image or fails to, an
image that arrives some other way, and a step of a load or of the worker. -/
inductive Steps (env : Environment) (s : State) : Action → State → Prop
  | enter (component : Component) :
      Steps env s (.enter component) { s with calls := s.calls ++ [⟨component, .entered, false⟩] }
  | map {c : ℕ} {m : Module} {call : Call} (hcall : s.calls[c]? = some call)
      (hpc : call.pc = .loading) (hcomponent : env.component m = call.component) :
      Steps env s (.map c m)
        { s with
          shared := mapImage s.shared m
          firstMapped := if m ∈ s.shared.mapped then s.firstMapped else (m, c) :: s.firstMapped
          calls := s.calls.set c { call with pc := .mapped m } }
  | fail {c : ℕ} {call : Call} (hcall : s.calls[c]? = some call) (hpc : call.pc = .loading) :
      Steps env s (.fail c) { s with calls := s.calls.set c { call with pc := .leaving none } }
  | mapElsewhere (m : Module) :
      Steps env s (.mapElsewhere m) { s with shared := mapImage s.shared m }
  | call {c : ℕ} {call call' : Call} {after : Shared} (hcall : s.calls[c]? = some call)
      (hnext : call.next env s.shared = some (call', after)) :
      Steps env s (.call c)
        { s with
          shared := after
          componentLoads := countAfter s.componentLoads call.pc
          calls := s.calls.set c call' }
  | listPlugins {ms : List Module}
      (hlisted : ∀ m ∈ ms, m ∈ s.shared.mapped ∧ env.component m = .plugin) :
      Steps env s (.listPlugins ms) { s with worker := .pluginsListed ms }
  | listRuntimes {ms : List Module}
      (hlisted : ∀ m ∈ ms, m ∈ s.shared.mapped ∧ env.component m = .runtime) :
      Steps env s (.listRuntimes ms) { s with worker := .recordingAll ms }
  | worker {worker' : WorkerPc} {after : Shared}
      (hnext : s.worker.next env s.shared s.componentLoads = some (worker', after)) :
      Steps env s .worker { s with shared := after, worker := worker' }

theorem steps_of_step {env : Environment} {s t : State} {a : Action} (h : step env s a = some t) :
    Steps env s a t := by
  cases a with
  | enter component =>
    cases h
    exact .enter component
  | map c m =>
    obtain ⟨call, hcall, h⟩ := Option.bind_eq_some_iff.mp h
    split at h
    · rename_i hready
      cases h
      exact .map hcall hready.1 hready.2
    · cases h
  | fail c =>
    obtain ⟨call, hcall, h⟩ := Option.bind_eq_some_iff.mp h
    split at h
    · rename_i hready
      cases h
      exact .fail hcall hready
    · cases h
  | mapElsewhere m =>
    cases h
    exact .mapElsewhere m
  | call c =>
    obtain ⟨call, hcall, h⟩ := Option.bind_eq_some_iff.mp h
    obtain ⟨⟨call', after⟩, hnext, h⟩ := Option.map_eq_some_iff.mp h
    cases h
    exact .call hcall hnext
  | listPlugins ms =>
    rw [step] at h
    split at h
    · rename_i hready
      cases h
      exact .listPlugins hready.2.2
    · cases h
  | listRuntimes ms =>
    rw [step] at h
    split at h
    · rename_i hready
      cases h
      exact .listRuntimes hready.2
    · cases h
  | worker =>
    obtain ⟨⟨worker', after⟩, hnext, h⟩ := Option.map_eq_some_iff.mp h
    cases h
    exact .worker hnext

end OpenDlssg.LoaderInterleaving
