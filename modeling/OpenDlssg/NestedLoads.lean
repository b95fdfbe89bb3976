import OpenDlssg.CallTraces
import OpenDlssg.ComponentClaims
import OpenDlssg.WidePaths
import Mathlib.Algebra.BigOperators.Group.Finset.Basic
import Mathlib.Algebra.BigOperators.Group.Finset.Piecewise
import Mathlib.Data.Fintype.BigOperators

/-!
# Loads made inside loads

The hooked `LoadLibraryExW` calls the loader, and the loader runs the `DllMain`
of what it maps, which may load more. So each thread has a stack of calls of the
hook, and only the innermost one runs. Threads share the count of component
loads under way; a thread's own flag keeps a redirect from redirecting itself.
-/

namespace OpenDlssg.NestedLoads

open CallTraces ComponentClaims TransitionRuns WidePaths

/-- A handle or a module; the null pointer is 0. -/
abbrev Pointer := ℕ

/-- NVIDIA's frame-generation runtime, as games and NGX load it. -/
def kRuntimeName : WString := wide "nvngx_dlssg.dll"

/-- Streamline's frame-generation plugin. -/
def kPluginName : WString := wide "sl.dlss_g.dll"

/-- The flags of a load as data: `LOAD_LIBRARY_AS_DATAFILE`, `_EXCLUSIVE` and
`LOAD_LIBRARY_AS_IMAGE_RESOURCE`. -/
def kDataOnlyLoad : UInt32 := 0x02 ||| 0x40 ||| 0x20

/-- The arguments of `LoadLibraryExW`. -/
structure Load where
  fileName : Option WString
  file : Pointer
  flags : UInt32
  deriving DecidableEq

namespace Load

/-- The name the file of a load is known by is a component's. -/
def namesComponent (load : Load) (component : WString) : Bool :=
  match load.fileName with
  | none => false
  | some fileName => fileNameEqualsInsensitive (componentFileName fileName) component

/-- It is the runtime's. -/
def namesRuntime (load : Load) : Bool := load.namesComponent kRuntimeName

/-- It is the plugin's. -/
def namesPlugin (load : Load) : Bool := load.namesComponent kPluginName

/-- The source's `code`. -/
def code (load : Load) : Bool := load.flags &&& kDataOnlyLoad == 0

/-- The source's `component`: the load is counted while it is under way. -/
def component (load : Load) : Bool := load.code && (load.namesRuntime || load.namesPlugin)

/-- What is prepared when the load has mapped a module. -/
def prepares (load : Load) : Option Component :=
  if load.namesRuntime then some .runtime else if load.namesPlugin then some .plugin else none

end Load

/-- What is fixed before the loader is hooked: the file to redirect to, empty
for none, and whether there is a worker to wake. -/
structure Environment where
  redirectPath : WString
  wake : Bool

variable {Thread : Type}

/-- A load on a thread. -/
structure Request (Thread : Type) where
  thread : Thread
  load : Load
  deriving DecidableEq

/-- Where a call of the hook is. -/
inductive Pc
  | enter
  /-- `MaybeRedirect` is next -/
  | check
  /-- in the loader for the configured runtime -/
  | redirecting
  | report (module : Pointer)
  | prepareRedirected (module : Pointer)
  | callOriginal
  /-- in the loader for the file asked for -/
  | loading
  | prepare (module : Pointer)
  | wake (module : Pointer)
  | leave (module : Pointer)
  | returned (module : Pointer)
  deriving DecidableEq

namespace Pc

/-- The call is in its redirect. -/
def isRedirecting : Pc → Bool
  | .redirecting => true
  | _ => false

/-- The loader may run other modules' code. -/
def inLoader : Pc → Bool
  | .redirecting | .loading => true
  | _ => false

/-- The call has begun and not returned. -/
def underWay : Pc → Bool
  | .enter | .returned _ => false
  | _ => true

/-- A call in its redirect is under way. -/
theorem underWay_of_isRedirecting {pc : Pc} (h : pc.isRedirecting = true) : pc.underWay = true := by
  cases pc with
  | redirecting => rfl
  | _ => cases h

end Pc

/-- A call on a thread's stack. -/
structure Frame where
  call : ℕ
  counted : Bool
  redirecting : Bool
  inLoader : Bool
  deriving DecidableEq

/-- The frame of a call, by where it is. -/
def frameOf (i : ℕ) (load : Load) (pc : Pc) : Frame :=
  ⟨i, load.component, pc.isRedirecting, pc.inLoader⟩

/-- A thread: its `t_in_redirect` and its calls, the innermost first. -/
structure ThreadState where
  inRedirect : Bool := false
  stack : List Frame := []

namespace ThreadState

/-- The thread runs code that can call the hook. -/
def free (thread : ThreadState) : Bool :=
  match thread.stack with
  | [] => true
  | frame :: _ => frame.inLoader

/-- The innermost call is this one. -/
def runs (thread : ThreadState) (i : ℕ) : Bool :=
  match thread.stack with
  | [] => false
  | frame :: _ => frame.call == i

end ThreadState

/-- What the calls share. -/
structure Shared (Thread : Type) where
  /-- the source's `g_component_loads`, whose `int` no number of loads overflows here -/
  componentLoads : ℤ := 0
  /-- the source's `g_redirect_reported` -/
  redirectReported : Bool := false
  threads : Thread → ThreadState := fun _ => {}

/-- What calls do that others can see. -/
inductive Event (Thread : Type)
  | called (i : ℕ) (request : Request Thread)
  /-- `MaybeRedirect` left a load of the runtime alone: its thread redirects already -/
  | declined (i : ℕ) (thread : Thread)
  /-- the loader was given the configured runtime -/
  | redirecting (i : ℕ) (thread : Thread) (load : Load)
  | redirected (i : ℕ) (thread : Thread) (module : Pointer)
  /-- the log's `runtime_redirect` line -/
  | reported (i : ℕ) (ok : Bool)
  /-- the loader was given the load asked for -/
  | passed (i : ℕ) (load : Load)
  | mapped (i : ℕ) (module : Pointer)
  | prepared (i : ℕ) (component : Component) (module : Pointer)
  | woke (i : ℕ)
  | returned (i : ℕ) (module : Pointer)
  deriving DecidableEq

/-- The call an event belongs to. -/
def Event.call : Event Thread → ℕ
  | .called i _ | .declined i _ | .redirecting i _ _ | .redirected i _ _ | .reported i _
  | .passed i _ | .mapped i _ | .prepared i _ _ | .woke i | .returned i _ => i

/-- What a step is answered: the loader's function is known, and the module it
returned. -/
structure Answer where
  original : Bool
  module : Pointer

/-- `MaybeRedirect` takes the load over, unless its thread redirects already. -/
def redirects (env : Environment) (load : Load) : Bool :=
  !env.redirectPath.isEmpty && load.namesRuntime

/-- What the loader is given in its place. -/
def redirectLoad (env : Environment) : Load := ⟨some env.redirectPath, 0, 0⟩

/-- What the innermost call of a thread does next. -/
structure Moved (Thread : Type) where
  pc : Pc
  inRedirect : Bool
  redirectReported : Bool
  events : List (Event Thread) := []

/-- A step of `LoadAndPrepare` on a thread. -/
def move (env : Environment) (inRedirect redirectReported : Bool) (answer : Answer) (i : ℕ)
    (request : Request Thread) : Pc → Option (Moved Thread)
  | .check =>
    if !redirects env request.load then some ⟨.callOriginal, inRedirect, redirectReported, []⟩
    else if inRedirect then
      some ⟨.callOriginal, inRedirect, redirectReported, [.declined i request.thread]⟩
    else if answer.original then
      some ⟨.redirecting, true, redirectReported, [.redirecting i request.thread (redirectLoad env)]⟩
    else some ⟨.report 0, false, redirectReported, []⟩
  | .redirecting => some ⟨.report answer.module, false, redirectReported,
      [.redirected i request.thread answer.module]⟩
  | .report module =>
    some ⟨if module = 0 then .callOriginal else .prepareRedirected module, inRedirect, true,
      if redirectReported then [] else [.reported i (module ≠ 0)]⟩
  | .prepareRedirected module =>
    some ⟨.leave module, inRedirect, redirectReported, [.prepared i .runtime module]⟩
  | .callOriginal =>
    if answer.original then some ⟨.loading, inRedirect, redirectReported, [.passed i request.load]⟩
    else some ⟨.leave 0, inRedirect, redirectReported, []⟩
  | .loading =>
    some ⟨if answer.module ≠ 0 ∧ request.load.code then .prepare answer.module
      else .leave answer.module, inRedirect, redirectReported, [.mapped i answer.module]⟩
  | .prepare module => some ⟨.wake module, inRedirect, redirectReported,
      (request.load.prepares.map fun component => Event.prepared i component module).toList⟩
  | .wake module =>
    some ⟨.leave module, inRedirect, redirectReported, if env.wake then [.woke i] else []⟩
  | .enter | .leave _ | .returned _ => none

/-- The shared state with a thread's state and the two globals replaced. -/
def Shared.place [DecidableEq Thread] (shared : Shared Thread) (t : Thread) (thread : ThreadState)
    (componentLoads : ℤ) (redirectReported : Bool) : Shared Thread :=
  ⟨componentLoads, redirectReported, Function.update shared.threads t thread⟩

/-- The next step of a call of `HookedLoadLibraryExW`: it is entered where its
thread can call it, moves while it is the innermost call, and returns. -/
def callStep [DecidableEq Thread] (env : Environment) (shared : Shared Thread) (answer : Answer)
    (i : ℕ) (call : Call (Request Thread) Pc) : Option (Pc × Shared Thread × List (Event Thread)) :=
  let request := call.request
  let thread := shared.threads request.thread
  let counts : ℤ := if request.load.component then 1 else 0
  match call.pc with
  | .enter =>
    if thread.free then
      let pc := if request.load.code then Pc.check else .callOriginal
      some (pc, shared.place request.thread
        ⟨thread.inRedirect, frameOf i request.load pc :: thread.stack⟩
        (shared.componentLoads + counts) shared.redirectReported, [])
    else none
  | .leave module =>
    if thread.runs i then
      some (.returned module, shared.place request.thread ⟨thread.inRedirect, thread.stack.tail⟩
        (shared.componentLoads - counts) shared.redirectReported, [.returned i module])
    else none
  | pc =>
    if thread.runs i then
      (move env thread.inRedirect shared.redirectReported answer i request pc).map fun moved =>
        (moved.pc, shared.place request.thread
          ⟨moved.inRedirect, frameOf i request.load moved.pc :: thread.stack.tail⟩
          shared.componentLoads moved.redirectReported, moved.events)
    else none

/-- A step's events are its call's. -/
theorem owner_move {env : Environment} {inRedirect redirectReported : Bool} {answer : Answer}
    {i : ℕ} {request : Request Thread} {pc : Pc} {moved : Moved Thread}
    (h : move env inRedirect redirectReported answer i request pc = some moved) :
    ∀ event ∈ moved.events, event.call = i := by
  cases pc with
  | check =>
    dsimp only [move] at h
    split at h
    · cases h
      simp
    · split at h
      · cases h
        simp [Event.call]
      · split at h <;> cases h <;> simp [Event.call]
  | redirecting =>
    cases h
    simp [Event.call]
  | report module =>
    cases h
    dsimp only
    split <;> simp [Event.call]
  | prepareRedirected module =>
    cases h
    simp [Event.call]
  | callOriginal =>
    dsimp only [move] at h
    split at h <;> cases h <;> simp [Event.call]
  | loading =>
    cases h
    simp [Event.call]
  | prepare module =>
    cases h
    cases request.load.prepares <;> simp [Event.call]
  | wake module =>
    cases h
    dsimp only
    split <;> simp [Event.call]
  | _ => cases h

/-- A step's events are its call's. -/
theorem owner_callStep [DecidableEq Thread] (env : Environment) (shared : Shared Thread)
    (answer : Answer) (i : ℕ) (call : Call (Request Thread) Pc)
    (next : Pc × Shared Thread × List (Event Thread))
    (h : callStep env shared answer i call = some next) : ∀ event ∈ next.2.2, event.call = i := by
  unfold callStep at h
  dsimp only at h
  split at h
  · split at h
    · cases h
      simp
    · cases h
  · split at h
    · cases h
      simp [Event.call]
    · cases h
  · split at h
    · obtain ⟨moved, hmoved, rfl⟩ := Option.map_eq_some_iff.mp h
      exact owner_move hmoved
    · cases h

/-- The hook, as calls of one routine. -/
def hook [DecidableEq Thread] (env : Environment) :
    Routine (Shared Thread) (Request Thread) Answer Pc (Event Thread) Empty where
  start := .enter
  called := .called
  owner := Event.call
  step := callStep env
  other _ := Empty.elim
  owner_called _ _ := rfl
  owner_step := owner_callStep env

/-- The system of all loads on all threads. -/
abbrev system [DecidableEq Thread] (env : Environment) :
    System (State (Shared Thread) (Request Thread) Pc (Event Thread))
      (Action (Request Thread) Answer Empty) :=
  (hook env).system {}

/-! ### What a load does -/

section Loads

variable (env : Environment) (i : ℕ) (request : Request Thread)

/-- The load is one of the runtime's code, and a redirect is configured. -/
def Asks : Prop := request.load.code = true ∧ redirects env request.load = true

/-- The loader is given the configured runtime, unless its function is not known. -/
def attempt : Option Pointer → List (Event Thread)
  | none => []
  | some module =>
    [.redirecting i request.thread (redirectLoad env), .redirected i request.thread module]

/-- What `MaybeRedirect` does and the module it gives. -/
inductive Redirect : Pointer → List (Event Thread) → Prop
  | unasked : ¬Asks env request → Redirect 0 []
  | declined : Asks env request → Redirect 0 [.declined i request.thread]
  | tried (given : Option Pointer) (alreadyReported : Bool) : Asks env request →
    Redirect (given.getD 0) (attempt env i request given ++
      if alreadyReported then [] else [.reported i (given.getD 0 ≠ 0)])

/-- What is prepared of a mapped module. -/
def preparations (module : Pointer) : List (Event Thread) :=
  (request.load.prepares.map fun component => Event.prepared i component module).toList

/-- What is done once the loader has returned a module. -/
def afterwards (module : Pointer) : List (Event Thread) :=
  if module ≠ 0 ∧ request.load.code = true then
    preparations i request module ++ if env.wake then [.woke i] else []
  else []

/-- What `LoadAndPrepare` does and the module it gives. -/
inductive Prepares : Pointer → List (Event Thread) → Prop
  | redirected {module : Pointer} {events : List (Event Thread)} :
    Redirect env i request module events → module ≠ 0 →
    Prepares module (events ++ [.prepared i .runtime module])
  /-- the loader's function is not known -/
  | refused {events : List (Event Thread)} : Redirect env i request 0 events → Prepares 0 events
  | loaded {events : List (Event Thread)} (module : Pointer) : Redirect env i request 0 events →
    Prepares module
      (events ++ [.passed i request.load, .mapped i module] ++ afterwards env i request module)

/-- What a call has done since it was made, by where it is. -/
def Since (events : List (Event Thread)) : Pc → Prop
  | .enter => events = []
  | .check => events = [] ∧ request.load.code = true
  | .redirecting =>
    events = [.redirecting i request.thread (redirectLoad env)] ∧ Asks env request
  | .report module =>
    ∃ given : Option Pointer, events = attempt env i request given ∧ module = given.getD 0 ∧
      Asks env request
  | .prepareRedirected module => Redirect env i request module events ∧ module ≠ 0
  | .callOriginal => Redirect env i request 0 events
  | .loading =>
    ∃ before, Redirect env i request 0 before ∧ events = before ++ [.passed i request.load]
  | .prepare module => ∃ before, Redirect env i request 0 before ∧
      events = before ++ [.passed i request.load, .mapped i module] ∧
      module ≠ 0 ∧ request.load.code = true
  | .wake module => ∃ before, Redirect env i request 0 before ∧
      events =
        before ++ [.passed i request.load, .mapped i module] ++ preparations i request module ∧
      module ≠ 0 ∧ request.load.code = true
  | .leave module => Prepares env i request module events
  | .returned module =>
    ∃ before, Prepares env i request module before ∧ events = before ++ [.returned i module]

/-- The events of a call, by where it is. -/
def Past (events : List (Event Thread)) (pc : Pc) : Prop :=
  ∃ since, events = .called i request :: since ∧ Since env i request since pc

end Loads

section Moves

variable {env : Environment} {inRedirect redirectReported : Bool} {answer : Answer} {i : ℕ}
  {request : Request Thread} {pc : Pc} {moved : Moved Thread} {since : List (Event Thread)}

/-- A move goes on from what the call has done. -/
theorem since_move (hsince : Since env i request since pc)
    (h : move env inRedirect redirectReported answer i request pc = some moved) :
    Since env i request (since ++ moved.events) moved.pc := by
  cases pc with
  | check =>
    obtain ⟨hnone, hcode⟩ := hsince
    rw [hnone]
    dsimp only [move] at h
    split at h
    · rename_i hunasked
      cases h
      refine .unasked fun hasks => ?_
      rw [hasks.2] at hunasked
      cases hunasked
    · rename_i hredirects
      have hasks : Asks env request := ⟨hcode, by simpa using hredirects⟩
      split at h
      · cases h
        exact .declined hasks
      · split at h
        · cases h
          exact ⟨rfl, hasks⟩
        · cases h
          exact ⟨none, rfl, rfl, hasks⟩
  | redirecting =>
    obtain ⟨hevents, hasks⟩ := hsince
    cases h
    rw [hevents]
    exact ⟨some answer.module, rfl, rfl, hasks⟩
  | report module =>
    obtain ⟨given, hevents, hmodule, hasks⟩ := hsince
    cases h
    have htried : Redirect env i request _ _ := .tried given redirectReported hasks
    rw [← hevents, ← hmodule] at htried
    dsimp only
    by_cases hgiven : module = 0
    · rw [if_pos hgiven]
      rw [hgiven] at htried ⊢
      exact htried
    · rw [if_neg hgiven]
      exact ⟨htried, hgiven⟩
  | prepareRedirected module =>
    cases h
    exact .redirected hsince.1 hsince.2
  | callOriginal =>
    dsimp only [move] at h
    split at h
    · cases h
      exact ⟨since, hsince, rfl⟩
    · cases h
      rw [List.append_nil]
      exact .refused hsince
  | loading =>
    obtain ⟨before, hredirect, hevents⟩ := hsince
    cases h
    rw [hevents, List.append_assoc]
    dsimp only
    split
    · rename_i hmapped
      exact ⟨before, hredirect, rfl, hmapped.1, hmapped.2⟩
    · rename_i hmapped
      have hloaded := Prepares.loaded answer.module hredirect
      rw [afterwards, if_neg hmapped, List.append_nil] at hloaded
      exact hloaded
  | prepare module =>
    obtain ⟨before, hredirect, hevents, hmapped⟩ := hsince
    cases h
    rw [hevents]
    exact ⟨before, hredirect, rfl, hmapped⟩
  | wake module =>
    obtain ⟨before, hredirect, hevents, hmapped⟩ := hsince
    cases h
    have hloaded := Prepares.loaded module hredirect
    rw [afterwards, if_pos hmapped, ← List.append_assoc] at hloaded
    rw [hevents]
    exact hloaded
  | _ => cases h

/-- A move takes or leaves the thread's flag as its call redirects. -/
theorem inRedirect_move (hflag : pc.isRedirecting = true → inRedirect = true)
    (h : move env inRedirect redirectReported answer i request pc = some moved) :
    pc.isRedirecting.toNat + moved.inRedirect.toNat =
      moved.pc.isRedirecting.toNat + inRedirect.toNat := by
  cases pc with
  | check =>
    dsimp only [move] at h
    split at h
    · cases h
      rfl
    · split at h
      · cases h
        rfl
      · rename_i hfree
        rw [Bool.not_eq_true] at hfree
        rw [hfree]
        split at h <;> cases h <;> rfl
  | redirecting =>
    rw [hflag rfl]
    cases h
    rfl
  | report module =>
    cases h
    dsimp only
    split <;> rfl
  | prepareRedirected module =>
    cases h
    rfl
  | callOriginal =>
    dsimp only [move] at h
    split at h <;> cases h <;> rfl
  | loading =>
    cases h
    dsimp only
    split <;> rfl
  | prepare module =>
    cases h
    rfl
  | wake module =>
    cases h
    rfl
  | _ => cases h

/-- A call that moves is under way, and stays so. -/
theorem underWay_move (h : move env inRedirect redirectReported answer i request pc = some moved) :
    pc.underWay = true ∧ moved.pc.underWay = true := by
  cases pc with
  | check =>
    dsimp only [move] at h
    split at h
    · cases h
      exact ⟨rfl, rfl⟩
    · split at h
      · cases h
        exact ⟨rfl, rfl⟩
      · split at h <;> cases h <;> exact ⟨rfl, rfl⟩
  | report module =>
    cases h
    dsimp only
    split <;> exact ⟨rfl, rfl⟩
  | callOriginal =>
    dsimp only [move] at h
    split at h <;> cases h <;> exact ⟨rfl, rfl⟩
  | loading =>
    cases h
    dsimp only
    split <;> exact ⟨rfl, rfl⟩
  | enter => cases h
  | leave module => cases h
  | returned module => cases h
  | _ =>
    cases h
    exact ⟨rfl, rfl⟩

end Moves

/-! ### What holds in between -/

/-- A call is in the loader for the configured runtime. -/
def Open (trace : List (Event Thread)) (t : Thread) (i : ℕ) : Prop :=
  (∃ load, .redirecting i t load ∈ trace) ∧ ∀ module, .redirected i t module ∉ trace

/-- A redirect begins on no thread that redirects already, and is declined on no
other. -/
def Guarded (before : List (Event Thread)) : Event Thread → Prop
  | .redirecting _ t _ => ∀ j, ¬Open before t j
  | .declined _ t => ∃ j, Open before t j
  | _ => True

/-- A line about the redirect. -/
def isReport : Event Thread → Bool
  | .reported .. => true
  | _ => false

/-- The frames of a call, by where it is. -/
def frames (i : ℕ) (load : Load) (pc : Pc) : List Frame :=
  if pc.underWay then [frameOf i load pc] else []

/-- The frames of a call on a thread. -/
def framesOf (shared : Shared Thread) (t : Thread) (i : ℕ) : List Frame :=
  (shared.threads t).stack.filter fun frame => frame.call = i

/-- A call's frames are its own. -/
theorem call_of_mem_frames {i : ℕ} {load : Load} {pc : Pc} {frame : Frame}
    (h : frame ∈ frames i load pc) : frame.call = i := by
  unfold frames at h
  split at h
  · rw [List.mem_singleton.mp h]
    rfl
  · cases h

/-- One of them redirects where the call does. -/
theorem countP_redirecting_frames (i : ℕ) (load : Load) (pc : Pc) :
    (frames i load pc).countP Frame.redirecting = pc.isRedirecting.toNat := by
  cases pc <;> rfl

/-- One of them is counted where the call is under way and names a component. -/
theorem countP_counted_frames (i : ℕ) (load : Load) (pc : Pc) :
    ((frames i load pc).countP Frame.counted : ℤ) =
      if pc.underWay then if load.component then 1 else 0 else 0 := by
  unfold frames
  split
  · rw [List.countP_singleton]
    change ((if load.component = true then 1 else 0 : ℕ) : ℤ) = _
    rw [Nat.cast_ite]
    rfl
  · rfl

/-- All of them are its own. -/
theorem filter_frames_self (i : ℕ) (load : Load) (pc : Pc) :
    (frames i load pc).filter (fun frame => frame.call = i) = frames i load pc :=
  List.filter_eq_self.mpr fun frame hframe => by simpa using call_of_mem_frames hframe

/-- None of them is another's. -/
theorem filter_frames_of_ne {i j : ℕ} (hne : j ≠ i) (load : Load) (pc : Pc) :
    (frames i load pc).filter (fun frame => frame.call = j) = [] :=
  List.filter_eq_nil_iff.mpr fun frame hframe => by
    rw [call_of_mem_frames hframe]
    simpa using hne.symm

/-- What a step does to the shared state: its call's frame is put, replaced or
taken on top of its thread's stack, and the count and the thread's flag follow. -/
structure Placed (shared shared' : Shared Thread) (t : Thread) (i : ℕ) (load : Load) (pc pc' : Pc)
    (rest : List Frame) : Prop where
  before : (shared.threads t).stack = frames i load pc ++ rest
  after : (shared'.threads t).stack = frames i load pc' ++ rest
  others : ∀ other, other ≠ t → shared'.threads other = shared.threads other
  count : shared'.componentLoads + ((frames i load pc).countP Frame.counted : ℤ) =
    shared.componentLoads + ((frames i load pc').countP Frame.counted : ℤ)
  flag : pc.isRedirecting.toNat + (shared'.threads t).inRedirect.toNat =
    pc'.isRedirecting.toNat + (shared.threads t).inRedirect.toNat

/-- What a call knows: its frames are on its thread's stack. -/
structure Known (shared : Shared Thread) (i : ℕ) (call : Call (Request Thread) Pc) : Prop where
  own : framesOf shared call.request.thread i = frames i call.request.load call.pc
  others : ∀ t, t ≠ call.request.thread → framesOf shared t i = []

/-- What holds of the shared state and the trace. -/
structure Common [Fintype Thread] (shared : Shared Thread) (trace : List (Event Thread)) :
    Prop where
  count : shared.componentLoads = ∑ t, ((shared.threads t).stack.countP Frame.counted : ℤ)
  flag : ∀ t,
    (shared.threads t).stack.countP Frame.redirecting = (shared.threads t).inRedirect.toNat
  opened : ∀ t i, Open trace t i ↔ ∃ frame ∈ framesOf shared t i, frame.redirecting = true
  owned : ∀ t, ∀ frame ∈ (shared.threads t).stack, ∃ request, .called frame.call request ∈ trace
  guarded : Justified Guarded trace
  reports : trace.countP isReport = shared.redirectReported.toNat

section Placing

variable {shared shared' : Shared Thread} {t : Thread} {i : ℕ} {load : Load} {pc pc' : Pc}
  {rest : List Frame}

/-- Where the stack holds no other frames of a call, they are its frames. -/
theorem Placed.framesOf_self (h : Placed shared shared' t i load pc pc' rest)
    (hrest : rest.filter (fun frame => frame.call = i) = []) :
    framesOf shared' t i = frames i load pc' := by
  unfold framesOf
  rw [h.after, List.filter_append, filter_frames_self, hrest, List.append_nil]

/-- The frames of other calls are where they were. -/
theorem Placed.framesOf_of_ne [DecidableEq Thread] (h : Placed shared shared' t i load pc pc' rest)
    {j : ℕ} (hne : j ≠ i) (other : Thread) : framesOf shared' other j = framesOf shared other j := by
  unfold framesOf
  by_cases hother : other = t
  · rw [hother, h.before, h.after, List.filter_append, List.filter_append,
      filter_frames_of_ne hne, filter_frames_of_ne hne]
  · rw [h.others other hother]

/-- The count goes with the frames. -/
theorem Placed.sum_counted [DecidableEq Thread] [Fintype Thread]
    (h : Placed shared shared' t i load pc pc' rest)
    (hcount : shared.componentLoads = ∑ t, ((shared.threads t).stack.countP Frame.counted : ℤ)) :
    shared'.componentLoads = ∑ t, ((shared'.threads t).stack.countP Frame.counted : ℤ) := by
  have hothers :
      ∑ other ∈ Finset.univ.erase t, ((shared'.threads other).stack.countP Frame.counted : ℤ) =
      ∑ other ∈ Finset.univ.erase t, ((shared.threads other).stack.countP Frame.counted : ℤ) := by
    refine Finset.sum_congr rfl fun other hother => ?_
    rw [h.others other (Finset.ne_of_mem_erase hother)]
  have hplaced := h.count
  rw [← Finset.add_sum_erase _ _ (Finset.mem_univ t), h.before, List.countP_append] at hcount
  rw [← Finset.add_sum_erase _ _ (Finset.mem_univ t), h.after, List.countP_append, hothers]
  push_cast at hcount ⊢
  linarith only [hcount, hplaced]

end Placing

/-! ### What a call's events show -/

/-- A redirect that was begun has ended. -/
def Closed (i : ℕ) (events : List (Event Thread)) : Prop :=
  ∀ t load, .redirecting i t load ∈ events → ∃ module, .redirected i t module ∈ events

section Shows

variable {env : Environment} {i : ℕ} {request : Request Thread} {pc : Pc} {module : Pointer}
  {events since : List (Event Thread)}

/-- What is closed stays so while no redirect begins. -/
theorem Closed.append (h : Closed i since) (hnone : ∀ t load, .redirecting i t load ∉ events) :
    Closed i (since ++ events) := by
  intro t load hbegun
  rcases List.mem_append.mp hbegun with hbefore | hnow
  · obtain ⟨module, hended⟩ := h t load hbefore
    exact ⟨module, List.mem_append_left _ hended⟩
  · exact absurd hnow (hnone t load)

/-- A redirect that an attempt to load began has ended. -/
theorem closed_attempt (given : Option Pointer) : Closed i (attempt env i request given) := by
  cases given with
  | none => exact fun _ _ h => nomatch h
  | some module =>
    intro t load hbegun
    have hthread : t = request.thread := by
      simp only [attempt, List.mem_cons, Event.redirecting.injEq, reduceCtorEq, List.not_mem_nil,
        or_false] at hbegun
      exact hbegun.2.1
    rw [hthread]
    exact ⟨module, List.mem_cons_of_mem _ List.mem_cons_self⟩

/-- So has one that was made. -/
theorem Redirect.closed (h : Redirect env i request module events) : Closed i events := by
  cases h with
  | unasked hnot => exact fun _ _ h => nomatch h
  | declined hasks => exact fun _ _ h => by simp at h
  | tried given alreadyReported hasks =>
    refine (closed_attempt given).append fun t load => ?_
    split <;> simp

/-- No redirect begins after the original returned. -/
theorem redirecting_notMem_afterwards (t : Thread) (load : Load) :
    .redirecting i t load ∉ afterwards env i request module := by
  unfold afterwards preparations
  split
  · cases request.load.prepares <;> split <;> simp
  · simp

/-- So has one behind which an image is prepared. -/
theorem Prepares.closed (h : Prepares env i request module events) : Closed i events := by
  cases h with
  | redirected hredirect hmodule => exact hredirect.closed.append fun _ _ => by simp
  | refused hredirect => exact hredirect.closed
  | loaded module hredirect =>
    exact (hredirect.closed.append fun _ _ => by simp).append redirecting_notMem_afterwards

/-- A call has ended its redirect wherever it is not in it. -/
theorem closed_since (hsince : Since env i request since pc) (hpc : pc.isRedirecting = false) :
    Closed i since := by
  have hnil : Closed i ([] : List (Event Thread)) := fun _ _ h => nomatch h
  cases pc with
  | enter =>
    have hsince : since = [] := hsince
    rw [hsince]
    exact hnil
  | check =>
    rw [hsince.1]
    exact hnil
  | redirecting => cases hpc
  | report module =>
    obtain ⟨given, hevents, _⟩ := hsince
    rw [hevents]
    exact closed_attempt given
  | prepareRedirected module => exact Redirect.closed hsince.1
  | callOriginal => exact Redirect.closed hsince
  | loading =>
    obtain ⟨before, hredirect, hevents⟩ := hsince
    rw [hevents]
    exact hredirect.closed.append fun _ _ => by simp
  | prepare module =>
    obtain ⟨before, hredirect, hevents, _⟩ := hsince
    rw [hevents]
    exact hredirect.closed.append fun _ _ => by simp
  | wake module =>
    obtain ⟨before, hredirect, hevents, _⟩ := hsince
    rw [hevents]
    refine (hredirect.closed.append fun _ _ => by simp).append fun _ _ => ?_
    unfold preparations
    cases request.load.prepares <;> simp
  | leave module => exact Prepares.closed hsince
  | returned module =>
    obtain ⟨before, hprepares, hevents⟩ := hsince
    rw [hevents]
    exact hprepares.closed.append fun _ _ => by simp

/-- Whether a call is in a redirect, by where it is. -/
theorem open_iff_past (h : Past env i request events pc) (t : Thread) :
    Open events t i ↔ t = request.thread ∧ pc.isRedirecting = true := by
  obtain ⟨since, rfl, hsince⟩ := h
  cases hpc : pc.isRedirecting with
  | false =>
    refine ⟨fun hopen => ?_, fun h => nomatch h.2⟩
    obtain ⟨⟨load, hbegun⟩, hnever⟩ := hopen
    have hbegun : .redirecting i t load ∈ since := by simpa using hbegun
    obtain ⟨module, hended⟩ := closed_since hsince hpc t load hbegun
    exact absurd (List.mem_cons_of_mem _ hended) (hnever module)
  | true =>
    cases pc with
    | redirecting =>
      rw [hsince.1]
      simp [Open]
    | _ => cases hpc

end Shows

/-- Whether a redirect is open is told by the events of its call. -/
theorem own_open_iff [DecidableEq Thread] (env : Environment) (trace : List (Event Thread))
    (t : Thread) (i : ℕ) : Open ((hook env).own trace i) t i ↔ Open trace t i := by
  unfold Open
  refine and_congr (exists_congr fun load => (hook env).mem_own rfl)
    (forall_congr' fun module => not_congr ((hook env).mem_own rfl))

/-- The events of one call say nothing of another's redirect. -/
theorem open_append_of_ne {trace events : List (Event Thread)} {i j : ℕ}
    (howner : ∀ event ∈ events, event.call = i) (hne : j ≠ i) (t : Thread) :
    Open (trace ++ events) t j ↔ Open trace t j := by
  have hmem : ∀ event : Event Thread, event.call = j →
      (event ∈ trace ++ events ↔ event ∈ trace) := by
    intro event hevent
    refine ⟨fun h => ?_, List.mem_append_left _⟩
    rcases List.mem_append.mp h with hin | hnow
    · exact hin
    · exact absurd (hevent.symm.trans (howner event hnow)) hne
  unfold Open
  exact and_congr (exists_congr fun load => hmem _ rfl)
    (forall_congr' fun module => not_congr (hmem _ rfl))

/-! ### One step -/

section Parts

variable {env : Environment} {shared : Shared Thread} {answer : Answer} {i : ℕ}
  {call : Call (Request Thread) Pc} {trace : List (Event Thread)}

/-- The innermost call is the one that runs, and it is there once. -/
theorem stack_of_runs (hknown : Known shared i call) (hpc : call.pc.underWay = true)
    (hruns : (shared.threads call.request.thread).runs i = true) :
    (shared.threads call.request.thread).stack = frames i call.request.load call.pc ++
        (shared.threads call.request.thread).stack.tail ∧
      (shared.threads call.request.thread).stack.tail.filter (fun frame => frame.call = i) = [] := by
  have hown := hknown.own
  unfold ThreadState.runs at hruns
  unfold framesOf at hown
  unfold frames at hown ⊢
  rw [if_pos hpc] at hown ⊢
  split at hruns
  · cases hruns
  · rename_i frame rest hstack
    rw [hstack, List.filter_cons_of_pos (by simpa using hruns)] at hown
    obtain ⟨hframe, hrest⟩ := List.cons.inj hown
    rw [hstack, hframe]
    exact ⟨rfl, hrest⟩

/-- A redirect begins and is declined by the flag of its thread. -/
theorem guarded_move {inRedirect redirectReported : Bool} {request : Request Thread} {pc : Pc}
    {moved : Moved Thread} (hguarded : Justified Guarded trace)
    (hopen : inRedirect = true ↔ ∃ j, Open trace request.thread j)
    (h : move env inRedirect redirectReported answer i request pc = some moved) :
    Justified Guarded (trace ++ moved.events) := by
  cases pc with
  | check =>
    dsimp only [move] at h
    split at h
    · cases h
      rwa [List.append_nil]
    · split at h
      · rename_i hflag
        cases h
        exact hguarded.concat (hopen.mp hflag)
      · rename_i hflag
        split at h
        · cases h
          exact hguarded.concat fun j hj => hflag (hopen.mpr ⟨j, hj⟩)
        · cases h
          rwa [List.append_nil]
  | redirecting =>
    cases h
    exact hguarded.concat trivial
  | report module =>
    cases h
    dsimp only
    split
    · rwa [List.append_nil]
    · exact hguarded.concat trivial
  | prepareRedirected module =>
    cases h
    exact hguarded.concat trivial
  | callOriginal =>
    dsimp only [move] at h
    split at h
    · cases h
      exact hguarded.concat trivial
    · cases h
      rwa [List.append_nil]
  | loading =>
    cases h
    exact hguarded.concat trivial
  | prepare module =>
    cases h
    cases request.load.prepares with
    | none => rwa [Option.map_none, Option.toList_none, List.append_nil]
    | some component => exact hguarded.concat trivial
  | wake module =>
    cases h
    dsimp only
    split
    · exact hguarded.concat trivial
    · rwa [List.append_nil]
  | _ => cases h

/-- The line about the redirect is written where it was not. -/
theorem reports_move {inRedirect redirectReported : Bool} {request : Request Thread} {pc : Pc}
    {moved : Moved Thread}
    (h : move env inRedirect redirectReported answer i request pc = some moved) :
    redirectReported.toNat + moved.events.countP isReport = moved.redirectReported.toNat := by
  cases pc with
  | check =>
    dsimp only [move] at h
    split at h
    · cases h
      rfl
    · split at h
      · cases h
        rfl
      · split at h <;> cases h <;> rfl
  | report module =>
    cases h
    cases redirectReported <;> rfl
  | callOriginal =>
    dsimp only [move] at h
    split at h <;> cases h <;> rfl
  | prepare module =>
    cases h
    cases request.load.prepares <;> rfl
  | wake module =>
    cases h
    dsimp only
    split <;> rfl
  | enter => cases h
  | leave module => cases h
  | returned module => cases h
  | _ =>
    cases h
    rfl

/-- A thread's flag says whether a call of it is in a redirect. -/
theorem Common.inRedirect_iff [Fintype Thread] (h : Common shared trace) (t : Thread) :
    (shared.threads t).inRedirect = true ↔ ∃ j, Open trace t j := by
  have hcount : (shared.threads t).inRedirect = true ↔
      0 < (shared.threads t).stack.countP Frame.redirecting := by
    rw [h.flag t]
    cases (shared.threads t).inRedirect <;> simp
  rw [hcount, List.countP_pos_iff]
  constructor
  · rintro ⟨frame, hframe, hredirecting⟩
    refine ⟨frame.call, (h.opened t frame.call).mpr ⟨frame, ?_, hredirecting⟩⟩
    exact List.mem_filter.mpr ⟨hframe, by simp⟩
  · rintro ⟨j, hj⟩
    obtain ⟨frame, hframe, hredirecting⟩ := (h.opened t j).mp hj
    exact ⟨frame, (List.mem_filter.mp hframe).1, hredirecting⟩

end Parts

section Steps

variable [DecidableEq Thread] {env : Environment} {shared : Shared Thread} {answer : Answer} {i : ℕ}
  {call : Call (Request Thread) Pc} {next : Pc × Shared Thread × List (Event Thread)}
  {trace events : List (Event Thread)}

/-- The three kinds of step. -/
theorem callStep_cases (h : callStep env shared answer i call = some next) :
    (call.pc = .enter ∧ ∃ pc, pc = (if call.request.load.code then Pc.check else .callOriginal) ∧
      next = (pc, shared.place call.request.thread
        ⟨(shared.threads call.request.thread).inRedirect,
          frameOf i call.request.load pc :: (shared.threads call.request.thread).stack⟩
        (shared.componentLoads + if call.request.load.component then 1 else 0)
        shared.redirectReported, [])) ∨
    (∃ module, call.pc = .leave module ∧ (shared.threads call.request.thread).runs i = true ∧
      next = (.returned module, shared.place call.request.thread
        ⟨(shared.threads call.request.thread).inRedirect,
          (shared.threads call.request.thread).stack.tail⟩
        (shared.componentLoads - if call.request.load.component then 1 else 0)
        shared.redirectReported, [.returned i module])) ∨
    ((shared.threads call.request.thread).runs i = true ∧ ∃ moved,
      move env (shared.threads call.request.thread).inRedirect shared.redirectReported answer i
        call.request call.pc = some moved ∧
      next = (moved.pc, shared.place call.request.thread
        ⟨moved.inRedirect, frameOf i call.request.load moved.pc ::
          (shared.threads call.request.thread).stack.tail⟩
        shared.componentLoads moved.redirectReported, moved.events)) := by
  unfold callStep at h
  dsimp only at h
  split at h
  · rename_i hpc
    split at h
    · cases h
      exact .inl ⟨hpc, _, rfl, rfl⟩
    · cases h
  · rename_i module hpc
    split at h
    · rename_i hruns
      cases h
      exact .inr (.inl ⟨module, hpc, hruns, rfl⟩)
    · cases h
  · split at h
    · rename_i hruns
      obtain ⟨moved, hmoved, rfl⟩ := Option.map_eq_some_iff.mp h
      exact .inr (.inr ⟨hruns, moved, hmoved, rfl⟩)
    · cases h

/-- What a step does to the shared state. -/
theorem placed_callStep (hknown : Known shared i call)
    (hflag : ∀ t, (shared.threads t).stack.countP Frame.redirecting =
      (shared.threads t).inRedirect.toNat)
    (h : callStep env shared answer i call = some next) :
    ∃ rest : List Frame, rest.filter (fun frame => frame.call = i) = [] ∧
      Placed shared next.2.1 call.request.thread i call.request.load call.pc next.1 rest := by
  have hothers : ∀ (thread : ThreadState) (loads : ℤ) (line : Bool) (other : Thread),
      other ≠ call.request.thread →
      (shared.place call.request.thread thread loads line).threads other = shared.threads other :=
    fun _ _ _ other hne => Function.update_of_ne hne _ _
  have hself : ∀ (thread : ThreadState) (loads : ℤ) (line : Bool),
      (shared.place call.request.thread thread loads line).threads call.request.thread = thread :=
    fun _ _ _ => Function.update_self _ _ _
  rcases callStep_cases h with ⟨hpc, pc, hcode, rfl⟩ | ⟨module, hpc, hruns, rfl⟩ |
    ⟨hruns, moved, hmoved, rfl⟩
  · have hfresh := hknown.own
    rw [hpc] at hfresh
    have hwhere : pc.underWay = true ∧ pc.isRedirecting = false := by
      rw [hcode]
      split <;> exact ⟨rfl, rfl⟩
    have hframes : frames i call.request.load pc = [frameOf i call.request.load pc] := if_pos hwhere.1
    refine ⟨(shared.threads call.request.thread).stack, hfresh, ?_, ?_, hothers _ _ _, ?_, ?_⟩
    · rw [hpc]
      rfl
    · rw [hself, hframes]
      rfl
    · rw [countP_counted_frames, countP_counted_frames, hpc, if_pos hwhere.1]
      exact Int.add_zero _
    · rw [hself, hpc, hwhere.2]
      rfl
  · obtain ⟨hstack, hrest⟩ := stack_of_runs hknown (by rw [hpc]; rfl) hruns
    refine ⟨_, hrest, hstack, ?_, hothers _ _ _, ?_, ?_⟩
    · rw [hself]
      rfl
    · rw [countP_counted_frames, countP_counted_frames, hpc]
      exact (Int.sub_add_cancel _ _).trans (Int.add_zero _).symm
    · rw [hself, hpc]
      rfl
  · obtain ⟨hbefore, hafter⟩ := underWay_move hmoved
    obtain ⟨hstack, hrest⟩ := stack_of_runs hknown hbefore hruns
    have hbegan : frames i call.request.load call.pc = [frameOf i call.request.load call.pc] :=
      if_pos hbefore
    have hends : frames i call.request.load moved.pc = [frameOf i call.request.load moved.pc] :=
      if_pos hafter
    refine ⟨_, hrest, hstack, ?_, hothers _ _ _, ?_, ?_⟩
    · rw [hself, hends]
      rfl
    · rw [hbegan, hends]
      rfl
    · rw [hself]
      refine inRedirect_move (fun hredirecting => ?_) hmoved
      have hcounted := hflag call.request.thread
      rw [hstack, List.countP_append, countP_redirecting_frames, hredirecting] at hcounted
      rw [← Bool.not_eq_false]
      intro hfalse
      rw [hfalse, Bool.toNat_true, Bool.toNat_false] at hcounted
      omega

/-- The events of a step follow those before it. -/
theorem past_callStep (hpast : Past env i call.request events call.pc)
    (h : callStep env shared answer i call = some next) :
    Past env i call.request (events ++ next.2.2) next.1 := by
  obtain ⟨since, rfl, hsince⟩ := hpast
  rw [List.cons_append]
  refine ⟨_, rfl, ?_⟩
  rcases callStep_cases h with ⟨hpc, pc, hcode, rfl⟩ | ⟨module, hpc, _, rfl⟩ | ⟨_, moved, hmoved, rfl⟩
  · rw [hpc] at hsince
    have hsince : since = [] := hsince
    rw [hsince, hcode]
    split
    · rename_i hcoded
      exact ⟨rfl, hcoded⟩
    · rename_i hdata
      exact .unasked fun hasks => hdata hasks.1
  · rw [hpc] at hsince
    exact ⟨since, hsince, rfl⟩
  · exact since_move hsince hmoved

variable [Fintype Thread]

/-- A step keeps what holds, what its call knows, and the frames of the others. -/
theorem Common.advance (h : Common shared trace) (hknown : Known shared i call)
    (hpast : Past env i call.request ((hook env).own trace i) call.pc)
    (hstep : callStep env shared answer i call = some next) :
    Common next.2.1 (trace ++ next.2.2) ∧ Known next.2.1 i { call with pc := next.1 } ∧
      ∀ j, j ≠ i → ∀ t, framesOf next.2.1 t j = framesOf shared t j := by
  obtain ⟨rest, hrest, hplaced⟩ := placed_callStep hknown h.flag hstep
  have howner := owner_callStep env shared answer i call next hstep
  have hpast' := past_callStep hpast hstep
  have hself := hplaced.framesOf_self hrest
  have helse : ∀ t, t ≠ call.request.thread → framesOf next.2.1 t i = [] := by
    intro t ht
    have hothers := hknown.others t ht
    unfold framesOf at hothers ⊢
    rwa [hplaced.others t ht]
  refine ⟨⟨hplaced.sum_counted h.count, ?_, ?_, ?_, ?_, ?_⟩, ⟨hself, helse⟩,
    fun j hj t => hplaced.framesOf_of_ne hj t⟩
  · intro t
    by_cases ht : t = call.request.thread
    · have hflag := h.flag call.request.thread
      have hmoved := hplaced.flag
      rw [hplaced.before, List.countP_append, countP_redirecting_frames] at hflag
      rw [ht, hplaced.after, List.countP_append, countP_redirecting_frames]
      omega
    · rw [hplaced.others t ht]
      exact h.flag t
  · intro t j
    by_cases hj : j = i
    · have hevents : (hook env).own (trace ++ next.2.2) i = (hook env).own trace i ++ next.2.2 :=
        (hook env).own_append_self howner
      rw [hj, ← own_open_iff env, hevents, open_iff_past hpast' t]
      by_cases ht : t = call.request.thread
      · rw [ht, hself]
        refine ⟨fun hopen => ?_, ?_⟩
        · have hunder := Pc.underWay_of_isRedirecting hopen.2
          exact ⟨frameOf i call.request.load next.1, by simp [frames, hunder], hopen.2⟩
        · rintro ⟨frame, hframe, hredirecting⟩
          unfold frames at hframe
          split at hframe
          · rw [List.mem_singleton.mp hframe] at hredirecting
            exact ⟨rfl, hredirecting⟩
          · cases hframe
      · rw [helse t ht]
        simp [ht]
    · rw [open_append_of_ne howner hj t, hplaced.framesOf_of_ne hj t]
      exact h.opened t j
  · intro t frame hframe
    by_cases ht : t = call.request.thread
    · rw [ht, hplaced.after] at hframe
      rcases List.mem_append.mp hframe with hown | hbelow
      · obtain ⟨since, hevents, _⟩ := hpast
        rw [call_of_mem_frames hown]
        have hcalled : .called i call.request ∈ (hook env).own trace i := by
          rw [hevents]
          exact List.mem_cons_self
        exact ⟨call.request, List.mem_append_left _ (((hook env).mem_own rfl).mp hcalled)⟩
      · have hmem : frame ∈ (shared.threads call.request.thread).stack := by
          rw [hplaced.before]
          exact List.mem_append_right _ hbelow
        obtain ⟨request, hcalled⟩ := h.owned _ frame hmem
        exact ⟨request, List.mem_append_left _ hcalled⟩
    · rw [hplaced.others t ht] at hframe
      obtain ⟨request, hcalled⟩ := h.owned t frame hframe
      exact ⟨request, List.mem_append_left _ hcalled⟩
  · rcases callStep_cases hstep with ⟨_, pc, _, rfl⟩ | ⟨module, _, _, rfl⟩ | ⟨_, moved, hmoved, rfl⟩
    · rw [List.append_nil]
      exact h.guarded
    · exact h.guarded.concat trivial
    · exact guarded_move h.guarded (h.inRedirect_iff call.request.thread) hmoved
  · rw [List.countP_append, h.reports]
    rcases callStep_cases hstep with ⟨_, pc, _, rfl⟩ | ⟨module, _, _, rfl⟩ | ⟨_, moved, hmoved, rfl⟩
    · rfl
    · rfl
    · exact reports_move hmoved

end Steps

/-- A call that is made keeps what is common. -/
theorem Common.make [Fintype Thread] {shared : Shared Thread} {trace : List (Event Thread)}
    (h : Common shared trace) (i : ℕ) (request : Request Thread) :
    Common shared (trace ++ [.called i request]) := by
  refine ⟨h.count, h.flag, fun t j => ?_, fun t frame hframe => ?_, h.guarded.concat trivial, ?_⟩
  · rw [← h.opened t j]
    simp [Open]
  · obtain ⟨earlier, hcalled⟩ := h.owned t frame hframe
    exact ⟨earlier, List.mem_append_left _ hcalled⟩
  · rw [List.countP_append, h.reports]
    rfl

/-- A call that was not made has no frame. -/
theorem Common.framesOf_eq_nil [DecidableEq Thread] [Fintype Thread] {env : Environment}
    {shared : Shared Thread} {trace : List (Event Thread)} {i : ℕ} (h : Common shared trace)
    (hfresh : (hook env).own trace i = []) (t : Thread) : framesOf shared t i = [] := by
  refine List.filter_eq_nil_iff.mpr fun frame hframe => ?_
  obtain ⟨request, hcalled⟩ := h.owned t frame hframe
  rw [decide_eq_true_iff]
  intro hcall
  have hmem := ((hook env).mem_own rfl).mpr hcalled
  have howner : (hook env).owner (Event.called frame.call request) = i := hcall
  rw [howner, hfresh] at hmem
  cases hmem

section System

variable [DecidableEq Thread] [Fintype Thread] {env : Environment}

/-- What the calls of the hook rely on and keep. -/
def discipline (env : Environment) : Discipline
    (hook env : Routine (Shared Thread) (Request Thread) Answer Pc (Event Thread) Empty) {} where
  Common := Common
  Known shared _ i call := Known shared i call
  Past := Past env
  Change actor shared _ shared' _ :=
    ∀ i, actor ≠ some i → ∀ t, framesOf shared' t i = framesOf shared t i
  initially := by
    refine ⟨?_, fun _ => rfl, fun t i => ?_, nofun, Justified.nil, rfl⟩
    · simp
    · simp [Open, framesOf]
  make i request hfresh h :=
    ⟨h.make i request, ⟨h.framesOf_eq_nil hfresh _, fun t _ => h.framesOf_eq_nil hfresh t⟩,
      fun _ _ _ => rfl⟩
  first _ _ := ⟨[], rfl, rfl⟩
  advance h hknown hpast hstep := by
    obtain ⟨hcommon, hknown, hothers⟩ := h.advance hknown hpast hstep
    exact ⟨hcommon, hknown, fun j hj => hothers j fun hsame => hj (congrArg some hsame.symm)⟩
  onward := past_callStep
  interfere {_ _ _ o} := o.elim
  stable {_ _ _ _ i _ _} hactor h hchange :=
    ⟨(hchange i hactor _).trans h.own, fun t ht => (hchange i hactor t).trans (h.others t ht)⟩

/-- However loads nest on their threads and threads interleave, the count the
worker asks is positive exactly while a load of the runtime's or the plugin's
code is under way. -/
theorem componentLoading_iff {s : State (Shared Thread) (Request Thread) Pc (Event Thread)}
    (h : (system env).Reachable s) : 0 < s.shared.componentLoads ↔
      ∃ i call, s.calls i = some call ∧ call.pc.underWay = true ∧
        call.request.load.component = true := by
  have hkeeps := (discipline env).keeps_of_reachable h
  have hcommon : Common s.shared s.trace := hkeeps.common
  have hknown : ∀ i call, s.calls i = some call → Known s.shared i call := hkeeps.known
  rw [hcommon.count]
  constructor
  · intro hpos
    obtain ⟨t, _, hpos⟩ := Finset.exists_lt_of_sum_lt (s := Finset.univ) (f := fun _ => (0 : ℤ))
      (by simpa using hpos)
    obtain ⟨frame, hframe, hcounted⟩ := List.countP_pos_iff.mp (Int.natCast_pos.mp hpos)
    cases hcall : s.calls frame.call with
    | none =>
      have hnone := hcommon.framesOf_eq_nil (hkeeps.fresh _ hcall) t
      have hmem : frame ∈ framesOf s.shared t frame.call := List.mem_filter.mpr ⟨hframe, by simp⟩
      rw [hnone] at hmem
      cases hmem
    | some call =>
      refine ⟨frame.call, call, hcall, ?_⟩
      have hmem : frame ∈ framesOf s.shared t frame.call := List.mem_filter.mpr ⟨hframe, by simp⟩
      have hcallKnown := hknown _ _ hcall
      by_cases ht : t = call.request.thread
      · rw [ht, hcallKnown.own] at hmem
        unfold frames at hmem
        split at hmem
        · rename_i hunder
          rw [List.mem_singleton.mp hmem] at hcounted
          exact ⟨hunder, hcounted⟩
        · cases hmem
      · rw [hcallKnown.others t ht] at hmem
        cases hmem
  · rintro ⟨i, call, hcall, hunder, hcomponent⟩
    have hmem : frameOf i call.request.load call.pc ∈
        framesOf s.shared call.request.thread i := by
      rw [(hknown i call hcall).own]
      simp [frames, hunder]
    have hstack := (List.mem_filter.mp hmem).1
    have hpos : 0 < (s.shared.threads call.request.thread).stack.countP Frame.counted :=
      List.countP_pos_iff.mpr ⟨_, hstack, hcomponent⟩
    exact Finset.sum_pos' (fun _ _ => Int.natCast_nonneg _)
      ⟨call.request.thread, Finset.mem_univ _, Int.natCast_pos.mpr hpos⟩

/-- The game loads the runtime, the configured one loads the runtime again, and
another thread begins to load the plugin. -/
def nestedRun : List (Action (Request Bool) Answer Empty) :=
  let runtime : Load := ⟨some (wide "C:\\Game\\nvngx_dlssg.dll"), 0, 0⟩
  let plugin : Load := ⟨some (wide "SL.dlss_g.DLL"), 0, 8⟩
  .make 0 ⟨false, runtime⟩ :: List.replicate 2 (.advance 0 ⟨true, 0⟩) ++
    .make 1 ⟨false, runtime⟩ :: List.replicate 7 (.advance 1 ⟨true, 7⟩) ++
    .make 2 ⟨true, plugin⟩ :: .advance 2 ⟨true, 0⟩ :: List.replicate 4 (.advance 0 ⟨true, 5⟩)

/-- Where it ends. -/
def nestedState : State (Shared Bool) (Request Bool) Pc (Event Bool) :=
  ((system ⟨wide "D:\\own.dll", true⟩).runUnder (fun _ _ => True) { shared := {} } nestedRun).getD
    { shared := {} }

/-- While the inner load prepares, the worker reads that one is under way. -/
theorem componentLoading_iff_nested : 0 < nestedState.shared.componentLoads :=
  (componentLoading_iff (System.reachable_getD_runUnder (.start rfl) (by decide +kernel))).mpr
    ⟨2, ⟨⟨true, wide "SL.dlss_g.DLL", 0, 8⟩, .check⟩, by decide +kernel, rfl, by decide +kernel⟩

/-- However loads nest and interleave, a redirect begins on no thread that is in
one, and is declined on no other; the line about it is written once. A load that
returned gave its caller the configured runtime, prepared, where the loader
mapped that in its place, and otherwise what the loader mapped of its own
arguments, prepared as the component it names and announced to the worker, data
and failures apart. -/
theorem loads_complete {s : State (Shared Thread) (Request Thread) Pc (Event Thread)}
    (h : (system env).Reachable s) :
    Justified Guarded s.trace ∧ s.trace.countP isReport ≤ 1 ∧
      ∀ i request module, s.calls i = some ⟨request, .returned module⟩ →
        ∃ events, Prepares env i request module events ∧
          (hook env).own s.trace i = .called i request :: events ++ [.returned i module] := by
  have hkeeps := (discipline env).keeps_of_reachable h
  have hcommon : Common s.shared s.trace := hkeeps.common
  refine ⟨hcommon.guarded, ?_, fun i request module hcall => ?_⟩
  · rw [hcommon.reports]
    exact Bool.toNat_le _
  · obtain ⟨since, hevents, before, hprepares, hsince⟩ := hkeeps.past i _ hcall
    exact ⟨before, hprepares, by rw [hevents, hsince]; rfl⟩

/-- The inner load is declined, and both return what was mapped. -/
theorem loads_complete_nested :
    (.declined 1 false) ∈ nestedState.trace ∧ (.prepared 1 .runtime 7) ∈ nestedState.trace ∧
      (.returned 0 5) ∈ nestedState.trace ∧ Justified Guarded nestedState.trace :=
  ⟨by decide +kernel, by decide +kernel, by decide +kernel,
    (loads_complete (System.reachable_getD_runUnder (.start rfl) (by decide +kernel))).1⟩

end System

end OpenDlssg.NestedLoads
