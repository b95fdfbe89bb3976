import Mathlib.Data.Set.Insert
import OpenDlssg.SpoofCallers
import OpenDlssg.Substitute

/-!
# What an architecture query records

Every answered query records the architecture it saw and, where that is one
the engine enables, activates the engine. The record is the last answer, the
activation stays: on a machine whose GPUs the engine judges alike the two
agree, on any other the order of the queries decides.
-/

namespace OpenDlssg.ArchAnswers

open ByteCodec WidePaths SpoofCallers Substitute TransitionRuns

/-- What NVAPI tells of a GPU's architecture. -/
structure ArchInfo where
  version : UInt32
  architecture : UInt32
  implementation : UInt32
  revision : UInt32
  deriving DecidableEq

/-- `NV_GPU_ARCH_INFO_VER1`. -/
def kArchInfoVersion1 : UInt32 := 0x10010

/-- `NV_GPU_ARCH_INFO_VER2`. -/
def kArchInfoVersion2 : UInt32 := 0x20010

/-- `NVAPI_ERROR`, returned only when a hook has no original to call. -/
def kNvApiError : UInt32 := 0xFFFFFFFF

/-- The state of the architecture hooks, with the engine they activate. -/
structure State where
  spoofEnabled : Bool := true
  stubScgPriority : Bool := true
  /-- Modules told the GPU is Ada. -/
  spoofCallers : List WString := []
  /-- The architecture of the last answer, 0 before the first. -/
  realArchitecture : UInt32 := 0
  engine : Substitute.State := {}

/-- What the GPU is to the engine. -/
inductive Architecture where
  | unknown
  | supported
  | notNeeded
  deriving DecidableEq

/-- Whether an architecture is one this engine enables. -/
def isSupported (architecture : UInt32) : Bool := architecture == kNvApiAmpere

/-- What an architecture is to the engine. -/
def verdict (real : UInt32) : Architecture :=
  if real = 0 then .unknown else if isSupported real then .supported else .notNeeded

/-- What the GPU is by the last answer. -/
def realArchitecture (s : State) : Architecture := verdict s.realArchitecture

/-- Whether an answer has a layout this code can read. -/
def knownVersion (info : ArchInfo) : Bool :=
  info.version == kArchInfoVersion1 || info.version == kArchInfoVersion2

/-- Record the architecture of an answer. -/
def recordAnswer (info : ArchInfo) (s : State) : State := { s with realArchitecture := info.architecture }

/-- Activate the engine for an answer. -/
def activateFor (info : ArchInfo) (s : State) : State :=
  { s with engine := activate info.architecture info.implementation s.engine }

/-- Decide what one caller is told: the architecture it ends up with, the answer
as rewritten, and the state. -/
def answer (status : UInt32) (info : Option ArchInfo) (caller : Option WString) (s : State) :
    UInt32 × Option ArchInfo × State :=
  match info with
  | none => (0, none, s)
  | some info =>
    if status ≠ 0 ∨ !knownVersion info then (info.architecture, some info, s)
    else if !isSupported info.architecture then (info.architecture, some info, recordAnswer info s)
    else
      let activated := activateFor info (recordAnswer info s)
      if !callerIsSpoofed s.spoofCallers caller || !s.spoofEnabled then
        (info.architecture, some info, activated)
      else (kNvApiAda, some { info with architecture := kNvApiAda }, activated)

/-- The hook around the original, which is absent until it is found: the status
and the answer the caller receives, and the state. -/
def hookedGetArchInfo (original : Option (UInt32 × Option ArchInfo)) (caller : Option WString)
    (s : State) : UInt32 × Option ArchInfo × State :=
  match original with
  | none => (kNvApiError, none, s)
  | some (status, info) => (status, (answer status info caller s).2)

/-- A query that succeeds with a known version. -/
structure Query where
  info : ArchInfo
  /-- The module that asks. -/
  caller : Option WString
  known : knownVersion info = true

/-- The state after a query. -/
def ask (s : State) (query : Query) : State :=
  (hookedGetArchInfo (some (0, some query.info)) query.caller s).2.2

/-- The state after a sequence of queries. -/
def askAll (queries : List Query) (s : State) : State := queries.foldl ask s

/-- The architectures a sequence of queries saw. -/
def architectures (queries : List Query) : List UInt32 := queries.map fun query => query.info.architecture

/-- A process: the state, and the answers that threads have recorded and not yet
acted on. -/
structure Process where
  state : State := {}
  pending : List ArchInfo := []

/-- The steps the threads of a process take. -/
inductive Action where
  | setSpoofEnabled (enabled : Bool)
  | setStubScgPriority (enabled : Bool)
  | setSpoofCallers (modules : List WString)
  | record (info : ArchInfo)
  | activate (info : ArchInfo)
  | engine (action : Substitute.Action)

/-- Whether a call of the engine activates it, which only an answer does. -/
def activates : Substitute.Action → Bool
  | .activate _ _ => true
  | _ => false

/-- A process over the steps of its threads, in any order. -/
def process (env : Environment) : System Process Action where
  init p := p = {}
  step p action :=
    match action with
    | .setSpoofEnabled enabled => some { p with state := { p.state with spoofEnabled := enabled } }
    | .setStubScgPriority enabled => some { p with state := { p.state with stubScgPriority := enabled } }
    | .setSpoofCallers modules => some { p with state := { p.state with spoofCallers := modules } }
    | .record info =>
      if !knownVersion info then none
      else some
        { state := recordAnswer info p.state
          pending := if isSupported info.architecture then info :: p.pending else p.pending }
    | .activate info =>
      if info ∈ p.pending then
        some { state := activateFor info p.state, pending := p.pending.erase info }
      else none
    | .engine action =>
      if activates action then none
      else ((Substitute.engine env).step p.state.engine action).map fun engine =>
        { p with state := { p.state with engine := engine } }

/-- The queries of a step see one of the given architectures. -/
def Sees (seen : Set UInt32) : Action → Prop
  | .record info => info.architecture ∈ seen
  | _ => True

/-- The order of the queries is not seen: what is queried decides the verdict
alone, and it is the supported one wherever the engine is active. -/
structure OrderFree (env : Environment) (seen : Set UInt32) : Prop where
  sameVerdict : ∀ (s : State) (first second : List Query),
    (∀ architecture ∈ architectures first, architecture ∈ seen) →
    (∀ architecture, architecture ∈ architectures first ↔ architecture ∈ architectures second) →
    realArchitecture (askAll first s) = realArchitecture (askAll second s)
  activeSupported : ∀ p, (process env).ReachableUnder (fun _ action => Sees seen action) p →
    p.state.engine.active = true → realArchitecture p.state = .supported

/-- A query is its two steps, one after the other. -/
theorem ask_eq (s : State) (query : Query) : ask s query =
    if isSupported query.info.architecture then activateFor query.info (recordAnswer query.info s)
    else recordAnswer query.info s := by
  unfold ask hookedGetArchInfo answer
  dsimp only
  rw [query.known, if_neg (by decide)]
  cases isSupported query.info.architecture with
  | false => rfl
  | true =>
    rw [if_neg (by decide), if_pos rfl]
    split
    · rfl
    · rfl

/-- A query records its architecture. -/
theorem realArchitecture_ask (s : State) (query : Query) :
    realArchitecture (ask s query) = verdict query.info.architecture := by
  rw [ask_eq]
  split
  · rfl
  · rfl

/-- A sequence of queries leaves the verdict of the last one. -/
theorem realArchitecture_askAll (queries : List Query) (query : Query) (s : State) :
    realArchitecture (askAll (queries ++ [query]) s) = verdict query.info.architecture := by
  unfold askAll
  rw [List.foldl_append]
  exact realArchitecture_ask _ _

/-- The verdict is the supported one for the supported architecture alone. -/
theorem verdict_eq_supported (architecture : UInt32) :
    verdict architecture = .supported ↔ isSupported architecture = true := by
  unfold verdict isSupported
  by_cases hzero : architecture = 0
  · rw [if_pos hzero, hzero]
    decide
  · rw [if_neg hzero]
    split
    · rename_i hsupported
      exact iff_of_true rfl hsupported
    · rename_i hsupported
      exact iff_of_false Architecture.noConfusion hsupported

/-- Only an answer activates the engine. -/
theorem activated_step {env : Environment} {engine engine' : Substitute.State}
    {action : Substitute.Action} (hnot : activates action = false)
    (h : (Substitute.engine env).step engine action = some engine') :
    engine'.activated = engine.activated := by
  have htarget : ∀ detected, (targetSm detected engine).2.activated = engine.activated := by
    intro detected
    unfold targetSm resolveTarget
    split
    · split
      · rfl
      · rfl
    · rfl
  cases action with
  | configure options =>
    cases h
    rfl
  | activate architecture implementation => cases hnot
  | buildProviderIndex provider =>
    cases h
    rfl
  | targetSm detected =>
    cases h
    exact htarget detected
  | decide detected caller blob =>
    cases h
    rw [← htarget detected]
    unfold Substitute.decide logDecision
    dsimp only
    split
    · split
      · rfl
      · rfl
    · rfl
    · rfl

/-- What holds of a process that sees architectures of one verdict: what waits
to activate the engine is supported, and where something waits or has activated
it, so is the architecture recorded. -/
structure Agrees (seen : Set UInt32) (p : Process) : Prop where
  pending_supported : ∀ info ∈ p.pending, isSupported info.architecture = true
  recorded_supported : p.state.engine.activated = true ∨ p.pending ≠ [] →
    (∃ architecture ∈ seen, isSupported architecture = true) ∧
      isSupported p.state.realArchitecture = true

section Uniform

variable {env : Environment} {seen : Set UInt32}

/-- Every step keeps record and activation in agreement. -/
theorem agrees_step (hseen : ∀ a ∈ seen, ∀ b ∈ seen, verdict a = verdict b) {p q : Process}
    {action : Action} (hp : Agrees seen p) (hsees : Sees seen action)
    (hstep : (process env).step p action = some q) : Agrees seen q := by
  cases action with
  | setSpoofEnabled enabled =>
    cases hstep
    exact ⟨hp.pending_supported, hp.recorded_supported⟩
  | setStubScgPriority enabled =>
    cases hstep
    exact ⟨hp.pending_supported, hp.recorded_supported⟩
  | setSpoofCallers modules =>
    cases hstep
    exact ⟨hp.pending_supported, hp.recorded_supported⟩
  | record info =>
    unfold process at hstep
    dsimp only at hstep
    split at hstep
    · cases hstep
    · cases hstep
      by_cases hsupported : isSupported info.architecture = true
      · rw [if_pos hsupported]
        refine ⟨?_, fun _ => ⟨⟨_, hsees, hsupported⟩, hsupported⟩⟩
        intro other hother
        rcases List.mem_cons.mp hother with rfl | hmem
        · exact hsupported
        · exact hp.pending_supported other hmem
      · rw [if_neg hsupported]
        refine ⟨hp.pending_supported, fun hsettled => ?_⟩
        -- an earlier answer was supported, and the verdicts are all one
        obtain ⟨⟨other, hother, hverdict⟩, _⟩ := hp.recorded_supported hsettled
        have hsame := hseen other hother info.architecture hsees
        rw [(verdict_eq_supported other).mpr hverdict] at hsame
        exact absurd ((verdict_eq_supported _).mp hsame.symm) hsupported
  | activate info =>
    unfold process at hstep
    dsimp only at hstep
    split at hstep
    · rename_i hpending
      cases hstep
      refine ⟨fun other hother => hp.pending_supported other (List.mem_of_mem_erase hother), fun _ => ?_⟩
      exact hp.recorded_supported (Or.inr (List.ne_nil_of_mem hpending))
    · cases hstep
  | engine action =>
    unfold process at hstep
    dsimp only at hstep
    split at hstep
    · cases hstep
    · rename_i hactivates
      obtain ⟨engine, hengine, rfl⟩ := Option.map_eq_some_iff.mp hstep
      refine ⟨hp.pending_supported, fun hsettled => hp.recorded_supported ?_⟩
      rwa [activated_step (Bool.eq_false_iff.mpr hactivates) hengine] at hsettled

/-- In a process that sees architectures of one verdict, record and activation agree. -/
theorem agrees_of_reachable (hseen : ∀ a ∈ seen, ∀ b ∈ seen, verdict a = verdict b) {p : Process}
    (hreach : (process env).ReachableUnder (fun _ action => Sees seen action) p) : Agrees seen p := by
  refine System.ReachableUnder.invariant (Agrees seen) ?_ ?_ hreach
  · rintro _ rfl
    refine ⟨fun _ hinfo => absurd hinfo List.not_mem_nil, ?_⟩
    rintro (hactivated | hpending)
    · cases hactivated
    · exact absurd rfl hpending
  · exact fun _ _ _ hp hsees hstep => agrees_step hseen hp hsees hstep

/-- Where the engine is active the architecture recorded is the supported one. -/
theorem isSupported_of_active (hseen : ∀ a ∈ seen, ∀ b ∈ seen, verdict a = verdict b) {p : Process}
    (hreach : (process env).ReachableUnder (fun _ action => Sees seen action) p)
    (hactive : p.state.engine.active = true) : isSupported p.state.realArchitecture = true := by
  have hactivated : p.state.engine.activated = true := (Bool.and_eq_true_iff.mp hactive).2
  exact ((agrees_of_reachable hseen hreach).recorded_supported (Or.inl hactivated)).2

/-- The last query of a sequence is one of its queries. -/
theorem mem_architectures_concat (queries : List Query) (query : Query) :
    query.info.architecture ∈ architectures (queries ++ [query]) :=
  List.mem_map_of_mem (List.mem_append_right _ List.mem_cons_self)

/-- Architectures of one verdict leave it whatever the order they are seen in. -/
theorem realArchitecture_askAll_eq (hseen : ∀ a ∈ seen, ∀ b ∈ seen, verdict a = verdict b)
    (s : State) {first second : List Query}
    (hfirst : ∀ architecture ∈ architectures first, architecture ∈ seen)
    (hsame : ∀ architecture, architecture ∈ architectures first ↔ architecture ∈ architectures second) :
    realArchitecture (askAll first s) = realArchitecture (askAll second s) := by
  rcases List.eq_nil_or_concat' first with rfl | ⟨front, last, rfl⟩
  · have hnone : second = [] := by
      cases second with
      | nil => rfl
      | cons query queries => exact absurd ((hsame _).mpr List.mem_cons_self) List.not_mem_nil
    rw [hnone]
  · have hlast := mem_architectures_concat front last
    rcases List.eq_nil_or_concat' second with rfl | ⟨front', last', rfl⟩
    · exact absurd ((hsame _).mp hlast) List.not_mem_nil
    · have hlast' := mem_architectures_concat front' last'
      rw [realArchitecture_askAll, realArchitecture_askAll]
      exact hseen _ (hfirst _ hlast) _ (hfirst _ ((hsame _).mpr hlast'))

end Uniform

/-- A query of a GPU of an architecture. -/
def queryOf (architecture : UInt32) : Query where
  info := ⟨kArchInfoVersion1, architecture, 0, 0⟩
  caller := none
  known := rfl

/-- The order of the queries is not seen exactly where all GPUs they see are
the same to the engine. -/
theorem orderFree_iff (env : Environment) (seen : Set UInt32) :
    OrderFree env seen ↔ ∀ a ∈ seen, ∀ b ∈ seen, verdict a = verdict b := by
  constructor
  · intro hfree a ha b hb
    have hsame := hfree.sameVerdict {} [queryOf b, queryOf a] [queryOf a, queryOf b] ?_ ?_
    · have hlast := realArchitecture_askAll [queryOf b] (queryOf a) {}
      have hlast' := realArchitecture_askAll [queryOf a] (queryOf b) {}
      exact hlast.symm.trans (hsame.trans hlast')
    · intro architecture hmem
      rcases List.mem_pair.mp hmem with rfl | rfl
      · exact hb
      · exact ha
    · intro architecture
      exact List.mem_pair.trans (Or.comm.trans List.mem_pair.symm)
  · intro hseen
    refine ⟨fun s first second hfirst hsame => ?_, fun p hreach hactive => ?_⟩
    · exact realArchitecture_askAll_eq hseen s hfirst hsame
    · exact (verdict_eq_supported _).mpr (isSupported_of_active hseen hreach hactive)

/-- Beside an Ampere GPU one of another architecture decides by when it is
asked for: last, it leaves the engine active and the verdict that it is not needed. -/
theorem second_gpu_decides :
    realArchitecture (askAll [queryOf kNvApiAmpere, queryOf 0x1B0] {}) = .notNeeded ∧
      realArchitecture (askAll [queryOf 0x1B0, queryOf kNvApiAmpere] {}) = .supported ∧
      (askAll [queryOf kNvApiAmpere, queryOf 0x1B0]
        { engine := { configured := true } }).engine.active = true := by
  decide +kernel

end OpenDlssg.ArchAnswers
