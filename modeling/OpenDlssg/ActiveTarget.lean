import Mathlib.Logic.Relation
import OpenDlssg.ArchAnswers

/-!
# The target of an active engine

Configuring, activating and asking for the target run on any threads, one
access to the shared memory at a time. The NVAPI ids are stored before the flag
that activates the engine, so whoever resolves the target of an active engine
finds ids that have one; it is resolved once and kept. A decision reads its
target first and the flags again when it words its reason: an engine activated
in between is found active with the target of an inactive one.
-/

namespace OpenDlssg.ActiveTarget

open ByteCodec FatbinRetarget ProviderIndex Substitute ArchAnswers TransitionRuns

/-- What the CUDA driver answers, one call after the other. -/
structure CudaAnswers where
  init : Int32
  deviceGet : Int32
  majorStatus : Int32
  major : Int32
  minorStatus : Int32
  minor : Int32

/-- SM number of the GPU in this process, 0 when no CUDA device answers. The
answers are absent when the driver or one of its entry points is. -/
def detectDeviceSm (cuda : Option CudaAnswers) : UInt32 :=
  match cuda with
  | none => 0
  | some answers =>
    if answers.init ≠ 0 ∨ answers.deviceGet ≠ 0 then 0
    else if answers.majorStatus ≠ 0 ∨ answers.minorStatus ≠ 0 then 0
    else if answers.major ≤ 0 then 0
    else answers.major.toUInt32 * 10 + answers.minor.toUInt32

/-- Where `std::call_once` is: who runs it, or that it has returned. -/
inductive Once
  | fresh
  | running (thread : ℕ)
  | done
  deriving DecidableEq

/-- The memory the threads share. -/
structure Memory where
  /-- `g_options.target_sm` -/
  optionsSm : UInt32 := 0
  configured : Bool := false
  activated : Bool := false
  fallbackArch : UInt32 := 0
  fallbackImpl : UInt32 := 0
  once : Once := .fresh
  /-- `g_target_sm` -/
  target : UInt32 := 0
  deriving DecidableEq

/-- Configured and active on this GPU. -/
def Memory.active (m : Memory) : Bool := m.configured && m.activated

/-- What a call of `TargetSm` is made for: on its own, or by a decision on an
image, which is empty when it is null or has no bytes. -/
inductive Purpose
  | query
  | decision (empty : Bool)
  deriving DecidableEq

/-- A call of `TargetSm`. -/
structure Call where
  purpose : Purpose
  /-- Whether the engine was active when the call began. -/
  begunActive : Bool
  deriving DecidableEq

/-- The next access of a call of `TargetSm`. -/
inductive Access
  | loadConfigured
  | loadActivated
  /-- enter `ResolveTarget` -/
  | enterOnce
  | readOptions
  | detect
  | loadArch
  | loadImpl (arch : UInt32)
  | storeTarget (sm : UInt32)
  | leaveOnce
  | loadTarget
  deriving DecidableEq

/-- Where a thread is. -/
inductive Phase
  | idle
  /-- in `Configure` -/
  | storeOptions (sm : UInt32)
  | storeConfigured
  /-- in `Activate` -/
  | storeArch (info : ArchInfo)
  | storeImpl (info : ArchInfo)
  | storeActivated
  /-- in `TargetSm` -/
  | target (call : Call) (access : Access)
  /-- in `DecideFrom`, which has nothing to decide on and words its reason -/
  | reasonConfigured (call : Call) (target : UInt32)
  | reasonActivated (call : Call) (target : UInt32)
  deriving DecidableEq

/-- Whether a call is in `std::call_once`. -/
def Access.resolving : Access → Bool
  | .loadConfigured => false
  | .loadActivated => false
  | .enterOnce => false
  | .loadTarget => false
  | _ => true

/-- Whether a thread is in `std::call_once`. -/
def Phase.resolving : Phase → Bool
  | .target _ access => access.resolving
  | _ => false

/-- What a call of `TargetSm` returned. -/
structure Returned where
  call : Call
  value : UInt32
  deriving DecidableEq

/-- Why an image was passed on without a look at it. -/
structure PassedOn where
  call : Call
  target : UInt32
  reason : String
  deriving DecidableEq

/-- The process: its memory, where its threads are, and what they were told. -/
structure Process where
  memory : Memory := {}
  phase : ℕ → Phase := fun _ => .idle
  returned : List Returned := []
  passedOn : List PassedOn := []

/-- The reason for passing on an image for want of a target. -/
def kNoTarget : String := "no target architecture"

/-- The reason the source words when there is no target or no image. -/
def noDecisionReason (active : Bool) (target : UInt32) : String :=
  if !active then "inactive" else if target ≠ 0 then "empty" else kNoTarget

/-- A thread moves on with the memory as it leaves it. -/
def Process.move (p : Process) (i : ℕ) (memory : Memory) (phase : Phase) : Process :=
  { p with memory := memory, phase := Function.update p.phase i phase }

/-- `TargetSm` returns to its caller. -/
def Process.return (p : Process) (i : ℕ) (call : Call) (value : UInt32) : Process :=
  let next : Phase :=
    match call.purpose with
    | .query => .idle
    | .decision empty => if value = 0 ∨ empty then .reasonConfigured call value else .idle
  { p.move i p.memory next with returned := ⟨call, value⟩ :: p.returned }

/-- `DecideFrom` passes an image on. -/
def Process.passOn (p : Process) (i : ℕ) (call : Call) (target : UInt32) (active : Bool) : Process :=
  { p.move i p.memory .idle with
    passedOn := ⟨call, target, noDecisionReason active target⟩ :: p.passedOn }

/-- The next access of a call of `TargetSm`; absent while another thread is in
`std::call_once`. -/
def Process.access (p : Process) (i : ℕ) (call : Call) (cuda : Option CudaAnswers) :
    Access → Option Process
  | .loadConfigured =>
    if p.memory.configured then some (p.move i p.memory (.target call .loadActivated))
    else some (p.return i call 0)
  | .loadActivated =>
    if p.memory.activated then some (p.move i p.memory (.target call .enterOnce))
    else some (p.return i call 0)
  | .enterOnce =>
    match p.memory.once with
    | .fresh => some (p.move i { p.memory with once := .running i } (.target call .readOptions))
    | .running _ => none
    | .done => some (p.move i p.memory (.target call .loadTarget))
  | .readOptions =>
    let sm := p.memory.optionsSm
    some (p.move i p.memory (.target call (if sm = 0 then .detect else .storeTarget sm)))
  | .detect =>
    let sm := detectDeviceSm cuda
    some (p.move i p.memory (.target call (if sm = 0 then .loadArch else .storeTarget sm)))
  | .loadArch => some (p.move i p.memory (.target call (.loadImpl p.memory.fallbackArch)))
  | .loadImpl arch =>
    some (p.move i p.memory (.target call (.storeTarget (smFromNvApiArch arch p.memory.fallbackImpl))))
  | .storeTarget sm => some (p.move i { p.memory with target := sm } (.target call .leaveOnce))
  | .leaveOnce => some (p.move i { p.memory with once := .done } (.target call .loadTarget))
  | .loadTarget => some (p.return i call p.memory.target)

/-- The next access of a thread. -/
def Process.advance (p : Process) (i : ℕ) (cuda : Option CudaAnswers) : Option Process :=
  match p.phase i with
  | .idle => none
  | .storeOptions sm => some (p.move i { p.memory with optionsSm := sm } .storeConfigured)
  | .storeConfigured => some (p.move i { p.memory with configured := true } .idle)
  | .storeArch info =>
    some (p.move i { p.memory with fallbackArch := info.architecture } (.storeImpl info))
  | .storeImpl info =>
    some (p.move i { p.memory with fallbackImpl := info.implementation } .storeActivated)
  | .storeActivated => some (p.move i { p.memory with activated := true } .idle)
  | .target call access => p.access i call cuda access
  | .reasonConfigured call target =>
    if p.memory.configured then some (p.move i p.memory (.reasonActivated call target))
    else some (p.passOn i call target false)
  | .reasonActivated call target => some (p.passOn i call target p.memory.activated)

/-- What the threads do. -/
inductive Action
  /-- a thread calls `Configure` -/
  | configure (i : ℕ) (sm : UInt32)
  /-- a thread's query of the architecture is answered -/
  | answer (i : ℕ) (status : UInt32) (info : ArchInfo)
  /-- a thread asks for the target -/
  | ask (i : ℕ) (purpose : Purpose)
  /-- a thread makes its next access; the CUDA driver answers if it is asked -/
  | advance (i : ℕ) (cuda : Option CudaAnswers)

/-- The process over the steps of its threads, in any order. -/
def machine : System Process Action where
  init p := p = {}
  step p action :=
    match action with
    | .configure i sm => if p.phase i = .idle then some (p.move i p.memory (.storeOptions sm)) else none
    | .answer i status info =>
      if p.phase i ≠ .idle then none
      else if status ≠ 0 ∨ !knownVersion info ∨ !isSupported info.architecture then some p
      else some (p.move i p.memory (.storeArch info))
    | .ask i purpose =>
      if p.phase i = .idle then
        some (p.move i p.memory (.target ⟨purpose, p.memory.active⟩ .loadConfigured))
      else none
    | .advance i cuda => p.advance i cuda

/-- The want of a target is worded exactly where an active engine has none. -/
theorem noDecisionReason_eq_noTarget {active : Bool} {target : UInt32} :
    noDecisionReason active target = kNoTarget ↔ active = true ∧ target = 0 := by
  unfold noDecisionReason kNoTarget
  cases active with
  | false => exact iff_of_false (by simp) (fun h => Bool.noConfusion h.1)
  | true =>
    by_cases htarget : target = 0
    · simp [htarget]
    · simp [htarget]

/-! ### What holds in every state -/

/-- What the memory keeps: an engine that was activated has the ids of the one
architecture that activates it, and a target once resolved is one. -/
structure MemoryOk (m : Memory) : Prop where
  ids : m.activated = true → m.fallbackArch = kNvApiAmpere
  target : m.once = .done → m.target ≠ 0

/-- What a call of `TargetSm` knows at its next access. -/
def AccessOk (m : Memory) (i : ℕ) : Access → Prop
  | .loadConfigured => True
  | .loadActivated => m.configured = true
  | .enterOnce => m.active = true
  | .readOptions => m.active = true ∧ m.once = .running i
  | .detect => m.active = true ∧ m.once = .running i
  | .loadArch => m.active = true ∧ m.once = .running i
  | .loadImpl arch => arch = kNvApiAmpere ∧ m.once = .running i
  | .storeTarget sm => sm ≠ 0 ∧ m.once = .running i
  | .leaveOnce => m.target ≠ 0 ∧ m.once = .running i
  | .loadTarget => m.once = .done

/-- What a thread knows where it is. -/
def PhaseOk (m : Memory) (i : ℕ) : Phase → Prop
  | .idle => True
  | .storeOptions _ => True
  | .storeConfigured => True
  | .storeArch info => info.architecture = kNvApiAmpere
  | .storeImpl _ => m.fallbackArch = kNvApiAmpere
  | .storeActivated => m.fallbackArch = kNvApiAmpere
  | .target call access => (call.begunActive = true → m.active = true) ∧ AccessOk m i access
  | .reasonConfigured call target => target = 0 → call.begunActive = false
  | .reasonActivated call target => target = 0 → call.begunActive = false

/-- What a call was told: nothing before the engine was active, and the one
target of the process otherwise. -/
def ReturnedOk (m : Memory) (r : Returned) : Prop :=
  r.value = 0 ∧ r.call.begunActive = false ∨ m.once = .done ∧ r.value = m.target

/-- A call begun in an active engine is passed on for want of an image alone. -/
def PassedOnOk (d : PassedOn) : Prop :=
  d.reason = kNoTarget → d.call.begunActive = false

/-- What holds in every state of the process. -/
structure ProcessOk (p : Process) : Prop where
  memory : MemoryOk p.memory
  /-- The thread that runs `std::call_once` is in it, and no other is. -/
  once : ∀ i, p.memory.once = .running i ↔ (p.phase i).resolving = true
  phase : ∀ i, PhaseOk p.memory i (p.phase i)
  returned : ∀ r ∈ p.returned, ReturnedOk p.memory r
  passedOn : ∀ d ∈ p.passedOn, PassedOnOk d

/-- What a step of one thread may change of the memory another thread `i` sees. -/
structure Grows (i : ℕ) (m m' : Memory) : Prop where
  configured : m.configured = true → m'.configured = true
  activated : m.activated = true → m'.activated = true
  ids : m.fallbackArch = kNvApiAmpere → m'.fallbackArch = kNvApiAmpere
  once : m'.once = .running i ↔ m.once = .running i
  running : m.once = .running i → m'.target = m.target
  done : m.once = .done → m'.once = .done ∧ m'.target = m.target

namespace Grows

variable {i : ℕ} {m m' : Memory}

theorem refl (i : ℕ) (m : Memory) : Grows i m m :=
  ⟨id, id, id, Iff.rfl, fun _ => rfl, fun h => ⟨h, rfl⟩⟩

theorem active (h : Grows i m m') (hactive : m.active = true) : m'.active = true := by
  unfold Memory.active at hactive ⊢
  obtain ⟨hconfigured, hactivated⟩ := (Bool.and_eq_true _ _).mp hactive
  rw [h.configured hconfigured, h.activated hactivated]
  rfl

/-- What a call knows stays true while other threads step. -/
theorem accessOk (h : Grows i m m') {access : Access} (hok : AccessOk m i access) :
    AccessOk m' i access := by
  cases access with
  | loadConfigured => trivial
  | loadActivated => exact h.configured hok
  | enterOnce => exact h.active hok
  | readOptions => exact ⟨h.active hok.1, h.once.mpr hok.2⟩
  | detect => exact ⟨h.active hok.1, h.once.mpr hok.2⟩
  | loadArch => exact ⟨h.active hok.1, h.once.mpr hok.2⟩
  | loadImpl arch => exact ⟨hok.1, h.once.mpr hok.2⟩
  | storeTarget sm => exact ⟨hok.1, h.once.mpr hok.2⟩
  | leaveOnce => exact ⟨(h.running hok.2).symm ▸ hok.1, h.once.mpr hok.2⟩
  | loadTarget => exact (h.done hok).1

/-- What a thread knows stays true while other threads step. -/
theorem phaseOk (h : Grows i m m') {phase : Phase} (hok : PhaseOk m i phase) : PhaseOk m' i phase := by
  cases phase with
  | idle => trivial
  | storeOptions sm => trivial
  | storeConfigured => trivial
  | storeArch info => exact hok
  | storeImpl info => exact h.ids hok
  | storeActivated => exact h.ids hok
  | target call access => exact ⟨fun hcall => h.active (hok.1 hcall), h.accessOk hok.2⟩
  | reasonConfigured call target => exact hok
  | reasonActivated call target => exact hok

end Grows

/-- A thread moves on: the others see the memory grow, and it knows what its
next access relies on. -/
theorem ProcessOk.move {p : Process} (hp : ProcessOk p) {i : ℕ} {memory : Memory} {phase : Phase}
    (hmemory : MemoryOk memory) (hgrows : ∀ j ≠ i, Grows j p.memory memory)
    (hdone : p.memory.once = .done → memory.once = .done ∧ memory.target = p.memory.target)
    (honce : memory.once = .running i ↔ phase.resolving = true)
    (hphase : PhaseOk memory i phase) : ProcessOk (p.move i memory phase) where
  memory := hmemory
  once j := by
    change memory.once = .running j ↔ (Function.update p.phase i phase j).resolving = true
    rw [Function.update_apply]
    split
    · rename_i hj
      rw [hj]
      exact honce
    · rename_i hj
      exact (hgrows j hj).once.trans (hp.once j)
  phase j := by
    change PhaseOk memory j (Function.update p.phase i phase j)
    rw [Function.update_apply]
    split
    · rename_i hj
      rw [hj]
      exact hphase
    · rename_i hj
      exact (hgrows j hj).phaseOk (hp.phase j)
  returned r hr := by
    rcases hp.returned r hr with hnothing | ⟨hwas, hvalue⟩
    · exact Or.inl hnothing
    · obtain ⟨hdone', htarget⟩ := hdone hwas
      exact Or.inr ⟨hdone', hvalue.trans htarget.symm⟩
  passedOn := hp.passedOn

/-- A thread moves on and leaves the memory alone. -/
theorem ProcessOk.stay {p : Process} (hp : ProcessOk p) {i : ℕ} {phase : Phase}
    (hresolving : phase.resolving = (p.phase i).resolving) (hphase : PhaseOk p.memory i phase) :
    ProcessOk (p.move i p.memory phase) :=
  hp.move hp.memory (fun j _ => Grows.refl j p.memory) (fun h => ⟨h, rfl⟩)
    (hresolving ▸ hp.once i) hphase

/-- A call returns what it may return. -/
theorem ProcessOk.return {p : Process} (hp : ProcessOk p) {i : ℕ} {call : Call} {value : UInt32}
    (hout : (p.phase i).resolving = false) (hvalue : ReturnedOk p.memory ⟨call, value⟩) :
    ProcessOk (p.return i call value) := by
  have hzero : value = 0 → call.begunActive = false := by
    intro hz
    rcases hvalue with hnothing | ⟨hdone, htarget⟩
    · exact hnothing.2
    · exact absurd (htarget.symm.trans hz) (hp.memory.target hdone)
  have hphase : ∀ phase, (phase = .idle ∨ phase = .reasonConfigured call value) →
      ProcessOk (p.move i p.memory phase) := by
    rintro phase (rfl | rfl)
    · exact hp.stay hout.symm trivial
    · exact hp.stay hout.symm hzero
  have hmoved : ProcessOk (p.move i p.memory
      (match call.purpose with
        | .query => .idle
        | .decision empty => if value = 0 ∨ empty then .reasonConfigured call value else .idle)) := by
    refine hphase _ ?_
    cases call.purpose with
    | query => exact Or.inl rfl
    | decision empty =>
      dsimp only
      split
      · exact Or.inr rfl
      · exact Or.inl rfl
  refine ⟨hmoved.memory, hmoved.once, hmoved.phase, ?_, hmoved.passedOn⟩
  intro r hr
  rcases List.mem_cons.mp hr with rfl | hr
  · exact hvalue
  · exact hp.returned r hr

/-- A decision words a reason its target allows. -/
theorem ProcessOk.passOn {p : Process} (hp : ProcessOk p) {i : ℕ} {call : Call} {target : UInt32}
    (hout : (p.phase i).resolving = false) (htarget : target = 0 → call.begunActive = false)
    (active : Bool) : ProcessOk (p.passOn i call target active) := by
  have hmoved : ProcessOk (p.move i p.memory .idle) := hp.stay hout.symm trivial
  refine ⟨hmoved.memory, hmoved.once, hmoved.phase, hmoved.returned, ?_⟩
  intro d hd
  rcases List.mem_cons.mp hd with rfl | hd
  · intro hreason
    exact htarget (noDecisionReason_eq_noTarget.mp hreason).2
  · exact hp.passedOn d hd

/-- Every implementation of the architecture that activates the engine has a target. -/
theorem smFromNvApiArch_ampere (implementation : UInt32) :
    smFromNvApiArch kNvApiAmpere implementation ≠ 0 := by
  unfold smFromNvApiArch
  rw [if_neg (by decide), if_pos rfl]
  split
  · decide
  · decide

/-- In `std::call_once` no thread but the one in it sees the memory it changes. -/
theorem grows_of_running {i j : ℕ} {m m' : Memory} (hj : j ≠ i) (hrunning : m.once = .running i)
    (hnot : m'.once ≠ .running j)
    (hconfigured : m'.configured = m.configured) (hactivated : m'.activated = m.activated)
    (hids : m'.fallbackArch = m.fallbackArch) : Grows j m m' where
  configured h := hconfigured.trans h
  activated h := hactivated.trans h
  ids h := hids.trans h
  once := by
    refine iff_of_false (fun h => hnot (h ▸ rfl)) fun h => ?_
    exact hj (Once.running.inj (h.symm.trans hrunning))
  running h := absurd (Once.running.inj (h.symm.trans hrunning)) hj
  done h := absurd (h.symm.trans hrunning) (by simp)

/-- The thread in `std::call_once` moves on, and no other sees what it changed. -/
theorem ProcessOk.moveInOnce {p : Process} (hp : ProcessOk p) {i : ℕ} {memory : Memory} {phase : Phase}
    (hrunning : p.memory.once = .running i) (hnot : ∀ j ≠ i, memory.once ≠ .running j)
    (hconfigured : memory.configured = p.memory.configured)
    (hactivated : memory.activated = p.memory.activated)
    (hids : memory.fallbackArch = p.memory.fallbackArch) (hmemory : MemoryOk memory)
    (honce : memory.once = .running i ↔ phase.resolving = true) (hphase : PhaseOk memory i phase) :
    ProcessOk (p.move i memory phase) := by
  refine hp.move hmemory (fun j hj => ?_) (fun hdone => ?_) honce hphase
  · exact grows_of_running hj hrunning (hnot j hj) hconfigured hactivated hids
  · exact absurd (hrunning.symm.trans hdone) (by simp)

/-- It stores a target that is not zero, and asks the next source for one otherwise. -/
theorem ProcessOk.tryTarget {p : Process} (hp : ProcessOk p) {i : ℕ} {call : Call} {sm : UInt32}
    {next : Access} (hresolving : (p.phase i).resolving = true)
    (hbegun : call.begunActive = true → p.memory.active = true) (hrunning : p.memory.once = .running i)
    (hnext : next.resolving = true) (hok : AccessOk p.memory i next) :
    ProcessOk (p.move i p.memory (.target call (if sm = 0 then next else .storeTarget sm))) := by
  by_cases hsm : sm = 0
  · rw [if_pos hsm]
    exact hp.stay (hnext.trans hresolving.symm) ⟨hbegun, hok⟩
  · rw [if_neg hsm]
    exact hp.stay hresolving.symm ⟨hbegun, hsm, hrunning⟩

/-- An access of a call of `TargetSm` keeps what holds. -/
theorem access_ok {p q : Process} (hp : ProcessOk p) {i : ℕ} {call : Call} {access : Access}
    {cuda : Option CudaAnswers} (hphase : p.phase i = .target call access)
    (h : p.access i call cuda access = some q) : ProcessOk q := by
  have hok := hp.phase i
  rw [hphase] at hok
  obtain ⟨hbegun, hknows⟩ := hok
  have hresolving : (p.phase i).resolving = access.resolving := by
    rw [hphase]
    rfl
  have hinactive : p.memory.active = false → call.begunActive = false := by
    intro hoff
    rw [Bool.eq_false_iff]
    intro hcall
    rw [hbegun hcall] at hoff
    cases hoff
  cases access with
  | loadConfigured =>
    rw [Process.access] at h
    split at h
    · rename_i hconfigured
      cases h
      exact hp.stay hresolving.symm ⟨hbegun, hconfigured⟩
    · rename_i hconfigured
      cases h
      refine hp.return hresolving (Or.inl ⟨rfl, hinactive ?_⟩)
      rw [Memory.active, Bool.eq_false_iff.mpr hconfigured]
      rfl
  | loadActivated =>
    rw [Process.access] at h
    split at h
    · rename_i hactivated
      cases h
      refine hp.stay hresolving.symm ⟨hbegun, ?_⟩
      change (p.memory.configured && p.memory.activated) = true
      rw [hactivated, show p.memory.configured = true from hknows]
      rfl
    · rename_i hactivated
      cases h
      refine hp.return hresolving (Or.inl ⟨rfl, hinactive ?_⟩)
      rw [Memory.active, Bool.eq_false_iff.mpr hactivated, Bool.and_false]
  | enterOnce =>
    rw [Process.access] at h
    cases honce : p.memory.once with
    | fresh =>
      rw [honce] at h
      cases h
      refine hp.move ⟨hp.memory.ids, fun hdone => absurd hdone (by simp)⟩ ?_
        (fun hdone => absurd (honce.symm.trans hdone) (by simp)) (iff_of_true rfl rfl)
        ⟨hbegun, hknows, rfl⟩
      intro j hj
      exact ⟨id, id, id,
        iff_of_false (fun hrunning => hj (Once.running.inj hrunning).symm)
          (fun hrunning => absurd (honce.symm.trans hrunning) (by simp)),
        fun hrunning => absurd (honce.symm.trans hrunning) (by simp),
        fun hdone => absurd (honce.symm.trans hdone) (by simp)⟩
    | running other =>
      rw [honce] at h
      cases h
    | done =>
      rw [honce] at h
      cases h
      exact hp.stay hresolving.symm ⟨hbegun, honce⟩
  | readOptions =>
    cases h
    exact hp.tryTarget hresolving hbegun hknows.2 rfl hknows
  | detect =>
    cases h
    exact hp.tryTarget hresolving hbegun hknows.2 rfl hknows
  | loadArch =>
    cases h
    have hactivated : p.memory.activated = true := ((Bool.and_eq_true _ _).mp hknows.1).2
    exact hp.stay hresolving.symm ⟨hbegun, hp.memory.ids hactivated, hknows.2⟩
  | loadImpl arch =>
    cases h
    refine hp.stay hresolving.symm ⟨hbegun, ?_, hknows.2⟩
    rw [show arch = kNvApiAmpere from hknows.1]
    exact smFromNvApiArch_ampere _
  | storeTarget sm =>
    obtain ⟨hsm, hrunning⟩ := hknows
    cases h
    refine hp.moveInOnce hrunning (fun j hj => ?_) rfl rfl rfl ⟨hp.memory.ids, fun _ => hsm⟩
      (iff_of_true hrunning rfl) ⟨hbegun, hsm, hrunning⟩
    intro hother
    exact hj (Once.running.inj (hother.symm.trans hrunning))
  | leaveOnce =>
    obtain ⟨hsm, hrunning⟩ := hknows
    cases h
    exact hp.moveInOnce hrunning (fun j _ => by simp) rfl rfl rfl ⟨hp.memory.ids, fun _ => hsm⟩
      (iff_of_false (by simp) Bool.false_ne_true) ⟨hbegun, rfl⟩
  | loadTarget =>
    cases h
    exact hp.return hresolving (Or.inr ⟨hknows, rfl⟩)

/-- A store outside `std::call_once` leaves the target alone; what is set stays set. -/
theorem ProcessOk.store {p : Process} (hp : ProcessOk p) {i : ℕ} {memory : Memory} {phase : Phase}
    (hout : (p.phase i).resolving = false) (hto : phase.resolving = false)
    (honce : memory.once = p.memory.once) (htarget : memory.target = p.memory.target)
    (hconfigured : p.memory.configured = true → memory.configured = true)
    (hactivated : p.memory.activated = true → memory.activated = true)
    (hids : p.memory.fallbackArch = kNvApiAmpere → memory.fallbackArch = kNvApiAmpere)
    (hactive : memory.activated = true → memory.fallbackArch = kNvApiAmpere)
    (hphase : PhaseOk memory i phase) : ProcessOk (p.move i memory phase) := by
  have hgrows : ∀ j, Grows j p.memory memory := fun j =>
    ⟨hconfigured, hactivated, hids, by rw [honce], fun _ => htarget,
      fun hdone => ⟨honce.trans hdone, htarget⟩⟩
  refine hp.move ⟨hactive, fun hdone => ?_⟩ (fun j _ => hgrows j) (hgrows i).done ?_ hphase
  · rw [htarget]
    exact hp.memory.target (honce.symm.trans hdone)
  · rw [honce, hto, ← hout]
    exact hp.once i

/-- An access of a thread keeps what holds. -/
theorem advance_ok {p q : Process} (hp : ProcessOk p) {i : ℕ} {cuda : Option CudaAnswers}
    (h : p.advance i cuda = some q) : ProcessOk q := by
  have hok := hp.phase i
  cases hphase : p.phase i with
  | idle =>
    rw [Process.advance, hphase] at h
    cases h
  | storeOptions sm =>
    rw [Process.advance, hphase] at h
    cases h
    exact hp.store (by rw [hphase]; rfl) rfl rfl rfl id id id hp.memory.ids trivial
  | storeConfigured =>
    rw [Process.advance, hphase] at h
    cases h
    exact hp.store (by rw [hphase]; rfl) rfl rfl rfl (fun _ => rfl) id id hp.memory.ids trivial
  | storeArch info =>
    rw [hphase] at hok
    rw [Process.advance, hphase] at h
    cases h
    exact hp.store (by rw [hphase]; rfl) rfl rfl rfl id id (fun _ => hok) (fun _ => hok) hok
  | storeImpl info =>
    rw [hphase] at hok
    rw [Process.advance, hphase] at h
    cases h
    exact hp.store (by rw [hphase]; rfl) rfl rfl rfl id id id hp.memory.ids hok
  | storeActivated =>
    rw [hphase] at hok
    rw [Process.advance, hphase] at h
    cases h
    exact hp.store (by rw [hphase]; rfl) rfl rfl rfl id (fun _ => rfl) id (fun _ => hok) trivial
  | target call access =>
    rw [Process.advance, hphase] at h
    exact access_ok hp hphase h
  | reasonConfigured call target =>
    rw [hphase] at hok
    rw [Process.advance, hphase] at h
    dsimp only at h
    split at h
    · cases h
      exact hp.stay (by rw [hphase]; rfl) hok
    · cases h
      exact hp.passOn (by rw [hphase]; rfl) hok false
  | reasonActivated call target =>
    rw [hphase] at hok
    rw [Process.advance, hphase] at h
    cases h
    exact hp.passOn (by rw [hphase]; rfl) hok p.memory.activated

/-- Every step of the process keeps what holds. -/
theorem step_ok {p q : Process} {action : Action} (hp : ProcessOk p)
    (h : machine.step p action = some q) : ProcessOk q := by
  cases action with
  | configure i sm =>
    unfold machine at h
    dsimp only at h
    split at h
    · rename_i hidle
      cases h
      exact hp.stay (by rw [hidle]; rfl) trivial
    · cases h
  | answer i status info =>
    unfold machine at h
    dsimp only at h
    split at h
    · cases h
    · rename_i hidle
      rw [not_not] at hidle
      split at h
      · cases h
        exact hp
      · rename_i hanswered
        cases h
        refine hp.stay (by rw [hidle]; rfl) ?_
        have hsupported : isSupported info.architecture = true := by
          by_contra hno
          refine hanswered (Or.inr (Or.inr ?_))
          rw [Bool.eq_false_iff.mpr hno]
          rfl
        exact beq_iff_eq.mp hsupported
  | ask i purpose =>
    unfold machine at h
    dsimp only at h
    split at h
    · rename_i hidle
      cases h
      exact hp.stay (by rw [hidle]; rfl) ⟨id, trivial⟩
    · cases h
  | advance i cuda => exact advance_ok hp h

/-- What holds in every state any interleaving reaches. -/
theorem ok_of_reachable {p : Process} (hreach : machine.Reachable p) : ProcessOk p := by
  refine System.ReachableUnder.invariant ProcessOk ?_ (fun _ _ _ hp _ h => step_ok hp h) hreach
  rintro _ rfl
  refine ⟨⟨fun h => absurd h (by decide), fun h => absurd h (by decide)⟩, ?_, fun _ => trivial, ?_, ?_⟩
  · exact fun i => iff_of_false (fun h => absurd h (by simp)) Bool.false_ne_true
  · exact fun r hr => absurd hr List.not_mem_nil
  · exact fun d hd => absurd hd List.not_mem_nil

/-! ### Every call returns -/

/-- How many accesses a call of `TargetSm` has left at most. -/
def Access.left : Access → ℕ
  | .loadConfigured => 10
  | .loadActivated => 9
  | .enterOnce => 8
  | .readOptions => 7
  | .detect => 6
  | .loadArch => 5
  | .loadImpl _ => 4
  | .storeTarget _ => 3
  | .leaveOnce => 2
  | .loadTarget => 1

/-- A thread makes an access, the CUDA driver answering as given. -/
def Advances (cuda : Option CudaAnswers) (p q : Process) : Prop :=
  ∃ i, p.advance i cuda = some q

/-- Unless another thread is in `std::call_once`, a call makes its next access:
it returns, or it has fewer accesses left. -/
theorem access_continues (p : Process) (i : ℕ) (call : Call) (cuda : Option CudaAnswers)
    {access : Access} (hfree : access = .enterOnce → ∀ j, p.memory.once ≠ .running j) :
    (access.resolving = false ∧ ∃ value, p.access i call cuda access = some (p.return i call value)) ∨
    ∃ memory next, p.access i call cuda access = some (p.move i memory (.target call next)) ∧
      next.left < access.left ∧ ∀ j, memory.once = .running j → j = i ∨ p.memory.once = .running j := by
  have hsame : ∀ j, p.memory.once = .running j → j = i ∨ p.memory.once = .running j :=
    fun _ h => Or.inr h
  cases access with
  | loadConfigured =>
    rw [Process.access]
    split
    · exact Or.inr ⟨_, _, rfl, by decide, hsame⟩
    · exact Or.inl ⟨rfl, _, rfl⟩
  | loadActivated =>
    rw [Process.access]
    split
    · exact Or.inr ⟨_, _, rfl, by decide, hsame⟩
    · exact Or.inl ⟨rfl, _, rfl⟩
  | enterOnce =>
    rw [Process.access]
    cases honce : p.memory.once with
    | fresh =>
      exact Or.inr ⟨_, _, rfl, by decide, fun j h => Or.inl (Once.running.inj h).symm⟩
    | running other => exact absurd honce (hfree rfl other)
    | done => exact Or.inr ⟨_, _, rfl, by decide, fun j h => Or.inr (honce ▸ h)⟩
  | readOptions =>
    refine Or.inr ⟨_, _, rfl, ?_, hsame⟩
    split
    · decide
    · change 3 < 7
      decide
  | detect =>
    refine Or.inr ⟨_, _, rfl, ?_, hsame⟩
    split
    · decide
    · change 3 < 6
      decide
  | loadArch =>
    refine Or.inr ⟨_, _, rfl, ?_, hsame⟩
    change 4 < 5
    decide
  | loadImpl arch =>
    refine Or.inr ⟨_, _, rfl, ?_, hsame⟩
    change 3 < 4
    decide
  | storeTarget sm =>
    refine Or.inr ⟨_, _, rfl, ?_, hsame⟩
    change 2 < 3
    decide
  | leaveOnce => exact Or.inr ⟨_, _, rfl, by decide, fun j h => absurd h (by simp)⟩
  | loadTarget => exact Or.inl ⟨rfl, _, rfl⟩

/-- A thread moves on alone: where it is, and that no other thread has moved. -/
theorem Process.move_phase (p : Process) (i : ℕ) (memory : Memory) (phase : Phase) (j : ℕ) :
    (p.move i memory phase).phase j = if j = i then phase else p.phase j :=
  Function.update_apply p.phase i phase j

/-- The thread in `std::call_once` gets out of it by its own accesses. -/
theorem leaves_once (cuda : Option CudaAnswers) {p : Process} (hp : ProcessOk p) {i : ℕ} {call : Call}
    {access : Access} (hphase : p.phase i = .target call access)
    (hrunning : p.memory.once = .running i) :
    ∃ q, Relation.ReflTransGen (Advances cuda) p q ∧ ProcessOk q ∧
      (∀ j, q.memory.once ≠ .running j) ∧ (∀ j ≠ i, q.phase j = p.phase j) ∧
      q.returned = p.returned := by
  -- on the number of accesses it has left
  induction hleft : access.left using Nat.strong_induction_on generalizing p access with
  | _ left ih =>
    have hresolving : access.resolving = true := by
      have hin := (hp.once i).mp hrunning
      rwa [hphase] at hin
    have hfree : access = .enterOnce → ∀ j, p.memory.once ≠ .running j := by
      rintro rfl
      cases hresolving
    rcases access_continues p i call cuda hfree with ⟨hout, -⟩ | ⟨memory, next, hstep, hless, honce⟩
    · rw [hout] at hresolving
      cases hresolving
    · have hadvance : p.advance i cuda = some (p.move i memory (.target call next)) := by
        rw [Process.advance, hphase]
        exact hstep
      have hok := advance_ok hp hadvance
      have hothers : ∀ j ≠ i, (p.move i memory (.target call next)).phase j = p.phase j := by
        intro j hj
        rw [Process.move_phase, if_neg hj]
      have hfirst : Advances cuda p (p.move i memory (.target call next)) := ⟨i, hadvance⟩
      by_cases hstill : memory.once = .running i
      · have hnow : (p.move i memory (.target call next)).phase i = .target call next := by
          rw [Process.move_phase, if_pos rfl]
        obtain ⟨q, hruns, hq, hnone, hphases, hreturned⟩ :=
          ih next.left (hleft ▸ hless) hok hnow hstill rfl
        exact ⟨q, .head hfirst hruns, hq, hnone, fun j hj => (hphases j hj).trans (hothers j hj),
          hreturned⟩
      · refine ⟨_, .single hfirst, hok, fun j hj => hstill ?_, hothers, rfl⟩
        rcases honce j hj with rfl | hwas
        · exact hj
        · rw [hrunning] at hwas
          exact hwas ▸ hj

/-- With no other thread in `std::call_once` a call returns by its own accesses. -/
theorem returns_alone (cuda : Option CudaAnswers) {p : Process} (hp : ProcessOk p) {i : ℕ} {call : Call}
    {access : Access} (hphase : p.phase i = .target call access)
    (honly : ∀ j, p.memory.once = .running j → j = i) :
    ∃ q value, Relation.ReflTransGen (Advances cuda) p q ∧
      q.returned = ⟨call, value⟩ :: p.returned := by
  induction hleft : access.left using Nat.strong_induction_on generalizing p access with
  | _ left ih =>
    have hfree : access = .enterOnce → ∀ j, p.memory.once ≠ .running j := by
      rintro rfl j hj
      have hin := (hp.once i).mp (honly j hj ▸ hj)
      rw [hphase] at hin
      cases hin
    have hadvance : p.advance i cuda = p.access i call cuda access := by
      rw [Process.advance, hphase]
    rcases access_continues p i call cuda hfree with
      ⟨-, value, hstep⟩ | ⟨memory, next, hstep, hless, honce⟩
    · exact ⟨_, value, .single ⟨i, hadvance.trans hstep⟩, rfl⟩
    · have hnow : (p.move i memory (.target call next)).phase i = .target call next := by
        rw [Process.move_phase, if_pos rfl]
      have honly' : ∀ j, memory.once = .running j → j = i := by
        intro j hj
        rcases honce j hj with rfl | hwas
        · rfl
        · exact honly j hwas
      obtain ⟨q, value, hruns, hreturned⟩ :=
        ih next.left (hleft ▸ hless) (advance_ok hp (hadvance.trans hstep)) hnow honly' rfl
      exact ⟨q, value, .head ⟨i, hadvance.trans hstep⟩ hruns, hreturned⟩

/-- Wherever a call of `TargetSm` is, the process can go on to its return,
whatever the CUDA driver answers. -/
theorem returns {p : Process} (hp : ProcessOk p) {i : ℕ} {call : Call} {access : Access}
    (hphase : p.phase i = .target call access) (cuda : Option CudaAnswers) :
    ∃ q value, Relation.ReflTransGen (Advances cuda) p q ∧
      q.returned = ⟨call, value⟩ :: p.returned := by
  by_cases honly : ∀ j, p.memory.once = .running j → j = i
  · exact returns_alone cuda hp hphase honly
  · push Not at honly
    obtain ⟨j, hrunning, hj⟩ := honly
    have hinside := (hp.once j).mp hrunning
    cases hother : p.phase j with
    | target call' access' =>
      obtain ⟨q, hruns, hq, hnone, hphases, hreturned⟩ := leaves_once cuda hp hother hrunning
      have hnow : q.phase i = .target call access := (hphases i hj.symm).trans hphase
      obtain ⟨final, value, hrest, hfinal⟩ :=
        returns_alone cuda hq hnow fun k hk => absurd hk (hnone k)
      exact ⟨final, value, hruns.trans hrest, hreturned ▸ hfinal⟩
    | idle => rw [hother] at hinside; cases hinside
    | storeOptions sm => rw [hother] at hinside; cases hinside
    | storeConfigured => rw [hother] at hinside; cases hinside
    | storeArch info => rw [hother] at hinside; cases hinside
    | storeImpl info => rw [hother] at hinside; cases hinside
    | storeActivated => rw [hother] at hinside; cases hinside
    | reasonConfigured call' target => rw [hother] at hinside; cases hinside
    | reasonActivated call' target => rw [hother] at hinside; cases hinside

/-- In every state the threads reach: the calls that returned agree on one target,
but for those begun before the engine was active, which may have been told
nothing; every call under way can go on to its return; and a decision that
passes an image on for want of a target asked for it before the engine was
active. -/
theorem target_known {p : Process} (hreach : machine.Reachable p) :
    (∃ sm : UInt32, sm ≠ 0 ∧
      ∀ r ∈ p.returned, r.value = sm ∨ r.value = 0 ∧ r.call.begunActive = false) ∧
    (∀ i call access, p.phase i = .target call access → ∀ cuda,
      ∃ q value, Relation.ReflTransGen (Advances cuda) p q ∧
        q.returned = ⟨call, value⟩ :: p.returned) ∧
    ∀ d ∈ p.passedOn, d.reason = kNoTarget → d.call.begunActive = false := by
  have hp := ok_of_reachable hreach
  refine ⟨?_, fun i call access hphase cuda => returns hp hphase cuda, hp.passedOn⟩
  by_cases hdone : p.memory.once = .done
  · refine ⟨p.memory.target, hp.memory.target hdone, fun r hr => ?_⟩
    rcases hp.returned r hr with hnothing | ⟨-, hvalue⟩
    · exact Or.inr hnothing
    · exact Or.inl hvalue
  · refine ⟨1, by decide, fun r hr => ?_⟩
    rcases hp.returned r hr with hnothing | ⟨hwas, -⟩
    · exact Or.inr hnothing
    · exact absurd hwas hdone

/-- The answer of the driver for an Ampere GPU. -/
def ampereInfo : ArchInfo := ⟨kArchInfoVersion2, kNvApiAmpere, 2, 0⟩

/-- A thread configures the engine, begins a decision and is told there is no
target; another is answered an Ampere GPU and activates the engine before the
decision looks at the flags again. -/
def activatedBetween : List Action :=
  [.configure 1 0, .advance 1 none, .advance 1 none, .ask 1 (.decision false), .advance 1 none,
    .advance 1 none, .answer 2 0 ampereInfo, .advance 2 none, .advance 2 none, .advance 2 none,
    .advance 1 none]

/-- Then a call is made while the engine is active. -/
def askedAfter : List Action :=
  activatedBetween ++ [.advance 1 none, .ask 2 .query, .advance 2 none, .advance 2 none,
    .advance 2 none, .advance 2 none, .advance 2 none, .advance 2 none, .advance 2 none,
    .advance 2 none, .advance 2 none, .advance 2 none]

/-- The process after a list of actions. -/
def after (actions : List Action) : Process :=
  (machine.runUnder (fun _ _ => True) {} actions).getD {}

/-- It is one that the threads reach. -/
theorem after_reachable {actions : List Action}
    (h : (machine.runUnder (fun _ _ => True) {} actions).isSome = true) :
    machine.Reachable (after actions) :=
  System.reachable_getD_runUnder (.start rfl) h

/-- The call made while the engine was active was told the target, and the
decision begun before it nothing. -/
theorem target_known_askedAfter :
    (after askedAfter).returned =
      [⟨⟨.query, true⟩, 86⟩, ⟨⟨.decision false, false⟩, 0⟩] ∧
    (∃ sm : UInt32, sm ≠ 0 ∧
      ∀ r ∈ (after askedAfter).returned, r.value = sm ∨ r.value = 0 ∧ r.call.begunActive = false) ∧
    (∀ i call access, (after askedAfter).phase i = .target call access → ∀ cuda,
      ∃ q value, Relation.ReflTransGen (Advances cuda) (after askedAfter) q ∧
        q.returned = ⟨call, value⟩ :: (after askedAfter).returned) ∧
    ∀ d ∈ (after askedAfter).passedOn, d.reason = kNoTarget → d.call.begunActive = false :=
  ⟨by decide +kernel, target_known (after_reachable (by decide +kernel))⟩

/-- The decision's next step passes its image on for want of a target, in an
active engine. -/
theorem passedOn_while_active :
    machine.Reachable (after activatedBetween) ∧ (after activatedBetween).memory.active = true ∧
    ∃ q, machine.step (after activatedBetween) (.advance 1 none) = some q ∧
      q.passedOn = [⟨⟨.decision false, false⟩, 0, kNoTarget⟩] := by
  refine ⟨after_reachable (by decide +kernel), by decide +kernel, ?_⟩
  have hstep : ((machine.step (after activatedBetween) (.advance 1 none)).map Process.passedOn) =
      some [⟨⟨.decision false, false⟩, 0, kNoTarget⟩] := by decide +kernel
  exact Option.map_eq_some_iff.mp hstep

end OpenDlssg.ActiveTarget
