import OpenDlssg.FatbinRetarget
import OpenDlssg.ProviderIndex
import OpenDlssg.TransitionRuns

/-!
# What the driver receives when a kernel is created

The engine's state is its configuration, whether it is active, the target
architecture once it has been resolved, the indexes of the runtimes and the
totals of its decisions. A decision passes an image on, replaces it or refuses
it; a refusal is the only answer left when nothing runnable can be supplied.
-/

namespace OpenDlssg.Substitute

open ByteCodec ProcessMemory PatternScan CubinImage FatbinContainer FatbinRetarget ProviderIndex
open TransitionRuns

/-- The options a decision reads. -/
structure Options where
  enabled : Bool := true
  /-- 0 asks the CUDA driver for the architecture actually present. -/
  targetSm : UInt32 := 0
  /-- Retarget from the newest PTX where it fits. -/
  multiFrame : Bool := false

/-- What surrounds the engine: the mapped runtimes, the signature scanner, the
LZ4 decompressor and the order of the standard sort. -/
structure Environment where
  process : Process
  scanner : Scanner
  lz4 : Bytes → ℕ → Option Bytes
  order : ArchSort

/-- The three outcomes for an image. -/
inductive Decision where
  | unchanged
  | substituted
  | refused
  deriving DecidableEq

/-- The state of the engine. -/
structure State where
  options : Options := {}
  configured : Bool := false
  activated : Bool := false
  fallbackArch : UInt32 := 0
  fallbackImpl : UInt32 := 0
  /-- The target architecture, resolved once. -/
  target : Option UInt32 := none
  /-- The indexes of the runtimes. -/
  indexes : Indexes := ∅
  decisions : UInt32 := 0
  native : UInt32 := 0
  retargeted : UInt32 := 0
  refusals : UInt32 := 0
  unchanged : UInt32 := 0

/-- NVAPI's architecture id of Turing. -/
def kNvApiTuring : UInt32 := 0x160

/-- NVAPI's architecture id of Ampere. -/
def kNvApiAmpere : UInt32 := 0x170

/-- NVAPI's architecture id of Ada. -/
def kNvApiAda : UInt32 := 0x190

/-- SM number for an NVAPI architecture and implementation, 0 without a mapping. -/
def smFromNvApiArch (architecture implementation : UInt32) : UInt32 :=
  if architecture = kNvApiTuring then 75
  else if architecture = kNvApiAmpere then if implementation = 0 then 80 else 86
  else if architecture = kNvApiAda then 89
  else 0

/-- Set the options. -/
def configure (options : Options) (s : State) : State :=
  { s with options := options, configured := true }

/-- Called once NVAPI has reported an architecture this engine enables. -/
def activate (architecture implementation : UInt32) (s : State) : State :=
  { s with fallbackArch := architecture, fallbackImpl := implementation, activated := true }

/-- Configured and active on this GPU. -/
def State.active (s : State) : Bool := s.configured && s.activated

/-- The target architecture by the options, else by the CUDA driver's answer
`detected`, else by the NVAPI ids. -/
def freshTarget (detected : UInt32) (s : State) : UInt32 :=
  let configured := s.options.targetSm
  let device := if configured = 0 then detected else configured
  if device = 0 then smFromNvApiArch s.fallbackArch s.fallbackImpl else device

/-- The target architecture, resolved on the first call. -/
def resolveTarget (detected : UInt32) (s : State) : UInt32 × State :=
  match s.target with
  | some sm => (sm, s)
  | none => (freshTarget detected s, { s with target := some (freshTarget detected s) })

/-- The architecture substitutions target, 0 when it cannot be determined. -/
def targetSm (detected : UInt32) (s : State) : UInt32 × State :=
  if s.active then resolveTarget detected s else (0, s)

/-- Which PTX the options prefer. -/
def preferredSource (options : Options) : PtxSource :=
  if options.multiFrame then .newest else .closest

/-- What was decided for an image. -/
structure Answer where
  decision : Decision
  /-- The replacement, absent when none was produced. -/
  image : Option Bytes
  report : Report
  /-- Why, for the log. -/
  reason : String

/-- Architecture a replacement was built from, 0 when none is handed out. -/
def Answer.sourceArch (answer : Answer) : UInt32 :=
  if answer.decision = .substituted then answer.report.sourceArch else 0

/-- Which runtime's images may answer a call: the caller's own, or the sole
indexed one when the caller cannot be identified. -/
def answeringProvider (indexes : Indexes) (caller : Option HModule) : Option HModule :=
  match caller with
  | some runtime => some runtime
  | none => soleIndexedProvider indexes

/-- Decide for a bare cubin: runnable as it is, replaced by its native twin or
by PTX of the container it came from, or refused. -/
def decideCubin (env : Environment) (indexes : Indexes) (caller : Option HModule) (blob : Bytes)
    (arch target : UInt32) (source : PtxSource) : Answer :=
  let report : Report := { sourceArch := arch }
  if canRun false arch target then ⟨.unchanged, none, report, "runnable"⟩
  else
    let provider := answeringProvider indexes caller
    let refused : Answer := ⟨.refused, none, report,
      if providerIndexed indexes provider then "no runnable image for this architecture"
      else if provider.isSome then "this runtime was not indexed"
      else "the calling module could not be identified"⟩
    match findNativeCubin indexes provider blob target with
    | some native =>
      ⟨.substituted, some (env.process.memory.view native), { report with native := true }, ""⟩
    | none =>
      match findContainerForCubin indexes provider blob with
      | none => refused
      | some container =>
        let retargeted := retarget env.lz4 env.order (env.process.memory.view container) target
          source {}
        match retargeted.1 with
        | none => refused
        | some image =>
          ⟨.substituted, some image, { report with sourceArch := retargeted.2.sourceArch }, ""⟩

/-- Decide for any blob; a null one is absent. -/
def decideFrom (env : Environment) (s : State) (caller : Option HModule) (blob : Option Bytes)
    (source : PtxSource) (target : UInt32) : Answer :=
  match blob with
  | none => ⟨.unchanged, none, {}, if !s.active then "inactive"
      else if target ≠ 0 then "empty" else "no target architecture"⟩
  | some blob =>
    if target = 0 ∨ blob = [] then
      ⟨.unchanged, none, {}, if !s.active then "inactive"
        else if target ≠ 0 then "empty" else "no target architecture"⟩
    else if cubinArch blob ≠ 0 then
      decideCubin env s.indexes caller blob (cubinArch blob) target source
    else if containerSize blob ≠ 0 then
      let retargeted := retarget env.lz4 env.order blob target source {}
      match retargeted.1 with
      | some image => ⟨.substituted, some image, retargeted.2, ""⟩
      | none =>
        if retargeted.2.alreadyRunnable then ⟨.unchanged, none, retargeted.2, "runnable"⟩
        else ⟨.refused, none, retargeted.2, "container holds no runnable image and no PTX"⟩
    else
      let retargeted := retargetPtxText blob target {}
      match retargeted.1 with
      | some image => ⟨.substituted, some image, retargeted.2, ""⟩
      | none => ⟨.unchanged, none, retargeted.2,
          if retargeted.2.alreadyRunnable then "runnable" else "not a kernel image"⟩

/-- With retargeting switched off the replacement alone is withheld. -/
def withheld (options : Options) (answer : Answer) : Answer :=
  if answer.decision = .substituted ∧ !options.enabled then
    { answer with decision := .refused, reason := "retargeting is switched off" }
  else answer

/-- Count a decision in the totals. -/
def logDecision (answer : Answer) (s : State) : State :=
  match answer.decision with
  | .substituted =>
    if answer.report.native then { s with native := s.native + 1 }
    else { s with retargeted := s.retargeted + 1 }
  | .refused => { s with refusals := s.refusals + 1 }
  | .unchanged => { s with unchanged := s.unchanged + 1 }

/-- Decide what the driver receives for a blob. -/
def decide (env : Environment) (detected : UInt32) (caller : Option HModule) (blob : Option Bytes)
    (s : State) : Answer × State :=
  let target := targetSm detected s
  let answer := withheld target.2.options <|
    decideFrom env target.2 caller blob (preferredSource target.2.options) target.1
  (answer, logDecision answer { target.2 with decisions := target.2.decisions + 1 })

/-- After the driver rejects a replacement built from newer PTX, one built from
the closest PTX, with the architecture it was built from. Absent when there is
nothing different to try. -/
def fallback (env : Environment) (detected : UInt32) (caller : Option HModule) (blob : Option Bytes)
    (rejectedSource : UInt32) (s : State) : Option (Bytes × UInt32) :=
  if preferredSource s.options = .closest ∨ rejectedSource = 0 then none
  else
    let target := targetSm detected s
    let answer := decideFrom env target.2 caller blob .closest target.1
    if answer.decision ≠ .substituted ∨ answer.report.sourceArch = rejectedSource then none
    else answer.image.map fun image => (image, answer.report.sourceArch)

/-- The calls the rest of the program makes. -/
inductive Action where
  | configure (options : Options)
  | activate (architecture implementation : UInt32)
  | buildProviderIndex (provider : Option HModule)
  | targetSm (detected : UInt32)
  | decide (detected : UInt32) (caller : Option HModule) (blob : Option Bytes)

/-- The engine over all of its calls, in any order. -/
def engine (env : Environment) : System State Action where
  init s := s = {}
  step s action :=
    match action with
    | .configure options => some (configure options s)
    | .activate architecture implementation => some (activate architecture implementation s)
    | .buildProviderIndex provider => some { s with
        indexes := (buildProviderIndex env.process env.scanner s.indexes provider).2 }
    | .targetSm detected => some (targetSm detected s).2
    | .decide detected caller blob => some (decide env detected caller blob s).2

/-- The target of an active engine is the one resolved, or the one it would be. -/
theorem targetSm_fst (detected : UInt32) (s : State) :
    (targetSm detected s).1 = if s.active then s.target.getD (freshTarget detected s) else 0 := by
  unfold targetSm resolveTarget
  split
  · cases s.target with
    | none => rfl
    | some sm => rfl
  · rfl

/-- Resolving the target leaves the options and the indexes alone. -/
theorem targetSm_keeps (detected : UInt32) (s : State) :
    (targetSm detected s).2.options = s.options ∧ (targetSm detected s).2.indexes = s.indexes := by
  unfold targetSm resolveTarget
  split
  · split
    · exact ⟨rfl, rfl⟩
    · exact ⟨rfl, rfl⟩
  · exact ⟨rfl, rfl⟩

/-- Counting a decision leaves the indexes alone. -/
theorem logDecision_indexes (answer : Answer) (s : State) :
    (logDecision answer s).indexes = s.indexes := by
  unfold logDecision
  split
  · split
    · rfl
    · rfl
  · rfl
  · rfl

/-- Withholding a replacement turns a substitution into a refusal, nothing else. -/
theorem withheld_spec (options : Options) (answer : Answer) :
    ((withheld options answer).decision = .unchanged ↔ answer.decision = .unchanged) ∧
      ((withheld options answer).decision = .substituted ↔
        answer.decision = .substituted ∧ options.enabled = true) ∧
      (withheld options answer).image = answer.image := by
  unfold withheld
  cases hd : answer.decision with
  | unchanged => simp [hd]
  | refused => simp [hd]
  | substituted =>
    cases he : options.enabled with
    | true => simp [hd]
    | false => simp

/-- Where substitution is enabled a decision stands. -/
theorem withheld_enabled {options : Options} (henabled : options.enabled = true) (answer : Answer) :
    withheld options answer = answer := by
  unfold withheld
  rw [henabled]
  exact if_neg fun h => absurd h.2 (by simp)

end OpenDlssg.Substitute
