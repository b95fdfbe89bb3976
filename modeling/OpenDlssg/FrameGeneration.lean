import Mathlib.Data.List.Basic
import Mathlib.Data.UInt

/-!
# The frame-generation options a game sets

A request goes to Streamline as the game made it, or with the multiplier this
engine forces and, where that is refused, again as the game made it. One flag
tells the Reflex fix whether frames are generated: it is that of the last
request Streamline accepted, whichever viewport it was for.
-/

namespace OpenDlssg.FrameGeneration

/-- Whether and how frames are generated; a game may pass values this build
does not know. -/
inductive DLSSGMode where
  | off
  | on
  | auto
  | dynamic
  | other (value : UInt32)
  deriving DecidableEq

/-- What Streamline answers. -/
inductive SlResult where
  | ok
  | errorNotInitialized
  | other (code : UInt32)
  deriving DecidableEq

/-- The struct version of this build's options. -/
def kKnownVersion : UInt64 := 5

/-- The options of one request. Pointers are addresses and the frame rate is the
bits of its number; nothing here looks into either. -/
structure DLSSGOptions where
  structVersion : UInt64 := kKnownVersion
  /-- The extension chain. -/
  next : UInt64 := 0
  mode : DLSSGMode := .off
  numFramesToGenerate : UInt32 := 1
  flags : UInt32 := 0
  dynamicResWidth : UInt32 := 0
  dynamicResHeight : UInt32 := 0
  numBackBuffers : UInt32 := 0
  mvecDepthWidth : UInt32 := 0
  mvecDepthHeight : UInt32 := 0
  colorWidth : UInt32 := 0
  colorHeight : UInt32 := 0
  colorBufferFormat : UInt32 := 0
  mvecBufferFormat : UInt32 := 0
  depthBufferFormat : UInt32 := 0
  hudLessBufferFormat : UInt32 := 0
  uiBufferFormat : UInt32 := 0
  onErrorCallback : UInt64 := 0
  /-- From version 2. -/
  bReserved15 : UInt8 := 2
  /-- From version 3. -/
  queueParallelismMode : UInt32 := 0
  /-- From version 4. -/
  enableUserInterfaceRecomposition : UInt8 := 0
  /-- From version 5. -/
  dynamicTargetFrameRate : UInt32 := 0
  deriving DecidableEq

/-- A copy of the fields the game's own struct version covers; the others are
the defaults. -/
def copyKnownOptions (source : DLSSGOptions) : DLSSGOptions :=
  let copy : DLSSGOptions := {}
  { structVersion := source.structVersion
    next := source.next
    mode := source.mode
    numFramesToGenerate := source.numFramesToGenerate
    flags := source.flags
    dynamicResWidth := source.dynamicResWidth
    dynamicResHeight := source.dynamicResHeight
    numBackBuffers := source.numBackBuffers
    mvecDepthWidth := source.mvecDepthWidth
    mvecDepthHeight := source.mvecDepthHeight
    colorWidth := source.colorWidth
    colorHeight := source.colorHeight
    colorBufferFormat := source.colorBufferFormat
    mvecBufferFormat := source.mvecBufferFormat
    depthBufferFormat := source.depthBufferFormat
    hudLessBufferFormat := source.hudLessBufferFormat
    uiBufferFormat := source.uiBufferFormat
    onErrorCallback := source.onErrorCallback
    bReserved15 := if 2 ≤ source.structVersion then source.bReserved15 else copy.bReserved15
    queueParallelismMode :=
      if 3 ≤ source.structVersion then source.queueParallelismMode else copy.queueParallelismMode
    enableUserInterfaceRecomposition :=
      if 4 ≤ source.structVersion then source.enableUserInterfaceRecomposition
      else copy.enableUserInterfaceRecomposition
    dynamicTargetFrameRate :=
      if 5 ≤ source.structVersion then source.dynamicTargetFrameRate else copy.dynamicTargetFrameRate }

section Hook

-- The game's viewports, and Streamline's own state behind its function.
variable {ν σ : Type} (original : Option (ν → DLSSGOptions → σ → SlResult × σ))

/-- Pass a request on with the multiplier that is forced. The original is absent
until it has been resolved. -/
def setOptions (force : UInt32) (viewport : ν) (options : DLSSGOptions) (host : σ) : SlResult × σ :=
  match original with
  | none => (.errorNotInitialized, host)
  | some original =>
    if options.mode = .off then original viewport options host
    else if force = 0 ∨ options.mode = .dynamic then original viewport options host
    -- a newer struct does not fit the copy
    else if options.structVersion > kKnownVersion then original viewport options host
    else
      let adjusted :=
        { copyKnownOptions options with mode := .on, numFramesToGenerate := force - 1 }
      let forced := original viewport adjusted host
      if forced.1 ≠ .ok then original viewport options forced.2 else forced

/-- The state of the hook. -/
structure State (σ : Type) where
  forceMultiplier : UInt32 := 0
  frameGenerationOn : Bool := false
  /-- Streamline's own state. -/
  host : σ

/-- The function a game sets its options through. -/
def hookSetOptions (viewport : ν) (options : DLSSGOptions) (s : State σ) : SlResult × State σ :=
  let sent := setOptions original s.forceMultiplier viewport options s.host
  (sent.1,
    { s with
      host := sent.2
      frameGenerationOn := if sent.1 = .ok then options.mode != .off else s.frameGenerationOn })

/-- Whether low latency has to be turned off for a game that asks for it: the
driver then waits in every present, which is wrong for generated frames. -/
def mustTurnLowLatencyOff (requested frameGeneration gameSleeps : Bool) : Bool :=
  if !requested then false else if gameSleeps then false else frameGeneration

/-- What the game and the settings call. -/
inductive Call (ν : Type) where
  | setForceMultiplier (multiplier : UInt32)
  | setOptions (viewport : ν) (options : DLSSGOptions)

/-- Make calls in order: the requests Streamline accepted, and the state. -/
def runCalls : List (Call ν) → State σ → List (ν × DLSSGOptions) × State σ
  | [], s => ([], s)
  | .setForceMultiplier multiplier :: calls, s =>
    runCalls calls { s with forceMultiplier := multiplier }
  | .setOptions viewport options :: calls, s =>
    let result := hookSetOptions original viewport options s
    let rest := runCalls calls result.2
    (if result.1 = .ok then (viewport, options) :: rest.1 else rest.1, rest.2)

variable {original}

/-- A run leaves the flag as the last accepted request has it, or as it was. -/
theorem frameGenerationOn_runCalls (calls : List (Call ν)) (s : State σ) :
    (runCalls original calls s).2.frameGenerationOn =
      match (runCalls original calls s).1.getLast? with
      | none => s.frameGenerationOn
      | some request => request.2.mode != .off := by
  induction calls generalizing s with
  | nil => rfl
  | cons call calls ih =>
    cases call with
    | setForceMultiplier multiplier => exact ih _
    | setOptions viewport options =>
      rw [runCalls]
      dsimp only
      rw [ih]
      by_cases hok : (hookSetOptions original viewport options s).1 = .ok
      · rw [if_pos hok]
        cases hrest : (runCalls original calls (hookSetOptions original viewport options s).2).1 with
        | nil =>
          dsimp only [List.getLast?_nil, List.getLast?_singleton]
          exact if_pos hok
        | cons request requests =>
          rw [List.getLast?_cons_cons, List.getLast?_eq_some_getLast (List.cons_ne_nil request requests)]
      · rw [if_neg hok]
        cases (runCalls original calls (hookSetOptions original viewport options s).2).1.getLast? with
        | none => exact if_neg hok
        | some request => rfl

end Hook

section Viewports

variable {ν σ : Type} [DecidableEq ν]

/-- The last request accepted for a viewport. -/
def lastAccepted (accepted : List (ν × DLSSGOptions)) (viewport : ν) : Option DLSSGOptions :=
  (accepted.filter fun request => request.1 = viewport).getLast?.map (·.2)

/-- Whether a viewport's last accepted request generates frames. -/
def ViewportOn (accepted : List (ν × DLSSGOptions)) (viewport : ν) : Prop :=
  ∃ options, lastAccepted accepted viewport = some options ∧ options.mode ≠ .off

/-- A flag that follows the last request accepted, whichever viewport it was for. -/
structure FollowsLastAccepted (accepted : List (ν × DLSSGOptions)) (flag : Bool) : Prop where
  flag_iff : flag = true ↔ ∃ request, accepted.getLast? = some request ∧ request.2.mode ≠ .off
  /-- Where it is on, so is some viewport. -/
  viewport_on : flag = true → ∃ viewport, ViewportOn accepted viewport
  /-- Where no other viewport is on, it is on exactly where some viewport is. -/
  alone : (∀ viewport, accepted.getLast?.map (·.1) ≠ some viewport → ¬ViewportOn accepted viewport) →
    (flag = true ↔ ∃ viewport, ViewportOn accepted viewport)
  /-- Low latency is turned off while that request generates frames. -/
  fix_iff : ∀ requested gameSleeps, mustTurnLowLatencyOff requested flag gameSleeps = true ↔
    requested = true ∧ gameSleeps = false ∧
      ∃ request, accepted.getLast? = some request ∧ request.2.mode ≠ .off

/-- The viewport of the last accepted request is on as that request is. -/
theorem viewportOn_last (accepted : List (ν × DLSSGOptions)) (request : ν × DLSSGOptions) :
    ViewportOn (accepted ++ [request]) request.1 ↔ request.2.mode ≠ .off := by
  have hlast : lastAccepted (accepted ++ [request]) request.1 = some request.2 := by
    unfold lastAccepted
    rw [List.filter_append, List.filter_cons, if_pos (decide_eq_true rfl), List.filter_nil,
      List.getLast?_concat, Option.map_some]
  unfold ViewportOn
  rw [hlast]
  exact ⟨fun ⟨_, hsame, hmode⟩ => Option.some.inj hsame ▸ hmode, fun hmode => ⟨_, rfl, hmode⟩⟩

/-- A flag that is as the last accepted request has it follows it. -/
theorem followsLastAccepted_of_flag {accepted : List (ν × DLSSGOptions)} {flag : Bool}
    (hflag : flag = match accepted.getLast? with
      | none => false
      | some request => request.2.mode != .off) : FollowsLastAccepted accepted flag := by
  have hon : flag = true ↔ ∃ request, accepted.getLast? = some request ∧ request.2.mode ≠ .off := by
    rw [hflag]
    cases accepted.getLast? with
    | none => simp
    | some request => simp
  have hviewport : ∀ request, accepted.getLast? = some request →
      (ViewportOn accepted request.1 ↔ request.2.mode ≠ .off) := by
    intro request hlast
    obtain ⟨front, rfl⟩ := List.getLast?_eq_some_iff.mp hlast
    exact viewportOn_last front request
  have hsome : flag = true → ∃ viewport, ViewportOn accepted viewport := by
    intro h
    obtain ⟨request, hlast, hmode⟩ := hon.mp h
    exact ⟨request.1, (hviewport request hlast).mpr hmode⟩
  refine ⟨hon, hsome, fun hothers => ⟨hsome, fun ⟨viewport, hviewportOn⟩ => ?_⟩,
    fun requested gameSleeps => ?_⟩
  · have hmine : accepted.getLast?.map (·.1) = some viewport := by
      by_contra hother
      exact hothers viewport hother hviewportOn
    obtain ⟨request, hlast, rfl⟩ := Option.map_eq_some_iff.mp hmine
    exact hon.mpr ⟨request, hlast, (hviewport request hlast).mp hviewportOn⟩
  · rw [← hon]
    unfold mustTurnLowLatencyOff
    cases requested with
    | false => simp
    | true =>
      cases gameSleeps with
      | false => simp
      | true => simp

/-- After any calls the flag follows the last request accepted. -/
theorem frameGenerationOn_follows (original : Option (ν → DLSSGOptions → σ → SlResult × σ))
    (force : UInt32) (host : σ) (calls : List (Call ν)) :
    FollowsLastAccepted (runCalls original calls { forceMultiplier := force, host := host }).1
      (runCalls original calls { forceMultiplier := force, host := host }).2.frameGenerationOn :=
  followsLastAccepted_of_flag (frameGenerationOn_runCalls calls _)

end Viewports

/-- One viewport turned on and another off: the flag is off while the first
still generates frames. -/
theorem second_viewport_clears :
    let run := runCalls (some fun _ _ host => (.ok, host))
      [.setOptions 0 { mode := .on }, .setOptions 1 { mode := .off }] { host := () }
    run.2.frameGenerationOn = false ∧ lastAccepted run.1 0 = some { mode := .on } := by
  decide

end OpenDlssg.FrameGeneration
