import OpenDlssg.FrameGeneration
import OpenDlssg.RecordedCalls

/-!
# What Streamline is called with when a multiplier is forced

A request that is not forced reaches Streamline once, as the game made it. A
forced one reaches it as a copy of the fields the game's struct version
defines and, where that is refused, once more as the game made it. What the
game gets back is the answer of the last call.
-/

namespace OpenDlssg.ForcedMultiplier

open FrameGeneration RecordedCalls

/-- Requests of one struct version that agree on every field it defines, but
for the mode and the number of frames. -/
structure SameKnownFields (options other : DLSSGOptions) : Prop where
  structVersion : options.structVersion = other.structVersion
  next : options.next = other.next
  flags : options.flags = other.flags
  dynamicResWidth : options.dynamicResWidth = other.dynamicResWidth
  dynamicResHeight : options.dynamicResHeight = other.dynamicResHeight
  numBackBuffers : options.numBackBuffers = other.numBackBuffers
  mvecDepthWidth : options.mvecDepthWidth = other.mvecDepthWidth
  mvecDepthHeight : options.mvecDepthHeight = other.mvecDepthHeight
  colorWidth : options.colorWidth = other.colorWidth
  colorHeight : options.colorHeight = other.colorHeight
  colorBufferFormat : options.colorBufferFormat = other.colorBufferFormat
  mvecBufferFormat : options.mvecBufferFormat = other.mvecBufferFormat
  depthBufferFormat : options.depthBufferFormat = other.depthBufferFormat
  hudLessBufferFormat : options.hudLessBufferFormat = other.hudLessBufferFormat
  uiBufferFormat : options.uiBufferFormat = other.uiBufferFormat
  onErrorCallback : options.onErrorCallback = other.onErrorCallback
  bReserved15 : 2 ≤ options.structVersion → options.bReserved15 = other.bReserved15
  queueParallelismMode :
    3 ≤ options.structVersion → options.queueParallelismMode = other.queueParallelismMode
  enableUserInterfaceRecomposition : 4 ≤ options.structVersion →
    options.enableUserInterfaceRecomposition = other.enableUserInterfaceRecomposition
  dynamicTargetFrameRate :
    5 ≤ options.structVersion → options.dynamicTargetFrameRate = other.dynamicTargetFrameRate

/-- The copy keeps every field the game's struct version defines. -/
theorem sameKnownFields_copy (options : DLSSGOptions) (mode : DLSSGMode) (frames : UInt32) :
    SameKnownFields options
      { copyKnownOptions options with mode := mode, numFramesToGenerate := frames } where
  structVersion := rfl
  next := rfl
  flags := rfl
  dynamicResWidth := rfl
  dynamicResHeight := rfl
  numBackBuffers := rfl
  mvecDepthWidth := rfl
  mvecDepthHeight := rfl
  colorWidth := rfl
  colorHeight := rfl
  colorBufferFormat := rfl
  mvecBufferFormat := rfl
  depthBufferFormat := rfl
  hudLessBufferFormat := rfl
  uiBufferFormat := rfl
  onErrorCallback := rfl
  bReserved15 := fun h => (if_pos h).symm
  queueParallelismMode := fun h => (if_pos h).symm
  enableUserInterfaceRecomposition := fun h => (if_pos h).symm
  dynamicTargetFrameRate := fun h => (if_pos h).symm

/-- The mode and the number of frames apart, the copy reads nothing else. -/
theorem copy_of_sameKnownFields {options other : DLSSGOptions} (h : SameKnownFields options other)
    (mode : DLSSGMode) (frames : UInt32) :
    { copyKnownOptions options with mode := mode, numFramesToGenerate := frames } =
      { copyKnownOptions other with mode := mode, numFramesToGenerate := frames } := by
  have h₂ := h.bReserved15
  have h₃ := h.queueParallelismMode
  have h₄ := h.enableUserInterfaceRecomposition
  have h₅ := h.dynamicTargetFrameRate
  simp only [copyKnownOptions, DLSSGOptions.mk.injEq, ← h.structVersion, h.next, h.flags,
    h.dynamicResWidth, h.dynamicResHeight, h.numBackBuffers, h.mvecDepthWidth, h.mvecDepthHeight,
    h.colorWidth, h.colorHeight, h.colorBufferFormat, h.mvecBufferFormat, h.depthBufferFormat,
    h.hudLessBufferFormat, h.uiBufferFormat, h.onErrorCallback, true_and]
  refine ⟨?_, ?_, ?_, ?_⟩
  · split
    · exact h₂ ‹_›
    · rfl
  · split
    · exact h₃ ‹_›
    · rfl
  · split
    · exact h₄ ‹_›
    · rfl
  · split
    · exact h₅ ‹_›
    · rfl

/-- A request that is not forced: the game turned frame generation off or
leaves it to the runtime, nothing is forced, or the game is newer. -/
def PassedThrough (force : UInt32) (options : DLSSGOptions) : Prop :=
  options.mode = .off ∨ options.mode = .dynamic ∨ force = 0 ∨ kKnownVersion < options.structVersion

/-- A request with the multiplier that is forced and the game's other fields. -/
structure Forced (force : UInt32) (options adjusted : DLSSGOptions) : Prop where
  known : SameKnownFields options adjusted
  mode_eq : adjusted.mode = .on
  frames_eq : adjusted.numFramesToGenerate = force - 1

section Calls

variable {ν σ : Type}

/-- The calls Streamline gets for one request and the result the game gets. -/
inductive Served (force : UInt32) (viewport : ν) (options : DLSSGOptions) :
    List ((ν × DLSSGOptions) × SlResult) → SlResult → Prop
  | own (h : PassedThrough force options) (result : SlResult) :
      Served force viewport options [((viewport, options), result)] result
  | forced (h : ¬PassedThrough force options) (adjusted : DLSSGOptions)
      (hforced : Forced force options adjusted) :
      Served force viewport options [((viewport, adjusted), .ok)] .ok
  | replayed (h : ¬PassedThrough force options) (adjusted : DLSSGOptions)
      (hforced : Forced force options adjusted) (refusal result : SlResult) (hrefusal : refusal ≠ .ok) :
      Served force viewport options
        [((viewport, adjusted), refusal), ((viewport, options), result)] result

/-- One request to a Streamline whose calls are written down. -/
def sent (original : ν × DLSSGOptions → σ → SlResult × σ) (force : UInt32) (viewport : ν)
    (options : DLSSGOptions) (host : σ) : SlResult × σ × List ((ν × DLSSGOptions) × SlResult) :=
  setOptions (some fun viewport options => recorded original (viewport, options)) force viewport
    options (host, [])

variable (original : ν × DLSSGOptions → σ → SlResult × σ)

/-- A request that is not forced is one call. -/
theorem sent_passedThrough {force : UInt32} {options : DLSSGOptions}
    (h : PassedThrough force options) (viewport : ν) (host : σ) :
    sent original force viewport options host = recorded original (viewport, options) (host, []) := by
  unfold sent setOptions
  dsimp only
  by_cases hoff : options.mode = .off
  · rw [if_pos hoff]
  · rw [if_neg hoff]
    by_cases hzero : force = 0 ∨ options.mode = .dynamic
    · rw [if_pos hzero]
    · obtain ⟨hforce, hdynamic⟩ := not_or.mp hzero
      have hnewer : options.structVersion > kKnownVersion := by
        rcases h with hmode | hmode | hnone | hversion
        · exact absurd hmode hoff
        · exact absurd hmode hdynamic
        · exact absurd hnone hforce
        · exact hversion
      rw [if_neg hzero, if_pos hnewer]

/-- A forced request is tried as its copy and then as the game's own. -/
theorem sent_forced {force : UInt32} {options : DLSSGOptions} (h : ¬PassedThrough force options)
    (viewport : ν) (host : σ) :
    sent original force viewport options host =
      callTwice (recorded original) (· == .ok)
        (viewport, { copyKnownOptions options with mode := .on, numFramesToGenerate := force - 1 })
        (some (viewport, options)) (host, []) := by
  unfold PassedThrough at h
  obtain ⟨hoff, hdynamic, hforce, hversion⟩ : options.mode ≠ .off ∧ options.mode ≠ .dynamic ∧
      force ≠ 0 ∧ ¬kKnownVersion < options.structVersion := by
    rwa [not_or, not_or, not_or] at h
  have hzero : ¬(force = 0 ∨ options.mode = .dynamic) := not_or.mpr ⟨hforce, hdynamic⟩
  unfold sent setOptions callTwice
  dsimp only
  rw [if_neg hoff, if_neg hzero, if_neg hversion]
  split
  · rename_i hrefused
    rw [if_neg (by rwa [beq_iff_eq])]
  · rename_i hok
    rw [if_pos (by rwa [beq_iff_eq, ← not_ne_iff])]

/-- Every request is served so, whatever Streamline answers, and its first call
depends on no field that the game's struct version does not define. -/
theorem setOptions_served (force : UInt32) (viewport : ν) (options : DLSSGOptions) (host : σ) :
    Served force viewport options (sent original force viewport options host).2.2
        (sent original force viewport options host).1 ∧
      ∀ other, ¬PassedThrough force options → SameKnownFields options other →
        other.mode = options.mode →
        (sent original force viewport other host).2.2.head? =
          (sent original force viewport options host).2.2.head? := by
  refine ⟨?_, fun other hforced hknown hmode => ?_⟩
  · by_cases h : PassedThrough force options
    · rw [sent_passedThrough original h]
      exact Served.own h _
    · have hadjusted : Forced force options
          { copyKnownOptions options with mode := .on, numFramesToGenerate := force - 1 } :=
        ⟨sameKnownFields_copy options .on (force - 1), rfl, rfl⟩
      obtain ⟨calls, hlog, htried⟩ := tried_callTwice (· == .ok)
        (viewport, { copyKnownOptions options with mode := .on, numFramesToGenerate := force - 1 })
        (some (viewport, options)) original host []
      rw [List.nil_append] at hlog
      rw [sent_forced original h, hlog]
      generalize (callTwice (recorded original) _ _ _ (host, [])).1 = result at htried ⊢
      cases htried with
      | once _ hlast =>
        rcases hlast with hok | hnone
        · rw [beq_iff_eq.mp hok]
          exact Served.forced h _ hadjusted
        · cases hnone
      | twice refusal _ own hrefusal hsecond =>
        cases hsecond
        exact Served.replayed h _ hadjusted refusal result (beq_eq_false_iff_ne.mp hrefusal)
  · have hother : ¬PassedThrough force other := by
      unfold PassedThrough
      rw [hmode, ← hknown.structVersion]
      exact hforced
    rw [sent_forced original hforced, sent_forced original hother, head_callTwice, head_callTwice,
      copy_of_sameKnownFields hknown]

end Calls

end OpenDlssg.ForcedMultiplier
