import OpenDlssg.ProviderAnswers
import OpenDlssg.Substitute

/-!
# A decision never passes on what the GPU cannot run

Over every run of the engine each index held is its own runtime's, so a
native answer is a cubin of the target architecture. From it, one lemma for
each of the nested deciders: passing an image on means it is runnable, and
replacing it means the replacement is.
-/

namespace OpenDlssg.SubstituteSafety

open ByteCodec ByteSearch ProcessMemory CubinImage FatbinContainer FatbinRetarget
open PatternScan ProviderIndex ProviderLookup ProviderAnswers Substitute TransitionRuns

/-- An image of a kernel that runs on the target as it is. -/
def Runnable (target : UInt32) (blob : Bytes) : Prop :=
  (cubinArch blob ≠ 0 ∧ canRun false (cubinArch blob) target = true) ∨
    ∃ images, describe blob = some images ∧
      ∃ image ∈ images, canRun image.isPtx image.arch target = true

/-- A replacement made for the target: a cubin built for it, or a container of
one PTX image rewritten for it. -/
def Replacement (target : UInt32) (blob : Bytes) : Prop :=
  cubinArch blob = target ∨ ∃ container : SinglePtxContainer target, container.bytes = blob

/-- Any image runs on its own architecture. -/
theorem canRun_self (isPtx : Bool) {arch : UInt32} (h : arch ≠ 0) : canRun isPtx arch arch = true := by
  unfold canRun
  have hle : arch ≤ arch := UInt32.le_refl arch
  cases isPtx with
  | true => simp [h]
  | false => simp [h]

/-- A replacement cubin runs on the target. -/
theorem runnable_of_cubinArch {target : UInt32} {blob : Bytes} (htarget : target ≠ 0)
    (h : cubinArch blob = target) : Runnable target blob := by
  refine Or.inl ⟨by rw [h]; exact htarget, ?_⟩
  rw [h]
  exact canRun_self false htarget

/-- A replacement container that a walk accepts runs on the target. -/
theorem runnable_of_singlePtx {target : UInt32} (htarget : target ≠ 0)
    (container : SinglePtxContainer target)
    (hmax : container.file.fatSize.toNat ≤ kMaxContainerSize) : Runnable target container.bytes :=
  Or.inr ⟨_, container.describe_bytes hmax, _, List.mem_singleton_self _, canRun_self true htarget⟩

variable {env : Environment}

/-- Every index the engine holds is its own runtime's, in every state it reaches. -/
theorem ownImages_of_reachable {s : State} (hreach : (engine env).Reachable s) :
    OwnImages env.process env.scanner s.indexes := by
  refine hreach.invariant (fun s => OwnImages env.process env.scanner s.indexes) ?_ ?_
  · intro start hstart
    rw [show start = {} from hstart]
    exact ownImages_empty
  · intro before action after hbefore _ hstep
    cases action with
    | configure options =>
      cases hstep
      exact hbefore
    | activate architecture implementation =>
      cases hstep
      exact hbefore
    | buildProviderIndex provider =>
      cases hstep
      exact ownImages_buildProviderIndex hbefore provider
    | targetSm detected =>
      cases hstep
      rw [(targetSm_keeps detected before).2]
      exact hbefore
    | decide detected caller blob =>
      cases hstep
      unfold Substitute.decide
      rw [logDecision_indexes]
      dsimp only
      rw [(targetSm_keeps detected before).2]
      exact hbefore

/-- A native twin is a cubin of the target architecture. -/
theorem cubinArch_native {indexes : Indexes} (hown : OwnImages env.process env.scanner indexes)
    {provider : Option HModule} {cubin : Bytes} {target : UInt32} {native : Blob}
    (h : findNativeCubin indexes provider cubin target = some native) :
    cubinArch (env.process.memory.view native) = target := by
  obtain ⟨_, _, found, _, _, _, hmem, _, harch, rfl⟩ := findNativeCubin_eq_some hown h
  rw [(image_of_mem_indexedCubins hmem).2, harch]

/-- A bare cubin is passed on only when it runs, and replaced only by what does. -/
theorem decideCubin_spec {indexes : Indexes} (hown : OwnImages env.process env.scanner indexes)
    (caller : Option HModule) (blob : Bytes) (arch target : UInt32) (source : PtxSource) :
    ((decideCubin env indexes caller blob arch target source).decision = .unchanged →
        canRun false arch target = true) ∧
      ((decideCubin env indexes caller blob arch target source).decision = .substituted →
        ∃ image, (decideCubin env indexes caller blob arch target source).image = some image ∧
          Replacement target image) := by
  unfold decideCubin
  dsimp only
  by_cases hrun : canRun false arch target = true
  · rw [if_pos hrun]
    exact ⟨fun _ => hrun, fun h => by cases h⟩
  · rw [if_neg hrun]
    cases hnative : findNativeCubin indexes (answeringProvider indexes caller) blob target with
    | some native =>
      refine ⟨fun h => (by cases h), fun _ => ⟨_, rfl, Or.inl ?_⟩⟩
      exact cubinArch_native hown hnative
    | none =>
      cases hcontainer : findContainerForCubin indexes (answeringProvider indexes caller) blob with
      | none => exact ⟨fun h => (by cases h), fun h => by cases h⟩
      | some container =>
        dsimp only
        cases hretarget : (retarget env.lz4 env.order (env.process.memory.view container) target
            source {}).1 with
        | none => exact ⟨fun h => (by cases h), fun h => by cases h⟩
        | some image =>
          refine ⟨fun h => (by cases h), fun _ => ⟨image, rfl, Or.inr ?_⟩⟩
          exact (retarget_eq_some hretarget).1

/-- A cubin or a container is passed on only when it runs, and replaced only by
what does. -/
theorem decideFrom_spec {s : State} (hown : OwnImages env.process env.scanner s.indexes)
    (caller : Option HModule) {blob : Bytes} (source : PtxSource) {target : UInt32}
    (htarget : target ≠ 0) (hkind : cubinArch blob ≠ 0 ∨ containerSize blob ≠ 0) :
    ((decideFrom env s caller (some blob) source target).decision = .unchanged →
        Runnable target blob) ∧
      ((decideFrom env s caller (some blob) source target).decision = .substituted →
        ∃ image, (decideFrom env s caller (some blob) source target).image = some image ∧
          Replacement target image) := by
  have hblob : ¬(target = 0 ∨ blob = []) := by
    intro h
    rcases h with hzero | hnil
    · exact htarget hzero
    · rw [hnil] at hkind
      rcases hkind with harch | hsize
      · exact harch rfl
      · exact hsize rfl
  unfold decideFrom
  dsimp only
  rw [if_neg hblob]
  by_cases harch : cubinArch blob ≠ 0
  · rw [if_pos harch]
    obtain ⟨hkeep, hreplace⟩ := decideCubin_spec hown caller blob (cubinArch blob) target source
    exact ⟨fun h => Or.inl ⟨harch, hkeep h⟩, hreplace⟩
  · have hsize : containerSize blob ≠ 0 := hkind.resolve_left harch
    rw [if_neg harch, if_pos hsize]
    cases hretarget : (retarget env.lz4 env.order blob target source {}).1 with
    | some image =>
      refine ⟨fun h => (by cases h), fun _ => ⟨image, rfl, Or.inr ?_⟩⟩
      exact (retarget_eq_some hretarget).1
    | none =>
      dsimp only
      by_cases hrun : (retarget env.lz4 env.order blob target source {}).2.alreadyRunnable = true
      · rw [if_pos hrun]
        exact ⟨fun _ => Or.inr (retarget_alreadyRunnable rfl hrun), fun h => by cases h⟩
      · rw [if_neg hrun]
        exact ⟨fun h => (by cases h), fun h => by cases h⟩

/-- With every index its own runtime's, a cubin or a container is passed on only
when it runs on the target, and replaced, only when enabled, by what does. -/
theorem decide_spec {s : State} (hown : OwnImages env.process env.scanner s.indexes) (detected : UInt32)
    (htarget : (targetSm detected s).1 ≠ 0) (caller : Option HModule) {blob : Bytes}
    (hkind : cubinArch blob ≠ 0 ∨ containerSize blob ≠ 0) :
    ((Substitute.decide env detected caller (some blob) s).1.decision = .unchanged →
        Runnable (targetSm detected s).1 blob) ∧
      ((Substitute.decide env detected caller (some blob) s).1.decision = .substituted →
        s.options.enabled = true ∧
          ∃ image, (Substitute.decide env detected caller (some blob) s).1.image = some image ∧
            Replacement (targetSm detected s).1 image) := by
  obtain ⟨hoptions, hindexes⟩ := targetSm_keeps detected s
  rw [← hindexes] at hown
  obtain ⟨hkeep, hreplace⟩ := decideFrom_spec hown caller
    (preferredSource (targetSm detected s).2.options) htarget hkind
  obtain ⟨hunchanged, hsubstituted, himage⟩ := withheld_spec (targetSm detected s).2.options
    (decideFrom env (targetSm detected s).2 caller (some blob)
      (preferredSource (targetSm detected s).2.options) (targetSm detected s).1)
  refine ⟨fun h => hkeep (hunchanged.mp h), ?_⟩
  intro h
  obtain ⟨hdecision, henabled⟩ := hsubstituted.mp h
  obtain ⟨image, hmade, hfits⟩ := hreplace hdecision
  exact ⟨by rw [← hoptions]; exact henabled, image, himage.trans hmade, hfits⟩

/-- A rejected replacement for a cubin or a container is retried only with
another one made for the target. -/
theorem fallback_spec {s : State} (hown : OwnImages env.process env.scanner s.indexes) {detected : UInt32}
    (htarget : (targetSm detected s).1 ≠ 0) {caller : Option HModule} {blob image : Bytes}
    {rejected source : UInt32} (hkind : cubinArch blob ≠ 0 ∨ containerSize blob ≠ 0)
    (h : fallback env detected caller (some blob) rejected s = some (image, source)) :
    Replacement (targetSm detected s).1 image := by
  rw [← (targetSm_keeps detected s).2] at hown
  obtain ⟨_, hreplace⟩ := decideFrom_spec hown caller .closest htarget hkind
  unfold fallback at h
  split at h
  · cases h
  · dsimp only at h
    split at h
    · cases h
    · rename_i hdecided
      obtain ⟨hsubstituted, _⟩ := not_or.mp hdecided
      obtain ⟨made, hmade, hfits⟩ := hreplace (not_not.mp hsubstituted)
      rw [hmade] at h
      cases h
      exact hfits

/-- In every state the engine reaches in which it has a target, being active, a
cubin or a container that is passed on runs on the target, one that is replaced
is replaced, only when enabled, by an image made for the target, and one that
does not run is refused unless it is so replaced. -/
theorem decide_failsClosed {s : State} (hreach : (engine env).Reachable s) (detected : UInt32)
    (htarget : (targetSm detected s).1 ≠ 0) (caller : Option HModule) {blob : Bytes}
    (hkind : cubinArch blob ≠ 0 ∨ containerSize blob ≠ 0) :
    ((Substitute.decide env detected caller (some blob) s).1.decision = .unchanged →
        Runnable (targetSm detected s).1 blob) ∧
      ((Substitute.decide env detected caller (some blob) s).1.decision = .substituted →
        s.options.enabled = true ∧
          ∃ image, (Substitute.decide env detected caller (some blob) s).1.image = some image ∧
            Replacement (targetSm detected s).1 image) ∧
      (¬Runnable (targetSm detected s).1 blob →
        (Substitute.decide env detected caller (some blob) s).1.decision = .refused ∨
          (Substitute.decide env detected caller (some blob) s).1.decision = .substituted ∧
            ∃ image, (Substitute.decide env detected caller (some blob) s).1.image = some image ∧
              Replacement (targetSm detected s).1 image) := by
  obtain ⟨hpass, hswap⟩ := decide_spec (ownImages_of_reachable hreach) detected htarget caller hkind
  refine ⟨hpass, hswap, ?_⟩
  intro hbad
  cases hdecision : (Substitute.decide env detected caller (some blob) s).1.decision with
  | unchanged => exact absurd (hpass hdecision) hbad
  | substituted => exact Or.inr ⟨rfl, (hswap hdecision).2⟩
  | refused => exact Or.inl rfl

/-- An environment whose runtimes all map the given image; nothing in it is
compressed. -/
def sampleEnvironment (image : Bytes) : Environment where
  process := sampleProcess image
  scanner := Scanner.exhaustive
  lz4 _ _ := none
  order := ArchSort.insertion

/-- An sm_86 build of a kernel. -/
def ampereBuild : Bytes := sampleCubin 0 86 [(ascii "k", [1, 2])]

/-- The sm_89 build of the same kernel. -/
def adaBuild : Bytes := sampleCubin 0 89 [(ascii "k", [1, 2])]

/-- The engine, configured for sm_86 and active, with runtime 7 indexed. -/
def readyState : State :=
  { options := { targetSm := 86 }, configured := true, activated := true
    indexes := (buildProviderIndex (sampleProcess ampereBuild) Scanner.exhaustive ∅ (some 7)).2 }

/-- The engine gets there by being configured and activated and one build. -/
theorem readyState_reachable : (engine (sampleEnvironment ampereBuild)).Reachable readyState :=
  .next (a := .buildProviderIndex (some 7))
    (.next (a := .activate 0 0) (.next (a := .configure { targetSm := 86 }) (.start rfl) trivial rfl)
      trivial rfl) trivial rfl

/-- The Ada build of a kernel is not passed on to an Ampere GPU. -/
theorem decide_failsClosed_ada :
    ((Substitute.decide (sampleEnvironment ampereBuild) 0 (some 7) (some adaBuild)
        readyState).1.decision = .unchanged → Runnable (targetSm 0 readyState).1 adaBuild) ∧
      ((Substitute.decide (sampleEnvironment ampereBuild) 0 (some 7) (some adaBuild)
          readyState).1.decision = .substituted →
        readyState.options.enabled = true ∧
          ∃ image, (Substitute.decide (sampleEnvironment ampereBuild) 0 (some 7) (some adaBuild)
              readyState).1.image = some image ∧
            Replacement (targetSm 0 readyState).1 image) ∧
      (¬Runnable (targetSm 0 readyState).1 adaBuild →
        (Substitute.decide (sampleEnvironment ampereBuild) 0 (some 7) (some adaBuild)
            readyState).1.decision = .refused ∨
          (Substitute.decide (sampleEnvironment ampereBuild) 0 (some 7) (some adaBuild)
              readyState).1.decision = .substituted ∧
            ∃ image, (Substitute.decide (sampleEnvironment ampereBuild) 0 (some 7) (some adaBuild)
                readyState).1.image = some image ∧
              Replacement (targetSm 0 readyState).1 image) := by
  have htarget : (targetSm 0 readyState).1 ≠ 0 := by decide +kernel
  have hcubin : cubinArch adaBuild ≠ 0 := by decide +kernel
  exact decide_failsClosed readyState_reachable 0 htarget (some 7) (Or.inl hcubin)

/-- It is replaced by the runtime's own Ampere build. -/
example : (Substitute.decide (sampleEnvironment ampereBuild) 0 (some 7) (some adaBuild)
    readyState).1.image = some ampereBuild := by decide +kernel

end OpenDlssg.SubstituteSafety
