import OpenDlssg.CubinRoute
import OpenDlssg.ProviderAttribution
import OpenDlssg.PtxSelection
import OpenDlssg.RecordedCalls
import OpenDlssg.SubstituteSafety

/-!
# Handing a substitution to the driver

The driver gets the substituted image and, where it refuses it and a different
one can be rebuilt from the closest PTX, that one too. The rebuilding decides
again, in a state in which further runtimes may have been indexed. What a
decision reads only grows, so deciding again gives the earlier answer or none,
and the architecture a second image was built from is strictly lower.
-/

namespace OpenDlssg.DriverProtocol

open ByteCodec ProcessMemory FatbinContainer FatbinRetarget ProviderIndex ProviderLookup
open ProviderAttribution PtxSelection RecordedCalls Substitute SubstituteSafety TransitionRuns

/-! ### The calls -/

/-- What the driver receives in place of the runtime's image. -/
structure Substitution where
  image : Bytes := []
  /-- Architecture the replacement was built from. -/
  sourceArch : UInt32 := 0
  deriving DecidableEq

/-- What `Decide` leaves in its output. -/
def substitutionOf (answer : Answer) : Substitution := ⟨answer.image.getD [], answer.sourceArch⟩

/-- What one driver call after another came to. -/
structure Created (σ : Type) where
  /-- Returned to the runtime. -/
  status : UInt32
  /-- Given to `ReportDriverResult`. -/
  reported : UInt32
  substitution : Substitution
  driver : σ

section Calls

variable (env : Environment) (detected : UInt32) (caller : Option HModule) (blob : Option Bytes)

/-- The source's `Fallback`, which rebuilds a substitution in place. -/
def fallbackInto (out : Substitution) (s : State) : Bool × Substitution :=
  match fallback env detected caller blob out.sourceArch s with
  | none => (false, out)
  | some rebuilt => (true, ⟨rebuilt.1, rebuilt.2⟩)

/-- The source's `CreateSubstituted`, its `Fallback` running in a given state of
the engine. -/
def createSubstituted {σ : Type} (s : State) (create : Bytes → σ → UInt32 × σ)
    (substitution : Substitution) (driver : σ) : Created σ :=
  let first := create substitution.image driver
  if first.1 ≠ 0 then
    let retried := fallbackInto env detected caller blob substitution s
    if retried.1 then
      let second := create retried.2.image first.2
      ⟨second.1, second.1, retried.2, second.2⟩
    else ⟨first.1, first.1, retried.2, first.2⟩
  else ⟨first.1, first.1, substitution, first.2⟩

end Calls

/-- The engine in any later state: calls of any kind may have come between. -/
def Later (env : Environment) (s t : State) : Prop :=
  System.Reachable { init := fun start => start = s, step := (engine env).step } t

/-- The container a blob is or came from, as the indexes have it. -/
def sourceContainer (env : Environment) (indexes : Indexes) (caller : Option HModule) (blob : Bytes) :
    Option Bytes :=
  if CubinImage.cubinArch blob ≠ 0 then
    (findContainerForCubin indexes (answeringProvider indexes caller) blob).map
      env.process.memory.view
  else some blob

/-- The substitution is a container's closest PTX, rebuilt for a target. -/
structure BuiltFromClosest (env : Environment) (container : Bytes) (target : UInt32)
    (substitution : Substitution) : Prop where
  closest : ∃ images source module, describe container = some images ∧ LowestPtx images source ∧
    source.arch = substitution.sourceArch ∧ payload env.lz4 container source = some module ∧
    rebuild container source target (padded (rewriteTargetDirective module target).1) =
      some substitution.image

/-! ### Deciding again -/

/-- What one set of indexes holds another does too. -/
def Keeps (indexes later : Indexes) : Prop :=
  ∀ provider index, indexes.lookup provider = some index → later.lookup provider = some index

/-- A build keeps what is held. -/
theorem keeps_buildProviderIndex {process : Process} {scanner : PatternScan.Scanner}
    {first indexes : Indexes} (h : Keeps first indexes) (provider : Option HModule) :
    Keeps first (buildProviderIndex process scanner indexes provider).2 := by
  intro runtime index hheld
  have hlookup := h runtime index hheld
  rw [lookup_buildProviderIndex, hlookup]
  exact if_neg fun hnew => Option.some_ne_none index hnew.2

section Deciding

variable {env : Environment} {caller : Option HModule}

/-- Deciding for a bare cubin reads the answering runtime's index alone. -/
theorem decideCubin_of_lookup {indexes later : Indexes} {provider : HModule}
    (hfirst : answeringProvider indexes caller = some provider)
    (hlater : answeringProvider later caller = some provider)
    (hlookup : indexes.lookup provider = later.lookup provider) (blob : Bytes) (arch target : UInt32)
    (source : PtxSource) :
    decideCubin env later caller blob arch target source =
      decideCubin env indexes caller blob arch target source := by
  obtain ⟨hnative, hcontainer⟩ := answers_congr hlookup blob target
  have hindexed : providerIndexed indexes (some provider) = providerIndexed later (some provider) := by
    unfold providerIndexed
    rw [Option.bind_some, Option.bind_some, hlookup]
  unfold decideCubin
  dsimp only
  rw [hfirst, hlater, hnative, hcontainer, hindexed]

/-- A bare cubin that is replaced was answered for by an indexed runtime. -/
theorem indexed_of_substituted {indexes : Indexes} {blob : Bytes} {arch target : UInt32}
    {source : PtxSource}
    (h : (decideCubin env indexes caller blob arch target source).decision = .substituted) :
    ∃ provider index, answeringProvider indexes caller = some provider ∧
      indexes.lookup provider = some index := by
  cases hprovider : answeringProvider indexes caller with
  | none => exact absurd h (decideCubin_unanswered hprovider blob arch target source)
  | some provider =>
    cases hindex : indexes.lookup provider with
    | some index => exact ⟨provider, index, rfl, hindex⟩
    | none =>
      obtain ⟨hnative, hcontainer⟩ := answers_of_lookup_none hindex blob target
      unfold decideCubin at h
      dsimp only at h
      rw [hprovider, hnative, hcontainer] at h
      split at h
      · cases h
      · cases h

/-- With more runtimes indexed an unidentified caller is answered for by the
same one or by none. -/
theorem answeringProvider_later {indexes later : Indexes} (hkeeps : Keeps indexes later)
    {provider : HModule} {index : Index}
    (hprovider : answeringProvider indexes caller = some provider)
    (hindex : indexes.lookup provider = some index) :
    answeringProvider later caller = some provider ∨ answeringProvider later caller = none := by
  cases caller with
  | some runtime => exact Or.inl hprovider
  | none =>
    cases hsole : answeringProvider later none with
    | none => exact Or.inr rfl
    | some other =>
      have hheld : provider ∈ later := by
        rw [← AList.lookup_isSome, hkeeps provider index hindex]
        rfl
      have hsame := (soleIndexedProvider_eq_some.mp hsole provider).mp hheld
      rw [hsame]
      exact Or.inl rfl

/-- Without a target or without bytes nothing is replaced. -/
theorem decideFrom_nothing {s : State} {blob : Bytes} {source : PtxSource} {target : UInt32}
    (h : target = 0 ∨ blob = []) :
    (decideFrom env s caller (some blob) source target).decision ≠ .substituted := by
  unfold decideFrom
  dsimp only
  rw [if_pos h]
  exact fun hsubstituted => by cases hsubstituted

/-- A blob that was replaced is later decided as before, or not replaced. -/
theorem decideFrom_later {s t : State} (hkeeps : Keeps s.indexes t.indexes) {blob : Option Bytes}
    {source : PtxSource} {target : UInt32}
    (h : (decideFrom env s caller blob source target).decision = .substituted) (again : PtxSource) :
    decideFrom env t caller blob again target = decideFrom env s caller blob again target ∨
      (decideFrom env t caller blob again target).decision ≠ .substituted := by
  cases blob with
  | none => cases h
  | some blob =>
    by_cases hempty : target = 0 ∨ blob = []
    · exact absurd h (decideFrom_nothing hempty)
    · obtain ⟨htarget, _⟩ := not_or.mp hempty
      by_cases harch : CubinImage.cubinArch blob ≠ 0
      · rw [decideFrom_cubin htarget harch] at h ⊢
        rw [decideFrom_cubin htarget harch]
        obtain ⟨provider, index, hprovider, hindex⟩ := indexed_of_substituted h
        rcases answeringProvider_later hkeeps hprovider hindex with hsame | hnone
        · exact Or.inl (decideCubin_of_lookup hprovider hsame
            (hindex.trans (hkeeps provider index hindex).symm) _ _ _ _)
        · exact Or.inr (decideCubin_unanswered hnone _ _ _ _)
      · -- a container or a text is decided without the indexes
        left
        unfold decideFrom
        dsimp only
        rw [if_neg hempty, if_neg hempty, if_neg harch, if_neg harch]

/-- A container is rebuilt from its closest PTX or from one no lower. -/
theorem retarget_closest {container out rebuilt : Bytes} {target : UInt32} {source : PtxSource}
    (h : (retarget env.lz4 env.order container target source {}).1 = some out)
    (hclosest : (retarget env.lz4 env.order container target .closest {}).1 = some rebuilt) :
    BuiltFromClosest env container target
        ⟨rebuilt, (retarget env.lz4 env.order container target .closest {}).2.sourceArch⟩ ∧
      (retarget env.lz4 env.order container target .closest {}).2.sourceArch ≤
        (retarget env.lz4 env.order container target source {}).2.sourceArch := by
  obtain ⟨images, first, _, hdescribe, _, hfirst, _, _, hfirstReport⟩ := retarget_some h
  obtain ⟨images', lowest, module, hdescribe', _, hlowest, _, hrebuild, hreport⟩ :=
    retarget_some hclosest
  have himages : images' = images := Option.some.inj (hdescribe'.symm.trans hdescribe)
  obtain ⟨imagesFirst, hdescribeFirst, hmem, hptx, _, _⟩ := rightSource_of_retargetSource hfirst
  obtain ⟨imagesLowest, hdescribeLowest, _, _, hdecodes, hright⟩ :=
    rightSource_of_retargetSource hlowest
  have himagesFirst : imagesFirst = images :=
    Option.some.inj (hdescribeFirst.symm.trans hdescribe)
  have himagesLowest : imagesLowest = images :=
    Option.some.inj (hdescribeLowest.symm.trans hdescribe)
  rw [himagesFirst] at hmem
  rw [himagesLowest] at hright
  have hlow := hright.closest rfl
  rw [hreport, hfirstReport]
  exact ⟨⟨images, lowest, module, hdescribe, hlow, rfl, hdecodes, hrebuild⟩,
    hlow.lowest first hmem hptx⟩

/-- Of two replacements for one blob the one from the closest PTX has the other's
architecture, or is rebuilt from a container whose closest PTX is no higher. -/
structure NoHigher (env : Environment) (container : Option Bytes) (target : UInt32)
    (closest first : Answer) : Prop where
  le : closest.report.sourceArch ≤ first.report.sourceArch
  built : closest.report.sourceArch ≠ first.report.sourceArch → ∃ source image,
    container = some source ∧ closest.image = some image ∧
      BuiltFromClosest env source target ⟨image, closest.report.sourceArch⟩

/-- A bare cubin's native twin is the same whichever PTX is preferred, and a
container's closest PTX is no higher than the one preferred. -/
theorem decideCubin_closest {indexes : Indexes} {blob : Bytes} {target : UInt32}
    {source : PtxSource} (harch : CubinImage.cubinArch blob ≠ 0)
    (h : (decideCubin env indexes caller blob (CubinImage.cubinArch blob) target source).decision =
      .substituted)
    (hclosest : (decideCubin env indexes caller blob (CubinImage.cubinArch blob) target
      .closest).decision = .substituted) :
    NoHigher env (sourceContainer env indexes caller blob) target
      (decideCubin env indexes caller blob (CubinImage.cubinArch blob) target .closest)
      (decideCubin env indexes caller blob (CubinImage.cubinArch blob) target source) := by
  unfold decideCubin at h hclosest ⊢
  unfold sourceContainer
  dsimp only at h hclosest ⊢
  rw [if_pos harch]
  by_cases hrun : canRun false (CubinImage.cubinArch blob) target = true
  · rw [if_pos hrun] at h
    cases h
  · rw [if_neg hrun] at h hclosest ⊢
    rw [if_neg hrun]
    cases hnative : findNativeCubin indexes (answeringProvider indexes caller) blob target with
    | some native => exact ⟨UInt32.le_refl _, fun hne => absurd rfl hne⟩
    | none =>
      rw [hnative] at h hclosest
      cases hfound : findContainerForCubin indexes (answeringProvider indexes caller) blob with
      | none =>
        rw [hfound] at h
        cases h
      | some container =>
        rw [hfound] at h hclosest
        dsimp only at h hclosest ⊢
        cases hfirst : (retarget env.lz4 env.order (env.process.memory.view container) target source
            {}).1 with
        | none =>
          rw [hfirst] at h
          cases h
        | some out =>
          cases hrebuilt : (retarget env.lz4 env.order (env.process.memory.view container) target
              .closest {}).1 with
          | none =>
            rw [hrebuilt] at hclosest
            cases hclosest
          | some rebuilt =>
            obtain ⟨hbuilt, hle⟩ := retarget_closest hfirst hrebuilt
            exact ⟨hle, fun _ => ⟨_, rebuilt, rfl, rfl, hbuilt⟩⟩

/-- Whatever a blob is, deciding from the closest PTX gives no higher architecture. -/
theorem decideFrom_closest {s : State} {blob : Bytes} {target : UInt32} {source : PtxSource}
    (h : (decideFrom env s caller (some blob) source target).decision = .substituted)
    (hclosest : (decideFrom env s caller (some blob) .closest target).decision = .substituted) :
    NoHigher env (sourceContainer env s.indexes caller blob) target
      (decideFrom env s caller (some blob) .closest target)
      (decideFrom env s caller (some blob) source target) := by
  by_cases hempty : target = 0 ∨ blob = []
  · exact absurd h (decideFrom_nothing hempty)
  · obtain ⟨htarget, _⟩ := not_or.mp hempty
    by_cases harch : CubinImage.cubinArch blob ≠ 0
    · rw [decideFrom_cubin htarget harch] at h hclosest ⊢
      rw [decideFrom_cubin htarget harch]
      exact decideCubin_closest harch h hclosest
    · unfold decideFrom at h hclosest ⊢
      unfold sourceContainer
      dsimp only at h hclosest ⊢
      rw [if_neg hempty, if_neg harch] at h hclosest ⊢
      rw [if_neg harch, if_neg hempty, if_neg harch]
      by_cases hsize : containerSize blob ≠ 0
      · rw [if_pos hsize] at h hclosest ⊢
        rw [if_pos hsize]
        cases hfirst : (retarget env.lz4 env.order blob target source {}).1 with
        | none =>
          rw [hfirst] at h
          dsimp only at h
          split at h
          · cases h
          · cases h
        | some out =>
          cases hrebuilt : (retarget env.lz4 env.order blob target .closest {}).1 with
          | none =>
            rw [hrebuilt] at hclosest
            dsimp only at hclosest
            split at hclosest
            · cases hclosest
            · cases hclosest
          | some rebuilt =>
            obtain ⟨hbuilt, hle⟩ := retarget_closest hfirst hrebuilt
            exact ⟨hle, fun _ => ⟨blob, rebuilt, rfl, rfl, hbuilt⟩⟩
      · rw [if_neg hsize] at h hclosest ⊢
        rw [if_neg hsize]
        exact ⟨UInt32.le_refl _, fun hne => absurd rfl hne⟩

end Deciding

/-! ### Later states -/

/-- A state with a resolved target that holds at least some indexes. -/
structure Settled (target : UInt32) (indexes : Indexes) (s : State) : Prop where
  active : s.active = true
  target_eq : s.target = some target
  keeps : Keeps indexes s.indexes

section Runs

variable {env : Environment} {target : UInt32} {indexes : Indexes}

/-- Once resolved the target is read off. -/
theorem Settled.targetSm_eq {s : State} (h : Settled target indexes s) (detected : UInt32) :
    targetSm detected s = (target, s) := by
  unfold targetSm resolveTarget
  rw [h.active, if_pos rfl, h.target_eq]

/-- A target that is not zero has been resolved. -/
theorem settled_targetSm {detected : UInt32} {s : State} (h : (targetSm detected s).1 ≠ 0) :
    Settled (targetSm detected s).1 s.indexes (targetSm detected s).2 := by
  have hactive : s.active = true := by
    by_contra hinactive
    exact h (by rw [targetSm, if_neg hinactive])
  have hresolve : targetSm detected s = resolveTarget detected s := if_pos hactive
  rw [hresolve]
  unfold resolveTarget
  cases htarget : s.target with
  | some sm => exact ⟨hactive, htarget, fun _ _ hheld => hheld⟩
  | none => exact ⟨hactive, rfl, fun _ _ hheld => hheld⟩

/-- Counting a decision changes the totals alone. -/
theorem Settled.logDecision {s : State} (h : Settled target indexes s) (answer : Answer) :
    Settled target indexes (logDecision answer { s with decisions := s.decisions + 1 }) := by
  obtain ⟨hactive, htarget, hkeeps⟩ := h
  unfold Substitute.logDecision
  split
  · split
    · exact ⟨hactive, htarget, hkeeps⟩
    · exact ⟨hactive, htarget, hkeeps⟩
  · exact ⟨hactive, htarget, hkeeps⟩
  · exact ⟨hactive, htarget, hkeeps⟩

/-- No call of the engine changes the target or drops an index. -/
theorem Settled.step {s t : State} (h : Settled target indexes s) {action : Action}
    (hstep : (engine env).step s action = some t) : Settled target indexes t := by
  cases action with
  | configure options =>
    cases hstep
    have hactivated : s.activated = true := (Bool.and_eq_true_iff.mp h.active).2
    refine ⟨?_, h.target_eq, h.keeps⟩
    simp only [configure, State.active, hactivated, Bool.and_self]
  | activate architecture implementation =>
    cases hstep
    have hconfigured : s.configured = true := (Bool.and_eq_true_iff.mp h.active).1
    refine ⟨?_, h.target_eq, h.keeps⟩
    simp only [activate, State.active, hconfigured, Bool.and_self]
  | buildProviderIndex provider =>
    cases hstep
    exact ⟨h.active, h.target_eq, keeps_buildProviderIndex h.keeps provider⟩
  | targetSm detected =>
    cases hstep
    rw [h.targetSm_eq]
    exact h
  | decide detected caller blob =>
    cases hstep
    unfold Substitute.decide
    rw [h.targetSm_eq]
    exact h.logDecision _

/-- So it is in every later state. -/
theorem Settled.later {s t : State} (h : Settled target indexes s) (hlater : Later env s t) :
    Settled target indexes t := by
  refine System.ReachableUnder.invariant (Settled target indexes) ?_ ?_ hlater
  · intro start hstart
    rw [show start = s from hstart]
    exact h
  · intro before action after hbefore _ hstep
    exact hbefore.step hstep

end Runs

/-! ### The protocol -/

section Protocol

variable {env : Environment} {caller : Option HModule} {blob : Option Bytes}

/-- A decision to substitute: for a target that has been resolved, and by the
decider itself. -/
theorem decide_substituted {detected : UInt32} {s : State}
    (h : (Substitute.decide env detected caller blob s).1.decision = .substituted) :
    Settled (targetSm detected s).1 s.indexes (Substitute.decide env detected caller blob s).2 ∧
      ∃ source, (Substitute.decide env detected caller blob s).1 =
        decideFrom env (targetSm detected s).2 caller blob source (targetSm detected s).1 := by
  have hdecided := (withheld_spec (targetSm detected s).2.options
    (decideFrom env (targetSm detected s).2 caller blob
      (preferredSource (targetSm detected s).2.options) (targetSm detected s).1)).2.1.mp h
  have htarget : (targetSm detected s).1 ≠ 0 := by
    intro hzero
    cases blob with
    | none => cases hdecided.1
    | some blob => exact decideFrom_nothing (Or.inl hzero) hdecided.1
  exact ⟨(settled_targetSm htarget).logDecision _, _, withheld_enabled hdecided.2 _⟩

/-- A rebuilding that succeeds: what it decided. -/
theorem fallbackInto_true {target : UInt32} {indexes : Indexes} {t : State}
    (hsettled : Settled target indexes t) {detected : UInt32} {out : Substitution}
    (h : (fallbackInto env detected caller blob out t).1 = true) :
    (decideFrom env t caller blob .closest target).decision = .substituted ∧
      (decideFrom env t caller blob .closest target).report.sourceArch ≠ out.sourceArch ∧
      ∃ image, (decideFrom env t caller blob .closest target).image = some image ∧
        (fallbackInto env detected caller blob out t).2 =
          ⟨image, (decideFrom env t caller blob .closest target).report.sourceArch⟩ := by
  cases hrebuilt : fallback env detected caller blob out.sourceArch t with
  | none =>
    rw [fallbackInto, hrebuilt] at h
    cases h
  | some rebuilt =>
    have hinto : (fallbackInto env detected caller blob out t).2 = ⟨rebuilt.1, rebuilt.2⟩ := by
      rw [fallbackInto, hrebuilt]
    unfold fallback at hrebuilt
    rw [hsettled.targetSm_eq] at hrebuilt
    dsimp only at hrebuilt
    split at hrebuilt
    · cases hrebuilt
    · split at hrebuilt
      · cases hrebuilt
      · rename_i hdecided
        obtain ⟨hsubstituted, hother⟩ := not_or.mp hdecided
        obtain ⟨image, himage, rfl⟩ := Option.map_eq_some_iff.mp hrebuilt
        exact ⟨not_not.mp hsubstituted, hother, image, himage, hinto⟩

/-- One that fails leaves the substitution as it was. -/
theorem fallbackInto_false {detected : UInt32} {out : Substitution} {t : State}
    (h : (fallbackInto env detected caller blob out t).1 = false) :
    fallbackInto env detected caller blob out t = (false, out) := by
  unfold fallbackInto at h ⊢
  split
  · rfl
  · rename_i hrebuilt
    rw [hrebuilt] at h
    cases h

/-- A rebuilt substitution comes from the closest PTX, and from a strictly lower
architecture than the one it replaces. -/
theorem fallbackInto_lower {s t : State} {source : PtxSource} {target : UInt32}
    (hsettled : Settled target s.indexes t) {detected : UInt32} {out : Substitution}
    (hfirst : (decideFrom env s caller blob source target).decision = .substituted)
    (hout : out.sourceArch = (decideFrom env s caller blob source target).report.sourceArch)
    (h : (fallbackInto env detected caller blob out t).1 = true) :
    (fallbackInto env detected caller blob out t).2.sourceArch < out.sourceArch ∧
      ∃ container, blob.bind (sourceContainer env s.indexes caller) = some container ∧
        BuiltFromClosest env container target (fallbackInto env detected caller blob out t).2 := by
  obtain ⟨hdecision, hother, image, himage, hinto⟩ := fallbackInto_true hsettled h
  have hagain := (decideFrom_later hsettled.keeps hfirst .closest).resolve_right
    (not_not.mpr hdecision)
  rw [hagain] at hdecision hother himage hinto
  cases blob with
  | none => cases hdecision
  | some blob =>
    obtain ⟨hle, hbuilt⟩ := decideFrom_closest hfirst hdecision
    rw [hout] at hother ⊢
    obtain ⟨container, image', hcontainer, himage', hfrom⟩ := hbuilt hother
    rw [himage] at himage'
    cases himage'
    rw [hinto]
    exact ⟨UInt32.lt_of_le_of_ne hle hother, container, hcontainer, hfrom⟩

/-- A rebuilt substitution is not rebuilt again. -/
theorem fallbackInto_once {target : UInt32} {indexes : Indexes} {t u : State}
    (hsettled : Settled target indexes t) (hlater : Later env t u) {detected : UInt32}
    {out : Substitution} (h : (fallbackInto env detected caller blob out t).1 = true)
    (again : UInt32) :
    fallbackInto env again caller blob (fallbackInto env detected caller blob out t).2 u =
      (false, (fallbackInto env detected caller blob out t).2) := by
  obtain ⟨hdecision, _, _, _, hinto⟩ := fallbackInto_true hsettled h
  have hfrom : Settled target t.indexes t :=
    ⟨hsettled.active, hsettled.target_eq, fun _ _ hheld => hheld⟩
  have hlast := hfrom.later hlater
  apply fallbackInto_false
  by_contra hsecond
  rw [Bool.not_eq_false] at hsecond
  -- a second rebuilding would have decided as the first did
  obtain ⟨hdecision', hother, _⟩ := fallbackInto_true hlast hsecond
  have hagain := (decideFrom_later hlast.keeps hdecision .closest).resolve_right
    (not_not.mpr hdecision')
  rw [hagain, hinto] at hother
  exact hother rfl

/-- The calls of the driver are one, or two, and the last one's answer is both
returned and reported. -/
theorem createSubstituted_calls (env : Environment) (caller : Option HModule)
    (blob : Option Bytes) {σ : Type} (detected : UInt32) (s : State)
    (create : Bytes → σ → UInt32 × σ) (substitution : Substitution) (driver : σ) :
    (createSubstituted env detected caller blob s create substitution driver).reported =
        (createSubstituted env detected caller blob s create substitution driver).status ∧
      ((createSubstituted env detected caller blob s create substitution driver).status,
          (createSubstituted env detected caller blob s create substitution driver).driver) =
        callTwice create (· == 0) substitution.image
          (if (fallbackInto env detected caller blob substitution s).1 then
            some (fallbackInto env detected caller blob substitution s).2.image else none) driver := by
  unfold createSubstituted callTwice
  dsimp only
  by_cases hfirst : (create substitution.image driver).1 = 0
  · rw [if_neg (not_not.mpr hfirst), if_pos (beq_iff_eq.mpr hfirst)]
    exact ⟨rfl, rfl⟩
  · have hrefused : ¬((create substitution.image driver).1 == 0) = true := by
      rwa [beq_iff_eq]
    rw [if_pos hfirst, if_neg hrefused]
    cases hretried : (fallbackInto env detected caller blob substitution s).1 with
    | true => exact ⟨rfl, rfl⟩
    | false => exact ⟨rfl, rfl⟩

/-- Writing the calls down changes neither the answer nor the driver. -/
theorem createSubstituted_recorded (env : Environment) (caller : Option HModule)
    (blob : Option Bytes) {σ : Type} (detected : UInt32) (s : State)
    (create : Bytes → σ → UInt32 × σ) (substitution : Substitution) (driver : σ) :
    (createSubstituted env detected caller blob s (recorded create) substitution
        (driver, [])).status =
      (createSubstituted env detected caller blob s create substitution driver).status ∧
    (createSubstituted env detected caller blob s (recorded create) substitution
        (driver, [])).driver.1 =
      (createSubstituted env detected caller blob s create substitution driver).driver := by
  obtain ⟨_, hwritten⟩ := createSubstituted_calls env caller blob detected s (recorded create)
    substitution (driver, [])
  obtain ⟨_, hbare⟩ := createSubstituted_calls env caller blob detected s create substitution driver
  obtain ⟨hstatus, hdriver⟩ := callTwice_recorded create driver []
  rw [← hwritten, ← hbare] at hstatus hdriver
  exact ⟨hstatus, hdriver⟩

/-- The NVAPI route hands its replacements over so, the driver's state being the
memory it may write to, and restores the block behind the last call. -/
theorem createSubstituted_cubinRoute (env : Environment) (detected : UInt32)
    (driver : CubinRoute.Driver) (call : CubinRoute.Call) (places : CubinParams.BlobFields)
    (data size : ℕ) (answer : Answer) (s : State) :
    ∃ created, created = createSubstituted env detected call.caller
        (some (call.memory.bytes data size)) s
        (fun image memory => driver (CubinRoute.withImage call places memory image) call.params)
        (substitutionOf answer) call.memory ∧
      (CubinRoute.createSubstituted env detected driver call places data size answer s).status =
        created.status ∧
      (CubinRoute.createSubstituted env detected driver call places data size answer s).memory =
        CubinParams.writeBlob created.driver call.params places data size := by
  refine ⟨_, rfl, ?_⟩
  unfold CubinRoute.createSubstituted createSubstituted fallbackInto substitutionOf
  dsimp only
  by_cases hfirst : (driver (CubinRoute.withImage call places call.memory (answer.image.getD []))
      call.params).1 = 0
  · rw [if_pos hfirst, if_neg (not_not.mpr hfirst)]
    exact ⟨rfl, rfl⟩
  · rw [if_neg hfirst, if_pos hfirst]
    cases fallback env detected call.caller (some (call.memory.bytes data size)) answer.sourceArch
        s with
    | none => exact ⟨rfl, rfl⟩
    | some rebuilt => exact ⟨rfl, rfl⟩

/-- How a substitution is handed to a driver whose calls are written down. -/
structure Protocol (env : Environment) (caller : Option HModule) (blob : Option Bytes)
    (container : Option Bytes) (target : UInt32) (first : Substitution) (t : State)
    (detected : UInt32) {σ : Type} (created : Created (σ × List (Bytes × UInt32))) : Prop where
  /-- The first image, and the rebuilt one exactly where the first is refused and
  the rebuilding succeeds. -/
  calls : Tried (· == 0) first.image
    (if (fallbackInto env detected caller blob first t).1 then
      some (fallbackInto env detected caller blob first t).2.image else none)
    created.driver.2 created.status
  last : created.driver.2.getLast?.map (·.2) = some created.status
  reported : created.reported = created.status
  kept : (fallbackInto env detected caller blob first t).1 = false →
    (fallbackInto env detected caller blob first t).2 = first
  rebuilt : (fallbackInto env detected caller blob first t).1 = true →
    (fallbackInto env detected caller blob first t).2.sourceArch < first.sourceArch ∧
      ∃ source, container = some source ∧
        BuiltFromClosest env source target (fallbackInto env detected caller blob first t).2
  once : (fallbackInto env detected caller blob first t).1 = true → ∀ u again, Later env t u →
    fallbackInto env again caller blob (fallbackInto env detected caller blob first t).2 u =
      (false, (fallbackInto env detected caller blob first t).2)

/-- Every substitution decided is handed to every driver so, whatever the engine
is asked in between. -/
theorem createSubstituted_protocol {detected : UInt32} {s t : State}
    (hdecided : (Substitute.decide env detected caller blob s).1.decision = .substituted)
    (hlater : Later env (Substitute.decide env detected caller blob s).2 t) (detected' : UInt32)
    {σ : Type} (create : Bytes → σ → UInt32 × σ) (driver : σ) :
    Protocol env caller blob (blob.bind (sourceContainer env s.indexes caller))
      (targetSm detected s).1 (substitutionOf (Substitute.decide env detected caller blob s).1) t
      detected'
      (createSubstituted env detected' caller blob t (recorded create)
        (substitutionOf (Substitute.decide env detected caller blob s).1) (driver, [])) := by
  obtain ⟨hsettled, source, hanswer⟩ := decide_substituted hdecided
  have hthen := hsettled.later hlater
  have hindexes := (targetSm_keeps detected s).2
  have hfirst : (decideFrom env (targetSm detected s).2 caller blob source
      (targetSm detected s).1).decision = .substituted := by
    rw [← hanswer]
    exact hdecided
  have hout : (substitutionOf (Substitute.decide env detected caller blob s).1).sourceArch =
      (decideFrom env (targetSm detected s).2 caller blob source
        (targetSm detected s).1).report.sourceArch := by
    rw [hanswer]
    exact if_pos hfirst
  generalize hsubstitution : substitutionOf (Substitute.decide env detected caller blob s).1 =
    substitution at hout ⊢
  obtain ⟨hreported, hcalls⟩ := createSubstituted_calls env caller blob detected' t
    (recorded create) substitution (driver, [])
  obtain ⟨calls, hlog, htried⟩ := tried_callTwice (· == 0) substitution.image
    (if (fallbackInto env detected' caller blob substitution t).1 then
      some (fallbackInto env detected' caller blob substitution t).2.image else none) create driver []
  rw [← hcalls, List.nil_append] at hlog
  rw [← hcalls] at htried
  dsimp only at hlog htried
  rw [← hlog] at htried
  refine ⟨htried, htried.getLast, hreported, fun hkept => ?_, fun hrebuilt => ?_,
    fun hrebuilt u again hafter => ?_⟩
  · rw [fallbackInto_false hkept]
  · rw [← hindexes] at hthen ⊢
    exact fallbackInto_lower hthen hfirst hout hrebuilt
  · exact fallbackInto_once hthen hafter hrebuilt again

end Protocol

/-- An engine that prefers the newest PTX, for an Ampere GPU. -/
def newestState : State :=
  { options := { targetSm := 86, multiFrame := true }, configured := true, activated := true }

/-- What it decides for a container with both builds. -/
def newestDecision : Answer × State :=
  Substitute.decide (sampleEnvironment []) 0 none (some bothBuilds) newestState

/-- An engine once one more runtime has been indexed. -/
def afterBuild (env : Environment) (provider : HModule) (s : State) : State :=
  { s with indexes := (buildProviderIndex env.process env.scanner s.indexes (some provider)).2 }

/-- That is a later state. -/
theorem later_afterBuild (env : Environment) (provider : HModule) (s : State) :
    Later env s (afterBuild env provider s) :=
  .next (a := .buildProviderIndex (some provider)) (.start rfl) trivial rfl

/-- That engine once a runtime has been indexed in between. -/
def newestLater : State := afterBuild (sampleEnvironment []) 7 newestDecision.2

/-- A driver that refuses the first image it gets. -/
def refusesFirst (_ : Bytes) (calls : ℕ) : UInt32 × ℕ := (if calls = 0 then 218 else 0, calls + 1)

/-- Handed to such a driver, its substitution is tried twice. -/
theorem createSubstituted_protocol_newest :
    Protocol (sampleEnvironment []) none (some bothBuilds)
      ((some bothBuilds).bind (sourceContainer (sampleEnvironment []) newestState.indexes none))
      (targetSm 0 newestState).1 (substitutionOf newestDecision.1) newestLater 0
      (createSubstituted (sampleEnvironment []) 0 none (some bothBuilds) newestLater
        (recorded refusesFirst) (substitutionOf newestDecision.1) (0, [])) := by
  have hdecided : newestDecision.1.decision = .substituted := by decide +kernel
  have hlater : Later (sampleEnvironment []) newestDecision.2 newestLater :=
    later_afterBuild (sampleEnvironment []) 7 newestDecision.2
  exact createSubstituted_protocol hdecided hlater 0 refusesFirst 0

/-- Built from sm_120 and refused, then built from sm_89 and accepted. -/
example : (substitutionOf newestDecision.1).sourceArch = 120 ∧
    (createSubstituted (sampleEnvironment []) 0 none (some bothBuilds) newestLater
      (recorded refusesFirst) (substitutionOf newestDecision.1) (0, [])).substitution.sourceArch =
        89 ∧
    (createSubstituted (sampleEnvironment []) 0 none (some bothBuilds) newestLater
      (recorded refusesFirst) (substitutionOf newestDecision.1) (0, [])).driver.2.map (·.2) =
        [218, 0] := by decide +kernel

end OpenDlssg.DriverProtocol
