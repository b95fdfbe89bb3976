import OpenDlssg.LoaderInterleaving

/-!
# How far a load has come

What holds of one load wherever the others and the worker are: its image is
mapped and is the component its file names, it passes every stage of the
preparation in order, and once it has made its claim attempt the image is
claimed. The shared memory only ever grows, so what holds of a load is kept by
every step of another thread.
-/

namespace OpenDlssg.LoadProgress

open RecordTable ComponentClaims TransitionRuns LoaderInterleaving

/-- A runtime that is not the frame-generation provider is left alone. -/
def Exempt (env : Environment) (m : Module) : Prop :=
  env.component m = .runtime ∧ env.isDlssgProvider m = false

/-- Where `RecordRuntime` can be, and what is known when it is done. -/
def RecordPhase (shared : Shared) (m : Module) : Proc → Prop
  | .recordCheck => True
  | .recordPin => True
  | .recordInsert => True
  | .done => shared.known m = true
  | _ => False

/-- Where a load can be behind `RecordRuntime`: before its claim attempt, or
behind it with the image claimed. -/
def PreparePhase (env : Environment) (shared : Shared) (attempted : Bool) (m : Module) :
    Proc → Prop
  | .patchClaim => env.component m = .plugin
  | .gatesKnown => env.component m = .runtime ∧ shared.known m = true
  | .gatesClaim => env.component m = .runtime ∧ shared.known m = true
  | .patchPin _ _ => attempted = true ∧ Claimed env shared m
  | .write _ => attempted = true ∧ Claimed env shared m
  | .done => attempted = true ∧ Claimed env shared m
  | _ => False

/-- What holds of a load that is through with its image. -/
def Through (env : Environment) (shared : Shared) (call : Call) (m : Module) : Prop :=
  Exempt env m ∨ (call.attempted = true ∧ Claimed env shared m)

/-- What holds of a load at each stage, besides what holds of its image. -/
def StageInv (env : Environment) (shared : Shared) (call : Call) : CallPc → Prop
  | .recording m proc => ¬Exempt env m ∧ env.component m = .runtime ∧ RecordPhase shared m proc
  | .preparing m proc => ¬Exempt env m ∧ PreparePhase env shared call.attempted m proc
  | .leaving (some m) => Through env shared call m
  | .returned (some m) => Through env shared call m
  | _ => True

/-- What holds of a load. -/
structure CallInv (env : Environment) (shared : Shared) (call : Call) : Prop where
  image_mapped : ∀ m, call.pc.image = some m →
    m ∈ shared.mapped ∧ env.component m = call.component
  stage : StageInv env shared call call.pc

section Stages

variable {env : Environment} {shared s t : Shared} {m : Module}

/-- A load that is through with an image stays so. -/
theorem Through.mono {call : Call} (hgrow : Extends env s t) (h : Through env s call m) :
    Through env t call m :=
  h.imp_right fun hclaimed => ⟨hclaimed.1, hgrow.claimed hclaimed.2⟩

/-- What holds while a runtime is recorded goes on holding. -/
theorem RecordPhase.mono {proc : Proc} (hgrow : Extends env s t) (h : RecordPhase s m proc) :
    RecordPhase t m proc := by
  cases proc with
  | done => exact hgrow.known m h
  | _ => exact h

/-- So does what holds while an image is prepared. -/
theorem PreparePhase.mono {proc : Proc} {attempted : Bool} (hgrow : Extends env s t)
    (h : PreparePhase env s attempted m proc) : PreparePhase env t attempted m proc := by
  cases proc with
  | gatesKnown => exact ⟨h.1, hgrow.known m h.2⟩
  | gatesClaim => exact ⟨h.1, hgrow.known m h.2⟩
  | patchPin flip clamp => exact ⟨h.1, hgrow.claimed h.2⟩
  | write n => exact ⟨h.1, hgrow.claimed h.2⟩
  | done => exact ⟨h.1, hgrow.claimed h.2⟩
  | _ => exact h

/-- What holds of a load is kept while the shared memory grows. -/
theorem CallInv.mono {call : Call} (hgrow : Extends env s t) (h : CallInv env s call) :
    CallInv env t call := by
  refine ⟨fun m hm => ⟨hgrow.mapped m (h.image_mapped m hm).1, (h.image_mapped m hm).2⟩, ?_⟩
  have hstage := h.stage
  unfold StageInv at hstage ⊢
  split at hstage
  · exact ⟨hstage.1, hstage.2.1, hstage.2.2.mono hgrow⟩
  · exact ⟨hstage.1, hstage.2.mono hgrow⟩
  · exact hstage.mono hgrow
  · exact hstage.mono hgrow
  · trivial

/-- A step of `RecordRuntime` on a mapped image stays within it, and has
recorded the image when it is done. -/
theorem recordPhase_step {proc : Proc} (hmapped : m ∈ shared.mapped) (hproc : proc ≠ .done)
    (h : RecordPhase shared m proc) :
    RecordPhase (procStep env shared m proc).2 m (procStep env shared m proc).1 := by
  have hpin : shared.pinModule m = true := by simpa [Shared.pinModule] using hmapped
  cases proc with
  | recordCheck =>
    by_cases hknown : shared.known m = true
    · simp [procStep, hknown, RecordPhase]
    · simp [procStep, hknown, RecordPhase]
  | recordPin => simp [procStep, hpin, RecordPhase]
  | recordInsert => exact (insertRuntime_extends env shared m).2
  | done => exact absurd rfl hproc
  | _ => exact h.elim

/-- A step of the preparation of a mapped image stays within it; behind the
claim attempt the image is claimed. -/
theorem preparePhase_step {proc : Proc} {attempted : Bool}
    (hsupported : env.realArchitecture = .supported) (hmapped : m ∈ shared.mapped)
    (hproc : proc ≠ .done) (h : PreparePhase env shared attempted m proc) :
    PreparePhase env (procStep env shared m proc).2 (attempted || proc.isClaim) m
      (procStep env shared m proc).1 := by
  have hpin : shared.pinModule m = true := by simpa [Shared.pinModule] using hmapped
  cases proc with
  | patchClaim =>
    have hclaimed : Claimed env (shared.claimPatches env m).2 m := by
      rw [Claimed, h]
      exact (claimPatches_extends env shared m).2
    simp only [procStep, Proc.isClaim, Bool.or_true]
    split
    · exact ⟨rfl, hclaimed⟩
    · exact ⟨rfl, hclaimed⟩
  | patchPin flip clamp =>
    simp only [procStep, hpin, if_true, Proc.isClaim, Bool.or_false]
    exact h
  | gatesKnown =>
    simp only [procStep, h.2, if_true]
    exact h
  | gatesClaim =>
    have hclaimed : Claimed env (shared.claimGates m).2 m := by
      rw [Claimed, h.1]
      exact (claimGates_extends env shared m).2 h.2
    simp only [procStep, hsupported, Proc.isClaim, Bool.or_true]
    split
    · exact ⟨rfl, hclaimed⟩
    · exact ⟨rfl, hclaimed⟩
  | write n =>
    simp only [Proc.isClaim, Bool.or_false]
    cases n with
    | zero => exact h
    | succ n => exact h
  | done => exact absurd rfl hproc
  | _ => exact h.elim

/-- A phase of the preparation never drops a record. -/
theorem PreparePhase.ne_patchDrop {proc : Proc} {attempted : Bool}
    (h : PreparePhase env shared attempted m proc) : proc ≠ .patchDrop := by
  rintro rfl
  exact h

/-- Recording a runtime drops no patch. -/
theorem RecordPhase.ne_patchDrop {proc : Proc} (h : RecordPhase shared m proc) :
    proc ≠ .patchDrop := by
  rintro rfl
  exact h

/-- One step of a load: the memory grows, what holds of the load still holds,
it works on the same image and forgets no attempt. -/
structure Progress (env : Environment) (s t : Shared) (call call' : Call) : Prop where
  extends_memory : Extends env s t
  inv : CallInv env t call'
  component : call'.component = call.component
  image : ∀ m, call.pc.image = some m → call'.pc.image = some m
  attempted : call.attempted = true → call'.attempted = true

/-- A step that leaves the memory alone. -/
theorem Progress.of_pc {call : Call} {pc : CallPc} (himage : pc.image = call.pc.image)
    (hinv : CallInv env shared call) (hstage : StageInv env shared { call with pc := pc } pc) :
    Progress env shared shared call { call with pc := pc } := by
  have hkeep : ∀ m, pc.image = some m →
      m ∈ shared.mapped ∧ env.component m = call.component := by
    rw [himage]
    exact hinv.image_mapped
  exact ⟨.refl env shared, ⟨hkeep, hstage⟩, rfl, fun m hm => himage.trans hm, id⟩

/-- A procedure's step on the image of a load. -/
theorem Progress.of_proc {call : Call} {pc : CallPc} {attempted : Bool} {proc : Proc}
    (himage : call.pc.image = some m) (hsame : pc.image = some m)
    (hinv : CallInv env shared call) (hproc : proc ≠ .patchDrop)
    (hattempted : call.attempted = true → attempted = true)
    (hstage : StageInv env (procStep env shared m proc).2
      { call with pc := pc, attempted := attempted } pc) :
    Progress env shared (procStep env shared m proc).2 call
      { call with pc := pc, attempted := attempted } := by
  have hgrow := procStep_extends env shared m hproc
  obtain ⟨hmapped, hcomponent⟩ := hinv.image_mapped m himage
  refine ⟨hgrow, ⟨?_, hstage⟩, rfl, ?_, hattempted⟩
  · intro k hk
    have hkm : m = k := Option.some.inj (hsame.symm.trans hk)
    rw [← hkm]
    exact ⟨hgrow.mapped m hmapped, hcomponent⟩
  · intro k hk
    have hkm : m = k := Option.some.inj (himage.symm.trans hk)
    rw [← hkm]
    exact hsame

/-- Where a load goes when its image is loaded. -/
theorem prepare_stage (hsupported : env.realArchitecture = .supported) {call : Call}
    (hcomponent : env.component m = call.component) :
    (prepare env call.component m).image = some m ∧
      StageInv env shared { call with pc := prepare env call.component m }
        (prepare env call.component m) := by
  unfold prepare
  cases hkind : call.component with
  | runtime =>
    rw [hkind] at hcomponent
    dsimp only
    split
    · rename_i hprovider
      have hexempt : ¬Exempt env m := by simp [Exempt, hprovider]
      exact ⟨rfl, hexempt, hcomponent, trivial⟩
    · rename_i hprovider
      exact ⟨rfl, Or.inl ⟨hcomponent, by simpa using hprovider⟩⟩
  | plugin =>
    rw [hkind] at hcomponent
    dsimp only
    rw [if_pos hsupported]
    have hexempt : ¬Exempt env m := by simp [Exempt, hcomponent]
    exact ⟨rfl, hexempt, hcomponent⟩

/-- Every step of a load makes progress. -/
theorem progress_of_next {call call' : Call} {after : Shared}
    (hsupported : env.realArchitecture = .supported) (hinv : CallInv env shared call)
    (h : call.next env shared = some (call', after)) : Progress env shared after call call' := by
  have hstage := hinv.stage
  unfold Call.next at h
  cases hpc : call.pc with
  | entered =>
    simp only [hpc, Option.some.injEq, Prod.mk.injEq] at h
    obtain ⟨rfl, rfl⟩ := h
    exact .of_pc (by rw [hpc]; rfl) hinv trivial
  | loading =>
    rw [hpc] at h
    cases h
  | mapped m =>
    simp only [hpc, Option.some.injEq, Prod.mk.injEq] at h
    obtain ⟨rfl, rfl⟩ := h
    exact .of_pc (by rw [hpc]; rfl) hinv trivial
  | loaded m =>
    simp only [hpc, Option.some.injEq, Prod.mk.injEq] at h
    obtain ⟨rfl, rfl⟩ := h
    have hcomponent := (hinv.image_mapped m (by rw [hpc]; rfl)).2
    obtain ⟨himage, hnext⟩ := prepare_stage hsupported hcomponent
    exact .of_pc (by rw [hpc]; exact himage) hinv hnext
  | recording m proc =>
    rw [hpc] at hstage
    obtain ⟨hexempt, hruntime, hphase⟩ := hstage
    simp only [hpc] at h
    split at h
    · rename_i hdone
      rw [Option.some.injEq, Prod.mk.injEq] at h
      obtain ⟨rfl, rfl⟩ := h
      rw [hdone] at hphase
      exact .of_pc (by rw [hpc]; rfl) hinv ⟨hexempt, hruntime, hphase⟩
    · rename_i hdone
      rw [Option.some.injEq, Prod.mk.injEq] at h
      obtain ⟨rfl, rfl⟩ := h
      have hmapped := (hinv.image_mapped m (by rw [hpc]; rfl)).1
      exact .of_proc (by rw [hpc]; rfl) rfl hinv hphase.ne_patchDrop id
        ⟨hexempt, hruntime, recordPhase_step hmapped hdone hphase⟩
  | preparing m proc =>
    rw [hpc] at hstage
    obtain ⟨hexempt, hphase⟩ := hstage
    simp only [hpc] at h
    split at h
    · rename_i hdone
      rw [Option.some.injEq, Prod.mk.injEq] at h
      obtain ⟨rfl, rfl⟩ := h
      rw [hdone] at hphase
      exact .of_pc (by rw [hpc]; rfl) hinv (Or.inr hphase)
    · rename_i hdone
      rw [Option.some.injEq, Prod.mk.injEq] at h
      obtain ⟨rfl, rfl⟩ := h
      have hmapped := (hinv.image_mapped m (by rw [hpc]; rfl)).1
      exact .of_proc (by rw [hpc]; rfl) rfl hinv hphase.ne_patchDrop
        (fun hattempted => by rw [hattempted]; rfl)
        ⟨hexempt, preparePhase_step hsupported hmapped hdone hphase⟩
  | leaving handle =>
    simp only [hpc, Option.some.injEq, Prod.mk.injEq] at h
    obtain ⟨rfl, rfl⟩ := h
    rw [hpc] at hstage
    refine .of_pc (by rw [hpc]; rfl) hinv ?_
    cases handle with
    | none => trivial
    | some m => exact hstage
  | returned handle =>
    rw [hpc] at h
    cases h

end Stages

end OpenDlssg.LoadProgress
