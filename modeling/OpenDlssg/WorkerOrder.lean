import OpenDlssg.LoadProgress

/-!
# The worker never beats a load to its own component

The worker reads the count after it has listed the images. A listed image was
mapped by then, so when the count is zero the load that first mapped it is
over: it has made its claim attempt, unless the image is one that nobody
claims. What the worker has settled that way stays settled, because an image
is first mapped only once and attempts are never taken back.
-/

namespace OpenDlssg.WorkerOrder

open RecordTable ComponentClaims TransitionRuns LoaderInterleaving LoadProgress

/-- Whether a load is counted. -/
def inFlight (call : Call) : Bool :=
  match call.pc with
  | .entered => false
  | .returned _ => false
  | _ => true

/-- The load that first mapped the image, if one did, has made its claim
attempt, or the image is one that nobody claims. -/
def Settled (env : Environment) (s : State) (m : Module) : Prop :=
  m ∈ s.shared.mapped ∧ ∀ c, (m, c) ∈ s.firstMapped →
    Exempt env m ∨ ∃ call : Call, s.calls[c]? = some call ∧ call.attempted = true

/-- What holds of the worker: what it has listed is mapped, and what it goes on
to claim is settled. -/
def WorkerInv (env : Environment) (mapped : List Module) (settled : Module → Prop) :
    WorkerPc → Prop
  | .idle => True
  | .pluginsListed ms => ∀ m ∈ ms, m ∈ mapped ∧ env.component m = .plugin
  | .patching ms => ∀ m ∈ ms, settled m ∧ env.component m = .plugin
  | .patchingOne m proc ms =>
    proc ≠ .patchDrop ∧ ∀ k ∈ m :: ms, settled k ∧ env.component k = .plugin
  | .recordingAll ms => ∀ m ∈ ms, m ∈ mapped
  | .recordingOne m proc ms => proc ≠ .patchDrop ∧ ∀ k ∈ m :: ms, k ∈ mapped
  | .runtimesListed ms => ∀ m ∈ ms, m ∈ mapped
  | .inspecting loading ms => loading = false → ∀ m ∈ ms, settled m
  | .unlocking m proc ms =>
    proc ≠ .patchDrop ∧ env.isDlssgProvider m = true ∧ ∀ k ∈ m :: ms, settled k

/-- Every recorded runtime is mapped. -/
def Recorded (shared : Shared) : Prop := ∀ m, shared.known m = true → m ∈ shared.mapped

/-- What holds in every state. -/
structure Inv (env : Environment) (s : State) : Prop where
  calls : ∀ call ∈ s.calls, CallInv env s.shared call
  counted : s.componentLoads = s.calls.countP inFlight
  recorded : Recorded s.shared
  first : ∀ m c, (m, c) ∈ s.firstMapped → m ∈ s.shared.mapped ∧
    ∃ call : Call, s.calls[c]? = some call ∧ call.pc.image = some m
  worker : WorkerInv env s.shared.mapped (Settled env s) s.worker

/-! ### Procedures and the module list -/

section Procedures

variable {env : Environment} {shared : Shared} {m : Module}

/-- No procedure changes the module list. -/
theorem procStep_mapped (env : Environment) (shared : Shared) (m : Module) (proc : Proc) :
    (procStep env shared m proc).2.mapped = shared.mapped := by
  cases proc with
  | gatesClaim =>
    unfold procStep
    cases env.realArchitecture with
    | supported =>
      dsimp only
      unfold Shared.claimGates
      split
      · rfl
      · split <;> rfl
    | unknown => rfl
    | notNeeded => rfl
  | write n => cases n <;> rfl
  | _ => rfl

/-- A procedure on a mapped image never comes to drop its record. -/
theorem procStep_ne_patchDrop (hmapped : m ∈ shared.mapped) (proc : Proc) :
    (procStep env shared m proc).1 ≠ .patchDrop := by
  have hpin : shared.pinModule m = true := by simpa [Shared.pinModule] using hmapped
  cases proc with
  | patchClaim =>
    simp only [procStep]
    split <;> exact Proc.noConfusion
  | patchPin flip clamp =>
    simp only [procStep, hpin, if_true]
    exact Proc.noConfusion
  | recordCheck =>
    simp only [procStep]
    split <;> exact Proc.noConfusion
  | recordPin =>
    simp only [procStep, hpin, if_true]
    exact Proc.noConfusion
  | gatesKnown =>
    simp only [procStep]
    split <;> exact Proc.noConfusion
  | gatesClaim =>
    simp only [procStep]
    cases env.realArchitecture with
    | supported =>
      dsimp only
      split <;> exact Proc.noConfusion
    | unknown => exact Proc.noConfusion
    | notNeeded => exact Proc.noConfusion
  | write n => cases n <;> exact Proc.noConfusion
  | _ => exact Proc.noConfusion

/-- A procedure records no runtime but its own. -/
theorem known_of_procStep {proc : Proc} {k : Module}
    (h : (procStep env shared m proc).2.known k = true) : shared.known k = true ∨ k = m := by
  cases proc with
  | recordInsert =>
    have hfind := find_add Runtime.module k ⟨m, false⟩ shared.runtimes
    by_cases hk : k = m
    · exact Or.inr hk
    · rw [if_neg hk] at hfind
      simp only [procStep, Shared.insertRuntime, Shared.known, hfind] at h
      exact Or.inl h
  | gatesClaim =>
    left
    unfold procStep at h
    cases harch : env.realArchitecture with
    | supported =>
      rw [harch] at h
      dsimp only at h
      unfold Shared.claimGates at h
      split at h
      · exact h
      · split at h
        · exact h
        · have hupdate := find_update Runtime.module m k
            (fun r => { r with gatesClaimed := true }) (fun _ => rfl) shared.runtimes
          rw [Shared.known] at h ⊢
          rw [hupdate] at h
          split at h
          · rwa [Option.isSome_map] at h
          · exact h
    | unknown =>
      rw [harch] at h
      exact h
    | notNeeded =>
      rw [harch] at h
      exact h
  | write n => cases n <;> exact Or.inl h
  | _ => exact Or.inl h

/-- A procedure on a mapped image records nothing that is not mapped. -/
theorem procStep_recorded (hrecorded : Recorded shared) (hmapped : m ∈ shared.mapped)
    (proc : Proc) : Recorded (procStep env shared m proc).2 := by
  intro k hk
  rw [procStep_mapped]
  rcases known_of_procStep hk with hknown | hsame
  · exact hrecorded k hknown
  · rw [hsame]
    exact hmapped

/-- A load's step records nothing that is not mapped. -/
theorem recorded_next {call call' : Call} {after : Shared} (hrecorded : Recorded shared)
    (hinv : CallInv env shared call) (h : call.next env shared = some (call', after)) :
    Recorded after := by
  have hmapped : ∀ k, call.pc.image = some k → k ∈ shared.mapped :=
    fun k hk => (hinv.image_mapped k hk).1
  unfold Call.next at h
  cases hpc : call.pc with
  | recording k proc =>
    simp only [hpc] at h
    split at h
    · cases h
      exact hrecorded
    · cases h
      exact procStep_recorded hrecorded (hmapped k (by rw [hpc]; rfl)) proc
  | preparing k proc =>
    simp only [hpc] at h
    split at h
    · cases h
      exact hrecorded
    · cases h
      exact procStep_recorded hrecorded (hmapped k (by rw [hpc]; rfl)) proc
  | loading =>
    rw [hpc] at h
    cases h
  | returned handle =>
    rw [hpc] at h
    cases h
  | _ =>
    simp only [hpc] at h
    cases h
    exact hrecorded

end Procedures

/-! ### What every step keeps -/

/-- A later state: the memory has grown, no image was first mapped again, and
no load forgot its image or its attempt. -/
structure Later (env : Environment) (s t : State) : Prop where
  memory : Extends env s.shared t.shared
  first : ∀ m c, m ∈ s.shared.mapped → (m, c) ∈ t.firstMapped → (m, c) ∈ s.firstMapped
  calls : ∀ (c : ℕ) (call : Call), s.calls[c]? = some call → ∃ call' : Call, t.calls[c]? = some call' ∧
    (call.attempted = true → call'.attempted = true) ∧
    ∀ m, call.pc.image = some m → call'.pc.image = some m

section Steps

variable {env : Environment} {s t : State}

theorem mapImage_extends (env : Environment) (shared : Shared) (m : Module) :
    Extends env shared (mapImage shared m) :=
  ⟨fun _ h => List.mem_cons_of_mem _ h, fun _ h => h, fun _ h => h, fun _ h => h⟩

/-- What is settled stays settled. -/
theorem Settled.later {m : Module} (hlater : Later env s t) (h : Settled env s m) :
    Settled env t m := by
  refine ⟨hlater.memory.mapped m h.1, ?_⟩
  intro c hfirst
  rcases h.2 c (hlater.first m c h.1 hfirst) with hexempt | ⟨call, hcall, hattempted⟩
  · exact Or.inl hexempt
  · obtain ⟨call', hcall', hkeep, _⟩ := hlater.calls c call hcall
    exact Or.inr ⟨call', hcall', hkeep hattempted⟩

/-- What holds of the worker is kept by every step of a load. -/
theorem WorkerInv.later {worker : WorkerPc} (hlater : Later env s t)
    (h : WorkerInv env s.shared.mapped (Settled env s) worker) :
    WorkerInv env t.shared.mapped (Settled env t) worker := by
  have hmapped := hlater.memory.mapped
  cases worker with
  | idle => trivial
  | pluginsListed ms => exact fun m hm => ⟨hmapped m (h m hm).1, (h m hm).2⟩
  | patching ms => exact fun m hm => ⟨(h m hm).1.later hlater, (h m hm).2⟩
  | patchingOne m proc ms =>
    exact ⟨h.1, fun k hk => ⟨(h.2 k hk).1.later hlater, (h.2 k hk).2⟩⟩
  | recordingAll ms => exact fun m hm => hmapped m (h m hm)
  | recordingOne m proc ms => exact ⟨h.1, fun k hk => hmapped k (h.2 k hk)⟩
  | runtimesListed ms => exact fun m hm => hmapped m (h m hm)
  | inspecting loading ms => exact fun hfree m hm => (h hfree m hm).later hlater
  | unlocking m proc ms => exact ⟨h.1, h.2.1, fun k hk => (h.2.2 k hk).later hlater⟩

/-- Replacing one load by a later stage of it. -/
theorem calls_set {calls : List Call} {c : ℕ} {call call' : Call} (hcall : calls[c]? = some call)
    (hattempted : call.attempted = true → call'.attempted = true)
    (himage : ∀ m, call.pc.image = some m → call'.pc.image = some m) :
    ∀ (i : ℕ) (old : Call), calls[i]? = some old → ∃ new : Call, (calls.set c call')[i]? = some new ∧
      (old.attempted = true → new.attempted = true) ∧
      ∀ m, old.pc.image = some m → new.pc.image = some m := by
  intro i old hold
  by_cases hi : c = i
  · subst hi
    have hlt : c < calls.length := (List.getElem?_eq_some_iff.mp hcall).1
    rw [hcall, Option.some.injEq] at hold
    subst hold
    exact ⟨call', List.getElem?_set_self hlt, hattempted, himage⟩
  · refine ⟨old, ?_, id, fun _ hm => hm⟩
    rw [List.getElem?_set_ne hi]
    exact hold

/-- One step of the worker: the memory grows, what is recorded is mapped, and
what holds of the worker still holds. -/
structure WorkerProgress (env : Environment) (s : State) (worker' : WorkerPc)
    (after : Shared) : Prop where
  memory : Extends env s.shared after
  recorded : Recorded after
  worker : WorkerInv env s.shared.mapped (Settled env s) worker'

/-- A step that leaves the memory alone. -/
theorem WorkerProgress.of_pc {worker' : WorkerPc} (hrecorded : Recorded s.shared)
    (hworker : WorkerInv env s.shared.mapped (Settled env s) worker') :
    WorkerProgress env s worker' s.shared :=
  ⟨.refl env s.shared, hrecorded, hworker⟩

/-- A procedure's step on an image that is mapped. -/
theorem WorkerProgress.of_proc {worker' : WorkerPc} {m : Module} {proc : Proc}
    (hrecorded : Recorded s.shared) (hmapped : m ∈ s.shared.mapped) (hdrop : proc ≠ .patchDrop)
    (hworker : WorkerInv env s.shared.mapped (Settled env s) worker') :
    WorkerProgress env s worker' (procStep env s.shared m proc).2 :=
  ⟨procStep_extends env s.shared m hdrop, procStep_recorded hrecorded hmapped proc, hworker⟩

/-- Every step of the worker makes progress. -/
theorem worker_progress {worker' : WorkerPc} {after : Shared} (hrecorded : Recorded s.shared)
    (hinv : WorkerInv env s.shared.mapped (Settled env s) s.worker)
    (hidle : componentLoading s.componentLoads = false →
      ∀ m ∈ s.shared.mapped, Settled env s m)
    (h : s.worker.next env s.shared s.componentLoads = some (worker', after)) :
    WorkerProgress env s worker' after := by
  cases hworker : s.worker with
  | idle =>
    rw [hworker] at h
    simp only [WorkerPc.next] at h
    split at h
    · cases h
    · cases h
      exact .of_pc hrecorded fun m hm => by cases hm
  | pluginsListed ms =>
    rw [hworker] at h hinv
    cases h
    refine .of_pc hrecorded ?_
    intro m hm
    cases hloading : componentLoading s.componentLoads with
    | true =>
      rw [hloading] at hm
      cases hm
    | false =>
      rw [hloading] at hm
      obtain ⟨hmapped, hcomponent⟩ := hinv m hm
      exact ⟨hidle hloading m hmapped, hcomponent⟩
  | patching ms =>
    rw [hworker] at h hinv
    cases ms with
    | nil => cases h
    | cons m ms =>
      cases h
      exact .of_pc hrecorded ⟨Proc.noConfusion, hinv⟩
  | patchingOne m proc ms =>
    rw [hworker] at h hinv
    obtain ⟨hdrop, hlisted⟩ := hinv
    have hmapped := (hlisted m List.mem_cons_self).1.1
    simp only [WorkerPc.next] at h
    split at h
    · cases h
      exact .of_pc hrecorded fun k hk => hlisted k (List.mem_cons_of_mem m hk)
    · cases h
      exact .of_proc hrecorded hmapped hdrop ⟨procStep_ne_patchDrop hmapped proc, hlisted⟩
  | recordingAll ms =>
    rw [hworker] at h hinv
    cases ms with
    | nil =>
      cases h
      exact .of_pc hrecorded fun m hm => hrecorded m (isSome_find.mpr hm)
    | cons m ms =>
      cases h
      exact .of_pc hrecorded ⟨Proc.noConfusion, hinv⟩
  | recordingOne m proc ms =>
    rw [hworker] at h hinv
    obtain ⟨hdrop, hlisted⟩ := hinv
    have hmapped := hlisted m List.mem_cons_self
    simp only [WorkerPc.next] at h
    split at h
    · cases h
      exact .of_pc hrecorded fun k hk => hlisted k (List.mem_cons_of_mem m hk)
    · cases h
      exact .of_proc hrecorded hmapped hdrop ⟨procStep_ne_patchDrop hmapped proc, hlisted⟩
  | runtimesListed ms =>
    rw [hworker] at h hinv
    cases h
    exact .of_pc hrecorded fun hfree m hm => hidle hfree m (hinv m hm)
  | inspecting loading ms =>
    rw [hworker] at h hinv
    cases ms with
    | nil =>
      cases h
      exact .of_pc hrecorded trivial
    | cons m ms =>
      simp only [WorkerPc.next] at h
      split at h
      · rename_i hready
        simp only [Bool.and_eq_true, Bool.not_eq_true'] at hready
        cases h
        exact .of_pc hrecorded ⟨Proc.noConfusion, hready.1, hinv hready.2⟩
      · cases h
        exact .of_pc hrecorded fun hfree k hk => hinv hfree k (List.mem_cons_of_mem m hk)
  | unlocking m proc ms =>
    rw [hworker] at h hinv
    obtain ⟨hdrop, hprovider, hlisted⟩ := hinv
    have hmapped := (hlisted m List.mem_cons_self).1
    simp only [WorkerPc.next] at h
    split at h
    · cases h
      exact .of_pc hrecorded fun _ k hk => hlisted k (List.mem_cons_of_mem m hk)
    · cases h
      exact .of_proc hrecorded hmapped hdrop
        ⟨procStep_ne_patchDrop hmapped proc, hprovider, hlisted⟩

/-- Replacing one load changes the number of counted loads by its own share. -/
theorem countP_calls_set {calls : List Call} {c : ℕ} {call : Call} (call' : Call)
    (hcall : calls[c]? = some call) :
    (calls.set c call').countP inFlight + (inFlight call).toNat =
      calls.countP inFlight + (inFlight call').toNat := by
  obtain ⟨hlt, hget⟩ := List.getElem?_eq_some_iff.mp hcall
  have hshare : (inFlight call).toNat ≤ calls.countP inFlight := by
    cases hflight : inFlight call with
    | false => exact Nat.zero_le _
    | true => exact List.countP_pos_iff.mpr ⟨call, List.mem_of_getElem? hcall, hflight⟩
  have hone : ∀ b : Bool, (if b = true then 1 else 0) = b.toNat := by
    intro b
    cases b <;> rfl
  rw [List.countP_set hlt, hget, hone, hone]
  omega

/-- A load's step changes the count by its own share. -/
theorem countAfter_next {call call' : Call} {shared after : Shared} {n : ℕ}
    (hn : (inFlight call).toNat ≤ n) (h : call.next env shared = some (call', after)) :
    countAfter n call.pc + (inFlight call).toNat = n + (inFlight call').toNat := by
  unfold Call.next at h
  cases hpc : call.pc with
  | leaving handle =>
    simp only [hpc, Option.some.injEq, Prod.mk.injEq] at h
    obtain ⟨rfl, rfl⟩ := h
    simp only [inFlight, hpc, Bool.toNat_true] at hn
    simp only [countAfter, inFlight, hpc, Bool.toNat_true, Bool.toNat_false]
    omega
  | loaded m =>
    simp only [hpc, Option.some.injEq, Prod.mk.injEq] at h
    obtain ⟨rfl, rfl⟩ := h
    have hflight : inFlight { call with pc := prepare env call.component m } = true := by
      unfold prepare
      cases call.component with
      | runtime => cases env.isDlssgProvider m <;> rfl
      | plugin =>
        dsimp only
        split <;> rfl
    rw [hflight]
    simp only [countAfter, inFlight, hpc]
  | recording m proc =>
    simp only [hpc] at h
    split at h <;> cases h <;> simp only [countAfter, inFlight, hpc]
  | preparing m proc =>
    simp only [hpc] at h
    split at h <;> cases h <;> simp only [countAfter, inFlight, hpc]
  | entered =>
    simp only [hpc] at h
    cases h
    simp only [countAfter, inFlight, hpc, Bool.toNat_false, Bool.toNat_true, Nat.add_zero]
  | mapped m =>
    simp only [hpc] at h
    cases h
    simp only [countAfter, inFlight, hpc]
  | loading =>
    rw [hpc] at h
    cases h
  | returned handle =>
    rw [hpc] at h
    cases h

/-- When no load is counted, every mapped image is settled. -/
theorem settled_of_not_loading (hinv : Inv env s)
    (hidle : componentLoading s.componentLoads = false) {m : Module}
    (hm : m ∈ s.shared.mapped) : Settled env s m := by
  refine ⟨hm, ?_⟩
  intro c hfirst
  obtain ⟨_, call, hcall, himage⟩ := hinv.first m c hfirst
  have hmem := List.mem_of_getElem? hcall
  have hzero : s.calls.countP inFlight = 0 := by
    rw [← hinv.counted]
    simpa [componentLoading] using hidle
  have hflight : inFlight call = false := by
    simpa using List.countP_eq_zero.mp hzero call hmem
  have hstage := (hinv.calls call hmem).stage
  unfold inFlight at hflight
  split at hflight
  · rename_i hpc
    rw [hpc] at himage
    cases himage
  · rename_i handle hpc
    rw [hpc] at himage hstage
    have hhandle : handle = some m := himage
    rw [hhandle] at hstage
    rcases hstage with hexempt | ⟨hattempted, _⟩
    · exact Or.inl hexempt
    · exact Or.inr ⟨call, hcall, hattempted⟩
  · cases hflight

/-- A new load changes nothing for the others. -/
theorem later_of_enter (component : Component) :
    Later env s { s with calls := s.calls ++ [⟨component, .entered, false⟩] } := by
  refine ⟨.refl env _, fun _ _ _ h => h, ?_⟩
  intro c call hcall
  have hlt := (List.getElem?_eq_some_iff.mp hcall).1
  refine ⟨call, ?_, id, fun _ h => h⟩
  rw [List.getElem?_append_left hlt]
  exact hcall

/-- Every step of the worker in a state that keeps the invariant. -/
theorem worker_step (hinv : Inv env s) {worker' : WorkerPc} {after : Shared}
    (h : s.worker.next env s.shared s.componentLoads = some (worker', after)) :
    WorkerProgress env s worker' after :=
  worker_progress hinv.recorded hinv.worker
    (fun hidle _ hm => settled_of_not_loading hinv hidle hm) h

/-- Every step leads to a later state. -/
theorem later_of_steps {a : Action} (hsupported : env.realArchitecture = .supported)
    (hinv : Inv env s) (h : Steps env s a t) : Later env s t := by
  have hsame : ∀ (c : ℕ) (call : Call), s.calls[c]? = some call → ∃ call' : Call,
      s.calls[c]? = some call' ∧ (call.attempted = true → call'.attempted = true) ∧
        ∀ m, call.pc.image = some m → call'.pc.image = some m :=
    fun c call hcall => ⟨call, hcall, id, fun _ hm => hm⟩
  cases h with
  | enter component => exact later_of_enter component
  | @map c m call hcall hpc hcomponent =>
    refine ⟨mapImage_extends env _ m, ?_, calls_set hcall id ?_⟩
    · intro k c' hk hfirst
      split at hfirst
      · exact hfirst
      · rename_i hnew
        rcases List.mem_cons.mp hfirst with heq | hold
        · cases heq
          exact absurd hk hnew
        · exact hold
    · intro k hk
      rw [hpc] at hk
      cases hk
  | fail hcall hpc =>
    refine ⟨.refl env _, fun _ _ _ hfirst => hfirst, calls_set hcall id ?_⟩
    intro k hk
    rw [hpc] at hk
    cases hk
  | mapElsewhere m => exact ⟨mapImage_extends env _ m, fun _ _ _ hfirst => hfirst, hsame⟩
  | call hcall hnext =>
    have hprogress :=
      progress_of_next hsupported (hinv.calls _ (List.mem_of_getElem? hcall)) hnext
    exact ⟨hprogress.extends_memory, fun _ _ _ hfirst => hfirst,
      calls_set hcall hprogress.attempted hprogress.image⟩
  | listPlugins hlisted => exact ⟨.refl env _, fun _ _ _ hfirst => hfirst, hsame⟩
  | listRuntimes hlisted => exact ⟨.refl env _, fun _ _ _ hfirst => hfirst, hsame⟩
  | worker hnext =>
    exact ⟨(worker_step hinv hnext).memory, fun _ _ _ hfirst => hfirst, hsame⟩

/-- What holds of every load is kept when one of them is replaced. -/
theorem callInv_set {after : Shared} {c : ℕ} {call' : Call} (hinv : Inv env s)
    (hgrow : Extends env s.shared after) (hcall' : CallInv env after call') :
    ∀ call ∈ s.calls.set c call', CallInv env after call := by
  intro call hcall
  rcases List.mem_or_eq_of_mem_set hcall with hold | rfl
  · exact (hinv.calls call hold).mono hgrow
  · exact hcall'

/-- The first load of each image still works on it. -/
theorem first_later (hinv : Inv env s) (hlater : Later env s t) {m : Module} {c : ℕ}
    (hfirst : (m, c) ∈ s.firstMapped) : m ∈ t.shared.mapped ∧
      ∃ call : Call, t.calls[c]? = some call ∧ call.pc.image = some m := by
  obtain ⟨hmapped, call, hcall, himage⟩ := hinv.first m c hfirst
  obtain ⟨call', hcall', _, hkeep⟩ := hlater.calls c call hcall
  exact ⟨hlater.memory.mapped m hmapped, call', hcall', hkeep m himage⟩

/-- Every step keeps what holds in every state. -/
theorem inv_step {a : Action} (hsupported : env.realArchitecture = .supported)
    (hinv : Inv env s) (h : Steps env s a t) : Inv env t := by
  have hlater := later_of_steps hsupported hinv h
  have hworker := hinv.worker.later hlater
  cases h with
  | enter component =>
    refine ⟨?_, ?_, hinv.recorded, fun m c hfirst => first_later hinv hlater hfirst, hworker⟩
    · intro call hcall
      rcases List.mem_append.mp hcall with hold | hnew
      · exact hinv.calls call hold
      · rw [List.mem_singleton.mp hnew]
        exact ⟨fun m hm => (by cases hm), trivial⟩
    · have hzero : List.countP inFlight [(⟨component, .entered, false⟩ : Call)] = 0 := rfl
      rw [List.countP_append, hzero]
      exact hinv.counted
  | @map c m call hcall hpc hcomponent =>
    have hflight : inFlight call = true := by simp [inFlight, hpc]
    have hcount := countP_calls_set { call with pc := .mapped m } hcall
    have hmapped : CallInv env (mapImage s.shared m) { call with pc := .mapped m } :=
      ⟨fun k hk => by
        cases hk
        exact ⟨List.mem_cons_self, hcomponent⟩, trivial⟩
    refine ⟨callInv_set hinv hlater.memory hmapped, ?_, ?_, ?_, hworker⟩
    · have hflight' : inFlight { call with pc := .mapped m } = true := rfl
      rw [hflight, hflight'] at hcount
      have hold := hinv.counted
      dsimp only
      omega
    · exact fun k hk => List.mem_cons_of_mem m (hinv.recorded k hk)
    · intro k c' hfirst
      have hnew : (k, c') = (m, c) ∨ (k, c') ∈ s.firstMapped := by
        split at hfirst
        · exact Or.inr hfirst
        · exact List.mem_cons.mp hfirst
      rcases hnew with heq | hold
      · cases heq
        have hlt := (List.getElem?_eq_some_iff.mp hcall).1
        exact ⟨List.mem_cons_self, _, List.getElem?_set_self hlt, rfl⟩
      · exact first_later hinv hlater hold
  | @fail c call hcall hpc =>
    have hflight : inFlight call = true := by simp [inFlight, hpc]
    have hcount := countP_calls_set { call with pc := .leaving none } hcall
    have hleaving : CallInv env s.shared { call with pc := .leaving none } :=
      ⟨fun k hk => (by cases hk), trivial⟩
    refine ⟨callInv_set hinv (.refl env _) hleaving, ?_, hinv.recorded,
      fun m c hfirst => first_later hinv hlater hfirst, hworker⟩
    have hflight' : inFlight { call with pc := .leaving none } = true := rfl
    rw [hflight, hflight'] at hcount
    have hold := hinv.counted
    dsimp only
    omega
  | mapElsewhere m =>
    exact ⟨fun call hcall => (hinv.calls call hcall).mono hlater.memory, hinv.counted,
      fun k hk => List.mem_cons_of_mem m (hinv.recorded k hk),
      fun m c hfirst => first_later hinv hlater hfirst, hworker⟩
  | @call c call call' after hcall hnext =>
    have hmem := List.mem_of_getElem? hcall
    have hprogress := progress_of_next hsupported (hinv.calls call hmem) hnext
    have hrecorded := recorded_next hinv.recorded (hinv.calls call hmem) hnext
    refine ⟨callInv_set hinv hlater.memory hprogress.inv, ?_, hrecorded,
      fun m c hfirst => first_later hinv hlater hfirst, hworker⟩
    · have hcount := countP_calls_set call' hcall
      have hold := hinv.counted
      have hshare : (inFlight call).toNat ≤ s.componentLoads := by
        rw [hold]
        cases hflight : inFlight call with
        | false => exact Nat.zero_le _
        | true => exact List.countP_pos_iff.mpr ⟨call, hmem, hflight⟩
      have hafter := countAfter_next hshare hnext
      dsimp only
      omega
  | listPlugins hlisted =>
    exact ⟨hinv.calls, hinv.counted, hinv.recorded, hinv.first, hlisted⟩
  | listRuntimes hlisted =>
    exact ⟨hinv.calls, hinv.counted, hinv.recorded, hinv.first,
      fun m hm => (hlisted m hm).1⟩
  | @worker worker' after hnext =>
    have hprogress := worker_step hinv hnext
    exact ⟨fun call hcall => (hinv.calls call hcall).mono hprogress.memory, hinv.counted,
      hprogress.recorded, fun m c hfirst => first_later hinv hlater hfirst,
      hprogress.worker.later hlater⟩

end Steps

/-- What holds in every state of every run. -/
theorem inv_reachable {env : Environment} (hsupported : env.realArchitecture = .supported)
    {condition : State → Action → Prop} {s : State}
    (hreach : (loader env).ReachableUnder condition s) : Inv env s := by
  apply hreach.invariant (Inv env)
  · rintro s rfl
    exact ⟨fun call hcall => (by cases hcall), rfl, fun m hm => (by cases hm),
      fun m c hfirst => (by cases hfirst), trivial⟩
  · intro s a t hinv _ hstep
    exact inv_step hsupported hinv (steps_of_step hstep)

/-- Whoever the worker is busy with, the load that first mapped the image has
made its claim attempt. -/
theorem attempted_of_worker {env : Environment} {s : State} (hinv : Inv env s) {m : Module} {proc : Proc}
    {ms : List Module}
    (hworker : s.worker = .patchingOne m proc ms ∨ s.worker = .unlocking m proc ms) {c : ℕ}
    (hfirst : (m, c) ∈ s.firstMapped) :
    ∃ call : Call, s.calls[c]? = some call ∧ call.attempted = true := by
  have hworkerInv := hinv.worker
  rcases hworker with hworker | hworker
  · rw [hworker] at hworkerInv
    obtain ⟨hsettled, hcomponent⟩ := hworkerInv.2 m List.mem_cons_self
    rcases hsettled.2 c hfirst with hexempt | hcall
    · rw [Exempt, hcomponent] at hexempt
      cases hexempt.1
    · exact hcall
  · rw [hworker] at hworkerInv
    obtain ⟨_, hprovider, hlisted⟩ := hworkerInv
    rcases (hlisted m List.mem_cons_self).2 c hfirst with hexempt | hcall
    · rw [hexempt.2] at hprovider
      cases hprovider
    · exact hcall

/-- The worker's next step is an attempt to claim the image, the only step that
can claim it: the record of `PatchPlugin` or `ClaimGates`. -/
def WorkerAttempts (s : State) (m : Module) : Prop :=
  ∃ ms, s.worker = .patchingOne m .patchClaim ms ∨ s.worker = .unlocking m .gatesClaim ms

/-- The worker makes no claim of an image, nor attempts one, before the load
that first mapped the image has made its own attempt. -/
theorem worker_never_first (env : Environment) (hsupported : env.realArchitecture = .supported)
    {s : State} (hreach : (loader env).Reachable s) {m : Module} {c : ℕ}
    (hattempts : WorkerAttempts s m) (hfirst : (m, c) ∈ s.firstMapped) :
    ∃ call : Call, s.calls[c]? = some call ∧ call.attempted = true := by
  obtain ⟨ms, hworker⟩ := hattempts
  have hinv := inv_reachable hsupported hreach
  rcases hworker with hworker | hworker
  · exact attempted_of_worker hinv (Or.inl hworker) hfirst
  · exact attempted_of_worker hinv (Or.inr hworker) hfirst

/-- A GPU this engine enables, with every patch on; odd handles are plugins. -/
def supportedGpu : Environment where
  component m := if m % 2 = 1 then .plugin else .runtime
  isDlssgProvider _ := true
  realArchitecture := .supported
  flipEnabled := true
  clampEnabled := true
  multiFrameEnabled := true
  flipWrites _ := 1
  clampWrites _ := 1
  gateWrites _ := 2

/-- The state after some steps, when all of them are enabled. -/
def after (env : Environment) (actions : List Action) : Option State :=
  (loader env).runUnder (fun _ _ => True) start actions

theorem reachable_after (env : Environment) (actions : List Action) {s : State}
    (h : after env actions = some s) : (loader env).Reachable s :=
  System.reachable_of_runUnder (.start rfl) h

/-- A load of the plugin has come and gone when the worker tries its image. -/
theorem worker_never_first_plugin :
    ∃ call : Call, (⟨⟨[1], [], [⟨1, true, true⟩]⟩, [(1, 0)], 0,
      [⟨.plugin, .returned (some 1), true⟩], .patchingOne 1 .patchClaim []⟩ :
        State).calls[0]? = some call ∧ call.attempted = true :=
  worker_never_first supportedGpu rfl
    (reachable_after supportedGpu [.enter .plugin, .call 0, .map 0 1, .call 0, .call 0, .call 0,
      .call 0, .call 0, .call 0, .call 0, .call 0, .call 0, .listPlugins [1], .worker, .worker]
      (by decide +kernel))
    ⟨[], Or.inl rfl⟩ List.mem_cons_self

end OpenDlssg.WorkerOrder
