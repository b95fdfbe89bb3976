import OpenDlssg.WorkerOrder

/-!
# A component is handed over when it is patched

The writes of a load are outstanding from its claim until they are made. A load
that wins the claim makes them before it returns. A load that loses it returns
without waiting for the winner, so a second load of the same file can hand the
image out half patched. When no load attempts a claim of an image while another
load's writes to it are outstanding, every load that returns an image returns
it with no write outstanding.
-/

namespace OpenDlssg.LoadCompletion

open RecordTable ComponentClaims TransitionRuns LoaderInterleaving LoadProgress WorkerOrder

/-- The writes a load has claimed and not yet made to an image. Loads claim at
load; the worker's writes are not among them. -/
def callOutstanding (env : Environment) (call : Call) (m : Module) : ℕ :=
  match call.pc with
  | .preparing k proc => if k = m then proc.outstanding env m else 0
  | _ => 0

/-- Some load has writes to the image outstanding. -/
def Outstanding (env : Environment) (s : State) (m : Module) : Prop :=
  ∃ call ∈ s.calls, 0 < callOutstanding env call m

/-- The load's next step is its attempt to claim the image. -/
def Attempts (call : Call) (m : Module) : Prop :=
  ∃ proc : Proc, call.pc = .preparing m proc ∧ proc.isClaim = true

/-- No load attempts to claim an image while another load's writes to it are
outstanding. -/
def NoAttemptDuringWrites (env : Environment) (s : State) (a : Action) : Prop :=
  ∀ (c : ℕ) (call : Call) (m : Module), a = .call c → s.calls[c]? = some call →
    Attempts call m → ∀ (i : ℕ) (other : Call), i ≠ c → s.calls[i]? = some other →
      callOutstanding env other m = 0

/-- The load has made its claim attempt, or needs none. -/
def Past (call : Call) (m : Module) : Prop :=
  match call.pc with
  | .preparing k proc => k = m ∧ proc.isClaim = false ∧ proc ≠ .gatesKnown
  | .leaving handle => handle = some m
  | .returned handle => handle = some m
  | _ => False

/-- A load that is past its claim attempt has no other load writing to its
image. -/
def Alone (env : Environment) (s : State) : Prop :=
  ∀ (c : ℕ) (call : Call) (m : Module), s.calls[c]? = some call → Past call m →
    ∀ (i : ℕ) (other : Call), i ≠ c → s.calls[i]? = some other → callOutstanding env other m = 0

section Loads

variable {env : Environment} {shared after : Shared} {call call' : Call} {m : Module}

/-- A load that is past its attempt works on an image that nobody claims or
that is claimed. -/
theorem through_of_past (hinv : CallInv env shared call) (h : Past call m) :
    Through env shared call m := by
  have hstage := hinv.stage
  unfold Past at h
  split at h
  · rename_i k proc hpc
    rw [hpc] at hstage
    obtain ⟨rfl, hclaim, hknown⟩ := h
    have hphase := hstage.2
    cases proc with
    | patchClaim => cases hclaim
    | gatesClaim => cases hclaim
    | gatesKnown => exact absurd rfl hknown
    | patchPin flip clamp => exact Or.inr hphase
    | write n => exact Or.inr hphase
    | done => exact Or.inr hphase
    | _ => exact hphase.elim
  · rename_i handle hpc
    rw [hpc, h] at hstage
    exact hstage
  · rename_i handle hpc
    rw [hpc, h] at hstage
    exact hstage
  · exact h.elim

/-- A load with writes outstanding works on an image that is claimed. -/
theorem not_exempt_of_outstanding (hinv : CallInv env shared call)
    (h : 0 < callOutstanding env call m) : ¬Exempt env m := by
  have hstage := hinv.stage
  unfold callOutstanding at h
  split at h
  · rename_i k proc hpc
    rw [hpc] at hstage
    split at h
    · rename_i hk
      rw [← hk]
      exact hstage.1
    · cases h
  · cases h

/-- A load with writes outstanding has claimed its image. -/
theorem claimed_of_outstanding (hinv : CallInv env shared call)
    (h : 0 < callOutstanding env call m) : Claimed env shared m := by
  have hstage := hinv.stage
  unfold callOutstanding at h
  split at h
  · rename_i k proc hpc
    rw [hpc] at hstage
    split at h
    · rename_i hk
      rw [hk] at hstage
      cases proc with
      | patchPin flip clamp => exact hstage.2.2
      | write n => exact hstage.2.2
      | _ => cases h
    · cases h
  · cases h

/-- A procedure has writes outstanding after a step only if it had before, or
by a claim that found the image free. -/
theorem procStep_outstanding {proc : Proc} {attempted : Bool}
    (hsupported : env.realArchitecture = .supported)
    (hphase : PreparePhase env shared attempted m proc)
    (h : 0 < (procStep env shared m proc).1.outstanding env m) :
    0 < proc.outstanding env m ∨ (proc.isClaim = true ∧ ¬Claimed env shared m) := by
  cases proc with
  | patchClaim =>
    right
    have hplugin : env.component m = .plugin := hphase
    simp only [procStep] at h
    split at h
    · rename_i hwin
      refine ⟨rfl, ?_⟩
      rw [Claimed, hplugin]
      exact claimPatches_fst hwin
    · cases h
  | patchPin flip clamp =>
    left
    simp only [procStep] at h
    split at h
    · exact h
    · cases h
  | gatesKnown =>
    simp only [procStep] at h
    split at h <;> cases h
  | gatesClaim =>
    right
    have hruntime : env.component m = .runtime := hphase.1
    simp only [procStep, hsupported] at h
    split at h
    · rename_i hwin
      refine ⟨rfl, ?_⟩
      rw [Claimed, hruntime]
      exact (claimGates_fst.mp hwin).2
    · cases h
  | write n =>
    cases n with
    | zero => cases h
    | succ n => exact Or.inl (Nat.succ_pos n)
  | done => cases h
  | _ => exact hphase.elim

/-- A procedure gets past the claim attempt only by making it. -/
theorem procStep_past {proc : Proc} {attempted : Bool}
    (hphase : PreparePhase env shared attempted m proc)
    (hclaim : (procStep env shared m proc).1.isClaim = false) :
    proc.isClaim = true ∨ (proc.isClaim = false ∧ proc ≠ .gatesKnown) := by
  cases proc with
  | patchClaim => exact Or.inl rfl
  | gatesClaim => exact Or.inl rfl
  | gatesKnown =>
    have hknown : shared.known m = true := hphase.2
    simp only [procStep, hknown, if_true] at hclaim
    cases hclaim
  | _ => exact Or.inr ⟨rfl, Proc.noConfusion⟩

/-- Writes come up outstanding only from a claim that finds the image free. -/
theorem outstanding_next (hsupported : env.realArchitecture = .supported)
    (hinv : CallInv env shared call) (h : call.next env shared = some (call', after))
    (hout : 0 < callOutstanding env call' m) :
    0 < callOutstanding env call m ∨ (Attempts call m ∧ ¬Claimed env shared m) := by
  have hstage := hinv.stage
  unfold Call.next at h
  split at h
  · cases h
    cases hout
  · cases h
  · cases h
    cases hout
  · rename_i k hpc
    cases h
    exfalso
    unfold callOutstanding prepare at hout
    dsimp only at hout
    cases hkind : call.component with
    | runtime =>
      rw [hkind] at hout
      cases hprovider : env.isDlssgProvider k <;> simp [hprovider] at hout
    | plugin =>
      rw [hkind] at hout
      simp [hsupported, Proc.outstanding] at hout
  · rename_i k proc hpc
    split at h
    · cases h
      simp [callOutstanding, Proc.outstanding] at hout
    · cases h
      cases hout
  · rename_i k proc hpc
    rw [hpc] at hstage
    split at h
    · cases h
      cases hout
    · cases h
      simp only [callOutstanding] at hout
      split at hout
      · rename_i hk
        subst hk
        rcases procStep_outstanding hsupported hstage.2 hout with hbefore | ⟨hclaim, hfree⟩
        · left
          simp only [callOutstanding, hpc, if_true]
          exact hbefore
        · exact Or.inr ⟨⟨proc, hpc, hclaim⟩, hfree⟩
      · cases hout
  · cases h
    cases hout
  · cases h

/-- A load gets past its attempt only by making it, or by finding an image that
nobody claims. -/
theorem past_next (hsupported : env.realArchitecture = .supported)
    (hinv : CallInv env shared call) (h : call.next env shared = some (call', after))
    (hpast : Past call' m) : Past call m ∨ Attempts call m ∨ Exempt env m := by
  have hstage := hinv.stage
  have himage := hinv.image_mapped
  unfold Call.next at h
  split at h
  · cases h
    exact hpast.elim
  · cases h
  · cases h
    exact hpast.elim
  · rename_i k hpc
    cases h
    have hcomponent := (himage k (by rw [hpc]; rfl)).2
    unfold Past prepare at hpast
    dsimp only at hpast
    cases hkind : call.component with
    | runtime =>
      rw [hkind] at hpast hcomponent
      cases hprovider : env.isDlssgProvider k with
      | true =>
        simp [hprovider] at hpast
      | false =>
        simp only [hprovider, Bool.false_eq_true, if_false, Option.some.injEq] at hpast
        subst hpast
        exact Or.inr (Or.inr ⟨hcomponent, hprovider⟩)
    | plugin =>
      rw [hkind] at hpast
      simp [hsupported, Proc.isClaim] at hpast
  · rename_i k proc hpc
    split at h
    · cases h
      exact absurd rfl hpast.2.2
    · cases h
      exact hpast.elim
  · rename_i k proc hpc
    rw [hpc] at hstage
    split at h
    · rename_i hdone
      cases h
      have hk : k = m := Option.some.inj hpast
      left
      simp only [Past, hpc, hdone]
      exact ⟨hk, rfl, Proc.noConfusion⟩
    · cases h
      obtain ⟨hk, hclaim, _⟩ := hpast
      subst hk
      rcases procStep_past hstage.2 hclaim with hattempt | ⟨hnot, hknown⟩
      · exact Or.inr (Or.inl ⟨proc, hpc, hattempt⟩)
      · left
        unfold Past
        rw [hpc]
        exact ⟨rfl, hnot, hknown⟩
  · rename_i handle hpc
    cases h
    left
    simp only [Past, hpc]
    exact hpast
  · cases h

end Loads

/-! ### Every step keeps the loads apart -/

section Steps

variable {env : Environment} {s t : State}

/-- A replaced load, or one that was there before. -/
theorem getElem?_calls_set {calls : List Call} {c i : ℕ} {call' other : Call}
    (h : (calls.set c call')[i]? = some other) :
    (i = c ∧ other = call') ∨ (i ≠ c ∧ calls[i]? = some other) := by
  rw [List.getElem?_set] at h
  split at h
  · rename_i hi
    split at h
    · exact Or.inl ⟨hi.symm, (Option.some.inj h).symm⟩
    · cases h
  · rename_i hi
    exact Or.inr ⟨fun heq => hi heq.symm, h⟩

/-- Replacing a load keeps the loads apart when the new stage is past only if
nobody else writes, and writes only if nobody else is past. -/
theorem alone_set {c : ℕ} {call' : Call} {calls : List Call} (halone : Alone env s)
    (hcalls : calls = s.calls.set c call')
    (hpast : ∀ m, Past call' m → ∀ (i : ℕ) (other : Call), i ≠ c → s.calls[i]? = some other →
      callOutstanding env other m = 0)
    (hwrites : ∀ m, 0 < callOutstanding env call' m → ∀ (i : ℕ) (other : Call), i ≠ c →
      s.calls[i]? = some other → ¬Past other m) :
    ∀ (i : ℕ) (call : Call) (m : Module), calls[i]? = some call → Past call m →
      ∀ (j : ℕ) (other : Call), j ≠ i → calls[j]? = some other →
        callOutstanding env other m = 0 := by
  subst hcalls
  intro i call m hcall hcallPast j other hj hother
  rcases getElem?_calls_set hcall with ⟨rfl, rfl⟩ | ⟨hi, hold⟩
  · rcases getElem?_calls_set hother with ⟨heq, _⟩ | ⟨_, hoold⟩
    · exact absurd heq hj
    · exact hpast m hcallPast j other hj hoold
  · rcases getElem?_calls_set hother with ⟨rfl, rfl⟩ | ⟨_, hoold⟩
    · by_contra hne
      exact hwrites m (Nat.pos_of_ne_zero hne) i call hi hold hcallPast
    · exact halone i call m hold hcallPast j other hj hoold

/-- Every step under the condition keeps the loads apart. -/
theorem alone_step {a : Action} (hsupported : env.realArchitecture = .supported)
    (hinv : Inv env s) (halone : Alone env s) (hcondition : NoAttemptDuringWrites env s a)
    (h : Steps env s a t) : Alone env t := by
  cases h with
  | enter component =>
    intro i call m hcall hpast j other hj hother
    have hold : ∀ {k : ℕ} {x : Call}, (s.calls ++ [⟨component, .entered, false⟩])[k]? = some x →
        s.calls[k]? = some x ∨ x.pc = .entered := by
      intro k x hx
      rw [List.getElem?_append] at hx
      split at hx
      · exact Or.inl hx
      · have hmem := List.mem_of_getElem? hx
        rw [List.mem_singleton.mp hmem]
        exact Or.inr rfl
    rcases hold hcall with hcall | hnew
    · rcases hold hother with hother | hnew
      · exact halone i call m hcall hpast j other hj hother
      · simp only [callOutstanding, hnew]
    · simp only [Past, hnew] at hpast
  | @map c m call hcall hpc hcomponent =>
    exact alone_set halone rfl (fun _ hpast => hpast.elim) (fun _ hout => by cases hout)
  | @fail c call hcall hpc =>
    exact alone_set halone rfl (fun _ hpast => by cases hpast) (fun _ hout => by cases hout)
  | mapElsewhere m => exact halone
  | @call c call call' after hcall hnext =>
    have hcallInv := hinv.calls call (List.mem_of_getElem? hcall)
    refine alone_set halone rfl ?_ ?_
    · intro m hpast i other hi hother
      rcases past_next hsupported hcallInv hnext hpast with hbefore | hattempts | hexempt
      · exact halone c call m hcall hbefore i other hi hother
      · exact hcondition c call m rfl hcall hattempts i other hi hother
      · by_contra hne
        have hotherInv := hinv.calls other (List.mem_of_getElem? hother)
        exact not_exempt_of_outstanding hotherInv (Nat.pos_of_ne_zero hne) hexempt
    · intro m hout i other hi hother hpast
      have hotherInv := hinv.calls other (List.mem_of_getElem? hother)
      rcases outstanding_next hsupported hcallInv hnext hout with hbefore | ⟨⟨proc, hpc, _⟩, hfree⟩
      · have hzero := halone i other m hother hpast c call (fun heq => hi heq.symm) hcall
        omega
      · rcases through_of_past hotherInv hpast with hexempt | ⟨_, hclaimed⟩
        · have hstage := hcallInv.stage
          rw [hpc] at hstage
          exact hstage.1 hexempt
        · exact hfree hclaimed
  | listPlugins hlisted => exact halone
  | listRuntimes hlisted => exact halone
  | worker hnext => exact halone

end Steps

/-- When no load attempts a claim of an image while another load's writes to it
are outstanding, a load returns an image only with no load's writes to it
outstanding. -/
theorem returned_patched (env : Environment) (hsupported : env.realArchitecture = .supported)
    {s : State} (hreach : (loader env).ReachableUnder (NoAttemptDuringWrites env) s) {c : ℕ}
    {call : Call} {m : Module} (hcall : s.calls[c]? = some call)
    (hreturned : call.pc = .returned (some m)) : ¬Outstanding env s m := by
  have halone : Alone env s := by
    apply hreach.invariant_with (Inv env) (Alone env) (fun _ h => inv_reachable hsupported h)
    · rintro s rfl i call k hcall
      cases hcall
    · intro s a t hinv halone hcondition hstep
      exact alone_step hsupported hinv halone hcondition (steps_of_step hstep)
  rintro ⟨other, hother, hout⟩
  obtain ⟨j, hlt, hget⟩ := List.getElem_of_mem hother
  have hj : s.calls[j]? = some other := List.getElem?_eq_some_iff.mpr ⟨hlt, hget⟩
  have hpast : Past call m := by
    unfold Past
    rw [hreturned]
  by_cases hsame : j = c
  · subst hsame
    rw [hcall, Option.some.injEq] at hj
    rw [← hj, callOutstanding, hreturned] at hout
    cases hout
  · have hzero := halone c call m hcall hpast j other hsame hj
    omega

/-- A procedure that attempts to claim a claimed image is done. -/
theorem procStep_of_claimed {env : Environment} {shared : Shared} {m : Module} {proc : Proc}
    {attempted : Bool} (hphase : PreparePhase env shared attempted m proc)
    (hclaim : proc.isClaim = true) (hclaimed : Claimed env shared m) :
    (procStep env shared m proc).1 = .done := by
  cases proc with
  | patchClaim =>
    have hplugin : env.component m = .plugin := hphase
    rw [Claimed, hplugin] at hclaimed
    have hlost : ((shared.claimPatches env m).1.1 || (shared.claimPatches env m).1.2) ≠ true :=
      fun hwin => claimPatches_fst hwin hclaimed
    simp only [procStep, if_neg hlost]
  | gatesClaim =>
    have hruntime : env.component m = .runtime := hphase.1
    rw [Claimed, hruntime] at hclaimed
    have hlost : (shared.claimGates m).1 ≠ true := fun hwin => (claimGates_fst.mp hwin).2 hclaimed
    unfold procStep
    cases env.realArchitecture with
    | supported => simp only [if_neg hlost]
    | unknown => rfl
    | notNeeded => rfl
  | _ => cases hclaim

/-- A step of a load, as a step of a run. -/
theorem reachable_call {env : Environment} {s : State} (hreach : (loader env).Reachable s) {c : ℕ}
    {call call' : Call} {shared : Shared} (hcall : s.calls[c]? = some call)
    (hnext : call.next env s.shared = some (call', shared)) :
    (loader env).Reachable
      { s with
        shared := shared
        componentLoads := countAfter s.componentLoads call.pc
        calls := s.calls.set c call' } := by
  have hstep : (loader env).step s (.call c) =
      some
        { s with
          shared := shared
          componentLoads := countAfter s.componentLoads call.pc
          calls := s.calls.set c call' } := by
    simp only [loader, step, hcall, Option.bind_some, hnext, Option.map_some]
  exact .next hreach trivial hstep

/-- A load that attempts a claim while another load's writes are outstanding
can return before they are made: no run that breaks the condition is safe. -/
theorem race_returns_first {env : Environment} (hsupported : env.realArchitecture = .supported)
    {s : State} (hreach : (loader env).Reachable s) {c i : ℕ} {call other : Call} {m : Module}
    (hcall : s.calls[c]? = some call) (hattempts : Attempts call m) (hi : i ≠ c)
    (hother : s.calls[i]? = some other) (hout : 0 < callOutstanding env other m) :
    ∃ t, (loader env).Reachable t ∧ Outstanding env t m ∧
      ∃ call' : Call, t.calls[c]? = some call' ∧ call'.pc = .returned (some m) := by
  have hinv := inv_reachable hsupported hreach
  have hclaimed := claimed_of_outstanding (hinv.calls other (List.mem_of_getElem? hother)) hout
  have hstage := (hinv.calls call (List.mem_of_getElem? hcall)).stage
  obtain ⟨proc, hpc, hclaim⟩ := hattempts
  rw [hpc] at hstage
  have hdone := procStep_of_claimed hstage.2 hclaim hclaimed
  have hproc : proc ≠ .done := by
    rintro rfl
    cases hclaim
  have hlt := (List.getElem?_eq_some_iff.mp hcall).1
  -- the attempt is lost, the preparation is over, the load returns
  have hlost : call.next env s.shared = some
      ({ call with pc := .preparing m .done, attempted := true },
        (procStep env s.shared m proc).2) := by
    simp only [Call.next, hpc, if_neg hproc, hdone, hclaim, Bool.or_true]
  have hreach := reachable_call hreach hcall hlost
  have hget := List.getElem?_set_self (a := { call with pc := .preparing m .done, attempted := true }) hlt
  have hreach := reachable_call hreach hget rfl
  rw [List.set_set] at hreach
  have hget := List.getElem?_set_self
    (a := { call with pc := .leaving (some m), attempted := true }) hlt
  have hreach := reachable_call hreach hget rfl
  rw [List.set_set] at hreach
  have hstays : (s.calls.set c { call with pc := .returned (some m), attempted := true })[i]? =
      some other := by
    rw [List.getElem?_set_ne hi.symm]
    exact hother
  exact ⟨_, hreach, ⟨other, List.mem_of_getElem? hstays, hout⟩, _, List.getElem?_set_self hlt, rfl⟩

/-- With one load there is no other load to race. -/
theorem noAttemptDuringWrites_of_one (env : Environment) {s : State} (a : Action)
    (h : s.calls.length ≤ 1) : NoAttemptDuringWrites env s a := by
  intro c call m _ hcall _ i other hi hother
  have hc := (List.getElem?_eq_some_iff.mp hcall).1
  have hi' := (List.getElem?_eq_some_iff.mp hother).1
  omega

/-- A load of the plugin that patches it and returns it. -/
def patchedState : State :=
  ⟨⟨[1], [], [⟨1, true, true⟩]⟩, [(1, 0)], 0, [⟨.plugin, .returned (some 1), true⟩], .idle⟩

theorem returned_patched_plugin : ¬Outstanding supportedGpu patchedState 1 := by
  have hrun : (loader supportedGpu).runUnder (fun s _ => s.calls.length ≤ 1) start
      [.enter .plugin, .call 0, .map 0 1, .call 0, .call 0, .call 0, .call 0, .call 0, .call 0,
        .call 0, .call 0, .call 0] = some patchedState := by
    decide +kernel
  have hreach := System.reachable_of_runUnder (.start rfl) hrun
  exact returned_patched supportedGpu rfl
    (hreach.mono fun s a h => noAttemptDuringWrites_of_one supportedGpu a h)
    (show patchedState.calls[0]? = some ⟨.plugin, .returned (some 1), true⟩ from rfl) rfl

/-- Two loads of the same plugin: the second loses the claim and returns while
the first has its writes still to make. -/
def racedState : State :=
  ⟨⟨[1, 1], [], [⟨1, true, true⟩]⟩, [(1, 0)], 1,
    [⟨.plugin, .preparing 1 (.patchPin true true), true⟩, ⟨.plugin, .returned (some 1), true⟩],
    .idle⟩

theorem second_load_returns_first : (loader supportedGpu).Reachable racedState ∧
    (∃ call ∈ racedState.calls, call.pc = .returned (some 1)) ∧
    Outstanding supportedGpu racedState 1 := by
  have hreach : (loader supportedGpu).Reachable racedState :=
    reachable_after supportedGpu [.enter .plugin, .enter .plugin, .call 0, .call 1, .map 0 1,
      .map 1 1, .call 0, .call 1, .call 0, .call 1, .call 0, .call 1, .call 1, .call 1]
      (by decide +kernel)
  refine ⟨hreach, ⟨_, List.mem_cons_of_mem _ List.mem_cons_self, rfl⟩, ?_⟩
  exact ⟨_, List.mem_cons_self, by decide +kernel⟩

end OpenDlssg.LoadCompletion
