import OpenDlssg.ComponentClaims
import OpenDlssg.TransitionRuns

/-!
# Exclusive claims under failing pins

Any number of calls that record a runtime, claim its gates or patch a plugin
run at once, each taking the steps between two acquisitions of a lock at its
own time, with pins that may fail. A patch of a plugin belongs to the one call
that holds its record: the call that claimed it and neither returned with
nothing to do nor dropped it after a failed pin.
-/

namespace OpenDlssg.ExclusiveClaims

open RecordTable ComponentClaims TransitionRuns

/-! ### The calls -/

/-- Where a call of `RecordRuntime` is. -/
inductive RecordPc
  /-- before it looks the module up -/
  | check
  | pin
  /-- pinned, and about to look it up again -/
  | insert
  | returned (new : Bool)
  deriving DecidableEq

/-- Where a call of `ClaimGates` is. -/
inductive GatesPc
  | claim
  | returned (won : Bool)
  deriving DecidableEq

/-- Where a call of `PatchPlugin` is. -/
inductive PatchPc
  | claim
  /-- claimed these patches -/
  | pin (flip clamp : Bool)
  /-- the pin failed, and the record is dropped next -/
  | drop
  /-- pinned, and flip metering is patched next -/
  | writeFlip (flip clamp : Bool)
  /-- the frame clamp is patched next -/
  | writeClamp (clamp : Bool)
  /-- returned with nothing to do -/
  | idle
  /-- returned without a pin -/
  | unpinned
  /-- returned after patching -/
  | patched
  deriving DecidableEq

/-- A call, with the module it is made for. -/
inductive Call
  | recordRuntime (module : Module) (pc : RecordPc)
  | claimGates (module : Module) (pc : GatesPc)
  | patchPlugin (module : Module) (pc : PatchPc)
  deriving DecidableEq

/-- The two patches of a plugin. -/
inductive Patch
  | flipMetering
  | frameClamp
  deriving DecidableEq

/-- A patch written into a plugin by a call. -/
structure Write where
  call : ℕ
  module : Module
  patch : Patch
  deriving DecidableEq

/-- What was written where. -/
def Write.site (w : Write) : Module × Patch := (w.module, w.patch)

/-- The calls made so far, the tables they share, and what they have done to
the process: the modules pinned and the patches written, in order. -/
structure State where
  shared : Shared := ⟨[], [], []⟩
  calls : ℕ → Option Call := fun _ => none
  pinned : List Module := []
  written : List Write := []

/-- A new call is made, or a call takes its next step, its pin, if that is one,
succeeding or not. -/
inductive Action
  | make (i : ℕ) (call : Call)
  | advance (i : ℕ) (pins : Bool)

/-- A call that has not taken a step. -/
def Call.fresh : Call → Bool
  | .recordRuntime _ pc => pc = .check
  | .claimGates _ pc => pc = .claim
  | .patchPlugin _ pc => pc = .claim

/-- The source's `RecordRuntime`; the null module is no runtime. -/
def recordStep (shared : Shared) (m : Module) (pins : Bool) : RecordPc → Option (RecordPc × Shared)
  | .check => some (if m = 0 ∨ shared.known m = true then .returned false else .pin, shared)
  | .pin => some (if pins then .insert else .returned false, shared)
  | .insert => some (.returned !(shared.known m), shared.insertRuntime m)
  | .returned _ => none

/-- The source's `ClaimGates`. -/
def gatesStep (shared : Shared) (m : Module) : GatesPc → Option (GatesPc × Shared)
  | .claim => some (.returned (shared.claimGates m).1, (shared.claimGates m).2)
  | .returned _ => none

/-- The claim of the source's `PatchPlugin`; the null module is no plugin. -/
def claimStep (env : Environment) (shared : Shared) (m : Module) : PatchPc × Shared :=
  if m = 0 then (.idle, shared)
  else
    let claimed := shared.claimPatches env m
    (if claimed.1.1 || claimed.1.2 then .pin claimed.1.1 claimed.1.2 else .idle, claimed.2)

/-- The source's `PatchPlugin`. -/
def patchStep (env : Environment) (shared : Shared) (m : Module) (pins : Bool) :
    PatchPc → Option (PatchPc × Shared)
  | .claim => some (claimStep env shared m)
  | .pin flip clamp => some (if pins then .writeFlip flip clamp else .drop, shared)
  | .drop => some (.unpinned, shared.dropRecord m)
  | .writeFlip _ clamp => some (.writeClamp clamp, shared)
  | .writeClamp _ => some (.patched, shared)
  | .idle => none
  | .unpinned => none
  | .patched => none

/-- The step of a call is to pin its module. -/
def Call.pins : Call → Bool
  | .recordRuntime _ .pin => true
  | .patchPlugin _ (.pin _ _) => true
  | _ => false

/-- The module of a call. -/
def Call.module : Call → Module
  | .recordRuntime m _ => m
  | .claimGates m _ => m
  | .patchPlugin m _ => m

/-- The patch a call's step writes. -/
def Call.writes : Call → Option Patch
  | .patchPlugin _ (.writeFlip true _) => some .flipMetering
  | .patchPlugin _ (.writeClamp true) => some .frameClamp
  | _ => none

/-- The next step of a call. -/
def callStep (env : Environment) (shared : Shared) (pins : Bool) : Call → Option (Call × Shared)
  | .recordRuntime m pc => (recordStep shared m pins pc).map (Prod.map (.recordRuntime m) id)
  | .claimGates m pc => (gatesStep shared m pc).map (Prod.map (.claimGates m) id)
  | .patchPlugin m pc => (patchStep env shared m pins pc).map (Prod.map (.patchPlugin m) id)

/-- The system of all calls. -/
def system (env : Environment) : System State Action where
  init s := s = {}
  step s action :=
    match action with
    | .make i call =>
      if s.calls i = none ∧ call.fresh = true then
        some { s with calls := Function.update s.calls i (some call) }
      else none
    | .advance i pins =>
      (s.calls i).bind fun call =>
        (callStep env s.shared pins call).map fun next =>
          { shared := next.2
            calls := Function.update s.calls i (some next.1)
            pinned := s.pinned ++ if call.pins && pins then [call.module] else []
            written := s.written ++ call.writes.toList.map fun patch => ⟨i, call.module, patch⟩ }

/-- The call has pinned its plugin. -/
def PatchPc.isPinned : PatchPc → Bool
  | .writeFlip _ _ => true
  | .writeClamp _ => true
  | .patched => true
  | _ => false

/-! ### What a call holds -/

/-- The call holds its plugin's record. -/
def PatchPc.holds : PatchPc → Bool
  | .pin _ _ => true
  | .drop => true
  | .writeFlip _ _ => true
  | .writeClamp _ => true
  | .patched => true
  | _ => false

/-- The call is past the writing of a patch. -/
def PatchPc.passed : PatchPc → Patch → Bool
  | .writeClamp _, .flipMetering => true
  | .patched, _ => true
  | _, _ => false

/-- Whether the settings ask for a patch. -/
def enables (env : Environment) : Patch → Bool
  | .flipMetering => env.flipEnabled
  | .frameClamp => env.clampEnabled

/-- The patches a call still has to write are asked for. -/
def PatchPc.OnlyEnabled (env : Environment) : PatchPc → Prop
  | .pin flip clamp =>
    (flip = true → env.flipEnabled = true) ∧ (clamp = true → env.clampEnabled = true)
  | .writeFlip flip clamp =>
    (flip = true → env.flipEnabled = true) ∧ (clamp = true → env.clampEnabled = true)
  | .writeClamp clamp => clamp = true → env.clampEnabled = true
  | _ => True

/-- What a call may rely on. -/
def Call.Ok (env : Environment) (shared : Shared) (pinned : List Module) : Call → Prop
  | .recordRuntime m pc => pc = .insert → m ∈ pinned
  | .claimGates m pc => pc = .returned true → GatesClaimed shared m
  | .patchPlugin m pc =>
    (pc.holds = true → PatchesClaimed env shared m) ∧ (pc.isPinned = true → m ∈ pinned) ∧
      pc.OnlyEnabled env

/-- The call has won the gates of a runtime. -/
def Wins (m : Module) (call : Option Call) : Prop := call = some (.claimGates m (.returned true))

/-- The call holds a plugin's record. -/
def Holds (m : Module) (call : Option Call) : Prop :=
  ∃ pc, call = some (.patchPlugin m pc) ∧ pc.holds = true

/-- The call has written a patch, or has passed it. -/
def Passed (m : Module) (patch : Patch) (call : Option Call) : Prop :=
  ∃ pc, call = some (.patchPlugin m pc) ∧ pc.passed patch = true

/-- What holds in every state. -/
structure Invariant (env : Environment) (s : State) : Prop where
  distinct : (s.shared.runtimes.map Runtime.module).Nodup
  recorded : ∀ m ∈ s.shared.runtimes.map Runtime.module, m ∈ s.pinned
  ok : ∀ i call, s.calls i = some call → call.Ok env s.shared s.pinned
  winner : ∀ m, AtMostOne (Wins m) s.calls
  holder : ∀ m, AtMostOne (Holds m) s.calls
  wrote : ∀ w ∈ s.written, enables env w.patch = true ∧ Passed w.module w.patch (s.calls w.call)
  once : (s.written.map Write.site).Nodup

section Steps

variable {env : Environment} {s : State} {i : ℕ}

/-- What a call relies on is kept by tables that lose no claim. -/
theorem Call.Ok.mono {shared shared' : Shared} {pinned pinned' : List Module} {call : Call}
    (h : call.Ok env shared pinned) (hextends : Extends env shared shared')
    (hpinned : pinned ⊆ pinned') : call.Ok env shared' pinned' := by
  cases call with
  | recordRuntime m pc => exact fun hpc => hpinned (h hpc)
  | claimGates m pc => exact fun hpc => hextends.gates m (h hpc)
  | patchPlugin m pc =>
    obtain ⟨hholds, hpins, henabled⟩ := h
    exact ⟨fun hpc => hextends.patches m (hholds hpc), fun hpc => hpinned (hpins hpc), henabled⟩

/-- Only a call that has pinned its plugin passes a patch. -/
theorem PatchPc.isPinned_of_passed {pc : PatchPc} {patch : Patch} (h : pc.passed patch = true) :
    pc.isPinned = true := by
  cases pc with
  | writeClamp clamp => rfl
  | patched => rfl
  | _ => cases patch <;> cases h

/-- A call that has pinned its plugin holds it. -/
theorem PatchPc.holds_of_isPinned {pc : PatchPc} (h : pc.isPinned = true) : pc.holds = true := by
  cases pc with
  | writeFlip flip clamp => rfl
  | writeClamp clamp => rfl
  | patched => rfl
  | _ => cases h

/-- A call that has passed a patch holds its plugin. -/
theorem Passed.holds {m : Module} {patch : Patch} {call : Option Call} (h : Passed m patch call) :
    Holds m call := by
  obtain ⟨pc, hcall, hpassed⟩ := h
  exact ⟨pc, hcall, PatchPc.holds_of_isPinned (PatchPc.isPinned_of_passed hpassed)⟩

/-- Nothing more is written. -/
theorem Invariant.once_nil (h : Invariant env s) : ((s.written ++ []).map Write.site).Nodup := by
  rw [List.append_nil]
  exact h.once

/-- The invariant after a step of one call, from what the step keeps. -/
theorem Invariant.advance (h : Invariant env s) {next : Call} {shared : Shared}
    {pinned : List Module} {written : List Write}
    (hdistinct : (shared.runtimes.map Runtime.module).Nodup)
    (hrecorded : ∀ m ∈ shared.runtimes.map Runtime.module, m ∈ pinned)
    (hothers : ∀ j call, j ≠ i → s.calls j = some call → call.Ok env shared pinned)
    (hok : next.Ok env shared pinned)
    (hwins : ∀ m, Wins m (some next) → Wins m (s.calls i) ∨ ∀ j, ¬Wins m (s.calls j))
    (hholds : ∀ m, Holds m (some next) → Holds m (s.calls i) ∨ ∀ j, ¬Holds m (s.calls j))
    (hpassed : ∀ m patch, Passed m patch (s.calls i) → Passed m patch (some next))
    (hwritten : ∀ w ∈ written, enables env w.patch = true ∧ w.call = i ∧
      Passed w.module w.patch (some next))
    (honce : ((s.written ++ written).map Write.site).Nodup) :
    Invariant env ⟨shared, Function.update s.calls i (some next), pinned, s.written ++ written⟩ := by
  refine ⟨hdistinct, hrecorded, ?_, fun m => (h.winner m).update (hwins m),
    fun m => (h.holder m).update (hholds m), ?_, honce⟩
  · intro j call hj
    dsimp only at hj
    rw [Function.update_apply] at hj
    split at hj
    · cases hj
      exact hok
    · rename_i hne
      exact hothers j call hne hj
  · intro w hw
    dsimp only at hw ⊢
    rcases List.mem_append.mp hw with hbefore | hnow
    · obtain ⟨henabled, hpast⟩ := h.wrote w hbefore
      refine ⟨henabled, ?_⟩
      rw [Function.update_apply]
      split
      · rename_i hi
        rw [hi] at hpast
        exact hpassed _ _ hpast
      · exact hpast
    · obtain ⟨henabled, hi, hpast⟩ := hwritten w hnow
      rw [hi, Function.update_self]
      exact ⟨henabled, hpast⟩

/-- A call of `RecordRuntime` inserts only what it has pinned. -/
theorem Invariant.record (h : Invariant env s) {m : Module} {pc pc' : RecordPc} {pins : Bool}
    {shared : Shared} (hcall : s.calls i = some (.recordRuntime m pc))
    (hstep : recordStep s.shared m pins pc = some (pc', shared)) :
    Invariant env ⟨shared, Function.update s.calls i (some (.recordRuntime m pc')),
      s.pinned ++ if (Call.recordRuntime m pc).pins && pins then [m] else [], s.written ++ []⟩ := by
  have hwins : ∀ k, Wins k (some (.recordRuntime m pc')) →
      Wins k (s.calls i) ∨ ∀ j, ¬Wins k (s.calls j) := fun k hwin => by cases hwin
  have hholds : ∀ k, Holds k (some (.recordRuntime m pc')) →
      Holds k (s.calls i) ∨ ∀ j, ¬Holds k (s.calls j) := by
    rintro k ⟨_, hcall', _⟩
    cases hcall'
  have hpassed : ∀ k patch, Passed k patch (s.calls i) →
      Passed k patch (some (.recordRuntime m pc')) := by
    rintro k patch ⟨_, hcall', _⟩
    rw [hcall] at hcall'
    cases hcall'
  have hsub : s.pinned ⊆ s.pinned ++ if (Call.recordRuntime m pc).pins && pins then [m] else [] :=
    List.subset_append_left _ _
  have hkeep : Extends env s.shared shared → ∀ j call, j ≠ i → s.calls j = some call →
      call.Ok env shared
        (s.pinned ++ if (Call.recordRuntime m pc).pins && pins then [m] else []) :=
    fun hextends j call _ hj => (h.ok j call hj).mono hextends hsub
  cases pc with
  | check =>
    cases hstep
    refine h.advance h.distinct (fun k hk => hsub (h.recorded k hk)) (hkeep (.refl env _)) ?_ hwins
      hholds hpassed (fun _ hw => (by cases hw)) h.once_nil
    intro hinsert
    split at hinsert
    · cases hinsert
    · cases hinsert
  | pin =>
    cases hstep
    refine h.advance h.distinct (fun k hk => hsub (h.recorded k hk)) (hkeep (.refl env _)) ?_ hwins
      hholds hpassed (fun _ hw => (by cases hw)) h.once_nil
    intro hinsert
    cases pins with
    | true => exact List.mem_append_right _ List.mem_cons_self
    | false => cases hinsert
  | insert =>
    cases hstep
    have hpinned : m ∈ s.pinned := h.ok i _ hcall rfl
    refine h.advance (nodup_map_add h.distinct) ?_ (hkeep (insertRuntime_extends env _ m).1) ?_ hwins
      hholds hpassed (fun _ hw => (by cases hw)) h.once_nil
    · intro k hk
      rcases mem_map_add hk with rfl | hold
      · exact hsub hpinned
      · exact hsub (h.recorded k hold)
    · intro hinsert
      cases hinsert
  | returned new => cases hstep

/-- A claim of gates records no runtime and drops none. -/
theorem claimGates_modules (shared : Shared) (m : Module) :
    (shared.claimGates m).2.runtimes.map Runtime.module = shared.runtimes.map Runtime.module := by
  unfold Shared.claimGates
  split
  · rfl
  · split
    · rfl
    · exact map_update Runtime.module m (fun r => { r with gatesClaimed := true }) (fun _ => rfl) _

/-- A call of `ClaimGates` wins only gates that no call has won. -/
theorem Invariant.gates (h : Invariant env s) {m : Module} {pc pc' : GatesPc} {shared : Shared}
    (hcall : s.calls i = some (.claimGates m pc))
    (hstep : gatesStep s.shared m pc = some (pc', shared)) :
    Invariant env ⟨shared, Function.update s.calls i (some (.claimGates m pc')), s.pinned ++ [],
      s.written ++ []⟩ := by
  cases pc with
  | returned won => cases hstep
  | claim =>
    cases hstep
    obtain ⟨hextends, hclaims⟩ := claimGates_extends env s.shared m
    refine h.advance ?_ ?_ (fun j call _ hj => (h.ok j call hj).mono hextends
      (List.subset_append_left _ _)) ?_ ?_ ?_ ?_ (fun _ hw => (by cases hw)) h.once_nil
    · rw [claimGates_modules]
      exact h.distinct
    · rw [claimGates_modules, List.append_nil]
      exact h.recorded
    · intro hwon
      have htrue : (s.shared.claimGates m).1 = true := GatesPc.returned.inj hwon
      exact hclaims (claimGates_fst.mp htrue).1
    · intro k hwin
      injection hwin with hsame
      injection hsame with hk hwon
      have htrue : (s.shared.claimGates m).1 = true := GatesPc.returned.inj hwon
      refine Or.inr fun j hj => (claimGates_fst.mp htrue).2 ?_
      rw [hk]
      exact h.ok j _ hj rfl
    · rintro k ⟨_, hcall', _⟩
      cases hcall'
    · rintro k patch ⟨_, hcall', _⟩
      rw [hcall] at hcall'
      cases hcall'

/-- What a claim of a plugin comes to: nothing, or patches that are asked for and
that nobody held. It records or drops no runtime. -/
theorem claimStep_spec (env : Environment) (shared : Shared) (m : Module) :
    Extends env shared (claimStep env shared m).2 ∧
      (claimStep env shared m).2.runtimes = shared.runtimes ∧
      ((claimStep env shared m).1 = .idle ∨ ∃ flip clamp, (claimStep env shared m).1 = .pin flip clamp ∧
        (flip = true → env.flipEnabled = true) ∧ (clamp = true → env.clampEnabled = true) ∧
        ¬PatchesClaimed env shared m ∧ PatchesClaimed env (claimStep env shared m).2 m) := by
  unfold claimStep
  split
  · exact ⟨.refl env shared, rfl, Or.inl rfl⟩
  · obtain ⟨hextends, hclaimed⟩ := claimPatches_extends env shared m
    refine ⟨hextends, rfl, ?_⟩
    dsimp only
    split
    · rename_i hwon
      exact Or.inr ⟨_, _, rfl, fun hflip => (Bool.and_eq_true_iff.mp hflip).1,
        fun hclamp => (Bool.and_eq_true_iff.mp hclamp).1, claimPatches_fst hwon, hclaimed⟩
    · exact Or.inl rfl

/-- A call that holds a plugin has it claimed. -/
theorem Invariant.claimed (h : Invariant env s) {j : ℕ} {m : Module} (hj : Holds m (s.calls j)) :
    PatchesClaimed env s.shared m := by
  obtain ⟨pc, hcall, hholds⟩ := hj
  exact (h.ok j _ hcall).1 hholds

/-- A step of `PatchPlugin` that neither claims nor drops leaves the tables alone
and moves on what the call holds. -/
theorem Invariant.patchMove (h : Invariant env s) {m : Module} {pc pc' : PatchPc}
    {shared : Shared} {pinned : List Module} {written : List Write}
    (hcall : s.calls i = some (.patchPlugin m pc)) (hruntimes : shared.runtimes = s.shared.runtimes)
    (hpinned : s.pinned ⊆ pinned)
    (hothers : ∀ j call, j ≠ i → s.calls j = some call → call.Ok env shared pinned)
    (hok : (Call.patchPlugin m pc').Ok env shared pinned)
    (hholds : pc'.holds = true → pc.holds = true ∨ ∀ j, ¬Holds m (s.calls j))
    (hpassed : ∀ patch, pc.passed patch = true → pc'.passed patch = true)
    (hwritten : ∀ w ∈ written, enables env w.patch = true ∧ w.call = i ∧ w.module = m ∧
      pc'.passed w.patch = true)
    (honce : ((s.written ++ written).map Write.site).Nodup) :
    Invariant env ⟨shared, Function.update s.calls i (some (.patchPlugin m pc')), pinned,
      s.written ++ written⟩ := by
  refine h.advance ?_ ?_ hothers hok (fun k hwin => by cases hwin) ?_ ?_ ?_ honce
  · rw [hruntimes]
    exact h.distinct
  · rw [hruntimes]
    exact fun k hk => hpinned (h.recorded k hk)
  · rintro k ⟨_, hcall', hnow⟩
    cases hcall'
    exact (hholds hnow).imp (fun hbefore => ⟨pc, hcall, hbefore⟩) id
  · rintro k patch ⟨_, hcall', hpast⟩
    rw [hcall] at hcall'
    cases hcall'
    exact ⟨pc', rfl, hpassed patch hpast⟩
  · intro w hw
    obtain ⟨henabled, hi, hm, hpast⟩ := hwritten w hw
    exact ⟨henabled, hi, pc', by rw [hm], hpast⟩

/-- Before its pin a call has passed no patch, and writes none. -/
theorem Invariant.unpinnedMove (h : Invariant env s) {m : Module} {pc pc' : PatchPc}
    {shared : Shared} {pinned : List Module} (hcall : s.calls i = some (.patchPlugin m pc))
    (hunpinned : pc.isPinned = false) (hruntimes : shared.runtimes = s.shared.runtimes)
    (hpinned : s.pinned ⊆ pinned)
    (hothers : ∀ j call, j ≠ i → s.calls j = some call → call.Ok env shared pinned)
    (hok : (Call.patchPlugin m pc').Ok env shared pinned)
    (hholds : pc'.holds = true → pc.holds = true ∨ ∀ j, ¬Holds m (s.calls j)) :
    Invariant env ⟨shared, Function.update s.calls i (some (.patchPlugin m pc')), pinned,
      s.written ++ []⟩ := by
  refine h.patchMove hcall hruntimes hpinned hothers hok hholds ?_ (fun _ hw => by cases hw) h.once_nil
  intro patch hpassed
  have hpins := PatchPc.isPinned_of_passed hpassed
  rw [hunpinned] at hpins
  cases hpins

/-- A patch that its holder has not passed has not been written by any call. -/
theorem Invariant.not_written (h : Invariant env s) {m : Module} {pc : PatchPc} {patch : Patch}
    (hcall : s.calls i = some (.patchPlugin m pc)) (hholds : pc.holds = true)
    (hpassed : pc.passed patch = false) : (m, patch) ∉ s.written.map Write.site := by
  intro hmem
  obtain ⟨w, hw, hsite⟩ := List.mem_map.mp hmem
  obtain ⟨_, hpast⟩ := h.wrote w hw
  obtain ⟨hm, hpatch⟩ := Prod.mk.inj hsite
  rw [hm, hpatch] at hpast
  -- the call that wrote it holds the plugin too
  have hsame : w.call = i := h.holder m w.call i hpast.holds ⟨pc, hcall, hholds⟩
  obtain ⟨_, hcall', hpast'⟩ := hpast
  rw [hsame, hcall] at hcall'
  cases hcall'
  rw [hpassed] at hpast'
  cases hpast'

/-- So what the holder writes next is written once. -/
theorem Invariant.writes_once (h : Invariant env s) {m : Module} {pc : PatchPc}
    (hcall : s.calls i = some (.patchPlugin m pc)) (hholds : pc.holds = true)
    {patch : Option Patch} (hpassed : ∀ p ∈ patch, pc.passed p = false) :
    ((s.written ++ patch.toList.map fun p => Write.mk i m p).map Write.site).Nodup := by
  cases patch with
  | none =>
    rw [Option.toList_none, List.map_nil, List.append_nil]
    exact h.once
  | some p =>
    rw [List.map_append, List.nodup_append]
    refine ⟨h.once, List.pairwise_singleton _ _, fun site hsite site' hsite' => ?_⟩
    rw [List.mem_singleton.mp hsite']
    rintro rfl
    exact h.not_written hcall hholds (hpassed p rfl) hsite

/-- A dropped record takes no other plugin's with it. -/
theorem patchesClaimed_dropRecord {shared : Shared} {m k : Module} (hne : k ≠ m)
    (h : PatchesClaimed env shared k) : PatchesClaimed env (shared.dropRecord m) k := by
  obtain ⟨record, hrecord, hclaimed⟩ := h
  refine ⟨record, ?_, hclaimed⟩
  rw [Shared.dropRecord, find_remove, if_neg hne]
  exact hrecord

/-- The claim of a call of `PatchPlugin`. -/
theorem Invariant.patchClaim (h : Invariant env s) {m : Module}
    (hcall : s.calls i = some (.patchPlugin m .claim)) :
    Invariant env ⟨(claimStep env s.shared m).2,
      Function.update s.calls i (some (.patchPlugin m (claimStep env s.shared m).1)), s.pinned ++ [],
      s.written ++ []⟩ := by
  obtain ⟨hextends, hruntimes, hspec⟩ := claimStep_spec env s.shared m
  have hsub : s.pinned ⊆ s.pinned ++ [] := List.subset_append_left _ _
  refine h.unpinnedMove hcall rfl hruntimes hsub
    (fun j call _ hj => (h.ok j call hj).mono hextends hsub) ?_ ?_
  · rcases hspec with hidle | ⟨flip, clamp, hpin, hflip, hclamp, _, hclaimed⟩
    · rw [hidle]
      exact ⟨fun hholds => (by cases hholds), fun hpins => (by cases hpins), trivial⟩
    · rw [hpin]
      exact ⟨fun _ => hclaimed, fun hpins => (by cases hpins), hflip, hclamp⟩
  · intro hholds
    rcases hspec with hidle | ⟨_, _, _, _, _, hfree, _⟩
    · rw [hidle] at hholds
      cases hholds
    · exact Or.inr fun j hj => hfree (h.claimed hj)

/-- Its pin, which may fail. -/
theorem Invariant.patchPin (h : Invariant env s) {m : Module} {flip clamp : Bool} (pins : Bool)
    (hcall : s.calls i = some (.patchPlugin m (.pin flip clamp))) :
    Invariant env ⟨s.shared, Function.update s.calls i
      (some (.patchPlugin m (if pins then .writeFlip flip clamp else .drop))),
      s.pinned ++ if pins then [m] else [], s.written ++ []⟩ := by
  have hsub : s.pinned ⊆ s.pinned ++ if pins then [m] else [] := List.subset_append_left _ _
  obtain ⟨hclaimed, _, henabled⟩ := h.ok i _ hcall
  refine h.unpinnedMove hcall rfl rfl hsub
    (fun j call _ hj => (h.ok j call hj).mono (.refl env _) hsub)
    ⟨fun _ => hclaimed rfl, fun hpins => ?_, ?_⟩ (fun _ => Or.inl rfl)
  · cases pins with
    | true => exact List.mem_append_right _ List.mem_cons_self
    | false => cases hpins
  · cases pins with
    | true => exact henabled
    | false => trivial

/-- Dropping the record after a failed pin. -/
theorem Invariant.patchDrop (h : Invariant env s) {m : Module}
    (hcall : s.calls i = some (.patchPlugin m .drop)) :
    Invariant env ⟨s.shared.dropRecord m, Function.update s.calls i (some (.patchPlugin m .unpinned)),
      s.pinned ++ [], s.written ++ []⟩ := by
  have hsub : s.pinned ⊆ s.pinned ++ [] := List.subset_append_left _ _
  refine h.unpinnedMove hcall rfl rfl hsub ?_
    ⟨fun hholds => (by cases hholds), fun hpins => (by cases hpins), trivial⟩
    (fun hholds => by cases hholds)
  intro j call hne hj
  have hok := h.ok j call hj
  cases call with
  | recordRuntime k pc => exact fun hpc => hsub (hok hpc)
  | claimGates k pc => exact hok
  | patchPlugin k pc =>
    obtain ⟨hclaimed, hpinned, henabled⟩ := hok
    refine ⟨fun hholds => ?_, fun hpins => hsub (hpinned hpins), henabled⟩
    -- no other call holds the plugin whose record goes
    refine patchesClaimed_dropRecord (fun hk => hne ?_) (hclaimed hholds)
    rw [hk] at hj
    exact h.holder m j i ⟨pc, hj, hholds⟩ ⟨.drop, hcall, rfl⟩

/-- Writing a patch that is the holder's to write. -/
theorem Invariant.patchWrite (h : Invariant env s) {m : Module} {pc pc' : PatchPc}
    {patch : Option Patch} (hcall : s.calls i = some (.patchPlugin m pc))
    (hpins : pc.isPinned = true) (hholds : pc.holds = true) (hrest : pc'.OnlyEnabled env)
    (hwrites : ∀ p ∈ patch, enables env p = true ∧ pc.passed p = false ∧ pc'.passed p = true)
    (hpassed : ∀ p, pc.passed p = true → pc'.passed p = true) :
    Invariant env ⟨s.shared, Function.update s.calls i (some (.patchPlugin m pc')), s.pinned ++ [],
      s.written ++ patch.toList.map fun p => ⟨i, m, p⟩⟩ := by
  have hsub : s.pinned ⊆ s.pinned ++ [] := List.subset_append_left _ _
  obtain ⟨hclaimed, hpinned, _⟩ := h.ok i _ hcall
  refine h.patchMove hcall rfl hsub (fun j call _ hj => (h.ok j call hj).mono (.refl env _) hsub)
    ⟨fun _ => hclaimed hholds, fun _ => hsub (hpinned hpins), hrest⟩ (fun _ => Or.inl hholds)
    hpassed ?_ (h.writes_once hcall hholds fun p hp => (hwrites p hp).2.1)
  intro w hw
  obtain ⟨p, hp, rfl⟩ := List.mem_map.mp hw
  obtain ⟨henabled, _, hpast⟩ := hwrites p (Option.mem_toList.mp hp)
  exact ⟨henabled, rfl, rfl, hpast⟩

/-- A step of a call of `PatchPlugin`. -/
theorem Invariant.patch (h : Invariant env s) {m : Module} {pc pc' : PatchPc} {pins : Bool}
    {shared : Shared} (hcall : s.calls i = some (.patchPlugin m pc))
    (hstep : patchStep env s.shared m pins pc = some (pc', shared)) :
    Invariant env ⟨shared, Function.update s.calls i (some (.patchPlugin m pc')),
      s.pinned ++ if (Call.patchPlugin m pc).pins && pins then [m] else [],
      s.written ++ (Call.patchPlugin m pc).writes.toList.map fun patch => ⟨i, m, patch⟩⟩ := by
  obtain ⟨_, _, henabled⟩ := h.ok i _ hcall
  cases pc with
  | claim =>
    have hclaim : claimStep env s.shared m = (pc', shared) := Option.some.inj hstep
    have hnext := h.patchClaim hcall
    rw [hclaim] at hnext
    exact hnext
  | pin flip clamp =>
    cases hstep
    exact h.patchPin pins hcall
  | drop =>
    cases hstep
    exact h.patchDrop hcall
  | writeFlip flip clamp =>
    cases hstep
    refine h.patchWrite hcall rfl rfl henabled.2 ?_ (fun p hpast => by cases p <;> cases hpast)
    intro p hp
    cases flip with
    | false => cases hp
    | true =>
      cases hp
      exact ⟨henabled.1 rfl, rfl, rfl⟩
  | writeClamp clamp =>
    cases hstep
    refine h.patchWrite hcall rfl rfl trivial ?_ fun p _ => rfl
    intro p hp
    cases clamp with
    | false => cases hp
    | true =>
      cases hp
      exact ⟨henabled rfl, rfl, rfl⟩
  | idle => cases hstep
  | unpinned => cases hstep
  | patched => cases hstep

/-- A new call holds nothing and relies on nothing. -/
theorem Invariant.make (h : Invariant env s) {call : Call} (hnone : s.calls i = none)
    (hfresh : call.fresh = true) :
    Invariant env { s with calls := Function.update s.calls i (some call) } := by
  have hpassed : ∀ m patch, Passed m patch (s.calls i) → Passed m patch (some call) := by
    rintro m patch ⟨_, hcall, _⟩
    rw [hnone] at hcall
    cases hcall
  have hquiet : call.Ok env s.shared s.pinned ∧ (∀ m, ¬Wins m (some call)) ∧
      ∀ m, ¬Holds m (some call) := by
    cases call with
    | recordRuntime m pc =>
      obtain rfl : pc = .check := of_decide_eq_true hfresh
      refine ⟨fun hpc => (by cases hpc), fun k hwin => (by cases hwin), ?_⟩
      rintro k ⟨_, hcall, _⟩
      cases hcall
    | claimGates m pc =>
      obtain rfl : pc = .claim := of_decide_eq_true hfresh
      refine ⟨fun hpc => (by cases hpc), fun k hwin => (by cases hwin), ?_⟩
      rintro k ⟨_, hcall, _⟩
      cases hcall
    | patchPlugin m pc =>
      obtain rfl : pc = .claim := of_decide_eq_true hfresh
      refine ⟨⟨fun hholds => (by cases hholds), fun hpins => (by cases hpins), trivial⟩,
        fun k hwin => (by cases hwin), ?_⟩
      rintro k ⟨_, hcall, hholds⟩
      cases hcall
      cases hholds
  obtain ⟨hok, hwins, hholds⟩ := hquiet
  have hnext : Invariant env ⟨s.shared, Function.update s.calls i (some call), s.pinned,
      s.written ++ []⟩ :=
    h.advance h.distinct h.recorded (fun j call _ hj => h.ok j call hj) hok
      (fun m hwin => absurd hwin (hwins m)) (fun m hhold => absurd hhold (hholds m)) hpassed
      (fun _ hw => by cases hw) h.once_nil
  rw [List.append_nil] at hnext
  exact hnext

/-- Every step of every call keeps the invariant. -/
theorem Invariant.step (h : Invariant env s) {action : Action} {t : State}
    (hstep : (system env).step s action = some t) : Invariant env t := by
  cases action with
  | make i call =>
    unfold system at hstep
    dsimp only at hstep
    split at hstep
    · rename_i hnew
      cases hstep
      exact h.make hnew.1 hnew.2
    · cases hstep
  | advance i pins =>
    obtain ⟨call, hcall, hmoved⟩ := Option.bind_eq_some_iff.mp hstep
    obtain ⟨next, hnext, rfl⟩ := Option.map_eq_some_iff.mp hmoved
    cases call with
    | recordRuntime m pc =>
      obtain ⟨after, hafter, rfl⟩ := Option.map_eq_some_iff.mp hnext
      exact h.record hcall hafter
    | claimGates m pc =>
      obtain ⟨after, hafter, rfl⟩ := Option.map_eq_some_iff.mp hnext
      exact h.gates hcall hafter
    | patchPlugin m pc =>
      obtain ⟨after, hafter, rfl⟩ := Option.map_eq_some_iff.mp hnext
      exact h.patch hcall hafter

/-- So it holds in every state that calls reach, in any interleaving. -/
theorem invariant_of_reachable (hreach : (system env).Reachable s) : Invariant env s := by
  refine hreach.invariant (Invariant env) ?_ ?_
  · intro start hstart
    rw [show start = {} from hstart]
    refine ⟨List.nodup_nil, fun m hm => (by cases hm), fun i call hcall => (by cases hcall),
      fun m i j hi => (by cases hi), fun m i j hi => ?_, fun w hw => (by cases hw), List.nodup_nil⟩
    obtain ⟨_, hcall, _⟩ := hi
    cases hcall
  · intro before action after hbefore _ hstep
    exact hbefore.step hstep

end Steps

/-! ### What the claims guarantee -/

/-- The exclusive claims of a state of the calls. -/
structure ExclusiveIn (env : Environment) (s : State) : Prop where
  /-- No runtime is recorded twice. -/
  runtimes_distinct : (s.shared.runtimes.map Runtime.module).Nodup
  runtimes_pinned : ∀ m ∈ s.shared.runtimes.map Runtime.module, m ∈ s.pinned
  /-- The gates of a runtime are won once. -/
  gates_once : ∀ m i j, s.calls i = some (.claimGates m (.returned true)) →
    s.calls j = some (.claimGates m (.returned true)) → i = j
  /-- A claim that would win now is for a recorded runtime nobody has won. -/
  gates_recorded : ∀ m, (s.shared.claimGates m).1 = true → s.shared.known m = true ∧
    ∀ i, s.calls i ≠ some (.claimGates m (.returned true))
  /-- A patch of a plugin is written once, by one call. -/
  writes_once : (s.written.map Write.site).Nodup
  writes_pinned : ∀ w ∈ s.written, w.module ∈ s.pinned ∧ enables env w.patch = true
  /-- A call whose pin failed has written nothing. -/
  unpinned_silent : ∀ i m pc, s.calls i = some (.patchPlugin m pc) → pc = .drop ∨ pc = .unpinned →
    ∀ w ∈ s.written, w.call ≠ i
  /-- Its next step removes the record, so that the plugin can be claimed again. -/
  unpinned_drops : ∀ i m, s.calls i = some (.patchPlugin m .drop) → ∀ pins t,
    (system env).step s (.advance i pins) = some t →
      find PatchedPlugin.module m t.shared.patched = none ∧
        (t.shared.claimPatches env m).1 = (env.flipEnabled, env.clampEnabled)

/-- A plugin without a record has every enabled patch free. -/
theorem claimPatches_of_none (env : Environment) {shared : Shared} {m : Module}
    (h : find PatchedPlugin.module m shared.patched = none) :
    (shared.claimPatches env m).1 = (env.flipEnabled, env.clampEnabled) := by
  have hfind := find_add PatchedPlugin.module m ⟨m, false, false⟩ shared.patched
  rw [if_pos rfl, h] at hfind
  unfold Shared.claimPatches
  dsimp only
  rw [hfind]
  cases env.flipEnabled <;> cases env.clampEnabled <;> rfl

/-- In every interleaving of any calls, with any pins failing, claims are
exclusive, and a failed pin gives its claim back. -/
theorem exclusive_of_reachable {env : Environment} {s : State} (hreach : (system env).Reachable s) :
    ExclusiveIn env s := by
  have h := invariant_of_reachable hreach
  refine ⟨h.distinct, h.recorded, fun m i j => h.winner m i j, fun m hwins => ?_, h.once,
    fun w hw => ?_, fun i m pc hcall hpc w hw hi => ?_, fun i m hcall pins t hstep => ?_⟩
  · obtain ⟨hknown, hfree⟩ := claimGates_fst.mp hwins
    exact ⟨hknown, fun i hi => hfree (h.ok i _ hi rfl)⟩
  · obtain ⟨henabled, pc, hcall, hpast⟩ := h.wrote w hw
    exact ⟨(h.ok _ _ hcall).2.1 (PatchPc.isPinned_of_passed hpast), henabled⟩
  · obtain ⟨_, pc', hcall', hpast⟩ := h.wrote w hw
    rw [hi, hcall] at hcall'
    cases hcall'
    have hpinned := PatchPc.isPinned_of_passed hpast
    rcases hpc with rfl | rfl
    · cases hpinned
    · cases hpinned
  · obtain ⟨call, hcall', hmoved⟩ := Option.bind_eq_some_iff.mp hstep
    rw [hcall] at hcall'
    cases hcall'
    obtain ⟨next, hnext, rfl⟩ := Option.map_eq_some_iff.mp hmoved
    cases hnext
    have hnone : find PatchedPlugin.module m (s.shared.dropRecord m).patched = none := by
      rw [Shared.dropRecord, find_remove, if_pos rfl]
    exact ⟨hnone, claimPatches_of_none env hnone⟩

/-- Settings that ask for both patches. -/
def bothPatches : Environment where
  component _ := .plugin
  isDlssgProvider _ := false
  realArchitecture := .supported
  flipEnabled := true
  clampEnabled := true
  multiFrameEnabled := false
  flipWrites _ := 1
  clampWrites _ := 1
  gateWrites _ := 0

/-- Two calls race for plugin 7 and the one that claims it cannot pin it; a third
patches it. Two calls race to record runtime 5 and two more for its gates. -/
def racingRun : List Action :=
  [.make 0 (.patchPlugin 7 .claim), .make 1 (.patchPlugin 7 .claim), .advance 0 true,
    .advance 1 true, .advance 0 false, .advance 0 true, .make 2 (.patchPlugin 7 .claim),
    .advance 2 true, .advance 2 true, .advance 2 true, .advance 2 true,
    .make 3 (.recordRuntime 5 .check), .make 4 (.recordRuntime 5 .check), .advance 3 true,
    .advance 4 true, .advance 3 true, .advance 4 true, .advance 3 true, .advance 4 true,
    .make 5 (.claimGates 5 .claim), .make 6 (.claimGates 5 .claim), .advance 5 true,
    .advance 6 true]

/-- Where it ends. -/
def racingState : State :=
  ((system bothPatches).runUnder (fun _ _ => True) {} racingRun).getD {}

/-- In it claims were exclusive. -/
theorem exclusive_of_reachable_racing : ExclusiveIn bothPatches racingState :=
  exclusive_of_reachable (System.reachable_getD_runUnder (.start rfl) (by decide +kernel))

/-- Each patch is written by the third call, and each race has one winner. -/
example : racingState.written = [⟨2, 7, .flipMetering⟩, ⟨2, 7, .frameClamp⟩] ∧
    racingState.shared.runtimes = [⟨5, true⟩] ∧
    racingState.calls 5 = some (.claimGates 5 (.returned true)) ∧
    racingState.calls 6 = some (.claimGates 5 (.returned false)) := by decide +kernel

end OpenDlssg.ExclusiveClaims
