import OpenDlssg.RecordTable

/-!
# Recording, claiming and patching a component

The procedures that prepare a mapped image, one shared-memory step at a time:
recording a runtime, claiming its gates, and claiming, pinning and patching a
plugin. Every load and the worker run them against the same two tables. Claims
are only ever added by them while the images stay mapped, and a claim that
finds the image claimed changes nothing.
-/

namespace OpenDlssg.ComponentClaims

open RecordTable

/-- A handle of a mapped image. -/
abbrev Module := ℕ

/-- What a mapped image is. -/
inductive Component
  | runtime
  | plugin
  deriving DecidableEq

/-- What NVAPI has said about the GPU. -/
inductive Architecture
  | unknown
  | notNeeded
  | supported
  deriving DecidableEq

/-- What stays the same throughout: the images, the GPU and the settings. -/
structure Environment where
  component : Module → Component
  isDlssgProvider : Module → Bool
  realArchitecture : Architecture
  flipEnabled : Bool
  clampEnabled : Bool
  multiFrameEnabled : Bool
  /-- Writes that force flip metering in an image. -/
  flipWrites : Module → ℕ
  /-- Writes that lift the frame-count clamp in an image. -/
  clampWrites : Module → ℕ
  /-- Writes that move the multi-frame gates of an image. -/
  gateWrites : Module → ℕ

/-- What has been done to a recorded runtime. -/
structure Runtime where
  module : Module
  gatesClaimed : Bool
  deriving DecidableEq

/-- Which patches a mapped plugin has received. -/
structure PatchedPlugin where
  module : Module
  flipMetering : Bool
  frameClamp : Bool
  deriving DecidableEq

/-- The memory every thread shares: the process's module list and the two
tables, each behind its own lock. -/
structure Shared where
  mapped : List Module
  runtimes : List Runtime
  patched : List PatchedPlugin
  deriving DecidableEq

namespace Shared

/-- Pinning succeeds for an image that is mapped. -/
def pinModule (shared : Shared) (m : Module) : Bool := m ∈ shared.mapped

/-- The source's `Known`. -/
def known (shared : Shared) (m : Module) : Bool := (find Runtime.module m shared.runtimes).isSome

/-- The insertion at the end of the source's `RecordRuntime`. -/
def insertRuntime (shared : Shared) (m : Module) : Shared :=
  { shared with runtimes := add Runtime.module ⟨m, false⟩ shared.runtimes }

/-- The source's `ClaimGates`. -/
def claimGates (shared : Shared) (m : Module) : Bool × Shared :=
  match find Runtime.module m shared.runtimes with
  | none => (false, shared)
  | some runtime =>
    if runtime.gatesClaimed then (false, shared)
    else
      (true, { shared with
        runtimes := update Runtime.module m (fun r => { r with gatesClaimed := true })
          shared.runtimes })

/-- The critical section of the source's `PatchPlugin`: which of the patches
this call has to apply. -/
def claimPatches (env : Environment) (shared : Shared) (m : Module) : (Bool × Bool) × Shared :=
  let patched := add PatchedPlugin.module ⟨m, false, false⟩ shared.patched
  let record := (find PatchedPlugin.module m patched).getD ⟨m, false, false⟩
  let flip := env.flipEnabled && !record.flipMetering
  let clamp := env.clampEnabled && !record.frameClamp
  ((flip, clamp), { shared with
    patched := update PatchedPlugin.module m
      (fun r => { r with
        flipMetering := r.flipMetering || flip
        frameClamp := r.frameClamp || clamp }) patched })

/-- Dropping the record of a plugin that could not be pinned. -/
def dropRecord (shared : Shared) (m : Module) : Shared :=
  { shared with patched := remove PatchedPlugin.module m shared.patched }

end Shared

/-- Where a thread is in one of the procedures. -/
inductive Proc
  /-- `PatchPlugin`, before its claim -/
  | patchClaim
  /-- it claimed these patches and pins next -/
  | patchPin (flip clamp : Bool)
  /-- the pin failed -/
  | patchDrop
  /-- `RecordRuntime`, before it looks the module up -/
  | recordCheck
  | recordPin
  | recordInsert
  /-- `PrepareRuntime`, before it asks whether the module is known -/
  | gatesKnown
  /-- `MaybeUnlockMultiFrame`, before its claim -/
  | gatesClaim
  /-- claimed, with so many writes left -/
  | write (n : ℕ)
  | done
  deriving DecidableEq

/-- The writes a claim of these patches asks for. -/
def patchWrites (env : Environment) (m : Module) (flip clamp : Bool) : ℕ :=
  (if flip then env.flipWrites m else 0) + if clamp then env.clampWrites m else 0

/-- The next step of a procedure on an image. -/
def procStep (env : Environment) (shared : Shared) (m : Module) : Proc → Proc × Shared
  | .patchClaim =>
    let ((flip, clamp), after) := shared.claimPatches env m
    (if flip || clamp then .patchPin flip clamp else .done, after)
  | .patchPin flip clamp =>
    (if shared.pinModule m then .write (patchWrites env m flip clamp) else .patchDrop, shared)
  | .patchDrop => (.done, shared.dropRecord m)
  | .recordCheck => (if shared.known m then .done else .recordPin, shared)
  | .recordPin => (if shared.pinModule m then .recordInsert else .done, shared)
  | .recordInsert => (.done, shared.insertRuntime m)
  | .gatesKnown => (if shared.known m then .gatesClaim else .done, shared)
  | .gatesClaim =>
    match env.realArchitecture with
    | .supported =>
      let (claimed, after) := shared.claimGates m
      (if claimed then .write (if env.multiFrameEnabled then env.gateWrites m else 0) else .done,
        after)
    | .unknown => (.done, shared)
    | .notNeeded => (.done, shared)
  | .write 0 => (.done, shared)
  | .write (n + 1) => (.write n, shared)
  | .done => (.done, shared)

/-- The next step is the procedure's attempt to claim the image. -/
def Proc.isClaim : Proc → Bool
  | .patchClaim => true
  | .gatesClaim => true
  | _ => false

/-- The writes claimed and not yet made. -/
def Proc.outstanding (env : Environment) (m : Module) : Proc → ℕ
  | .patchPin flip clamp => patchWrites env m flip clamp
  | .write n => n
  | _ => 0

/-- Every enabled patch of the image is claimed. -/
def PatchesClaimed (env : Environment) (shared : Shared) (m : Module) : Prop :=
  ∃ record, find PatchedPlugin.module m shared.patched = some record ∧
    (env.flipEnabled = true → record.flipMetering = true) ∧
    (env.clampEnabled = true → record.frameClamp = true)

/-- The gates of the image are claimed. -/
def GatesClaimed (shared : Shared) (m : Module) : Prop :=
  ∃ runtime, find Runtime.module m shared.runtimes = some runtime ∧ runtime.gatesClaimed = true

/-- The image is claimed, by whoever prepares its component. -/
def Claimed (env : Environment) (shared : Shared) (m : Module) : Prop :=
  match env.component m with
  | .plugin => PatchesClaimed env shared m
  | .runtime => GatesClaimed shared m

/-- What a state of the shared memory keeps of an earlier one. -/
structure Extends (env : Environment) (s t : Shared) : Prop where
  mapped : ∀ m ∈ s.mapped, m ∈ t.mapped
  known : ∀ m, s.known m = true → t.known m = true
  gates : ∀ m, GatesClaimed s m → GatesClaimed t m
  patches : ∀ m, PatchesClaimed env s m → PatchesClaimed env t m

section Claims

variable {env : Environment} {shared s t : Shared} {m : Module}

theorem Extends.refl (env : Environment) (s : Shared) : Extends env s s :=
  ⟨fun _ h => h, fun _ h => h, fun _ h => h, fun _ h => h⟩

/-- A claimed image stays claimed. -/
theorem Extends.claimed (h : Extends env s t) (hclaimed : Claimed env s m) :
    Claimed env t m := by
  unfold Claimed at hclaimed ⊢
  cases hcomponent : env.component m with
  | plugin =>
    rw [hcomponent] at hclaimed
    exact h.patches m hclaimed
  | runtime =>
    rw [hcomponent] at hclaimed
    exact h.gates m hclaimed

/-- A recorded runtime is known, and no record is lost. -/
theorem insertRuntime_extends (env : Environment) (shared : Shared) (m : Module) :
    Extends env shared (shared.insertRuntime m) ∧ (shared.insertRuntime m).known m = true := by
  have hkeep : ∀ {k : Module} {r : Runtime}, find Runtime.module k shared.runtimes = some r →
      find Runtime.module k (shared.insertRuntime m).runtimes = some r :=
    fun hfind => find_add_of_some hfind
  refine ⟨⟨fun _ h => h, ?_, ?_, fun _ h => h⟩, ?_⟩
  · intro k hknown
    obtain ⟨r, hr⟩ := Option.isSome_iff_exists.mp hknown
    rw [Shared.known, hkeep hr]
    rfl
  · rintro k ⟨r, hr, hclaimed⟩
    exact ⟨r, hkeep hr, hclaimed⟩
  · have hfind := find_add Runtime.module m ⟨m, false⟩ shared.runtimes
    rw [if_pos rfl] at hfind
    rw [Shared.known, Shared.insertRuntime, hfind]
    cases find Runtime.module m shared.runtimes <;> rfl

/-- A successful claim finds a runtime whose gates nobody has claimed. -/
theorem claimGates_fst :
    (shared.claimGates m).1 = true ↔ shared.known m = true ∧ ¬GatesClaimed shared m := by
  unfold Shared.claimGates Shared.known GatesClaimed
  cases hfind : find Runtime.module m shared.runtimes with
  | none => simp
  | some runtime =>
    dsimp only
    split
    · rename_i hclaimed
      simp [hclaimed]
    · rename_i hfree
      simp [hfree]

/-- After an attempt the gates of a known runtime are claimed, and no claim is
lost. -/
theorem claimGates_extends (env : Environment) (shared : Shared) (m : Module) :
    Extends env shared (shared.claimGates m).2 ∧
      (shared.known m = true → GatesClaimed (shared.claimGates m).2 m) := by
  unfold Shared.claimGates
  cases hfind : find Runtime.module m shared.runtimes with
  | none =>
    refine ⟨.refl env shared, ?_⟩
    intro hknown
    rw [Shared.known, hfind] at hknown
    cases hknown
  | some runtime =>
    dsimp only
    split
    · rename_i hclaimed
      exact ⟨.refl env shared, fun _ => ⟨runtime, hfind, hclaimed⟩⟩
    · have hupdate := fun k => find_update Runtime.module m k
        (fun r => { r with gatesClaimed := true }) (fun _ => rfl) shared.runtimes
      refine ⟨⟨fun _ h => h, ?_, ?_, fun _ h => h⟩, ?_⟩
      · intro k hknown
        rw [Shared.known] at hknown ⊢
        rw [hupdate]
        split
        · rw [Option.isSome_map]
          exact hknown
        · exact hknown
      · rintro k ⟨r, hr, hclaimed⟩
        rw [GatesClaimed]
        simp only [hupdate, hr]
        split
        · exact ⟨_, rfl, rfl⟩
        · exact ⟨r, rfl, hclaimed⟩
      · intro _
        rw [GatesClaimed]
        simp only [hupdate, if_true, hfind]
        exact ⟨_, rfl, rfl⟩

/-- The record a claim works on: the one the table has, or a fresh one. -/
theorem find_add_patched (shared : Shared) (m : Module) :
    ∃ record, find PatchedPlugin.module m
        (add PatchedPlugin.module ⟨m, false, false⟩ shared.patched) = some record ∧
      ∀ found, find PatchedPlugin.module m shared.patched = some found → found = record := by
  have hfind := find_add PatchedPlugin.module m ⟨m, false, false⟩ shared.patched
  rw [if_pos rfl] at hfind
  cases hold : find PatchedPlugin.module m shared.patched with
  | none =>
    rw [hold] at hfind
    exact ⟨_, hfind, fun _ h => by cases h⟩
  | some found =>
    rw [hold] at hfind
    exact ⟨_, hfind, fun _ h => (Option.some.inj h).symm⟩

/-- A claim of patches wins something exactly when an enabled patch was free. -/
theorem claimPatches_fst :
    ((shared.claimPatches env m).1.1 || (shared.claimPatches env m).1.2) = true →
      ¬PatchesClaimed env shared m := by
  rintro hwin ⟨found, hfound, hflip, hclamp⟩
  obtain ⟨record, hrecord, hsame⟩ := find_add_patched shared m
  have hfound := hsame found hfound
  subst hfound
  simp only [Shared.claimPatches, hrecord, Option.getD_some, Bool.or_eq_true, Bool.and_eq_true,
    Bool.not_eq_true'] at hwin
  rcases hwin with ⟨henabled, hfree⟩ | ⟨henabled, hfree⟩
  · rw [hflip henabled] at hfree
    cases hfree
  · rw [hclamp henabled] at hfree
    cases hfree

/-- After an attempt every enabled patch is claimed, and no claim is lost. -/
theorem claimPatches_extends (env : Environment) (shared : Shared) (m : Module) :
    Extends env shared (shared.claimPatches env m).2 ∧
      PatchesClaimed env (shared.claimPatches env m).2 m := by
  obtain ⟨record, hrecord, hsame⟩ := find_add_patched shared m
  unfold Shared.claimPatches
  simp only [hrecord, Option.getD_some]
  generalize hf : (env.flipEnabled && !record.flipMetering) = flip
  generalize hc : (env.clampEnabled && !record.frameClamp) = clamp
  have hupdate := fun k => find_update PatchedPlugin.module m k
    (fun r => { r with
      flipMetering := r.flipMetering || flip
      frameClamp := r.frameClamp || clamp }) (fun _ => rfl)
    (add PatchedPlugin.module ⟨m, false, false⟩ shared.patched)
  have hwon : (env.flipEnabled = true → (record.flipMetering || flip) = true) ∧
      (env.clampEnabled = true → (record.frameClamp || clamp) = true) := by
    rw [← hf, ← hc]
    constructor
    · intro henabled
      rw [henabled]
      cases record.flipMetering <;> rfl
    · intro henabled
      rw [henabled]
      cases record.frameClamp <;> rfl
  refine ⟨⟨fun _ h => h, fun _ h => h, fun _ h => h, ?_⟩, ?_⟩
  · rintro k ⟨r, hr, hclaimed⟩
    rw [PatchesClaimed]
    simp only [hupdate, find_add_of_some hr]
    split
    · rename_i hk
      subst hk
      obtain rfl := hsame r hr
      exact ⟨_, rfl, hwon⟩
    · exact ⟨r, rfl, hclaimed⟩
  · rw [PatchesClaimed]
    simp only [hupdate, if_true, hrecord]
    exact ⟨_, rfl, hwon⟩

/-- No step on a mapped image loses a claim, except dropping a record. -/
theorem procStep_extends (env : Environment) (shared : Shared) (m : Module) {proc : Proc}
    (hproc : proc ≠ .patchDrop) :
    Extends env shared (procStep env shared m proc).2 := by
  cases proc with
  | patchClaim => exact (claimPatches_extends env shared m).1
  | patchDrop => exact absurd rfl hproc
  | recordInsert => exact (insertRuntime_extends env shared m).1
  | gatesClaim =>
    unfold procStep
    cases env.realArchitecture with
    | supported => exact (claimGates_extends env shared m).1
    | unknown => exact .refl env shared
    | notNeeded => exact .refl env shared
  | write n => cases n <;> exact .refl env shared
  | _ => exact .refl env shared

end Claims

end OpenDlssg.ComponentClaims
