import Mathlib.Data.List.Nodup
import OpenDlssg.TransitionRuns

/-!
# Installing hooks while other threads run

A hook is created, its trampoline is published to the slot the detour reads,
and only then is it enabled. Four routines install hooks, each behind a guard
that one caller at a time passes, and creating or enabling may fail at any
point. Threads of the game call the hooked functions throughout. Whoever
reaches a detour finds the original function behind it.
-/

namespace OpenDlssg.HookInstallation

open TransitionRuns

/-- An address of code; the null pointer is `none`. -/
abbrev Address := ℕ

/-- The routines that install hooks. -/
inductive Routine
  /-- `loader::Start` -/
  | start
  /-- `nvapi::Install` -/
  | nvapi
  /-- `streamline::InstallInterposerHooks` -/
  | interposer
  /-- `vulkan::InstallLoaderHooks` -/
  | vulkanLoader
  deriving DecidableEq

/-- The slots originals are published to. Each is read by one detour. -/
inductive Slot
  | loadLibraryExW
  | getArchInfo
  | setRawScgPriority
  | createCubinShader
  | createCuModule
  | createCuFunction
  | getFeatureFunction
  | init
  | isSupported
  | isLoaded
  | setLoaded
  | getDeviceProcAddr
  | getInstanceProcAddr
  deriving DecidableEq

/-- The hooks of a routine, in the order it installs them. -/
def Routine.slots : Routine → List Slot
  | .start => [.loadLibraryExW]
  | .nvapi => [.getArchInfo, .setRawScgPriority, .createCubinShader, .createCuModule,
      .createCuFunction]
  | .interposer => [.getFeatureFunction, .init, .isSupported, .isLoaded, .setLoaded]
  | .vulkanLoader => [.getDeviceProcAddr, .getInstanceProcAddr]

/-- The routine that installs a hook. -/
def Slot.routine : Slot → Routine
  | .loadLibraryExW => .start
  | .getArchInfo | .setRawScgPriority | .createCubinShader | .createCuModule
  | .createCuFunction => .nvapi
  | .getFeatureFunction | .init | .isSupported | .isLoaded | .setLoaded => .interposer
  | .getDeviceProcAddr | .getInstanceProcAddr => .vulkanLoader

/-- A routine's slots are those that are its own. -/
theorem mem_slots_iff {x : Slot} {r : Routine} : x ∈ r.slots ↔ x.routine = r := by
  cases r <;> cases x <;> decide

/-- None of them is listed twice. -/
theorem nodup_slots (r : Routine) : r.slots.Nodup := by
  cases r <;> decide

/-- A hook of the hooking library: the slot its detour reads, the trampoline
to the original, and whether the target jumps to the detour. -/
structure Hook where
  slot : Slot
  trampoline : Address
  enabled : Bool
  deriving DecidableEq

/-- Whether a routine may be entered. Only `nvapi::Install` tells the last two
apart. -/
inductive Guard
  | idle
  | installing
  | installed
  deriving DecidableEq

/-- What the routines share. -/
structure Shared where
  hooks : Address → Option Hook := fun _ => none
  slots : Slot → Option Address := fun _ => none
  guard : Routine → Guard := fun _ => .idle

namespace Shared

/-- Change what one function is hooked with. -/
def setHook (shared : Shared) (target : Address) (hook : Option Hook) : Shared :=
  { shared with hooks := Function.update shared.hooks target hook }

/-- Store to one slot. -/
def setSlot (shared : Shared) (x : Slot) (original : Option Address) : Shared :=
  { shared with slots := Function.update shared.slots x original }

/-- Move the guard of one routine. -/
def setGuard (shared : Shared) (r : Routine) (guard : Guard) : Shared :=
  { shared with guard := Function.update shared.guard r guard }

/-- Changing a hook leaves the slots. -/
@[simp] theorem slots_setHook (shared : Shared) (target : Address) (hook : Option Hook) :
    (shared.setHook target hook).slots = shared.slots := rfl

/-- It is the hook of its target. -/
@[simp] theorem hooks_setHook_self (shared : Shared) (target : Address) (hook : Option Hook) :
    (shared.setHook target hook).hooks target = hook := Function.update_self _ _ _

/-- It leaves the hooks of other targets. -/
theorem hooks_setHook_of_ne (shared : Shared) {target other : Address} (hne : other ≠ target)
    (hook : Option Hook) : (shared.setHook target hook).hooks other = shared.hooks other :=
  Function.update_of_ne hne _ _

/-- Publishing an original leaves the hooks. -/
@[simp] theorem hooks_setSlot (shared : Shared) (x : Slot) (original : Option Address) :
    (shared.setSlot x original).hooks = shared.hooks := rfl

/-- It is what the slot holds. -/
@[simp] theorem slots_setSlot_self (shared : Shared) (x : Slot) (original : Option Address) :
    (shared.setSlot x original).slots x = original := Function.update_self _ _ _

/-- It leaves the other slots. -/
theorem slots_setSlot_of_ne (shared : Shared) {x y : Slot} (hne : y ≠ x)
    (original : Option Address) : (shared.setSlot x original).slots y = shared.slots y :=
  Function.update_of_ne hne _ _

/-- Moving a guard leaves the hooks. -/
@[simp] theorem hooks_setGuard (shared : Shared) (r : Routine) (guard : Guard) :
    (shared.setGuard r guard).hooks = shared.hooks := rfl

/-- It leaves the slots. -/
@[simp] theorem slots_setGuard (shared : Shared) (r : Routine) (guard : Guard) :
    (shared.setGuard r guard).slots = shared.slots := rfl

/-- It is the routine's guard. -/
@[simp] theorem guard_setGuard_self (shared : Shared) (r : Routine) (guard : Guard) :
    (shared.setGuard r guard).guard r = guard := Function.update_self _ _ _

/-- It leaves the guards of other routines. -/
theorem guard_setGuard_of_ne (shared : Shared) {r other : Routine} (hne : other ≠ r)
    (guard : Guard) : (shared.setGuard r guard).guard other = shared.guard other :=
  Function.update_of_ne hne _ _

/-- Changing a hook leaves the guards. -/
@[simp] theorem guard_setHook (shared : Shared) (target : Address) (hook : Option Hook) :
    (shared.setHook target hook).guard = shared.guard := rfl

/-- So does publishing an original. -/
@[simp] theorem guard_setSlot (shared : Shared) (x : Slot) (original : Option Address) :
    (shared.setSlot x original).guard = shared.guard := rfl

end Shared

/-- What the system answers a step: whether the module is loaded, the function
to hook, the trampoline of a hook created, whether a hook was enabled. -/
structure Answer where
  present : Bool
  target : Option Address
  trampoline : Option Address
  enabled : Bool

/-! ### One hook -/

/-- Where the installation of one hook is. -/
inductive Work
  /-- before the function is looked up -/
  | resolve
  | create (target : Address)
  | publish (target trampoline : Address)
  | enable (target : Address)
  /-- enabling failed -/
  | remove (target : Address)
  /-- the slot is cleared next -/
  | retract
  deriving DecidableEq

/-- The source's `hooks::Install` behind the look-up of its target: the next
step, or whether the hook is installed. -/
def workStep (shared : Shared) (answer : Answer) (x : Slot) : Work → (Work ⊕ Bool) × Shared
  | .resolve =>
    match answer.target with
    | none => (.inr false, shared)
    | some target => (.inl (.create target), shared)
  | .create target =>
    match shared.hooks target, answer.trampoline with
    | none, some trampoline =>
      (.inl (.publish target trampoline),
        shared.setHook target (some ⟨x, trampoline, false⟩))
    -- a function is hooked once; any other failure leaves as little
    | _, _ => (.inr false, shared)
  | .publish target trampoline => (.inl (.enable target), shared.setSlot x (some trampoline))
  | .enable target =>
    match shared.hooks target, answer.enabled with
    | some hook, true => (.inr true, shared.setHook target (some { hook with enabled := true }))
    | _, _ => (.inl (.remove target), shared)
  | .remove target => (.inl .retract, shared.setHook target none)
  | .retract => (.inr false, shared.setSlot x none)

/-! ### The routines -/

/-- Where a call of a routine is. -/
inductive Pc
  | check
  /-- before the guard is taken -/
  | claim
  /-- installing a hook, with those that follow and those that succeeded -/
  | install (work : Work) (slot : Slot) (rest done : List Slot)
  | finish (done : List Slot)
  /-- the guard is given back -/
  | giveUp
  | returned (result : Bool)
  deriving DecidableEq

/-- What a routine answers a caller that finds the guard taken. -/
def Routine.refused : Routine → Guard → Bool
  | .nvapi, guard => guard = .installed
  | _, _ => true

/-- What a routine answers once it has tried all of its hooks. -/
def Routine.result : Routine → List Slot → Bool
  | .interposer, done => .getFeatureFunction ∈ done
  | .vulkanLoader, done => done ≠ []
  | _, _ => true

/-- The guard once a routine has tried all of its hooks. -/
def Routine.guardAfter : Routine → Guard
  | .nvapi => .installed
  | _ => .installing

/-- The next hook, or the end of the routine. -/
def Pc.next (done : List Slot) : List Slot → Pc
  | [] => .finish done
  | x :: rest => .install .resolve x rest done

/-- Where a routine goes once a hook is installed or has failed. Without the
architecture hook `nvapi::Install` gives up. -/
def Pc.after (x : Slot) (rest done : List Slot) (installed : Bool) : Pc :=
  if installed then .next (x :: done) rest
  else if x = .getArchInfo then .giveUp
  else .next done rest

/-- Where a routine goes after a step of a hook's installation. -/
def Pc.continue (x : Slot) (rest done : List Slot) : Work ⊕ Bool → Pc
  | .inl next => .install next x rest done
  | .inr installed => .after x rest done installed

/-- The next step of a call of a routine. -/
def callStep (shared : Shared) (answer : Answer) (r : Routine) : Pc → Option (Pc × Shared)
  | .check =>
    if r = .vulkanLoader ∧ shared.guard r ≠ .idle then some (.returned true, shared)
    else if answer.present then some (.claim, shared)
    else some (.returned false, shared)
  | .claim =>
    if shared.guard r = .idle then some (.next [] r.slots, shared.setGuard r .installing)
    else some (.returned (r.refused (shared.guard r)), shared)
  | .install work x rest done =>
    let stepped := workStep shared answer x work
    some (.continue x rest done stepped.1, stepped.2)
  | .finish done => some (.returned (r.result done), shared.setGuard r r.guardAfter)
  | .giveUp => some (.returned false, shared.setGuard r .idle)
  | .returned _ => none

/-- A thread that called a hooked function. -/
inductive Thread
  /-- in the detour, through a target, before it loads the original -/
  | entered (target : Address) (slot : Slot)
  | loaded (target : Address) (slot : Slot) (original : Option Address)
  deriving DecidableEq

/-- The calls of the routines and the threads in detours. -/
structure State where
  shared : Shared := {}
  calls : ℕ → Option (Routine × Pc) := fun _ => none
  threads : ℕ → Option Thread := fun _ => none

/-- A routine is called, a call takes a step, a thread calls a function, or a
thread in a detour loads the original. -/
inductive Action
  | call (i : ℕ) (r : Routine)
  | advance (i : ℕ) (answer : Answer)
  | arrive (t : ℕ) (target : Address)
  | load (t : ℕ)

/-- The slot of the detour a call of a function reaches, when it is hooked. -/
def Shared.detour (shared : Shared) (target : Address) : Option Slot :=
  (shared.hooks target).bind fun hook => if hook.enabled then some hook.slot else none

/-- The system of all routines and threads. -/
def system : System State Action where
  init s := s = {}
  step s action :=
    match action with
    | .call i r =>
      if s.calls i = none then
        some { s with calls := Function.update s.calls i (some (r, .check)) }
      else none
    | .advance i answer =>
      (s.calls i).bind fun call =>
        (callStep s.shared answer call.1 call.2).map fun next =>
          { s with
            shared := next.2
            calls := Function.update s.calls i (some (call.1, next.1)) }
    | .arrive t target =>
      if s.threads t = none then
        (s.shared.detour target).map fun x =>
          { s with threads := Function.update s.threads t (some (.entered target x)) }
      else none
    | .load t =>
      match s.threads t with
      | some (.entered target x) =>
        some { s with
          threads := Function.update s.threads t (some (.loaded target x (s.shared.slots x))) }
      | _ => none

/-! ### What is known of one hook -/

/-- How far the installation of a hook is. -/
inductive Phase
  /-- nothing of it exists -/
  | absent
  | created (target trampoline : Address)
  | published (target : Address)
  /-- removed again, its slot still holding a trampoline -/
  | removed
  | hooked
  deriving DecidableEq

namespace Shared

variable {shared shared' : Shared} {x y : Slot}

/-- No function is hooked for the slot. -/
def NoHook (shared : Shared) (x : Slot) : Prop :=
  ∀ target hook, shared.hooks target = some hook → hook.slot ≠ x

/-- The one hook for the slot is this one. -/
def SoleHook (shared : Shared) (x : Slot) (target trampoline : Address) (enabled : Bool) : Prop :=
  shared.hooks target = some ⟨x, trampoline, enabled⟩ ∧
    ∀ other hook, shared.hooks other = some hook → hook.slot = x → other = target

/-- The hooks and the slot are as a phase says. -/
def Matches (shared : Shared) (x : Slot) : Phase → Prop
  | .absent => shared.NoHook x ∧ shared.slots x = none
  | .created target trampoline =>
    shared.SoleHook x target trampoline false ∧ shared.slots x = none
  | .published target =>
    ∃ trampoline, shared.SoleHook x target trampoline false ∧ shared.slots x = some trampoline
  | .removed => shared.NoHook x
  | .hooked =>
    ∃ target trampoline, shared.SoleHook x target trampoline true ∧
      shared.slots x = some trampoline

/-- Nothing differs for the slot between two states. -/
def SameFor (shared shared' : Shared) (x : Slot) : Prop :=
  (∀ target hook, hook.slot = x →
    (shared.hooks target = some hook ↔ shared'.hooks target = some hook)) ∧
    shared.slots x = shared'.slots x

/-- A slot without a hook stays so where nothing changes for it. -/
theorem NoHook.congr (h : shared.NoHook x) (hsame : shared.SameFor shared' x) :
    shared'.NoHook x := by
  intro target hook hhook hx
  exact h target hook ((hsame.1 target hook hx).mpr hhook) hx

/-- One with a sole hook keeps it. -/
theorem SoleHook.congr {target trampoline : Address} {enabled : Bool}
    (h : shared.SoleHook x target trampoline enabled) (hsame : shared.SameFor shared' x) :
    shared'.SoleHook x target trampoline enabled := by
  refine ⟨(hsame.1 _ _ rfl).mp h.1, ?_⟩
  intro other hook hhook hx
  exact h.2 other hook ((hsame.1 other hook hx).mpr hhook) hx

/-- A phase depends on nothing else. -/
theorem Matches.congr {phase : Phase} (h : shared.Matches x phase)
    (hsame : shared.SameFor shared' x) : shared'.Matches x phase := by
  cases phase with
  | absent => exact ⟨h.1.congr hsame, hsame.2.symm.trans h.2⟩
  | created target trampoline => exact ⟨h.1.congr hsame, hsame.2.symm.trans h.2⟩
  | published target =>
    obtain ⟨trampoline, hhook, hslot⟩ := h
    exact ⟨trampoline, hhook.congr hsame, hsame.2.symm.trans hslot⟩
  | removed => exact NoHook.congr h hsame
  | hooked =>
    obtain ⟨target, trampoline, hhook, hslot⟩ := h
    exact ⟨target, trampoline, hhook.congr hsame, hsame.2.symm.trans hslot⟩

/-- What a thread in a detour relies on: the hook is enabled and its
trampoline published. -/
def Live (shared : Shared) (x : Slot) (target trampoline : Address) : Prop :=
  shared.hooks target = some ⟨x, trampoline, true⟩ ∧ shared.slots x = some trampoline

/-- A hook that is live stays so where nothing changes for its slot. -/
theorem Live.congr {target trampoline : Address} (h : shared.Live x target trampoline)
    (hsame : shared.SameFor shared' x) : shared'.Live x target trampoline :=
  ⟨(hsame.1 _ _ rfl).mp h.1, hsame.2.symm.trans h.2⟩

/-- Only an installed hook is enabled. -/
theorem Matches.phase_of_enabled {phase : Phase} {target : Address} {hook : Hook}
    (h : shared.Matches x phase) (hhook : shared.hooks target = some hook) (hx : hook.slot = x)
    (henabled : hook.enabled = true) : phase = .hooked := by
  have hsole : ∀ {other trampoline : Address},
      shared.SoleHook x other trampoline false → False := by
    intro other trampoline hother
    have htarget := hother.2 target hook hhook hx
    rw [htarget, hother.1, Option.some.injEq] at hhook
    rw [← hhook] at henabled
    cases henabled
  cases phase with
  | absent => exact absurd hx (h.1 target hook hhook)
  | created other trampoline => exact (hsole h.1).elim
  | published other =>
    obtain ⟨trampoline, hother, _⟩ := h
    exact (hsole hother).elim
  | removed => exact absurd hx (h target hook hhook)
  | hooked => rfl

/-- An enabled hook of an installed slot has its trampoline published. -/
theorem Matches.live {target : Address} {hook : Hook} (h : shared.Matches x .hooked)
    (hhook : shared.hooks target = some hook) (hx : hook.slot = x) :
    ∃ trampoline, shared.Live x target trampoline := by
  obtain ⟨other, trampoline, hsole, hslot⟩ := h
  have htarget := hsole.2 target hook hhook hx
  rw [htarget]
  exact ⟨trampoline, hsole.1, hslot⟩

end Shared

/-- How far a hook is whose installation is at a step. -/
def Work.phase : Work → Phase
  | .resolve | .create _ => .absent
  | .publish target trampoline => .created target trampoline
  | .enable target | .remove target => .published target
  | .retract => .removed

/-- How far a hook is after a step of its installation. -/
def phaseAfter : Work ⊕ Bool → Phase
  | .inl next => next.phase
  | .inr true => .hooked
  | .inr false => .absent

section Work

variable {shared : Shared} {answer : Answer} {x : Slot} {work : Work}

/-- A hook set where the slot has no other is its only one. -/
theorem soleHook_setHook {target trampoline : Address} {enabled : Bool}
    (hothers : ∀ other hook, shared.hooks other = some hook → hook.slot = x → other = target) :
    (shared.setHook target (some ⟨x, trampoline, enabled⟩)).SoleHook x target trampoline
      enabled := by
  refine ⟨shared.hooks_setHook_self _ _, ?_⟩
  intro other hook hhook hx
  by_cases hother : other = target
  · exact hother
  · rw [shared.hooks_setHook_of_ne hother] at hhook
    exact hothers other hook hhook hx

/-- A step of an installation leaves its hook as far as the step says. -/
theorem workStep_matches (h : shared.Matches x work.phase) :
    (workStep shared answer x work).2.Matches x (phaseAfter (workStep shared answer x work).1) := by
  cases work with
  | resolve =>
    cases htarget : answer.target with
    | none =>
      simp only [workStep, htarget]
      exact h
    | some target =>
      simp only [workStep, htarget]
      exact h
  | create target =>
    obtain ⟨hnone, hslot⟩ := h
    cases hhook : shared.hooks target with
    | some hook =>
      simp only [workStep, hhook]
      exact ⟨hnone, hslot⟩
    | none =>
      cases htrampoline : answer.trampoline with
      | none =>
        simp only [workStep, hhook, htrampoline]
        exact ⟨hnone, hslot⟩
      | some trampoline =>
        simp only [workStep, hhook, htrampoline]
        refine ⟨soleHook_setHook fun other hook hother hx => ?_, hslot⟩
        exact absurd hx (hnone other hook hother)
  | publish target trampoline =>
    obtain ⟨hsole, _⟩ := h
    exact ⟨trampoline, hsole, shared.slots_setSlot_self _ _⟩
  | enable target =>
    obtain ⟨trampoline, ⟨hhook, hothers⟩, hslot⟩ := h
    cases henabled : answer.enabled with
    | true =>
      simp only [workStep, hhook, henabled]
      exact ⟨target, trampoline, soleHook_setHook hothers, hslot⟩
    | false =>
      simp only [workStep, hhook, henabled]
      exact ⟨trampoline, ⟨hhook, hothers⟩, hslot⟩
  | remove target =>
    obtain ⟨trampoline, ⟨_, hothers⟩, _⟩ := h
    intro other hook hhook hx
    dsimp only [workStep] at hhook
    by_cases hother : other = target
    · rw [hother, shared.hooks_setHook_self] at hhook
      cases hhook
    · rw [shared.hooks_setHook_of_ne hother] at hhook
      exact hother (hothers other hook hhook hx)
  | retract => exact ⟨h, shared.slots_setSlot_self _ _⟩

/-- A change to the hook of one function, of one slot before and after, leaves
the other slots alone. -/
theorem sameFor_setHook {target : Address} {hook : Option Hook} {y : Slot} (hne : y ≠ x)
    (hbefore : ∀ old, shared.hooks target = some old → old.slot = x)
    (hafter : ∀ new, hook = some new → new.slot = x) :
    shared.SameFor (shared.setHook target hook) y := by
  refine ⟨?_, rfl⟩
  intro other candidate hy
  by_cases hother : other = target
  · rw [hother, shared.hooks_setHook_self]
    constructor
    · intro hold
      exact absurd (hy.symm.trans (hbefore candidate hold)) hne
    · intro hnew
      exact absurd (hy.symm.trans (hafter candidate hnew)) hne
  · rw [shared.hooks_setHook_of_ne hother]

/-- Nothing changes for a slot by itself. -/
theorem sameFor_refl (shared : Shared) (y : Slot) : shared.SameFor shared y :=
  ⟨fun _ _ _ => Iff.rfl, rfl⟩

/-- Publishing an original changes nothing for another slot. -/
theorem sameFor_setSlot (shared : Shared) {y : Slot} (hne : y ≠ x) (original : Option Address) :
    shared.SameFor (shared.setSlot x original) y :=
  ⟨fun _ _ _ => Iff.rfl, (shared.slots_setSlot_of_ne hne original).symm⟩

/-- It leaves every other hook alone. -/
theorem workStep_sameFor (h : shared.Matches x work.phase) {y : Slot} (hne : y ≠ x) :
    shared.SameFor (workStep shared answer x work).2 y := by
  cases work with
  | resolve =>
    cases htarget : answer.target with
    | none =>
      simp only [workStep, htarget]
      exact sameFor_refl shared y
    | some target =>
      simp only [workStep, htarget]
      exact sameFor_refl shared y
  | create target =>
    cases hhook : shared.hooks target with
    | some hook =>
      simp only [workStep, hhook]
      exact sameFor_refl shared y
    | none =>
      cases htrampoline : answer.trampoline with
      | none =>
        simp only [workStep, hhook, htrampoline]
        exact sameFor_refl shared y
      | some trampoline =>
        simp only [workStep, hhook, htrampoline]
        refine sameFor_setHook hne (fun old hold => ?_) (fun new hnew => ?_)
        · rw [hhook] at hold
          cases hold
        · cases hnew
          rfl
  | publish target trampoline => exact sameFor_setSlot shared hne _
  | enable target =>
    obtain ⟨trampoline, ⟨hhook, _⟩, _⟩ := h
    cases henabled : answer.enabled with
    | true =>
      simp only [workStep, hhook, henabled]
      refine sameFor_setHook hne (fun old hold => ?_) (fun new hnew => ?_)
      · rw [hhook] at hold
        cases hold
        rfl
      · cases hnew
        rfl
    | false =>
      simp only [workStep, hhook, henabled]
      exact sameFor_refl shared y
  | remove target =>
    obtain ⟨trampoline, ⟨hhook, _⟩, _⟩ := h
    refine sameFor_setHook hne (fun old hold => ?_) (fun new hnew => by cases hnew)
    rw [hhook] at hold
    cases hold
    rfl
  | retract => exact sameFor_setSlot shared hne _

/-- It moves no guard. -/
theorem guard_workStep : (workStep shared answer x work).2.guard = shared.guard := by
  cases work with
  | resolve => cases htarget : answer.target <;> simp only [workStep, htarget]
  | create target =>
    cases hhook : shared.hooks target <;> cases htrampoline : answer.trampoline <;>
      simp only [workStep, hhook, htrampoline, Shared.guard_setHook]
  | publish target trampoline => rfl
  | enable target =>
    cases hhook : shared.hooks target <;> cases henabled : answer.enabled <;>
      simp only [workStep, hhook, henabled, Shared.guard_setHook]
  | remove target => rfl
  | retract => rfl

/-- It takes no original from a thread in a detour. -/
theorem workStep_live (h : shared.Matches x work.phase) {y : Slot} {target trampoline : Address}
    (hlive : shared.Live y target trampoline) :
    (workStep shared answer x work).2.Live y target trampoline := by
  have hne : y ≠ x := by
    rintro rfl
    have hphase := h.phase_of_enabled hlive.1 rfl rfl
    cases work <;> cases hphase
  exact hlive.congr (workStep_sameFor h hne)

end Work

/-! ### What is known of one routine -/

/-- The call holds the guard. -/
def Pc.inside : Pc → Bool
  | .install _ _ _ _ | .finish _ | .giveUp => true
  | _ => false

/-- The hooks that succeeded are installed and the others do not exist. -/
def phaseOf (done : List Slot) (x : Slot) : Phase := if x ∈ done then .hooked else .absent

/-- How far each hook of a routine is. -/
def Pc.phase : Pc → Slot → Phase
  | .install work x _ done, y => if y = x then work.phase else phaseOf done y
  | .finish done, y => phaseOf done y
  | _, y => phaseOf [] y

/-- The lists a call holds: the hooks that follow are still to come, and the
architecture hook is the first `nvapi::Install` needs. -/
structure Pc.Remaining (r : Routine) (rest done : List Slot) : Prop where
  own : ∀ y ∈ rest, y.routine = r
  fresh : ∀ y ∈ rest, y ∉ done
  nodup : rest.Nodup
  first : r = .nvapi → .getArchInfo ∈ done ∨ (done = [] ∧ .getArchInfo ∈ rest.head?)

/-- What is known of the lists a call holds. -/
def Pc.WellFormed (r : Routine) : Pc → Prop
  | .install _ x rest done => Remaining r (x :: rest) done
  | .finish done => r = .nvapi → .getArchInfo ∈ done
  | _ => True

/-- The state of one routine: not under way, under way in one call, or over. -/
inductive RoutineOk (s : State) (r : Routine) : Prop
  | idle (hguard : s.shared.guard r = .idle)
      (hout : ∀ j pc, s.calls j = some (r, pc) → pc.inside = false)
      (hmatches : ∀ x : Slot, x.routine = r → s.shared.Matches x .absent) : RoutineOk s r
  | running (i : ℕ) (pc : Pc) (hguard : s.shared.guard r = .installing)
      (hcall : s.calls i = some (r, pc)) (hinside : pc.inside = true)
      (honly : ∀ j pc', s.calls j = some (r, pc') → pc'.inside = true → j = i)
      (hwell : pc.WellFormed r)
      (hmatches : ∀ x : Slot, x.routine = r → s.shared.Matches x (pc.phase x)) : RoutineOk s r
  | ended (done : List Slot) (hguard : s.shared.guard r = r.guardAfter)
      (hout : ∀ j pc, s.calls j = some (r, pc) → pc.inside = false)
      (hwell : r = .nvapi → .getArchInfo ∈ done)
      (hmatches : ∀ x : Slot, x.routine = r → s.shared.Matches x (phaseOf done x)) : RoutineOk s r

/-- The hooks that follow, once the first of them is tried. -/
theorem Pc.Remaining.tail {r : Routine} {x : Slot} {rest done : List Slot}
    (h : Remaining r (x :: rest) done) (installed : Bool)
    (hfirst : installed = false → x ≠ .getArchInfo) :
    Remaining r rest (if installed then x :: done else done) := by
  have hx : x ∉ rest := (List.nodup_cons.mp h.nodup).1
  refine ⟨fun y hy => h.own y (List.mem_cons_of_mem _ hy), ?_, (List.nodup_cons.mp h.nodup).2, ?_⟩
  · intro y hy
    have hdone := h.fresh y (List.mem_cons_of_mem _ hy)
    have hne : y ≠ x := fun hyx => hx (hyx ▸ hy)
    cases installed with
    | true => simp [hne, hdone]
    | false => exact hdone
  · intro hr
    have harch := h.first hr
    simp only [List.head?_cons, Option.mem_some_iff] at harch
    cases installed with
    | true =>
      rcases harch with hdone | ⟨_, hhead⟩
      · exact .inl (List.mem_cons_of_mem _ hdone)
      · rw [hhead]
        exact .inl List.mem_cons_self
    | false =>
      rcases harch with hdone | ⟨_, hhead⟩
      · exact .inl hdone
      · exact absurd hhead (hfirst rfl)

/-- Where the lists lead next. -/
theorem Pc.Remaining.next {r : Routine} {rest done : List Slot} (h : Remaining r rest done) :
    (Pc.next done rest).WellFormed r := by
  cases rest with
  | nil =>
    intro hr
    rcases h.first hr with hdone | ⟨_, hhead⟩
    · exact hdone
    · cases hhead
  | cons x rest => exact h

/-- Before it starts, a hook that follows does not exist. -/
theorem Pc.phase_next {rest done : List Slot} (hfresh : ∀ y ∈ rest, y ∉ done) (y : Slot) :
    (Pc.next done rest).phase y = phaseOf done y := by
  cases rest with
  | nil => rfl
  | cons x rest =>
    simp only [Pc.next, Pc.phase]
    split
    · rename_i hy
      rw [hy, phaseOf, if_neg (hfresh x List.mem_cons_self)]
      rfl
    · rfl

/-- A call that goes on to the next hook, or to the end, holds the guard. -/
theorem Pc.inside_next (rest done : List Slot) : (Pc.next done rest).inside = true := by
  cases rest with
  | nil => rfl
  | cons x rest => rfl

/-- So does one that has just tried a hook. -/
theorem Pc.inside_after (x : Slot) (rest done : List Slot) (installed : Bool) :
    (Pc.after x rest done installed).inside = true := by
  unfold Pc.after
  split
  · exact inside_next _ _
  · split
    · rfl
    · exact inside_next _ _

/-- Only the architecture hook is given up on, and it is tried first. -/
theorem Pc.Remaining.nothing_done {r : Routine} {rest done : List Slot}
    (h : Remaining r (.getArchInfo :: rest) done) : done = [] := by
  have hr : r = .nvapi := (h.own _ List.mem_cons_self).symm
  rcases h.first hr with hdone | ⟨hdone, _⟩
  · exact absurd hdone (h.fresh _ List.mem_cons_self)
  · exact hdone

/-- Where a slot is done, what remains is still well formed. -/
theorem Pc.Remaining.after {r : Routine} {x : Slot} {rest done : List Slot}
    (h : Remaining r (x :: rest) done) (installed : Bool) :
    (Pc.after x rest done installed).WellFormed r := by
  cases installed with
  | true => exact (h.tail true nofun).next
  | false =>
    simp only [Pc.after, Bool.false_eq_true, if_false]
    split
    · trivial
    · rename_i hx
      exact (h.tail false fun _ => hx).next

/-- How far the hooks of a routine are once one of them is tried. -/
theorem Pc.Remaining.phase_after {r : Routine} {x : Slot} {rest done : List Slot}
    (h : Remaining r (x :: rest) done) (installed : Bool) (y : Slot) :
    (Pc.after x rest done installed).phase y =
      if y = x then phaseAfter (.inr installed) else phaseOf done y := by
  have hx : x ∉ done := h.fresh x List.mem_cons_self
  cases installed with
  | true =>
    have hfresh : ∀ z ∈ rest, z ∉ x :: done := (h.tail true nofun).fresh
    simp only [Pc.after, if_true]
    rw [phase_next hfresh]
    by_cases hy : y = x
    · simp [phaseOf, phaseAfter, hy]
    · simp [phaseOf, hy]
  | false =>
    simp only [Pc.after, Bool.false_eq_true, if_false, phaseAfter]
    split
    · rename_i harch
      subst harch
      rw [h.nothing_done]
      simp [Pc.phase, phaseOf]
    · rename_i harch
      have hfresh : ∀ z ∈ rest, z ∉ done := (h.tail false fun _ => harch).fresh
      rw [phase_next hfresh]
      by_cases hy : y = x
      · simp [phaseOf, hx, hy]
      · rw [if_neg hy]

/-- Nothing of this changes while a hook is under way. -/
theorem Pc.inside_continue (x : Slot) (rest done : List Slot) (result : Work ⊕ Bool) :
    (Pc.continue x rest done result).inside = true := by
  cases result with
  | inl next => rfl
  | inr installed => exact inside_after _ _ _ _

/-- So it is where a slot's work goes on. -/
theorem Pc.Remaining.continue {r : Routine} {x : Slot} {rest done : List Slot}
    (h : Remaining r (x :: rest) done) (result : Work ⊕ Bool) :
    (Pc.continue x rest done result).WellFormed r := by
  cases result with
  | inl next => exact h
  | inr installed => exact h.after installed

/-- Only the phase of the slot that is worked on moves. -/
theorem Pc.Remaining.phase_continue {r : Routine} {x : Slot} {rest done : List Slot}
    (h : Remaining r (x :: rest) done) (result : Work ⊕ Bool) (y : Slot) :
    (Pc.continue x rest done result).phase y =
      if y = x then phaseAfter result else phaseOf done y := by
  cases result with
  | inl next => rfl
  | inr installed => exact h.phase_after installed y

section Routine

variable {s s' : State} {r : Routine} {i : ℕ} {pc pc' : Pc} {shared' : Shared} {answer : Answer}

/-- What is known of a routine depends on its guard, its hooks and slots, and
the calls that hold the guard. -/
theorem RoutineOk.frame (h : RoutineOk s r) (hguard : s'.shared.guard r = s.shared.guard r)
    (hsame : ∀ x : Slot, x.routine = r → s.shared.SameFor s'.shared x)
    (hcalls : ∀ j pc, pc.inside = true → (s'.calls j = some (r, pc) ↔ s.calls j = some (r, pc))) :
    RoutineOk s' r := by
  have hout : (∀ j pc, s.calls j = some (r, pc) → pc.inside = false) →
      ∀ j pc, s'.calls j = some (r, pc) → pc.inside = false := by
    intro hbefore j pc hj
    by_contra hinside
    rw [Bool.not_eq_false] at hinside
    have hfalse := hbefore j pc ((hcalls j pc hinside).mp hj)
    rw [hinside] at hfalse
    cases hfalse
  cases h with
  | idle hidle hbefore hmatches =>
    exact .idle (hguard.trans hidle) (hout hbefore)
      fun x hx => (hmatches x hx).congr (hsame x hx)
  | running i pc hrunning hcall hinside honly hwell hmatches =>
    refine .running i pc (hguard.trans hrunning) ((hcalls i pc hinside).mpr hcall) hinside ?_ hwell
      fun x hx => (hmatches x hx).congr (hsame x hx)
    intro j pc' hj hinside'
    exact honly j pc' ((hcalls j pc' hinside').mp hj) hinside'
  | ended done hended hbefore hwell hmatches =>
    exact .ended done (hguard.trans hended) (hout hbefore) hwell
      fun x hx => (hmatches x hx).congr (hsame x hx)

/-- The call that holds the guard is the one under way. -/
theorem RoutineOk.of_inside (h : RoutineOk s r) (hcall : s.calls i = some (r, pc))
    (hinside : pc.inside = true) :
    s.shared.guard r = .installing ∧
      (∀ j pc', s.calls j = some (r, pc') → pc'.inside = true → j = i) ∧ pc.WellFormed r ∧
      ∀ x : Slot, x.routine = r → s.shared.Matches x (pc.phase x) := by
  cases h with
  | idle _ hout _ =>
    have hfalse := hout i pc hcall
    rw [hinside] at hfalse
    cases hfalse
  | running j pc' hguard hcall' _ honly hwell hmatches =>
    have hij := honly i pc hcall hinside
    rw [← hij, hcall] at hcall'
    cases hcall'
    rw [hij]
    exact ⟨hguard, honly, hwell, hmatches⟩
  | ended _ _ hout _ _ =>
    have hfalse := hout i pc hcall
    rw [hinside] at hfalse
    cases hfalse

/-- A routine whose guard is free has not started. -/
theorem RoutineOk.of_idle (h : RoutineOk s r) (hguard : s.shared.guard r = .idle) :
    (∀ j pc, s.calls j = some (r, pc) → pc.inside = false) ∧
      ∀ x : Slot, x.routine = r → s.shared.Matches x .absent := by
  cases h with
  | idle _ hout hmatches => exact ⟨hout, hmatches⟩
  | running _ _ hrunning _ _ _ _ _ =>
    rw [hguard] at hrunning
    cases hrunning
  | ended _ hended _ _ _ =>
    rw [hguard] at hended
    cases r <;> cases hended

/-- A call that does not hold the guard keeps what is known when it takes a
step that leaves it without. -/
theorem RoutineOk.outside (h : RoutineOk s r) (hcall : s.calls i = some (r, pc))
    (hbefore : pc.inside = false) (hafter : pc'.inside = false) :
    RoutineOk { s with calls := Function.update s.calls i (some (r, pc')) } r := by
  refine h.frame rfl (fun x _ => sameFor_refl _ x) ?_
  intro j other hinside
  dsimp only
  by_cases hj : j = i
  · rw [hj, Function.update_self, hcall]
    constructor
    · intro heq
      cases heq
      rw [hinside] at hafter
      cases hafter
    · intro heq
      cases heq
      rw [hinside] at hbefore
      cases hbefore
  · rw [Function.update_of_ne hj]

/-- The calls after a step that leaves no call with the guard but this one. -/
theorem sole_of_update {call : Routine × Pc}
    (hout : ∀ j pc', s.calls j = some (r, pc') → pc'.inside = true → j = i) :
    ∀ j pc', Function.update s.calls i (some call) j = some (r, pc') → pc'.inside = true →
      j = i := by
  intro j pc' hj hinside
  by_cases hji : j = i
  · exact hji
  · rw [Function.update_of_ne hji] at hj
    exact hout j pc' hj hinside

/-- No call holds the guard once the one that did lets go. -/
theorem outside_of_update (hout : ∀ j pc', s.calls j = some (r, pc') → pc'.inside = true → j = i)
    (hafter : pc'.inside = false) :
    ∀ j other, Function.update s.calls i (some (r, pc')) j = some (r, other) →
      other.inside = false := by
  intro j other hj
  by_contra hinside
  rw [Bool.not_eq_false] at hinside
  have hji := sole_of_update hout j other hj hinside
  rw [hji, Function.update_self] at hj
  cases hj
  rw [hafter] at hinside
  cases hinside

/-- The lists a routine starts with. -/
theorem Pc.Remaining.start (r : Routine) : Remaining r r.slots [] where
  own y hy := mem_slots_iff.mp hy
  fresh _ _ := List.not_mem_nil
  nodup := nodup_slots r
  first hr := .inr ⟨rfl, by rw [hr]; rfl⟩

/-- A step of a call keeps what is known of its routine. -/
theorem RoutineOk.step (h : RoutineOk s r) (hcall : s.calls i = some (r, pc))
    (hstep : callStep s.shared answer r pc = some (pc', shared')) :
    RoutineOk { s with
      shared := shared'
      calls := Function.update s.calls i (some (r, pc')) } r := by
  cases pc with
  | check =>
    have hkeep : shared' = s.shared ∧ pc'.inside = false := by
      dsimp only [callStep] at hstep
      split at hstep
      · cases hstep
        exact ⟨rfl, rfl⟩
      · split at hstep <;> cases hstep <;> exact ⟨rfl, rfl⟩
    rw [hkeep.1]
    exact h.outside hcall rfl hkeep.2
  | claim =>
    by_cases hidle : s.shared.guard r = .idle
    · simp only [callStep, if_pos hidle] at hstep
      cases hstep
      obtain ⟨hout, hmatches⟩ := h.of_idle hidle
      have hnone : ∀ j pc', s.calls j = some (r, pc') → pc'.inside = true → j = i := by
        intro j pc' hj hinside
        rw [hout j pc' hj] at hinside
        cases hinside
      refine .running i _ (s.shared.guard_setGuard_self _ _) (Function.update_self _ _ _)
        (Pc.inside_next _ _) (sole_of_update hnone) (Pc.Remaining.start r).next ?_
      intro x hx
      rw [Pc.phase_next (Pc.Remaining.start r).fresh]
      exact (hmatches x hx).congr (sameFor_refl s.shared x)
    · simp only [callStep, if_neg hidle] at hstep
      cases hstep
      exact h.outside hcall rfl rfl
  | install work x rest done =>
    obtain ⟨hguard, honly, hwell, hmatches⟩ := h.of_inside hcall rfl
    have hremaining : Pc.Remaining r (x :: rest) done := hwell
    have hx : x.routine = r := hremaining.own x List.mem_cons_self
    have hwork : s.shared.Matches x work.phase := by
      have hx := hmatches x hx
      rwa [Pc.phase, if_pos rfl] at hx
    have hafter : ∀ y : Slot, y.routine = r → (workStep s.shared answer x work).2.Matches y
        (if y = x then phaseAfter (workStep s.shared answer x work).1 else phaseOf done y) := by
      intro y hy
      split
      · rename_i hyx
        rw [hyx]
        exact workStep_matches hwork
      · rename_i hyx
        have hother := hmatches y hy
        rw [Pc.phase, if_neg hyx] at hother
        exact hother.congr (workStep_sameFor hwork hyx)
    cases hstep
    refine .running i _ (by rw [guard_workStep]; exact hguard) (Function.update_self _ _ _)
      (Pc.inside_continue _ _ _ _) (sole_of_update honly) (hremaining.continue _) ?_
    intro y hy
    rw [hremaining.phase_continue]
    exact hafter y hy
  | finish done =>
    obtain ⟨_, honly, hwell, hmatches⟩ := h.of_inside hcall rfl
    cases hstep
    exact .ended done (s.shared.guard_setGuard_self _ _) (outside_of_update honly rfl) hwell
      fun x hx => (hmatches x hx).congr (sameFor_refl s.shared x)
  | giveUp =>
    obtain ⟨_, honly, _, hmatches⟩ := h.of_inside hcall rfl
    cases hstep
    exact .idle (s.shared.guard_setGuard_self _ _) (outside_of_update honly rfl)
      fun x hx => (hmatches x hx).congr (sameFor_refl s.shared x)
  | returned result => cases hstep

/-- A step of a call leaves the hooks of the other routines alone. -/
theorem RoutineOk.step_sameFor (h : RoutineOk s r) (hcall : s.calls i = some (r, pc))
    (hstep : callStep s.shared answer r pc = some (pc', shared')) {y : Slot}
    (hy : y.routine ≠ r) : s.shared.SameFor shared' y := by
  cases pc with
  | check =>
    dsimp only [callStep] at hstep
    split at hstep
    · cases hstep
      exact sameFor_refl _ y
    · split at hstep <;> cases hstep <;> exact sameFor_refl _ y
  | claim =>
    dsimp only [callStep] at hstep
    split at hstep <;> cases hstep <;> exact sameFor_refl _ y
  | install work x rest done =>
    obtain ⟨_, _, hwell, hmatches⟩ := h.of_inside hcall rfl
    have hx : x.routine = r := Pc.Remaining.own hwell x List.mem_cons_self
    have hwork := hmatches x hx
    rw [Pc.phase, if_pos rfl] at hwork
    cases hstep
    refine workStep_sameFor hwork ?_
    rintro rfl
    exact hy hx
  | finish done =>
    cases hstep
    exact sameFor_refl _ y
  | giveUp =>
    cases hstep
    exact sameFor_refl _ y
  | returned result => cases hstep

/-- It takes no original from a thread in a detour. -/
theorem RoutineOk.step_live (h : RoutineOk s r) (hcall : s.calls i = some (r, pc))
    (hstep : callStep s.shared answer r pc = some (pc', shared')) {y : Slot}
    {target trampoline : Address} (hlive : s.shared.Live y target trampoline) :
    shared'.Live y target trampoline := by
  cases pc with
  | check =>
    dsimp only [callStep] at hstep
    split at hstep
    · cases hstep
      exact hlive
    · split at hstep <;> cases hstep <;> exact hlive
  | claim =>
    dsimp only [callStep] at hstep
    split at hstep <;> cases hstep <;> exact hlive
  | install work x rest done =>
    obtain ⟨_, _, hwell, hmatches⟩ := h.of_inside hcall rfl
    have hwork := hmatches x (Pc.Remaining.own hwell x List.mem_cons_self)
    rw [Pc.phase, if_pos rfl] at hwork
    cases hstep
    exact workStep_live hwork hlive
  | finish done =>
    cases hstep
    exact hlive
  | giveUp =>
    cases hstep
    exact hlive
  | returned result => cases hstep

/-- It moves no guard but its own. -/
theorem callStep_guard_of_ne {shared : Shared} {other : Routine} (hne : other ≠ r)
    (hstep : callStep shared answer r pc = some (pc', shared')) :
    shared'.guard other = shared.guard other := by
  cases pc with
  | check =>
    dsimp only [callStep] at hstep
    split at hstep
    · cases hstep
      rfl
    · split at hstep <;> cases hstep <;> rfl
  | claim =>
    dsimp only [callStep] at hstep
    split at hstep <;> cases hstep
    · exact shared.guard_setGuard_of_ne hne _
    · rfl
  | install work x rest done =>
    cases hstep
    rw [guard_workStep]
  | finish done =>
    cases hstep
    exact shared.guard_setGuard_of_ne hne _
  | giveUp =>
    cases hstep
    exact shared.guard_setGuard_of_ne hne _
  | returned result => cases hstep

/-- `nvapi::Install` answers true only where the hooks are installed. -/
theorem callStep_installed {shared : Shared}
    (hstep : callStep shared answer .nvapi pc = some (.returned true, shared')) :
    shared'.guard .nvapi = .installed := by
  cases pc with
  | check =>
    dsimp only [callStep] at hstep
    split at hstep
    · rename_i hvulkan
      cases hvulkan.1
    · split at hstep <;> cases hstep
  | claim =>
    dsimp only [callStep] at hstep
    split at hstep
    · cases hstep
    · rw [Option.some.injEq, Prod.mk.injEq, Pc.returned.injEq] at hstep
      rw [← hstep.2]
      exact of_decide_eq_true hstep.1
  | install work x rest done =>
    have hinside := Pc.inside_continue x rest done (workStep shared answer x work).1
    rw [callStep, Option.some.injEq, Prod.mk.injEq] at hstep
    rw [hstep.1] at hinside
    cases hinside
  | finish done =>
    cases hstep
    exact shared.guard_setGuard_self _ _
  | giveUp => cases hstep
  | returned result => cases hstep

/-- Once installed, they stay so. -/
theorem RoutineOk.step_installed (h : RoutineOk s .nvapi) (hcall : s.calls i = some (.nvapi, pc))
    (hstep : callStep s.shared answer .nvapi pc = some (pc', shared'))
    (hguard : s.shared.guard .nvapi = .installed) : shared'.guard .nvapi = .installed := by
  have houtside : pc.inside = false := by
    by_contra hinside
    rw [Bool.not_eq_false] at hinside
    have hrunning := (h.of_inside hcall hinside).1
    rw [hguard] at hrunning
    cases hrunning
  cases pc with
  | check =>
    dsimp only [callStep] at hstep
    split at hstep
    · cases hstep
      exact hguard
    · split at hstep <;> cases hstep <;> exact hguard
  | claim =>
    dsimp only [callStep] at hstep
    split at hstep
    · rename_i hidle
      rw [hguard] at hidle
      cases hidle
    · cases hstep
      exact hguard
  | install work x rest done => cases houtside
  | finish done => cases houtside
  | giveUp => cases houtside
  | returned result => cases hstep

end Routine

/-! ### Every run -/

/-- What holds in every state. -/
structure Invariant (s : State) : Prop where
  routine : ∀ r, RoutineOk s r
  entered : ∀ t target x, s.threads t = some (.entered target x) →
    ∃ trampoline, s.shared.Live x target trampoline
  loaded : ∀ t target x original, s.threads t = some (.loaded target x original) →
    ∃ trampoline, original = some trampoline ∧ s.shared.Live x target trampoline
  told : ∀ i, s.calls i = some (.nvapi, .returned true) → s.shared.guard .nvapi = .installed

/-- It holds before the first attempt. -/
theorem Invariant.start : Invariant {} where
  routine r := by
    refine .idle rfl (fun j pc hj => by cases hj) ?_
    intro x _
    exact ⟨fun target hook hhook => (by cases hhook), rfl⟩
  entered t target x ht := by cases ht
  loaded t target x original ht := by cases ht
  told i hi := by cases hi

section Steps

variable {s : State} {i t : ℕ} {r : Routine} {pc pc' : Pc} {shared' : Shared} {answer : Answer}

/-- A thread in a detour came through an enabled hook. -/
theorem Invariant.live (h : Invariant s) {target : Address} {x : Slot}
    (hdetour : s.shared.detour target = some x) :
    ∃ trampoline, s.shared.Live x target trampoline := by
  obtain ⟨hook, hhook, hslot⟩ := Option.bind_eq_some_iff.mp hdetour
  have henabled : hook.enabled = true ∧ hook.slot = x := by
    split at hslot
    · rename_i henabled
      exact ⟨henabled, Option.some.inj hslot⟩
    · cases hslot
  have hlive : ∀ phase, s.shared.Matches x phase →
      ∃ trampoline, s.shared.Live x target trampoline := by
    intro phase hmatches
    have hphase := hmatches.phase_of_enabled hhook henabled.2 henabled.1
    rw [hphase] at hmatches
    exact hmatches.live hhook henabled.2
  cases h.routine x.routine with
  | idle _ _ hmatches => exact hlive _ (hmatches x rfl)
  | running _ _ _ _ _ _ _ hmatches => exact hlive _ (hmatches x rfl)
  | ended _ _ _ _ hmatches => exact hlive _ (hmatches x rfl)

/-- A new call holds no guard. -/
theorem Invariant.call (h : Invariant s) (hfree : s.calls i = none) :
    Invariant { s with calls := Function.update s.calls i (some (r, .check)) } := by
  refine ⟨fun other => ?_, h.entered, h.loaded, ?_⟩
  · refine (h.routine other).frame rfl (fun x _ => sameFor_refl _ x) ?_
    intro j pc hinside
    dsimp only
    by_cases hj : j = i
    · rw [hj, Function.update_self, hfree]
      constructor
      · intro heq
        cases heq
        cases hinside
      · intro heq
        cases heq
    · rw [Function.update_of_ne hj]
  · intro j hj
    dsimp only at hj
    by_cases hji : j = i
    · rw [hji, Function.update_self] at hj
      cases hj
    · rw [Function.update_of_ne hji] at hj
      exact h.told j hj

/-- A step of a call keeps the invariant. -/
theorem Invariant.advance (h : Invariant s) (hcall : s.calls i = some (r, pc))
    (hstep : callStep s.shared answer r pc = some (pc', shared')) :
    Invariant { s with
      shared := shared'
      calls := Function.update s.calls i (some (r, pc')) } := by
  have hlive : ∀ {x target trampoline}, s.shared.Live x target trampoline →
      shared'.Live x target trampoline := fun hlive => (h.routine r).step_live hcall hstep hlive
  refine ⟨fun other => ?_, ?_, ?_, ?_⟩
  · by_cases hother : other = r
    · rw [hother]
      exact (h.routine r).step hcall hstep
    · refine (h.routine other).frame (callStep_guard_of_ne hother hstep) ?_ ?_
      · intro x hx
        exact (h.routine r).step_sameFor hcall hstep fun hxr => hother (hx.symm.trans hxr)
      · intro j pc _
        dsimp only
        by_cases hj : j = i
        · rw [hj, Function.update_self, hcall]
          constructor
          · intro heq
            cases heq
            exact absurd rfl hother
          · intro heq
            cases heq
            exact absurd rfl hother
        · rw [Function.update_of_ne hj]
  · intro t target x ht
    obtain ⟨trampoline, hbefore⟩ := h.entered t target x ht
    exact ⟨trampoline, hlive hbefore⟩
  · intro t target x original ht
    obtain ⟨trampoline, horiginal, hbefore⟩ := h.loaded t target x original ht
    exact ⟨trampoline, horiginal, hlive hbefore⟩
  · intro j hj
    dsimp only at hj
    by_cases hji : j = i
    · rw [hji, Function.update_self] at hj
      cases hj
      exact callStep_installed hstep
    · rw [Function.update_of_ne hji] at hj
      have hguard := h.told j hj
      by_cases hr : r = .nvapi
      · subst hr
        exact (h.routine .nvapi).step_installed hcall hstep hguard
      · exact (callStep_guard_of_ne (Ne.symm hr) hstep).trans hguard

/-- A thread enters a detour, or loads the original there. -/
theorem Invariant.thread (h : Invariant s) {thread : Thread}
    (hentered : ∀ target x, thread = .entered target x →
      ∃ trampoline, s.shared.Live x target trampoline)
    (hloaded : ∀ target x original, thread = .loaded target x original →
      ∃ trampoline, original = some trampoline ∧ s.shared.Live x target trampoline) :
    Invariant { s with threads := Function.update s.threads t (some thread) } := by
  refine ⟨fun r => ?_, ?_, ?_, h.told⟩
  · exact (h.routine r).frame rfl (fun x _ => sameFor_refl _ x) fun _ _ _ => Iff.rfl
  · intro u target x hu
    dsimp only at hu
    by_cases hut : u = t
    · rw [hut, Function.update_self, Option.some.injEq] at hu
      exact hentered target x hu
    · rw [Function.update_of_ne hut] at hu
      exact h.entered u target x hu
  · intro u target x original hu
    dsimp only at hu
    by_cases hut : u = t
    · rw [hut, Function.update_self, Option.some.injEq] at hu
      exact hloaded target x original hu
    · rw [Function.update_of_ne hut] at hu
      exact h.loaded u target x original hu

/-- Every step keeps it. -/
theorem Invariant.step {s' : State} {action : Action} (h : Invariant s)
    (hstep : system.step s action = some s') : Invariant s' := by
  cases action with
  | call i r =>
    dsimp only [system] at hstep
    split at hstep
    · rename_i hfree
      cases hstep
      exact h.call hfree
    · cases hstep
  | advance i answer =>
    obtain ⟨⟨r, pc⟩, hcall, hnext⟩ := Option.bind_eq_some_iff.mp hstep
    obtain ⟨⟨pc', shared'⟩, hcallStep, rfl⟩ := Option.map_eq_some_iff.mp hnext
    exact h.advance hcall hcallStep
  | arrive t target =>
    dsimp only [system] at hstep
    split at hstep
    · obtain ⟨x, hdetour, rfl⟩ := Option.map_eq_some_iff.mp hstep
      refine h.thread ?_ (fun _ _ _ heq => by cases heq)
      intro target' x' heq
      cases heq
      exact h.live hdetour
    · cases hstep
  | load t =>
    dsimp only [system] at hstep
    split at hstep
    · rename_i target x hentered
      cases hstep
      refine h.thread (fun _ _ heq => by cases heq) ?_
      intro target' x' original heq
      cases heq
      obtain ⟨trampoline, hlive⟩ := h.entered t target x hentered
      exact ⟨trampoline, hlive.2, hlive⟩
    · cases hstep

end Steps

/-- The invariant holds in every state. -/
theorem invariant_of_reachable {s : State} (h : system.Reachable s) : Invariant s := by
  refine h.invariant Invariant ?_ ?_
  · intro s hs
    have hs : s = {} := hs
    rw [hs]
    exact Invariant.start
  · intro s action t hs _ ht
    exact hs.step ht

/-- No call of the routine holds its guard. -/
def AtRest (s : State) (r : Routine) : Prop :=
  ∀ i pc, s.calls i = some (r, pc) → pc.inside = false

/-- A detour that runs has its original: what it loads is the trampoline of the
hook it was entered through, which stays enabled. -/
theorem original_present {s : State} (h : system.Reachable s) {t : ℕ} {target : Address} {x : Slot}
    {original : Option Address} (ht : s.threads t = some (.loaded target x original)) :
    ∃ trampoline, original = some trampoline ∧
      s.shared.hooks target = some ⟨x, trampoline, true⟩ := by
  obtain ⟨trampoline, horiginal, hlive⟩ := (invariant_of_reachable h).loaded t target x original ht
  exact ⟨trampoline, horiginal, hlive.1⟩

/-- Where the hooks of a routine at rest are. -/
theorem matches_of_atRest {s : State} (h : system.Reachable s) {r : Routine} (hrest : AtRest s r)
    {x : Slot} (hx : x.routine = r) :
    s.shared.Matches x .absent ∨ (s.shared.Matches x .hooked ∧ s.shared.guard r ≠ .idle) := by
  cases (invariant_of_reachable h).routine r with
  | idle _ _ hmatches => exact .inl (hmatches x hx)
  | running i pc _ hcall hinside _ _ _ =>
    rw [hrest i pc hcall] at hinside
    cases hinside
  | ended done hguard _ _ hmatches =>
    have hphase := hmatches x hx
    by_cases hdone : x ∈ done
    · rw [phaseOf, if_pos hdone] at hphase
      refine .inr ⟨hphase, ?_⟩
      rw [hguard]
      cases r <;> nofun
    · rw [phaseOf, if_neg hdone] at hphase
      exact .inl hphase

/-- An attempt leaves each of its hooks either whole (created, published and
enabled) or without a trace, and all of them without a trace where another
attempt may follow. `nvapi::Install` answers true only where the architecture
hook is whole. -/
theorem hooks_whole_or_absent {s : State} (h : system.Reachable s) :
    (∀ r, AtRest s r → ∀ x : Slot, x.routine = r →
      s.shared.Matches x .absent ∨ (s.shared.Matches x .hooked ∧ s.shared.guard r ≠ .idle)) ∧
      ∀ i, s.calls i = some (.nvapi, .returned true) → s.shared.Matches .getArchInfo .hooked := by
  refine ⟨fun r hrest x hx => matches_of_atRest h hrest hx, ?_⟩
  intro i hi
  have hinvariant := invariant_of_reachable h
  have hguard := hinvariant.told i hi
  cases hinvariant.routine .nvapi with
  | idle hidle _ _ =>
    rw [hguard] at hidle
    cases hidle
  | running _ _ hrunning _ _ _ _ _ =>
    rw [hguard] at hrunning
    cases hrunning
  | ended done _ _ hwell hmatches =>
    have hphase := hmatches .getArchInfo rfl
    rwa [phaseOf, if_pos (hwell rfl)] at hphase

/-- The answers of an installation in which nothing fails. -/
def granted (target : Address) : Answer := ⟨true, some target, some (target + 1000), true⟩

/-- The answers of one in which enabling fails. -/
def unenabled (target : Address) : Answer := ⟨true, some target, some (target + 1000), false⟩

/-- The answers of one whose function does not exist. -/
def missing : Answer := ⟨true, none, none, false⟩

/-- Two threads call `nvapi::Install`; the architecture hook of the first
cannot be enabled and the second finds the guard taken. A third call installs
it, while the interposer is hooked and a thread asks for the architecture. -/
def retriedRun : List Action :=
  [.call 0 .nvapi, .call 1 .nvapi] ++ List.replicate 5 (.advance 0 (granted 16)) ++
    [.advance 1 (granted 16), .advance 1 (granted 16)] ++
    List.replicate 4 (.advance 0 (unenabled 16)) ++
    [.call 2 .nvapi, .call 3 .interposer] ++ List.replicate 3 (.advance 2 (granted 16)) ++
    List.replicate 4 (.advance 3 (granted 32)) ++
    [.advance 2 (granted 16), .advance 2 (granted 16), .advance 2 (granted 16), .arrive 0 16] ++
    List.replicate 5 (.advance 2 missing) ++ [.load 0]

/-- Where it ends. -/
def retriedState : State := (system.runUnder (fun _ _ => True) {} retriedRun).getD {}

/-- The retry is a run. -/
theorem retriedState_reachable : system.Reachable retriedState :=
  System.reachable_getD_runUnder (.start rfl) (by decide +kernel)

/-- The thread that entered has its original. -/
theorem original_present_retried :
    retriedState.threads 0 = some (.loaded 16 .getArchInfo (some 1016)) ∧
      ∃ trampoline, some 1016 = some trampoline ∧
        retriedState.shared.hooks 16 = some ⟨.getArchInfo, trampoline, true⟩ :=
  ⟨by decide +kernel, original_present retriedState_reachable (t := 0) (by decide +kernel)⟩

/-- The first two calls are told so, and the guard is free for the third. -/
example : retriedState.calls 0 = some (.nvapi, .returned false) ∧
    retriedState.calls 1 = some (.nvapi, .returned false) := by decide +kernel

/-- And the attempt that succeeded left its hook whole. -/
theorem hooks_whole_or_absent_retried :
    retriedState.calls 2 = some (.nvapi, .returned true) ∧
      retriedState.shared.Matches .getArchInfo .hooked :=
  ⟨by decide +kernel,
    (hooks_whole_or_absent retriedState_reachable).2 2 (by decide +kernel)⟩

end OpenDlssg.HookInstallation
