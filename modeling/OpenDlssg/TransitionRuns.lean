import Mathlib.Logic.Function.Basic
import Mathlib.Tactic.TypeStar

/-!
# Runs of labelled transition systems

A system takes a step for an action when the action is enabled. Its reachable
states are those of the runs whose every step meets a condition on the state
before it and the action taken; with no condition they are all of its runs. An
invariant is proved once: it holds initially and every such step keeps it.
-/

namespace OpenDlssg.TransitionRuns

universe u v

/-- A system over states and actions: where it starts, and the state an
enabled action leads to. -/
structure System (σ : Type u) (α : Type v) where
  init : σ → Prop
  step : σ → α → Option σ

variable {σ : Type u} {α : Type v}

/-- The states of the runs whose every step meets a condition. -/
inductive System.ReachableUnder (system : System σ α) (condition : σ → α → Prop) : σ → Prop
  | start {s : σ} : system.init s → system.ReachableUnder condition s
  | next {s t : σ} {a : α} : system.ReachableUnder condition s → condition s a →
      system.step s a = some t → system.ReachableUnder condition t

/-- The states of all runs. -/
abbrev System.Reachable (system : System σ α) : σ → Prop :=
  system.ReachableUnder fun _ _ => True

namespace System

variable {system : System σ α} {condition : σ → α → Prop}

/-- What holds at the start and is kept by every step that meets the condition
holds in every state such steps reach. -/
theorem ReachableUnder.invariant (holds : σ → Prop) (hstart : ∀ s, system.init s → holds s)
    (hstep : ∀ s a t, holds s → condition s a → system.step s a = some t → holds t) {s : σ}
    (hreach : system.ReachableUnder condition s) : holds s := by
  induction hreach with
  | start hs => exact hstart _ hs
  | next _ hcondition ht ih => exact hstep _ _ _ ih hcondition ht

/-- A further invariant may use one that is already known. -/
theorem ReachableUnder.invariant_with (known holds : σ → Prop)
    (hknown : ∀ s, system.ReachableUnder condition s → known s)
    (hstart : ∀ s, system.init s → holds s)
    (hstep : ∀ s a t, known s → holds s → condition s a → system.step s a = some t → holds t)
    {s : σ} (hreach : system.ReachableUnder condition s) : holds s := by
  induction hreach with
  | start hs => exact hstart _ hs
  | next hbefore hcondition ht ih => exact hstep _ _ _ (hknown _ hbefore) ih hcondition ht

/-- A stricter condition reaches no further states. -/
theorem ReachableUnder.mono {weaker : σ → α → Prop} (himp : ∀ s a, condition s a → weaker s a)
    {s : σ} (hreach : system.ReachableUnder condition s) : system.ReachableUnder weaker s := by
  induction hreach with
  | start hs => exact .start hs
  | next _ hcondition ht ih => exact .next ih (himp _ _ hcondition) ht

/-- Take a list of actions, checking the condition before each. -/
def runUnder (system : System σ α) (condition : σ → α → Prop) [∀ s a, Decidable (condition s a)]
    (s : σ) : List α → Option σ
  | [] => some s
  | a :: actions =>
    if condition s a then (system.step s a).bind fun t => system.runUnder condition t actions
    else none

/-- A run that succeeds ends in a reachable state. -/
theorem reachable_of_runUnder [∀ s a, Decidable (condition s a)] {s t : σ} {actions : List α}
    (hs : system.ReachableUnder condition s) (hrun : system.runUnder condition s actions = some t) :
    system.ReachableUnder condition t := by
  induction actions generalizing s with
  | nil =>
    have hsame : s = t := Option.some.inj hrun
    rwa [← hsame]
  | cons a actions ih =>
    rw [runUnder] at hrun
    split at hrun
    · rename_i hcondition
      obtain ⟨middle, hmiddle, hrest⟩ := Option.bind_eq_some_iff.mp hrun
      exact ih (.next hs hcondition hmiddle) hrest
    · cases hrun

/-- So does a run of actions that meet the condition in every state. -/
theorem reachable_of_always {s t : σ} {actions : List α}
    (halways : ∀ a ∈ actions, ∀ s, condition s a) (hs : system.ReachableUnder condition s)
    (hrun : system.runUnder (fun _ _ => True) s actions = some t) :
    system.ReachableUnder condition t := by
  induction actions generalizing s with
  | nil =>
    have hsame : s = t := Option.some.inj hrun
    rwa [← hsame]
  | cons a actions ih =>
    rw [runUnder, if_pos trivial] at hrun
    obtain ⟨middle, hmiddle, hrest⟩ := Option.bind_eq_some_iff.mp hrun
    exact ih (fun b hb => halways b (List.mem_cons_of_mem _ hb))
      (.next hs (halways a List.mem_cons_self s) hmiddle) hrest

/-- Where a list of actions that can be taken leads is a reachable state. -/
theorem reachable_getD_runUnder [∀ s a, Decidable (condition s a)] {s otherwise : σ} {actions : List α}
    (hs : system.ReachableUnder condition s)
    (hrun : (system.runUnder condition s actions).isSome = true) :
    system.ReachableUnder condition ((system.runUnder condition s actions).getD otherwise) := by
  obtain ⟨t, ht⟩ := Option.isSome_iff_exists.mp hrun
  rw [ht, Option.getD_some]
  exact reachable_of_runUnder hs ht

end System

/-! ### Histories -/

/-- Each entry of a history is as a judge demands of the entries before it. -/
def Justified {α : Type u} (judge : List α → α → Prop) (history : List α) : Prop :=
  ∀ before entry after, history = before ++ entry :: after → judge before entry

theorem Justified.nil {α : Type u} {judge : List α → α → Prop} : Justified judge [] := by
  intro before entry after heq
  cases before <;> cases heq

/-- One more entry, judged by the history so far. -/
theorem Justified.concat {α : Type u} {judge : List α → α → Prop} {history : List α}
    (h : Justified judge history) {entry : α} (hentry : judge history entry) :
    Justified judge (history ++ [entry]) := by
  intro before other after heq
  rcases List.eq_nil_or_concat after with hnil | ⟨front, last, hconcat⟩
  · rw [hnil] at heq
    obtain ⟨hbefore, hlast⟩ := List.append_inj' heq rfl
    cases hlast
    rw [← hbefore]
    exact hentry
  · rw [hconcat, List.concat_eq_append, ← List.cons_append, ← List.append_assoc] at heq
    exact h before other front (List.append_inj' heq rfl).1

/-! ### Families of processes -/

/-- No two members of a family are in a role at once. -/
def AtMostOne {ι : Type u} {α : Type v} (role : α → Prop) (family : ι → α) : Prop :=
  ∀ i j, role (family i) → role (family j) → i = j

/-- It stays so when a member steps, unless it takes on the role while another
has it. -/
theorem AtMostOne.update {ι : Type u} {α : Type v} [DecidableEq ι] {role : α → Prop}
    {family : ι → α} (h : AtMostOne role family) {i : ι} {a : α}
    (hnew : role a → role (family i) ∨ ∀ j, ¬role (family j)) :
    AtMostOne role (Function.update family i a) := by
  have hother : ∀ j, role a → role (family j) → j = i := by
    intro j ha hj
    rcases hnew ha with hi | hnone
    · exact h j i hj hi
    · exact absurd hj (hnone j)
  intro j k hj hk
  rw [Function.update_apply] at hj hk
  split at hj
  · rename_i hji
    split at hk
    · rename_i hki
      exact hji.trans hki.symm
    · exact hji.trans (hother k hj hk).symm
  · split at hk
    · rename_i hki
      exact (hother j hk hj).trans hki.symm
    · exact h j k hj hk

end OpenDlssg.TransitionRuns
