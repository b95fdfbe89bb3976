import OpenDlssg.TransitionRuns
import Mathlib.Data.Nat.Notation

/-!
# Calls over shared state

Any number of calls run one routine over a shared state, a step at a time. A
step may change the shared state and leaves its events on a trace; others may
change the shared state in between. What calls rely on and keep is a discipline:
what holds of the shared state and the trace, what a call knows of them, and
what its own events are, by where it is. Once every single step is shown to keep
it, it holds in every interleaving.
-/

namespace OpenDlssg.CallTraces

open TransitionRuns

/-- A call of a routine: what was asked, and where it is. -/
structure Call (Request Pc : Type) where
  request : Request
  pc : Pc
  deriving DecidableEq

/-- A routine that many calls run at once. -/
structure Routine (Shared Request Answer Pc Event Other : Type) where
  /-- where a call starts -/
  start : Pc
  /-- the event that a call is made -/
  called : ℕ → Request → Event
  /-- the call an event belongs to -/
  owner : Event → ℕ
  /-- the next step of a call, by what the step is answered -/
  step : Shared → Answer → ℕ → Call Request Pc → Option (Pc × Shared × List Event)
  /-- what others do to the shared state -/
  other : Shared → Other → Option Shared
  owner_called : ∀ i request, owner (called i request) = i
  owner_step : ∀ shared answer i call next, step shared answer i call = some next →
    ∀ event ∈ next.2.2, owner event = i

/-- The shared state, the calls made so far and the trace of what they did. -/
structure State (Shared Request Pc Event : Type) where
  shared : Shared
  calls : ℕ → Option (Call Request Pc) := fun _ => none
  trace : List Event := []

/-- A call is made, a call takes a step, or others act. -/
inductive Action (Request Answer Other : Type)
  | make (i : ℕ) (request : Request)
  | advance (i : ℕ) (answer : Answer)
  | other (o : Other)

variable {Shared Request Answer Pc Event Other : Type}

namespace Routine

/-- The system of all calls, from a shared state. -/
def system (routine : Routine Shared Request Answer Pc Event Other) (initial : Shared) :
    System (State Shared Request Pc Event) (Action Request Answer Other) where
  init s := s = { shared := initial }
  step s action :=
    match action with
    | .make i request =>
      if (s.calls i).isNone then
        some { s with
          calls := Function.update s.calls i (some ⟨request, routine.start⟩)
          trace := s.trace ++ [routine.called i request] }
      else none
    | .advance i answer =>
      (s.calls i).bind fun call =>
        (routine.step s.shared answer i call).map fun next =>
          { shared := next.2.1
            calls := Function.update s.calls i (some { call with pc := next.1 })
            trace := s.trace ++ next.2.2 }
    | .other o => (routine.other s.shared o).map fun shared => { s with shared := shared }

variable (routine : Routine Shared Request Answer Pc Event Other)

/-- The events of one call. -/
def own (trace : List Event) (i : ℕ) : List Event :=
  trace.filter fun event => routine.owner event = i

theorem own_append (trace events : List Event) (i : ℕ) :
    routine.own (trace ++ events) i = routine.own trace i ++ routine.own events i :=
  List.filter_append _ _

/-- The events of a call are its own. -/
theorem own_append_self {trace events : List Event} {i : ℕ}
    (h : ∀ event ∈ events, routine.owner event = i) :
    routine.own (trace ++ events) i = routine.own trace i ++ events := by
  have hall : routine.own events i = events :=
    List.filter_eq_self.mpr fun event hevent => by simpa using h event hevent
  rw [own_append, hall]

/-- They are not those of another. -/
theorem own_append_of_ne {trace events : List Event} {i j : ℕ}
    (h : ∀ event ∈ events, routine.owner event = i) (hne : j ≠ i) :
    routine.own (trace ++ events) j = routine.own trace j := by
  have hnone : routine.own events j = [] :=
    List.filter_eq_nil_iff.mpr fun event hevent => by
      rw [h event hevent]
      simpa using hne.symm
  rw [own_append, hnone, List.append_nil]

theorem mem_own {trace : List Event} {event : Event} {i : ℕ} (h : routine.owner event = i) :
    event ∈ routine.own trace i ↔ event ∈ trace := by
  unfold own
  rw [List.mem_filter, decide_eq_true_iff]
  exact and_iff_left h

end Routine

/-- What the calls of a routine rely on and keep. -/
structure Discipline (routine : Routine Shared Request Answer Pc Event Other) (initial : Shared) where
  /-- what holds of the shared state and the trace -/
  Common : Shared → List Event → Prop
  /-- what a call knows of them -/
  Known : Shared → List Event → ℕ → Call Request Pc → Prop
  /-- what a call's own events are -/
  Past : ℕ → Request → List Event → Pc → Prop
  /-- what a step of a call, or of others, may do -/
  Change : Option ℕ → Shared → List Event → Shared → List Event → Prop
  initially : Common initial []
  make : ∀ {shared trace} i request, routine.own trace i = [] → Common shared trace →
    Common shared (trace ++ [routine.called i request]) ∧
      Known shared (trace ++ [routine.called i request]) i ⟨request, routine.start⟩ ∧
      Change (some i) shared trace shared (trace ++ [routine.called i request])
  first : ∀ i request, Past i request [routine.called i request] routine.start
  advance : ∀ {shared trace answer i call next}, Common shared trace →
    Known shared trace i call → Past i call.request (routine.own trace i) call.pc →
    routine.step shared answer i call = some next →
    Common next.2.1 (trace ++ next.2.2) ∧
      Known next.2.1 (trace ++ next.2.2) i { call with pc := next.1 } ∧
      Change (some i) shared trace next.2.1 (trace ++ next.2.2)
  onward : ∀ {shared answer i call next events}, Past i call.request events call.pc →
    routine.step shared answer i call = some next →
    Past i call.request (events ++ next.2.2) next.1
  interfere : ∀ {shared trace shared' o}, Common shared trace → routine.other shared o = some shared' →
    Common shared' trace ∧ Change none shared trace shared' trace
  /-- what a call knows survives the steps of the others -/
  stable : ∀ {shared trace shared' trace' i actor call}, actor ≠ some i → Known shared trace i call →
    Change actor shared trace shared' trace' → Known shared' trace' i call

namespace Discipline

variable {routine : Routine Shared Request Answer Pc Event Other} {initial : Shared}

/-- A state that is as a discipline says. -/
structure Keeps (discipline : Discipline routine initial) (s : State Shared Request Pc Event) :
    Prop where
  common : discipline.Common s.shared s.trace
  known : ∀ i call, s.calls i = some call → discipline.Known s.shared s.trace i call
  past : ∀ i call, s.calls i = some call →
    discipline.Past i call.request (routine.own s.trace i) call.pc
  /-- what was not called left no events -/
  fresh : ∀ i, s.calls i = none → routine.own s.trace i = []

variable {discipline : Discipline routine initial} {s : State Shared Request Pc Event}

/-- One call changed and the trace grew by its events. -/
theorem Keeps.update (h : discipline.Keeps s) {shared : Shared} {events : List Event} {i : ℕ}
    {call : Call Request Pc} (howner : ∀ event ∈ events, routine.owner event = i)
    (hcommon : discipline.Common shared (s.trace ++ events))
    (hknown : discipline.Known shared (s.trace ++ events) i call)
    (hchange : discipline.Change (some i) s.shared s.trace shared (s.trace ++ events))
    (hpast : discipline.Past i call.request (routine.own s.trace i ++ events) call.pc) :
    discipline.Keeps ⟨shared, Function.update s.calls i (some call), s.trace ++ events⟩ := by
  refine ⟨hcommon, ?_, ?_, ?_⟩
  · intro j other hj
    dsimp only at hj
    by_cases hji : j = i
    · rw [hji, Function.update_self] at hj
      cases hj
      rw [hji]
      exact hknown
    · rw [Function.update_of_ne hji] at hj
      have hactor : some i ≠ some j := fun hsame => hji (Option.some.inj hsame).symm
      exact discipline.stable hactor (h.known j other hj) hchange
  · intro j other hj
    dsimp only at hj
    by_cases hji : j = i
    · rw [hji, Function.update_self] at hj
      cases hj
      rw [hji, routine.own_append_self howner]
      exact hpast
    · rw [Function.update_of_ne hji] at hj
      rw [routine.own_append_of_ne howner hji]
      exact h.past j other hj
  · intro j hj
    dsimp only at hj
    by_cases hji : j = i
    · rw [hji, Function.update_self] at hj
      cases hj
    · rw [Function.update_of_ne hji] at hj
      rw [routine.own_append_of_ne howner hji]
      exact h.fresh j hj

/-- A step of the system keeps a discipline. -/
theorem Keeps.step (h : discipline.Keeps s) {action : Action Request Answer Other}
    {t : State Shared Request Pc Event} (hstep : (routine.system initial).step s action = some t) :
    discipline.Keeps t := by
  cases action with
  | make i request =>
    dsimp only [Routine.system] at hstep
    split at hstep
    · rename_i hfree
      cases hstep
      have hunmade := h.fresh i (Option.isNone_iff_eq_none.mp hfree)
      obtain ⟨hcommon, hknown, hchange⟩ := discipline.make i request hunmade h.common
      refine h.update ?_ hcommon hknown hchange ?_
      · intro event hevent
        rw [List.mem_singleton.mp hevent]
        exact routine.owner_called i request
      · rw [hunmade]
        exact discipline.first i request
    · cases hstep
  | advance i answer =>
    obtain ⟨call, hcall, htaken⟩ := Option.bind_eq_some_iff.mp hstep
    obtain ⟨next, hnext, rfl⟩ := Option.map_eq_some_iff.mp htaken
    have hpast := h.past i call hcall
    obtain ⟨hcommon, hknown, hchange⟩ :=
      discipline.advance h.common (h.known i call hcall) hpast hnext
    have honward := discipline.onward hpast hnext
    exact h.update (routine.owner_step _ _ _ _ _ hnext) hcommon hknown hchange honward
  | other o =>
    obtain ⟨shared, hother, rfl⟩ := Option.map_eq_some_iff.mp hstep
    obtain ⟨hcommon, hchange⟩ := discipline.interfere h.common hother
    refine ⟨hcommon, fun i call hcall => ?_, h.past, h.fresh⟩
    exact discipline.stable (Option.some_ne_none i).symm (h.known i call hcall) hchange

/-- A discipline is kept in every interleaving. -/
theorem keeps_of_reachable (discipline : Discipline routine initial)
    (h : (routine.system initial).Reachable s) : discipline.Keeps s := by
  refine h.invariant discipline.Keeps ?_ fun _ _ _ hs _ hstep => hs.step hstep
  intro start hstart
  have hstart : start = { shared := initial } := hstart
  rw [hstart]
  exact ⟨discipline.initially, nofun, nofun, fun _ _ => rfl⟩

end Discipline

end OpenDlssg.CallTraces
