import OpenDlssg.CallTraces
import OpenDlssg.ChangeReports
import Mathlib.Data.List.Perm.Subperm

/-!
# Low-latency mode under frame generation

With low-latency mode on, the driver paces a game that never makes a
`vkLatencySleepNV` call inside its presents. While frame generation is on and no
such call was seen, requests for the mode are passed to the driver as off.
Threads of the game ask and sleep at any time; what they asked, what the driver
was handed, what was read and reported are one trace.
-/

namespace OpenDlssg.ReflexPacing

open CallTraces ChangeReports TransitionRuns

/-- An address; the null pointer is 0. -/
abbrev Pointer := ℕ

/-- `VkLatencySleepModeInfoNV`. -/
structure LatencySleepModeInfo where
  type : UInt32
  next : Pointer
  lowLatencyMode : UInt32
  lowLatencyBoost : UInt32
  minimumIntervalUs : UInt32
  deriving DecidableEq

/-- What the game asks of the driver. -/
inductive Request
  /-- `vkLatencySleepNV` -/
  | sleep (device : Pointer) (swapchain : UInt64) (info : Pointer)
  /-- `vkSetLatencySleepModeNV` -/
  | setMode (device : Pointer) (swapchain : UInt64) (info : Option LatencySleepModeInfo)
  deriving DecidableEq

namespace Request

def isSleep : Request → Bool
  | .sleep .. => true
  | .setMode .. => false

/-- The request asks for low-latency mode. -/
def requested : Request → Bool
  | .setMode _ _ (some info) => info.lowLatencyMode ≠ 0
  | _ => false

/-- The request with low-latency mode and boost off and nothing else changed. -/
def turnedOff : Request → Request
  | .setMode device swapchain (some info) =>
    .setMode device swapchain (some { info with lowLatencyMode := 0, lowLatencyBoost := 0 })
  | request => request

/-- What the driver is handed. -/
def sent (request : Request) (off : Bool) : Request := if off then request.turnedOff else request

end Request

/-- The source's `MustTurnLowLatencyOff`. -/
def mustTurnLowLatencyOff (requested frameGeneration gameSleeps : Bool) : Bool :=
  if !requested then false
  -- the driver waits in `vkLatencySleepNV`, not in every present
  else if gameSleeps then false
  else frameGeneration

/-- A line of the log about the decision. -/
structure Line where
  lowLatencyOff : Bool
  frameGeneration : Bool
  gameSleeps : Bool
  deriving DecidableEq

/-- Where a call of a wrapper is. -/
inductive Pc
  /-- before the driver's function is looked up -/
  | lookUp
  /-- the sleep is noted next -/
  | note
  | readFrameGeneration
  | readSleeps (frameGeneration : Bool)
  | exchange (frameGeneration gameSleeps : Bool)
  | report (line : Line)
  /-- the driver is called next, after a decision or without one -/
  | send (decision : Option Line)
  | returned (status : Int)
  deriving DecidableEq

/-- What calls do that others can see. -/
inductive Event
  | called (i : ℕ) (request : Request)
  /-- `streamline::FrameGenerationOn` answered the call -/
  | answered (i : ℕ) (frameGeneration : Bool)
  /-- the decision was exchanged, and was found changed or not -/
  | exchanged (i : ℕ) (line : Line) (changed : Bool)
  | wrote (i : ℕ) (line : Line)
  /-- the driver was handed a request -/
  | received (i : ℕ) (request : Request)
  deriving DecidableEq

/-- The call an event belongs to. -/
def Event.call : Event → ℕ
  | .called i _ | .answered i _ | .exchanged i _ _ | .wrote i _ | .received i _ => i

/-- What the wrappers share. -/
structure Shared where
  latencySleepSeen : Bool := false
  lowLatencyOff : Bool := false

/-- What a step is answered: the driver's function is known, frame generation
is on, and the driver's status. -/
structure Answer where
  original : Bool
  frameGeneration : Bool
  status : Int

/-- The source's `kVkErrorUnknown`. -/
def kVkErrorUnknown : Int := -13

/-- The next step of a call of `HookedLatencySleep` or
`HookedSetLatencySleepMode`, what it leaves in the shared state and what can be
seen of it. -/
def callStep (shared : Shared) (answer : Answer) (i : ℕ) (call : Call Request Pc) :
    Option (Pc × Shared × List Event) :=
  match call.pc with
  | .lookUp =>
    if !answer.original then some (.returned kVkErrorUnknown, shared, [])
    else
      match call.request with
      | .sleep .. => some (.note, shared, [])
      | .setMode _ _ none => some (.send none, shared, [])
      | .setMode _ _ (some _) => some (.readFrameGeneration, shared, [])
  | .note => some (.send none, { shared with latencySleepSeen := true }, [])
  | .readFrameGeneration =>
    some (.readSleeps answer.frameGeneration, shared, [.answered i answer.frameGeneration])
  | .readSleeps frameGeneration =>
    some (.exchange frameGeneration shared.latencySleepSeen, shared, [])
  | .exchange frameGeneration gameSleeps =>
    let off := mustTurnLowLatencyOff call.request.requested frameGeneration gameSleeps
    let line := ⟨off, frameGeneration, gameSleeps⟩
    let changed := decide (shared.lowLatencyOff ≠ off)
    some (if changed then .report line else .send (some line), { shared with lowLatencyOff := off },
      [.exchanged i line changed])
  | .report line => some (.send (some line), shared, [.wrote i line])
  | .send none => some (.returned answer.status, shared, [.received i call.request])
  | .send (some line) =>
    some (.returned answer.status, shared, [.received i (call.request.sent line.lowLatencyOff)])
  | .returned _ => none

/-- A step's events are its call's. -/
theorem owner_callStep (shared : Shared) (answer : Answer) (i : ℕ) (call : Call Request Pc)
    (next : Pc × Shared × List Event) (h : callStep shared answer i call = some next) :
    ∀ event ∈ next.2.2, event.call = i := by
  obtain ⟨request, pc⟩ := call
  cases pc with
  | lookUp =>
    dsimp only [callStep] at h
    split at h
    · cases h
      simp
    · split at h <;> cases h <;> simp
  | send decision => cases decision <;> cases h <;> simp [Event.call]
  | returned status => cases h
  | _ =>
    cases h
    simp [Event.call]

/-- The two wrappers, as calls of one routine. -/
def wrappers : Routine Shared Request Answer Pc Event Empty where
  start := .lookUp
  called := .called
  owner := Event.call
  step := callStep
  other _ := Empty.elim
  owner_called _ _ := rfl
  owner_step := owner_callStep

/-- The system of all calls of the two wrappers. -/
abbrev system : System (State Shared Request Pc Event) (Action Request Answer Empty) :=
  wrappers.system {}

/-! ### What a trace shows -/

/-- The driver was not asked to sleep yet. -/
def NoSleepReceived (trace : List Event) : Prop :=
  ∀ j request, .received j request ∈ trace → request.isSleep = false

/-- The game called for a sleep. -/
def SleepCalled (trace : List Event) : Prop :=
  ∃ j request, .called j request ∈ trace ∧ request.isSleep = true

/-- What the driver may be handed for a request. Where it is not the request
itself, that request asked for low-latency mode while frame generation was on,
and the driver had not been asked to sleep when it was made; where all of this
is so and the game has called for no sleep at all, it is the mode turned off. -/
structure Paced (earlier before : List Event) (i : ℕ) (original handed : Request) : Prop where
  changed : handed ≠ original → handed = original.turnedOff ∧ original.requested = true ∧
    .answered i true ∈ before ∧ NoSleepReceived earlier
  off : original.requested = true → .answered i true ∈ before → ¬SleepCalled before →
    handed = original.turnedOff

/-- What the driver was handed is what it may be for a request made before. -/
def Handed (before : List Event) : Event → Prop
  | .received i handed => ∃ earlier original between,
      before = earlier ++ .called i original :: between ∧ Paced earlier before i original handed
  | _ => True

/-- The decisions exchanged. -/
def offs (trace : List Event) : List Bool :=
  trace.filterMap fun event =>
    match event with
    | .exchanged _ line _ => some line.lowLatencyOff
    | _ => none

/-- The decisions found changed, with the calls that made them. -/
def changes (trace : List Event) : List (ℕ × Line) :=
  trace.filterMap fun event =>
    match event with
    | .exchanged i line true => some (i, line)
    | _ => none

/-- The lines written. -/
def written (trace : List Event) : List (ℕ × Line) :=
  trace.filterMap fun event =>
    match event with
    | .wrote i line => some (i, line)
    | _ => none

theorem SleepCalled.append {trace : List Event} (h : SleepCalled trace) (events : List Event) :
    SleepCalled (trace ++ events) := by
  obtain ⟨j, request, hcalled, hsleep⟩ := h
  exact ⟨j, request, List.mem_append_left _ hcalled, hsleep⟩

theorem Request.requested_of_isSleep {request : Request} (h : request.isSleep = true) :
    request.requested = false := by
  cases request with
  | sleep device swapchain info => rfl
  | setMode device swapchain info => cases h

/-! ### What is known of a call -/

/-- The events of a call that has decided. -/
def decided (i : ℕ) (request : Request) (line : Line) (changed : Bool) : List Event :=
  [.called i request, .answered i line.frameGeneration, .exchanged i line changed]

/-- The events of a call that has written its line, or has none to write. -/
def settled (i : ℕ) (request : Request) (line : Line) (changed : Bool) : List Event :=
  decided i request line changed ++ if changed then [.wrote i line] else []

/-- The events of a call that may have returned. -/
inductive Complete (i : ℕ) (request : Request) : List Event → Prop
  /-- the driver's function is not known -/
  | refused : Complete i request [.called i request]
  | passed : Complete i request [.called i request, .received i request]
  | paced (line : Line) (changed : Bool) : Complete i request
      (settled i request line changed ++ [.received i (request.sent line.lowLatencyOff)])

/-- The events of a call, by where it is. -/
def Past (i : ℕ) (request : Request) (events : List Event) : Pc → Prop
  | .lookUp | .note | .readFrameGeneration | .send none => events = [.called i request]
  | .readSleeps frameGeneration | .exchange frameGeneration _ =>
    events = [.called i request, .answered i frameGeneration]
  | .report line => events = decided i request line true
  | .send (some line) => ∃ changed, events = settled i request line changed
  | .returned _ => Complete i request events

/-- A call has read whether the game sleeps. -/
structure Read (earlier trace : List Event) (gameSleeps : Bool) : Prop where
  no : gameSleeps = false → NoSleepReceived earlier
  yes : gameSleeps = true → SleepCalled trace

/-- A call has decided. -/
structure Judged (earlier trace : List Event) (request : Request) (line : Line) : Prop where
  off_eq : line.lowLatencyOff =
    mustTurnLowLatencyOff request.requested line.frameGeneration line.gameSleeps
  read : Read earlier trace line.gameSleeps

/-- What a call knows, by where it is. -/
def Known (shared : Shared) (earlier trace : List Event) (request : Request) : Pc → Prop
  | .lookUp => True
  | .note => request.isSleep = true
  | .readFrameGeneration | .readSleeps _ => request.isSleep = false
  | .exchange _ gameSleeps => request.isSleep = false ∧ Read earlier trace gameSleeps
  | .report line => request.isSleep = false ∧ Judged earlier trace request line
  | .send none =>
    request.requested = false ∧ (request.isSleep = true → shared.latencySleepSeen = true)
  | .send (some line) => request.isSleep = false ∧ Judged earlier trace request line
  | .returned _ => True

/-- What holds of the shared state and the trace. -/
structure Common (shared : Shared) (trace : List Event) : Prop where
  seen : shared.latencySleepSeen = true → SleepCalled trace
  unseen : shared.latencySleepSeen = false → NoSleepReceived trace
  handed : Justified Handed trace
  register : shared.lowLatencyOff = held false (offs trace)
  reports : (changes trace).map (fun change => change.2.lowLatencyOff) = reported false (offs trace)

/-! ### One step -/

section Steps

variable {shared : Shared} {answer : Answer} {i : ℕ} {call : Call Request Pc}
  {next : Pc × Shared × List Event}

theorem Read.append {earlier trace : List Event} {gameSleeps : Bool} (h : Read earlier trace gameSleeps)
    (events : List Event) : Read earlier (trace ++ events) gameSleeps :=
  ⟨h.no, fun hsleeps => (h.yes hsleeps).append events⟩

theorem Judged.append {earlier trace : List Event} {request : Request} {line : Line}
    (h : Judged earlier trace request line) (events : List Event) :
    Judged earlier (trace ++ events) request line :=
  ⟨h.off_eq, h.read.append events⟩

/-- What a call knows stays so while others step. -/
theorem Known.append {shared' : Shared} {earlier trace : List Event} {request : Request} {pc : Pc}
    (h : Known shared earlier trace request pc)
    (hseen : shared.latencySleepSeen = true → shared'.latencySleepSeen = true)
    (events : List Event) : Known shared' earlier (trace ++ events) request pc := by
  cases pc with
  | lookUp => trivial
  | note => exact h
  | readFrameGeneration => exact h
  | readSleeps frameGeneration => exact h
  | exchange frameGeneration gameSleeps => exact ⟨h.1, h.2.append events⟩
  | report line => exact ⟨h.1, h.2.append events⟩
  | send decision =>
    cases decision with
    | none => exact ⟨h.1, fun hsleep => hseen (h.2 hsleep)⟩
    | some line => exact ⟨h.1, h.2.append events⟩
  | returned status => trivial

/-- A sleep that was seen stays seen. -/
theorem seen_callStep (h : callStep shared answer i call = some next)
    (hseen : shared.latencySleepSeen = true) : next.2.1.latencySleepSeen = true := by
  unfold callStep at h
  split at h
  · split at h
    · cases h
      exact hseen
    · split at h <;> cases h <;> exact hseen
  all_goals cases h
  all_goals first
    | exact hseen
    | rfl

/-- The events of a step follow those before it. -/
theorem past_callStep {events : List Event} (hpast : Past i call.request events call.pc)
    (h : callStep shared answer i call = some next) :
    Past i call.request (events ++ next.2.2) next.1 := by
  obtain ⟨request, pc⟩ := call
  cases pc with
  | lookUp =>
    have hpast : events = [.called i request] := hpast
    dsimp only [callStep] at h
    rw [hpast]
    split at h
    · cases h
      exact .refused
    · split at h <;> cases h <;> rfl
  | note =>
    cases h
    rw [List.append_nil]
    exact hpast
  | readFrameGeneration =>
    have hpast : events = [.called i request] := hpast
    cases h
    rw [hpast]
    rfl
  | readSleeps frameGeneration =>
    cases h
    rw [List.append_nil]
    exact hpast
  | exchange frameGeneration gameSleeps =>
    have hpast : events = [.called i request, .answered i frameGeneration] := hpast
    cases h
    rw [hpast]
    dsimp only
    split
    · rename_i hchanged
      rw [hchanged]
      exact rfl
    · rename_i hsame
      rw [Bool.not_eq_true] at hsame
      rw [hsame]
      exact ⟨false, rfl⟩
  | report line =>
    have hpast : events = decided i request line true := hpast
    cases h
    rw [hpast]
    exact ⟨true, rfl⟩
  | send decision =>
    cases decision with
    | none =>
      have hpast : events = [.called i request] := hpast
      cases h
      rw [hpast]
      exact .passed
    | some line =>
      obtain ⟨changed, hpast⟩ := hpast
      cases h
      rw [hpast]
      exact .paced line changed
  | returned status => cases h

/-- A call is not told of a sleep that was not called for, and is told of one the
driver was asked for before the call. -/
theorem known_callStep {earlier trace : List Event} (h : callStep shared answer i call = some next)
    (hearlier : ∀ event ∈ earlier, event ∈ trace)
    (hseen : shared.latencySleepSeen = true → SleepCalled trace)
    (hunseen : shared.latencySleepSeen = false → NoSleepReceived trace)
    (hknown : Known shared earlier trace call.request call.pc) :
    Known next.2.1 earlier (trace ++ next.2.2) call.request next.1 := by
  obtain ⟨request, pc⟩ := call
  cases pc with
  | lookUp =>
    dsimp only [callStep] at h
    split at h
    · cases h
      trivial
    · split at h <;> cases h
      · rfl
      · exact ⟨rfl, nofun⟩
      · rfl
  | note =>
    cases h
    exact ⟨Request.requested_of_isSleep hknown, fun _ => rfl⟩
  | readFrameGeneration =>
    cases h
    exact hknown
  | readSleeps frameGeneration =>
    cases h
    refine ⟨hknown, fun hno => ?_, fun hyes => (hseen hyes).append []⟩
    exact fun j request hreceived => hunseen hno j request (hearlier _ hreceived)
  | exchange frameGeneration gameSleeps =>
    obtain ⟨hawake, hread⟩ := hknown
    cases h
    dsimp only
    split
    · exact ⟨hawake, rfl, hread.append _⟩
    · exact ⟨hawake, rfl, hread.append _⟩
  | report line =>
    cases h
    exact ⟨hknown.1, hknown.2.append _⟩
  | send decision =>
    cases decision <;> cases h <;> trivial
  | returned status => cases h

/-- What the driver is handed is a sleep only where the request is one. -/
theorem Request.isSleep_sent (request : Request) (off : Bool) :
    (request.sent off).isSleep = request.isSleep := by
  cases off with
  | false => rfl
  | true =>
    cases request with
    | sleep device swapchain info => rfl
    | setMode device swapchain info => cases info <;> rfl

/-- A sleep is noted before the driver is asked for it. -/
theorem unseen_callStep {earlier trace : List Event} (h : callStep shared answer i call = some next)
    (hunseen : shared.latencySleepSeen = false → NoSleepReceived trace)
    (hknown : Known shared earlier trace call.request call.pc)
    (hno : next.2.1.latencySleepSeen = false) : NoSleepReceived (trace ++ next.2.2) := by
  have hbefore : shared.latencySleepSeen = false := by
    rw [← Bool.not_eq_true] at hno ⊢
    exact mt (seen_callStep h) hno
  intro j request hreceived
  rcases List.mem_append.mp hreceived with hin | hnow
  · exact hunseen hbefore j request hin
  · obtain ⟨own, pc⟩ := call
    cases pc with
    | lookUp =>
      dsimp only [callStep] at h
      split at h
      · cases h
        cases hnow
      · split at h <;> cases h <;> cases hnow
    | note =>
      cases h
      cases hnow
    | readFrameGeneration =>
      cases h
      cases List.mem_singleton.mp hnow
    | readSleeps frameGeneration =>
      cases h
      cases hnow
    | exchange frameGeneration gameSleeps =>
      cases h
      cases List.mem_singleton.mp hnow
    | report line =>
      cases h
      cases List.mem_singleton.mp hnow
    | send decision =>
      cases decision with
      | none =>
        cases h
        cases List.mem_singleton.mp hnow
        rw [← Bool.not_eq_true] at hbefore ⊢
        exact mt hknown.2 hbefore
      | some line =>
        cases h
        cases List.mem_singleton.mp hnow
        rw [Request.isSleep_sent]
        exact hknown.1
    | returned status => cases h

/-- A sleep that is noted was called for. -/
theorem sleepCalled_callStep {earlier trace : List Event}
    (h : callStep shared answer i call = some next)
    (hseen : shared.latencySleepSeen = true → SleepCalled trace)
    (hcalled : .called i call.request ∈ trace)
    (hknown : Known shared earlier trace call.request call.pc)
    (hyes : next.2.1.latencySleepSeen = true) : SleepCalled (trace ++ next.2.2) := by
  refine SleepCalled.append ?_ _
  by_cases hbefore : shared.latencySleepSeen = true
  · exact hseen hbefore
  · obtain ⟨request, pc⟩ := call
    cases pc with
    | lookUp =>
      dsimp only [callStep] at h
      split at h
      · cases h
        exact absurd hyes hbefore
      · split at h <;> cases h <;> exact absurd hyes hbefore
    | note => exact ⟨i, request, hcalled, hknown⟩
    | send decision => cases decision <;> cases h <;> exact absurd hyes hbefore
    | returned status => cases h
    | _ =>
      cases h
      exact absurd hyes hbefore

/-- What a decision does to a request. -/
theorem Judged.paced {earlier trace : List Event} {request : Request} {line : Line}
    (h : Judged earlier trace request line)
    (hanswered : ∀ frameGeneration, .answered i frameGeneration ∈ trace ↔
      frameGeneration = line.frameGeneration) :
    Paced earlier trace i request (request.sent line.lowLatencyOff) := by
  have hoff := h.off_eq
  unfold mustTurnLowLatencyOff at hoff
  refine ⟨fun hne => ?_, fun hrequested htrue hno => ?_⟩
  · have hturned : line.lowLatencyOff = true := by
      rw [← Bool.not_eq_false]
      intro hfalse
      rw [hfalse] at hne
      exact hne rfl
    rw [hturned] at hoff ⊢
    split at hoff
    · cases hoff
    · rename_i hrequested
      split at hoff
      · cases hoff
      · rename_i hsleeps
        refine ⟨rfl, by simpa using hrequested, (hanswered true).mpr hoff, h.read.no ?_⟩
        exact Bool.not_eq_true _ ▸ hsleeps
  · have hsleeps : line.gameSleeps = false := by
      rw [← Bool.not_eq_true]
      exact mt h.read.yes hno
    rw [hrequested, hsleeps, ← (hanswered true).mp htrue] at hoff
    rw [hoff]
    rfl

/-- A call that has decided was answered once. -/
theorem answered_of_settled {trace : List Event} {request : Request} {line : Line} {changed : Bool}
    (h : wrappers.own trace i = settled i request line changed) (frameGeneration : Bool) :
    .answered i frameGeneration ∈ trace ↔ frameGeneration = line.frameGeneration := by
  have howner : wrappers.owner (.answered i frameGeneration) = i := rfl
  rw [← wrappers.mem_own howner, h]
  cases changed <;> simp [settled, decided]

/-- What the driver is handed is justified. -/
theorem handed_callStep {earlier between trace : List Event}
    (h : callStep shared answer i call = some next)
    (htrace : trace = earlier ++ .called i call.request :: between)
    (hpast : Past i call.request (wrappers.own trace i) call.pc)
    (hknown : Known shared earlier trace call.request call.pc)
    (hhanded : Justified Handed trace) : Justified Handed (trace ++ next.2.2) := by
  obtain ⟨request, pc⟩ := call
  cases pc with
  | lookUp =>
    dsimp only [callStep] at h
    split at h
    · cases h
      rwa [List.append_nil]
    · split at h <;> cases h <;> rwa [List.append_nil]
  | note =>
    cases h
    rwa [List.append_nil]
  | readFrameGeneration =>
    cases h
    exact hhanded.concat trivial
  | readSleeps frameGeneration =>
    cases h
    rwa [List.append_nil]
  | exchange frameGeneration gameSleeps =>
    cases h
    exact hhanded.concat trivial
  | report line =>
    cases h
    exact hhanded.concat trivial
  | send decision =>
    cases decision with
    | none =>
      have hrequested : request.requested = false := hknown.1
      cases h
      refine hhanded.concat ⟨earlier, request, between, htrace, fun hne => absurd rfl hne, ?_⟩
      intro hasked
      rw [hrequested] at hasked
      cases hasked
    | some line =>
      obtain ⟨changed, hsettled⟩ := hpast
      cases h
      exact hhanded.concat
        ⟨earlier, request, between, htrace, hknown.2.paced (answered_of_settled hsettled)⟩
  | returned status => cases h

/-- A step leaves the register alone or exchanges a decision. -/
theorem exchange_callStep (h : callStep shared answer i call = some next) :
    (next.2.1.lowLatencyOff = shared.lowLatencyOff ∧ offs next.2.2 = [] ∧ changes next.2.2 = []) ∨
      ∃ line : Line, next.2.1.lowLatencyOff = line.lowLatencyOff ∧
        next.2.2 = [.exchanged i line (decide (shared.lowLatencyOff ≠ line.lowLatencyOff))] := by
  obtain ⟨request, pc⟩ := call
  cases pc with
  | lookUp =>
    dsimp only [callStep] at h
    split at h
    · cases h
      exact .inl ⟨rfl, rfl, rfl⟩
    · split at h <;> cases h <;> exact .inl ⟨rfl, rfl, rfl⟩
  | exchange frameGeneration gameSleeps =>
    cases h
    exact .inr ⟨_, rfl, rfl⟩
  | send decision => cases decision <;> cases h <;> exact .inl ⟨rfl, rfl, rfl⟩
  | returned status => cases h
  | _ =>
    cases h
    exact .inl ⟨rfl, rfl, rfl⟩

end Steps

theorem offs_append (trace events : List Event) : offs (trace ++ events) = offs trace ++ offs events :=
  List.filterMap_append

theorem changes_append (trace events : List Event) :
    changes (trace ++ events) = changes trace ++ changes events :=
  List.filterMap_append

/-- What a call knows: its own making, and what it has read since. -/
def KnownCall (shared : Shared) (trace : List Event) (i : ℕ) (call : Call Request Pc) : Prop :=
  ∃ earlier between, trace = earlier ++ .called i call.request :: between ∧
    Known shared earlier trace call.request call.pc

/-- A sleep stays seen and the trace grows. -/
structure Change (shared : Shared) (trace : List Event) (shared' : Shared) (trace' : List Event) :
    Prop where
  seen : shared.latencySleepSeen = true → shared'.latencySleepSeen = true
  grows : ∃ events, trace' = trace ++ events

/-- A call that is made knows nothing and changes nothing. -/
theorem Common.make {shared : Shared} {trace : List Event} (h : Common shared trace) (i : ℕ)
    (request : Request) : Common shared (trace ++ [.called i request]) := by
  have hoffs : offs [.called i request] = [] := rfl
  have hchanges : changes [.called i request] = [] := rfl
  refine ⟨fun hyes => (h.seen hyes).append _, ?_, h.handed.concat trivial, ?_, ?_⟩
  · intro hno j other hreceived
    rcases List.mem_append.mp hreceived with hin | hnow
    · exact h.unseen hno j other hin
    · cases List.mem_singleton.mp hnow
  · rw [offs_append, hoffs, List.append_nil]
    exact h.register
  · rw [offs_append, changes_append, hoffs, hchanges, List.append_nil, List.append_nil]
    exact h.reports

/-- A step of a call keeps what holds, what it knows, and changes no more than it may. -/
theorem Common.advance {shared : Shared} {trace : List Event} {answer : Answer} {i : ℕ}
    {call : Call Request Pc} {next : Pc × Shared × List Event} (h : Common shared trace)
    (hcall : KnownCall shared trace i call)
    (hpast : Past i call.request (wrappers.own trace i) call.pc)
    (hstep : callStep shared answer i call = some next) :
    Common next.2.1 (trace ++ next.2.2) ∧
      KnownCall next.2.1 (trace ++ next.2.2) i { call with pc := next.1 } ∧
      Change shared trace next.2.1 (trace ++ next.2.2) := by
  obtain ⟨earlier, between, htrace, hknown⟩ := hcall
  have hcalled : .called i call.request ∈ trace := by
    rw [htrace]
    exact List.mem_append_right _ List.mem_cons_self
  have hearlier : ∀ event ∈ earlier, event ∈ trace := by
    intro event hevent
    rw [htrace]
    exact List.mem_append_left _ hevent
  have hafter := known_callStep hstep hearlier h.seen h.unseen hknown
  have hregister := exchange_callStep hstep
  refine ⟨⟨sleepCalled_callStep hstep h.seen hcalled hknown, unseen_callStep hstep h.unseen hknown,
    handed_callStep hstep htrace hpast hknown h.handed, ?_, ?_⟩,
    ⟨earlier, between ++ next.2.2, ?_, hafter⟩, seen_callStep hstep, _, rfl⟩
  · rw [offs_append]
    rcases hregister with ⟨hoff, hoffs, _⟩ | ⟨line, hoff, hevent⟩
    · rw [hoff, hoffs, List.append_nil]
      exact h.register
    · rw [hoff, hevent]
      exact (held_concat _ _ _).symm
  · rw [offs_append, changes_append]
    rcases hregister with ⟨_, hoffs, hchanges⟩ | ⟨line, hoff, hevent⟩
    · rw [hoffs, hchanges, List.append_nil, List.append_nil]
      exact h.reports
    · have hoffs : offs next.2.2 = [line.lowLatencyOff] := by
        rw [hevent]
        rfl
      rw [hoffs, reported_concat, ← h.register, List.map_append, h.reports, hevent]
      by_cases hsame : shared.lowLatencyOff = line.lowLatencyOff
      · rw [if_pos hsame, hsame]
        simp [changes]
      · rw [if_neg hsame, decide_eq_true hsame]
        rfl
  · rw [htrace, List.append_assoc, List.cons_append]

/-- What the two wrappers rely on and keep. -/
def discipline : Discipline wrappers {} where
  Common := Common
  Known := KnownCall
  Past := Past
  Change _ := Change
  initially := ⟨nofun, nofun, Justified.nil, rfl, rfl⟩
  make i request _ h := ⟨h.make i request, ⟨_, [], rfl, trivial⟩, id, _, rfl⟩
  first _ _ := rfl
  advance := Common.advance
  onward := past_callStep
  interfere {_ _ _ o} := o.elim
  stable _ h hchange := by
    obtain ⟨earlier, between, htrace, hknown⟩ := h
    obtain ⟨hseen, events, hgrown⟩ := hchange
    rw [hgrown]
    refine ⟨earlier, between ++ events, ?_, hknown.append hseen events⟩
    rw [htrace, List.append_assoc, List.cons_append]

/-- In every interleaving the driver is handed each request as the game made it,
or with low-latency mode turned off and nothing else changed. The latter happens
only while frame generation is on and only where the driver had not been asked
to sleep before the request was made, and it always happens while the game has
called for no sleep. A call that returned handed its request on once, unless the
driver's function was not known. -/
theorem requests_reach_driver {s : State Shared Request Pc Event} (h : system.Reachable s) :
    Justified Handed s.trace ∧ ∀ i request status,
      s.calls i = some ⟨request, .returned status⟩ → Complete i request (wrappers.own s.trace i) := by
  have hkeeps := discipline.keeps_of_reachable h
  exact ⟨hkeeps.common.handed, fun i request status hcall => hkeeps.past i _ hcall⟩

/-- A game that turns Reflex on under frame generation, sleeps later and asks
again. -/
def sleepingRun : List (Action Request Answer Empty) :=
  let info : LatencySleepModeInfo := ⟨1000505000, 0, 1, 1, 8333⟩
  let answer : Answer := ⟨true, true, 0⟩
  .make 0 (.setMode 7 9 (some info)) :: List.replicate 6 (.advance 0 answer) ++
    .make 1 (.sleep 7 9 0) :: List.replicate 3 (.advance 1 answer) ++
    .make 2 (.setMode 7 9 (some info)) :: List.replicate 6 (.advance 2 answer)

/-- Where it ends. -/
def sleepingState : State Shared Request Pc Event :=
  (system.runUnder (fun _ _ => True) { shared := {} } sleepingRun).getD { shared := {} }

theorem requests_reach_driver_sleeping :
    .received 0 (.setMode 7 9 (some ⟨1000505000, 0, 0, 0, 8333⟩)) ∈ sleepingState.trace ∧
      .received 2 (.setMode 7 9 (some ⟨1000505000, 0, 1, 1, 8333⟩)) ∈ sleepingState.trace ∧
      Justified Handed sleepingState.trace :=
  ⟨by decide +kernel, by decide +kernel,
    (requests_reach_driver (System.reachable_getD_runUnder (.start rfl) (by decide +kernel))).1⟩

/-! ### The lines -/

end OpenDlssg.ReflexPacing
