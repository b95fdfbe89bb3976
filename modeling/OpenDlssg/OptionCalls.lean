import OpenDlssg.CallTraces
import OpenDlssg.ChangeReports
import OpenDlssg.ForcedMultiplier
import Mathlib.Data.List.Perm.Subperm

/-!
# The options functions of Streamline, called from many threads

A game asks Streamline for the functions of frame generation and is handed the
hook in place of the one that sets options. The function replaced is kept and
called by the hook. Threads ask and set at any time; what they asked, what
Streamline was called with and what was reported are one trace.
-/

namespace OpenDlssg.OptionCalls

open CallTraces ChangeReports ForcedMultiplier FrameGeneration TransitionRuns

/-- The address of a function; the null pointer is 0. -/
abbrev Pointer := ℕ

/-- What is fixed while calls are made: `HookSetOptions` itself, Streamline's
`kFeatureDLSS_G` and the numbers of its modes, and the multiplier forced. -/
structure Environment where
  hook : Pointer
  featureDlssG : UInt32
  modeValue : DLSSGMode → UInt32
  force : UInt32

/-- What a game calls. -/
inductive Request
  /-- `slGetFeatureFunction` -/
  | getFunction (feature : UInt32) (name : Option String) (function : Pointer)
  /-- the hook of `slDLSSGSetOptions` -/
  | setOptions (viewport : UInt32) (options : DLSSGOptions)
  deriving DecidableEq

/-- Where a call is. -/
inductive Pc
  /-- `slGetFeatureFunction` is called next, or the function kept is read -/
  | start
  | keepState (function : Pointer)
  | keepOptions (function : Pointer)
  | hand (result : SlResult) (function : Pointer)
  | exchange (original : Pointer)
  | count (original : Pointer) (changed : Bool)
  | newer (original : Pointer)
  /-- Streamline is called next with the game's own request -/
  | send (original : Pointer) (report : Bool)
  /-- Streamline is called next with the multiplier forced -/
  | force (original : Pointer) (report : Bool)
  | replay (original : Pointer) (report : Bool) (refusal : SlResult)
  | write (result : SlResult) (state : Bool)
  | askState (result : SlResult)
  | settle (result : SlResult)
  | returned
  deriving DecidableEq

/-- What calls do that others can see. -/
inductive Event
  | called (i : ℕ) (request : Request)
  /-- what Streamline answered `slGetFeatureFunction` -/
  | answered (i : ℕ) (result : SlResult) (function : Pointer)
  | keptState (i : ℕ) (function : Pointer)
  | kept (i : ℕ) (function : Pointer)
  /-- what the game got from `slGetFeatureFunction` -/
  | handed (i : ℕ) (result : SlResult) (function : Pointer)
  /-- no function was kept -/
  | refused (i : ℕ)
  /-- the request was exchanged, and was found changed or not -/
  | exchanged (i : ℕ) (request : UInt64) (changed : Bool)
  | numbered (i : ℕ) (number : UInt64)
  /-- the log's `dlssg_force_skipped` -/
  | newerReported (i : ℕ)
  /-- Streamline's `slDLSSGSetOptions` was called -/
  | sent (i : ℕ) (function : Pointer) (call : (UInt32 × DLSSGOptions) × SlResult)
  /-- the log's `dlssg_set_options` or `dlssg_force_rejected` about the request -/
  | wrote (i : ℕ)
  /-- Streamline's `slDLSSGGetState` was called -/
  | stateAsked (i : ℕ) (function : Pointer)
  /-- what `FrameGenerationOn` answers from then on -/
  | stored (i : ℕ) (frameGeneration : Bool)
  deriving DecidableEq

/-- The call an event belongs to. -/
def Event.call : Event → ℕ
  | .called i _ | .answered i _ _ | .keptState i _ | .kept i _ | .handed i _ _ | .refused i
  | .exchanged i _ _ | .numbered i _ | .newerReported i | .sent i _ _ | .wrote i
  | .stateAsked i _ | .stored i _ => i

/-- An event that says nothing of the shared registers. -/
def Event.isQuiet : Event → Bool
  | .keptState .. | .kept .. | .exchanged .. | .numbered .. | .stored .. => false
  | _ => true

/-- What the hooks share: the globals of the same names. -/
structure Shared where
  getState : Pointer := 0
  setOptions : Pointer := 0
  lastRequest : UInt64 := UInt64.ofNat (2 ^ 64 - 1)
  setCalls : UInt64 := 0
  newerOptionsReported : Bool := false
  frameGenerationOn : Bool := false

/-- What a step is answered: `slGetFeatureFunction` is known, and what
Streamline answers. -/
structure Answer where
  original : Bool
  result : SlResult
  function : Pointer

/-- The source's `request`: the mode above the number of frames. -/
def requestValue (env : Environment) (options : DLSSGOptions) : UInt64 :=
  ((env.modeValue options.mode).toUInt64 <<< 32) ||| options.numFramesToGenerate.toUInt64

/-- The numbers at which a call is reported even if nothing changed. -/
def spaced (number : UInt64) : Bool := number &&& (number - 1) == 0

/-- The request with the multiplier that is forced. -/
def adjusted (env : Environment) (options : DLSSGOptions) : DLSSGOptions :=
  { copyKnownOptions options with mode := .on, numFramesToGenerate := env.force - 1 }

/-- A step of `HookGetFeatureFunction`. -/
def getFunctionStep (env : Environment) (shared : Shared) (answer : Answer) (i : ℕ) (feature : UInt32)
    (name : Option String) (function : Pointer) : Pc → Option (Pc × Shared × List Event)
  | .start =>
    if !answer.original then some (.hand .errorNotInitialized function, shared, [])
    else
      let pc : Pc :=
        if answer.result ≠ .ok ∨ feature ≠ env.featureDlssG ∨ name = none ∨ answer.function = 0 then
          .hand answer.result answer.function
        else if name = some "slDLSSGGetState" then .keepState answer.function
        else if name = some "slDLSSGSetOptions" then
          if answer.function = env.hook then .hand answer.result answer.function
          else .keepOptions answer.function
        else .hand answer.result answer.function
      some (pc, shared, [.answered i answer.result answer.function])
  | .keepState function =>
    some (.hand .ok function, { shared with getState := function }, [.keptState i function])
  | .keepOptions function =>
    some (.hand .ok env.hook, { shared with setOptions := function }, [.kept i function])
  | .hand result function => some (.returned, shared, [.handed i result function])
  | _ => none

/-- A step of `HookSetOptions`. -/
def setOptionsStep (env : Environment) (shared : Shared) (answer : Answer) (i : ℕ) (viewport : UInt32)
    (options : DLSSGOptions) : Pc → Option (Pc × Shared × List Event)
  | .start =>
    if shared.setOptions = 0 then some (.settle .errorNotInitialized, shared, [.refused i])
    else if options.mode = .off then some (.send shared.setOptions false, shared, [])
    else some (.exchange shared.setOptions, shared, [])
  | .exchange original =>
    let changed := decide (shared.lastRequest ≠ requestValue env options)
    some (.count original changed, { shared with lastRequest := requestValue env options },
      [.exchanged i (requestValue env options) changed])
  | .count original changed =>
    let number := shared.setCalls + 1
    let report := changed || spaced number
    let pc : Pc :=
      if env.force = 0 ∨ options.mode = .dynamic then .send original report
      else if options.structVersion > kKnownVersion then .newer original
      else .force original report
    some (pc, { shared with setCalls := number }, [.numbered i number])
  | .newer original =>
    some (.send original false, { shared with newerOptionsReported := true },
      if shared.newerOptionsReported then [] else [.newerReported i])
  | .send original report =>
    let pc : Pc :=
      if report then .write answer.result (answer.result = .ok) else .settle answer.result
    some (pc, shared, [.sent i original ((viewport, options), answer.result)])
  | .force original report =>
    let pc : Pc :=
      if answer.result ≠ .ok then .replay original report answer.result
      else if report then .write answer.result true else .settle answer.result
    some (pc, shared, [.sent i original ((viewport, adjusted env options), answer.result)])
  | .replay original report _ =>
    some (if report then .write answer.result false else .settle answer.result, shared,
      [.sent i original ((viewport, options), answer.result)])
  | .write result state =>
    some (if state then .askState result else .settle result, shared, [.wrote i])
  | .askState result =>
    some (.settle result, shared, if shared.getState = 0 then [] else [.stateAsked i shared.getState])
  | .settle result =>
    let on := options.mode != .off
    if result = .ok then some (.returned, { shared with frameGenerationOn := on }, [.stored i on])
    else some (.returned, shared, [])
  | _ => none

/-- The next step of a call of either hook. -/
def callStep (env : Environment) (shared : Shared) (answer : Answer) (i : ℕ)
    (call : Call Request Pc) : Option (Pc × Shared × List Event) :=
  match call.request with
  | .getFunction feature name function =>
    getFunctionStep env shared answer i feature name function call.pc
  | .setOptions viewport options => setOptionsStep env shared answer i viewport options call.pc

/-- A step's events are its call's. -/
theorem owner_callStep (env : Environment) (shared : Shared) (answer : Answer) (i : ℕ)
    (call : Call Request Pc) (next : Pc × Shared × List Event)
    (h : callStep env shared answer i call = some next) : ∀ event ∈ next.2.2, event.call = i := by
  obtain ⟨request, pc⟩ := call
  cases request with
  | getFunction feature name function =>
    cases pc with
    | start =>
      dsimp only [callStep, getFunctionStep] at h
      split at h <;> cases h <;> simp [Event.call]
    | keepState function => cases h; simp [Event.call]
    | keepOptions function => cases h; simp [Event.call]
    | hand result function => cases h; simp [Event.call]
    | _ => cases h
  | setOptions viewport options =>
    cases pc with
    | start =>
      dsimp only [callStep, setOptionsStep] at h
      split at h
      · cases h
        simp [Event.call]
      · split at h <;> cases h <;> simp
    | newer original =>
      cases h
      dsimp only
      split <;> simp [Event.call]
    | askState result =>
      cases h
      dsimp only
      split <;> simp [Event.call]
    | settle result =>
      dsimp only [callStep, setOptionsStep] at h
      split at h <;> cases h <;> simp [Event.call]
    | exchange original => cases h; simp [Event.call]
    | count original changed => cases h; simp [Event.call]
    | send original report => cases h; simp [Event.call]
    | force original report => cases h; simp [Event.call]
    | replay original report refusal => cases h; simp [Event.call]
    | write result state => cases h; simp [Event.call]
    | _ => cases h

/-- The two hooks, as calls of one routine. -/
def hooks (env : Environment) : Routine Shared Request Answer Pc Event Empty where
  start := .start
  called := .called
  owner := Event.call
  step := callStep env
  other _ := Empty.elim
  owner_called _ _ := rfl
  owner_step := owner_callStep env

/-- The system of all calls of the two hooks. -/
abbrev system (env : Environment) :
    System (State Shared Request Pc Event) (Action Request Answer Empty) :=
  (hooks env).system {}

/-! ### What a call does -/

section Calls

variable (env : Environment) (i : ℕ)

/-- Streamline's answer is the function that sets options, and not the hook. -/
structure Replaced (feature : UInt32) (name : Option String) (function : Pointer) : Prop where
  feature_eq : feature = env.featureDlssG
  name_eq : name = some "slDLSSGSetOptions"
  ne_null : function ≠ 0
  ne_hook : function ≠ env.hook

/-- What a question for a function does, and what the game gets. -/
inductive Gets (feature : UInt32) (name : Option String) (function : Pointer) :
    SlResult → Pointer → List Event → Prop
  /-- `slGetFeatureFunction` is not known -/
  | unknown : Gets feature name function .errorNotInitialized function
    [.called i (.getFunction feature name function)]
  | passed (result : SlResult) (answered : Pointer) : Gets feature name function result answered
    [.called i (.getFunction feature name function), .answered i result answered]
  | state (answered : Pointer) : Gets feature name function .ok answered
    [.called i (.getFunction feature name function), .answered i .ok answered, .keptState i answered]
  | options (answered : Pointer) : Replaced env feature name answered →
    Gets feature name function .ok env.hook
      [.called i (.getFunction feature name function), .answered i .ok answered, .kept i answered]

/-- What a question has done, by where it is. -/
def GetPast (feature : UInt32) (name : Option String) (function : Pointer) (events : List Event) :
    Pc → Prop
  | .start => events = [.called i (.getFunction feature name function)]
  | .keepState answered =>
    events = [.called i (.getFunction feature name function), .answered i .ok answered]
  | .keepOptions answered =>
    events = [.called i (.getFunction feature name function), .answered i .ok answered] ∧
      Replaced env feature name answered
  | .hand result answered => Gets env i feature name function result answered events
  | .returned => ∃ result answered before, Gets env i feature name function result answered before ∧
      events = before ++ [.handed i result answered]
  | _ => False

variable (viewport : UInt32) (options : DLSSGOptions)

/-- The request is reported, or not, and the game's own. -/
structure Newer : Prop where
  on : options.mode ≠ .off
  forced : ¬(env.force = 0 ∨ options.mode = .dynamic)
  newer : options.structVersion > kKnownVersion

/-- A request that frames be generated is exchanged and numbered, and these say
whether it is to be reported. -/
inductive Counted : Bool → List Event → Prop
  | counted (changed : Bool) (number : UInt64) : options.mode ≠ .off →
    Counted (changed || spaced number) [.called i (.setOptions viewport options),
      .exchanged i (requestValue env options) changed, .numbered i number]

/-- What is done before Streamline is called with the game's own request. -/
inductive Asks : Bool → List Event → Prop
  | off : options.mode = .off → Asks false [.called i (.setOptions viewport options)]
  | own {report : Bool} {events : List Event} : Counted env i viewport options report events →
    env.force = 0 ∨ options.mode = .dynamic → Asks report events
  | newer {report : Bool} {events : List Event} (alreadyReported : Bool) :
    Counted env i viewport options report events → Newer env options →
    Asks false (events ++ if alreadyReported then [] else [.newerReported i])

/-- What is done until Streamline's last answer. -/
inductive Answers : Bool → SlResult → List Event → Prop
  | own {report : Bool} {events : List Event} (original : Pointer) (result : SlResult) :
    Asks env i viewport options report events →
    Answers report result (events ++ [.sent i original ((viewport, options), result)])
  | forced {report : Bool} {events : List Event} (original : Pointer) :
    Counted env i viewport options report events → ¬PassedThrough env.force options →
    Answers report .ok (events ++ [.sent i original ((viewport, adjusted env options), .ok)])
  | replayed {report : Bool} {events : List Event} (original : Pointer) (refusal result : SlResult) :
    Counted env i viewport options report events → ¬PassedThrough env.force options →
    refusal ≠ .ok →
    Answers report result (events ++ [.sent i original ((viewport, adjusted env options), refusal),
      .sent i original ((viewport, options), result)])

/-- What is done until the result is known to `HookSetOptions`. -/
inductive Settles : SlResult → List Event → Prop
  | refused : Settles .errorNotInitialized [.called i (.setOptions viewport options), .refused i]
  | quiet {result : SlResult} {events : List Event} :
    Answers env i viewport options false result events → Settles result events
  | written {result : SlResult} {events : List Event} (asked : List Event) :
    Answers env i viewport options true result events →
    asked = [] ∨ (∃ function, asked = [.stateAsked i function]) →
    Settles result (events ++ .wrote i :: asked)

/-- What a request has done, by where it is. -/
def SetPast (events : List Event) : Pc → Prop
  | .start => events = [.called i (.setOptions viewport options)]
  | .exchange _ => events = [.called i (.setOptions viewport options)] ∧ options.mode ≠ .off
  | .count _ changed => events = [.called i (.setOptions viewport options),
      .exchanged i (requestValue env options) changed] ∧ options.mode ≠ .off
  | .newer _ => (∃ report, Counted env i viewport options report events) ∧ Newer env options
  | .send _ report => Asks env i viewport options report events
  | .force _ report =>
    Counted env i viewport options report events ∧ ¬PassedThrough env.force options
  | .replay original report refusal => ∃ before, Counted env i viewport options report before ∧
      ¬PassedThrough env.force options ∧ refusal ≠ .ok ∧
      events = before ++ [.sent i original ((viewport, adjusted env options), refusal)]
  | .write result _ => Answers env i viewport options true result events
  | .askState result =>
    ∃ before, Answers env i viewport options true result before ∧ events = before ++ [.wrote i]
  | .settle result => Settles env i viewport options result events
  | .returned => ∃ result before, Settles env i viewport options result before ∧
      events = before ++ if result = .ok then [.stored i (options.mode != .off)] else []
  | _ => False

/-- The events of a call, by where it is. -/
def Past (request : Request) (events : List Event) (pc : Pc) : Prop :=
  match request with
  | .getFunction feature name function => GetPast env i feature name function events pc
  | .setOptions viewport options => SetPast env i viewport options events pc

end Calls

section Steps

variable {env : Environment} {shared : Shared} {answer : Answer} {i : ℕ} {pc : Pc}
  {next : Pc × Shared × List Event} {events : List Event}

/-- A question goes on from what it has done. -/
theorem getPast_step {feature : UInt32} {name : Option String} {function : Pointer}
    (hpast : GetPast env i feature name function events pc)
    (h : getFunctionStep env shared answer i feature name function pc = some next) :
    GetPast env i feature name function (events ++ next.2.2) next.1 := by
  cases pc with
  | start =>
    have hpast : events = [.called i (.getFunction feature name function)] := hpast
    rw [hpast]
    dsimp only [getFunctionStep] at h
    split at h
    · cases h
      exact .unknown
    · cases h
      dsimp only
      split
      · exact .passed answer.result answer.function
      · rename_i hanswered
        obtain ⟨hok, hfeature, _, hnull⟩ : answer.result = .ok ∧ feature = env.featureDlssG ∧
            name ≠ none ∧ answer.function ≠ 0 := by
          simpa only [not_or, not_not, ne_eq] using hanswered
        rw [hok]
        split
        · rfl
        · split
          · rename_i hname
            split
            · exact .passed .ok answer.function
            · rename_i hhook
              exact ⟨rfl, hfeature, hname, hnull, hhook⟩
          · exact .passed .ok answer.function
  | keepState answered =>
    have hpast : events = _ := hpast
    cases h
    rw [hpast]
    exact .state answered
  | keepOptions answered =>
    obtain ⟨hevents, hreplaced⟩ := hpast
    cases h
    rw [hevents]
    exact .options answered hreplaced
  | hand result answered =>
    cases h
    exact ⟨result, answered, events, hpast, rfl⟩
  | _ => cases h

/-- So does a request. -/
theorem setPast_step {viewport : UInt32} {options : DLSSGOptions}
    (hpast : SetPast env i viewport options events pc)
    (h : setOptionsStep env shared answer i viewport options pc = some next) :
    SetPast env i viewport options (events ++ next.2.2) next.1 := by
  cases pc with
  | start =>
    have hpast : events = [.called i (.setOptions viewport options)] := hpast
    rw [hpast]
    dsimp only [setOptionsStep] at h
    split at h
    · cases h
      exact .refused
    · split at h
      · rename_i hoff
        cases h
        exact .off hoff
      · rename_i hon
        cases h
        exact ⟨rfl, hon⟩
  | exchange original =>
    obtain ⟨hevents, hon⟩ := hpast
    cases h
    rw [hevents]
    exact ⟨rfl, hon⟩
  | count original changed =>
    obtain ⟨hevents, hon⟩ := hpast
    cases h
    have hcounted : Counted env i viewport options (changed || spaced (shared.setCalls + 1)) _ :=
      .counted changed (shared.setCalls + 1) hon
    rw [hevents]
    dsimp only
    split
    · rename_i hown
      exact .own hcounted hown
    · rename_i hforced
      split
      · rename_i hnewer
        exact ⟨⟨_, hcounted⟩, hon, hforced, hnewer⟩
      · rename_i hknown
        refine ⟨hcounted, fun hpassed => ?_⟩
        rcases hpassed with hmode | hmode | hnone | hversion
        · exact hon hmode
        · exact hforced (.inr hmode)
        · exact hforced (.inl hnone)
        · exact hknown hversion
  | newer original =>
    obtain ⟨⟨report, hcounted⟩, hnewer⟩ := hpast
    cases h
    exact .newer shared.newerOptionsReported hcounted hnewer
  | send original report =>
    have hanswers := Answers.own original answer.result hpast
    cases h
    cases report with
    | false => exact .quiet hanswers
    | true => exact hanswers
  | force original report =>
    obtain ⟨hcounted, hforced⟩ := hpast
    cases h
    dsimp only
    split
    · rename_i hrefusal
      exact ⟨events, hcounted, hforced, hrefusal, rfl⟩
    · rename_i hok
      have hok : answer.result = .ok := not_not.mp hok
      have hanswers := Answers.forced original hcounted hforced
      rw [hok]
      cases report with
      | false => exact .quiet hanswers
      | true => exact hanswers
  | replay original report refusal =>
    obtain ⟨before, hcounted, hforced, hrefusal, hevents⟩ := hpast
    have hanswers := Answers.replayed original refusal answer.result hcounted hforced hrefusal
    cases h
    rw [hevents, List.append_assoc]
    cases report with
    | false => exact .quiet hanswers
    | true => exact hanswers
  | write result state =>
    cases h
    cases state with
    | false => exact .written [] hpast (.inl rfl)
    | true => exact ⟨events, hpast, rfl⟩
  | askState result =>
    obtain ⟨before, hanswers, hevents⟩ := hpast
    cases h
    rw [hevents, List.append_assoc]
    refine .written _ hanswers ?_
    split
    · exact .inl rfl
    · exact .inr ⟨shared.getState, rfl⟩
  | settle result =>
    dsimp only [setOptionsStep] at h
    split at h
    · rename_i hok
      cases h
      exact ⟨result, events, hpast, by rw [if_pos hok]⟩
    · rename_i hrefused
      cases h
      exact ⟨result, events, hpast, by rw [if_neg hrefused]⟩
  | _ => cases h

/-- The events of a step follow those before it. -/
theorem past_callStep {call : Call Request Pc} (hpast : Past env i call.request events call.pc)
    (h : callStep env shared answer i call = some next) :
    Past env i call.request (events ++ next.2.2) next.1 := by
  obtain ⟨request, pc⟩ := call
  cases request with
  | getFunction feature name function => exact getPast_step hpast h
  | setOptions viewport options => exact setPast_step hpast h

end Steps

/-! ### What a trace shows -/

/-- A function that was kept. -/
structure Kept (env : Environment) (trace : List Event) (function : Pointer) : Prop where
  ne_null : function ≠ 0
  ne_hook : function ≠ env.hook
  kept : ∃ j, .kept j function ∈ trace

/-- A function is kept where Streamline answered it for the one that sets
options; Streamline is called by functions it answered, never by the hook; and a
request is refused only while none was kept. -/
def Allowed (env : Environment) (before : List Event) : Event → Prop
  | .kept i function => ∃ feature name given, Replaced env feature name function ∧
      .called i (.getFunction feature name given) ∈ before ∧ .answered i .ok function ∈ before
  | .sent _ function _ => Kept env before function
  | .refused _ => ∀ j function, .kept j function ∉ before
  | .stateAsked _ function => ∃ j, .keptState j function ∈ before
  | _ => True

/-- The requests exchanged. -/
def requests (trace : List Event) : List UInt64 :=
  trace.filterMap fun event =>
    match event with
    | .exchanged _ request _ => some request
    | _ => none

/-- The requests found changed, with the calls that made them. -/
def changes (trace : List Event) : List (ℕ × UInt64) :=
  trace.filterMap fun event =>
    match event with
    | .exchanged i request true => some (i, request)
    | _ => none

/-- The numbers given, with the calls they were given to. -/
def numbers (trace : List Event) : List (ℕ × UInt64) :=
  trace.filterMap fun event =>
    match event with
    | .numbered i number => some (i, number)
    | _ => none

/-- What was stored for `FrameGenerationOn`. -/
def stores (trace : List Event) : List Bool :=
  trace.filterMap fun event =>
    match event with
    | .stored _ on => some on
    | _ => none

/-- The calls of Streamline. -/
def sentOf (events : List Event) : List ((UInt32 × DLSSGOptions) × SlResult) :=
  events.filterMap fun event =>
    match event with
    | .sent _ _ call => some call
    | _ => none

/-- The requests of a longer trace. -/
theorem requests_append (trace events : List Event) :
    requests (trace ++ events) = requests trace ++ requests events :=
  List.filterMap_append

/-- Its requests that were found changed. -/
theorem changes_append (trace events : List Event) :
    changes (trace ++ events) = changes trace ++ changes events :=
  List.filterMap_append

/-- The numbers given in it. -/
theorem numbers_append (trace events : List Event) :
    numbers (trace ++ events) = numbers trace ++ numbers events :=
  List.filterMap_append

/-- What was stored for `FrameGenerationOn` in it. -/
theorem stores_append (trace events : List Event) :
    stores (trace ++ events) = stores trace ++ stores events :=
  List.filterMap_append

/-- What Streamline was sent in it. -/
theorem sentOf_append (trace events : List Event) :
    sentOf (trace ++ events) = sentOf trace ++ sentOf events :=
  List.filterMap_append

/-- A function that was kept stays so. -/
theorem Kept.append {env : Environment} {trace : List Event} {function : Pointer}
    (h : Kept env trace function) (events : List Event) : Kept env (trace ++ events) function := by
  obtain ⟨j, hkept⟩ := h.kept
  exact ⟨h.ne_null, h.ne_hook, j, List.mem_append_left _ hkept⟩

/-- The function a call is about to call. -/
def Pc.original : Pc → Option Pointer
  | .exchange original | .count original _ | .newer original | .send original _
  | .force original _ | .replay original _ _ => some original
  | _ => none

/-- What a call knows: the function it is about to call was kept. -/
def Known (env : Environment) (trace : List Event) (pc : Pc) : Prop :=
  ∀ original, pc.original = some original → Kept env trace original

/-- What holds of the shared state and the trace. -/
structure Common (env : Environment) (shared : Shared) (trace : List Event) : Prop where
  kept : shared.setOptions ≠ 0 → Kept env trace shared.setOptions
  unkept : shared.setOptions = 0 → ∀ j function, .kept j function ∉ trace
  state : shared.getState ≠ 0 → ∃ j, .keptState j shared.getState ∈ trace
  allowed : Justified (Allowed env) trace
  last : shared.lastRequest = held (UInt64.ofNat (2 ^ 64 - 1)) (requests trace)
  changed : (changes trace).map Prod.snd = reported (UInt64.ofNat (2 ^ 64 - 1)) (requests trace)
  numbered : (numbers trace).map Prod.snd =
    (List.range' 1 (numbers trace).length).map fun n => UInt64.ofNat n
  count : shared.setCalls = UInt64.ofNat (numbers trace).length
  flag : shared.frameGenerationOn = held false (stores trace)

section Invariant

variable {env : Environment} {shared : Shared} {answer : Answer} {i : ℕ}
  {call : Call Request Pc} {next : Pc × Shared × List Event} {trace : List Event}

/-- The ways a step can touch what is shared. -/
inductive Touches (shared : Shared) (i : ℕ) : Shared → List Event → Prop
  | keepState (function : Pointer) :
    Touches shared i { shared with getState := function } [.keptState i function]
  | keep (function : Pointer) :
    Touches shared i { shared with setOptions := function } [.kept i function]
  | exchange (request : UInt64) : Touches shared i { shared with lastRequest := request }
    [.exchanged i request (decide (shared.lastRequest ≠ request))]
  | number : Touches shared i { shared with setCalls := shared.setCalls + 1 }
    [.numbered i (shared.setCalls + 1)]
  | store (on : Bool) : Touches shared i { shared with frameGenerationOn := on } [.stored i on]
  /-- nothing that the trace tells of -/
  | quiet (alreadyReported : Bool) (events : List Event) :
    (∀ event ∈ events, event.isQuiet = true) →
    Touches shared i { shared with newerOptionsReported := alreadyReported } events

/-- A step of `HookGetFeatureFunction` touches one register at most, and says so. -/
theorem touches_getFunctionStep {feature : UInt32} {name : Option String} {function : Pointer}
    {pc : Pc} (h : getFunctionStep env shared answer i feature name function pc = some next) :
    Touches shared i next.2.1 next.2.2 := by
  cases pc with
  | start =>
    dsimp only [getFunctionStep] at h
    split at h <;> cases h <;> exact .quiet shared.newerOptionsReported _ (by simp [Event.isQuiet])
  | keepState answered =>
    cases h
    exact .keepState answered
  | keepOptions answered =>
    cases h
    exact .keep answered
  | hand result answered =>
    cases h
    exact .quiet shared.newerOptionsReported _ (by simp [Event.isQuiet])
  | _ => cases h

/-- So does a step of `HookSetOptions`. -/
theorem touches_setOptionsStep {viewport : UInt32} {options : DLSSGOptions} {pc : Pc}
    (h : setOptionsStep env shared answer i viewport options pc = some next) :
    Touches shared i next.2.1 next.2.2 := by
  have hquiet : ∀ events : List Event, (∀ event ∈ events, event.isQuiet = true) →
      Touches shared i shared events := fun events => .quiet shared.newerOptionsReported events
  cases pc with
  | start =>
    dsimp only [setOptionsStep] at h
    split at h
    · cases h
      exact hquiet _ (by simp [Event.isQuiet])
    · split at h <;> cases h <;> exact hquiet _ (by simp)
  | exchange original =>
    cases h
    exact .exchange _
  | count original changed =>
    cases h
    exact .number
  | newer original =>
    cases h
    refine .quiet true _ ?_
    split <;> simp [Event.isQuiet]
  | askState result =>
    cases h
    refine hquiet _ ?_
    split <;> simp [Event.isQuiet]
  | settle result =>
    dsimp only [setOptionsStep] at h
    split at h
    · cases h
      exact .store _
    · cases h
      exact hquiet _ (by simp)
  | send original report =>
    cases h
    exact hquiet _ (by simp [Event.isQuiet])
  | force original report =>
    cases h
    exact hquiet _ (by simp [Event.isQuiet])
  | replay original report refusal =>
    cases h
    exact hquiet _ (by simp [Event.isQuiet])
  | write result state =>
    cases h
    exact hquiet _ (by simp [Event.isQuiet])
  | _ => cases h

/-- So does a step of any call. -/
theorem touches_callStep (h : callStep env shared answer i call = some next) :
    Touches shared i next.2.1 next.2.2 := by
  obtain ⟨request, pc⟩ := call
  cases request with
  | getFunction feature name function => exact touches_getFunctionStep h
  | setOptions viewport options => exact touches_setOptionsStep h

/-- Quiet events add nothing to what a trace shows of the registers. -/
theorem filterMap_quiet {β : Type} {shown : Event → Option β} {events : List Event}
    (hevents : ∀ event ∈ events, event.isQuiet = true)
    (hshown : ∀ event : Event, event.isQuiet = true → shown event = none) :
    events.filterMap shown = [] :=
  List.filterMap_eq_nil_iff.mpr fun event hevent => hshown event (hevents event hevent)

section Registers

variable {shared' : Shared} {events : List Event}

/-- The request before is what the last exchange stored. -/
theorem Touches.lastRequest (h : Touches shared i shared' events) :
    (shared'.lastRequest = shared.lastRequest ∧ requests events = [] ∧ changes events = []) ∨
      ∃ request, shared'.lastRequest = request ∧
        events = [.exchanged i request (decide (shared.lastRequest ≠ request))] := by
  cases h with
  | exchange request => exact .inr ⟨request, rfl, rfl⟩
  | quiet alreadyReported events hquiet =>
    refine .inl ⟨rfl, filterMap_quiet hquiet ?_, filterMap_quiet hquiet ?_⟩
    · intro event hevent
      cases event <;> first | rfl | cases hevent
    · intro event hevent
      cases event <;> first | rfl | cases hevent
  | _ => exact .inl ⟨rfl, rfl, rfl⟩

/-- The counter grows by the numbers that are given. -/
theorem Touches.setCalls (h : Touches shared i shared' events) :
    (shared'.setCalls = shared.setCalls ∧ numbers events = []) ∨
      (shared'.setCalls = shared.setCalls + 1 ∧ events = [.numbered i (shared.setCalls + 1)]) := by
  cases h with
  | number => exact .inr ⟨rfl, rfl⟩
  | quiet alreadyReported events hquiet =>
    refine .inl ⟨rfl, filterMap_quiet hquiet ?_⟩
    intro event hevent
    cases event <;> first | rfl | cases hevent
  | _ => exact .inl ⟨rfl, rfl⟩

/-- What `FrameGenerationOn` answers is what was stored last. -/
theorem Touches.frameGenerationOn (h : Touches shared i shared' events) :
    (shared'.frameGenerationOn = shared.frameGenerationOn ∧ stores events = []) ∨
      ∃ on, shared'.frameGenerationOn = on ∧ events = [.stored i on] := by
  cases h with
  | store on => exact .inr ⟨on, rfl, rfl⟩
  | quiet alreadyReported events hquiet =>
    refine .inl ⟨rfl, filterMap_quiet hquiet ?_⟩
    intro event hevent
    cases event <;> first | rfl | cases hevent
  | _ => exact .inl ⟨rfl, rfl⟩

/-- The function for requests is the last that was kept. -/
theorem Touches.setOptions (h : Touches shared i shared' events) :
    (shared'.setOptions = shared.setOptions ∧ ∀ j function, .kept j function ∉ events) ∨
      ∃ function, shared'.setOptions = function ∧ events = [.kept i function] := by
  cases h with
  | keep function => exact .inr ⟨function, rfl, rfl⟩
  | quiet alreadyReported events hquiet =>
    exact .inl ⟨rfl, fun j function hkept => nomatch hquiet _ hkept⟩
  | _ => exact .inl ⟨rfl, by simp⟩

/-- So is the one for states. -/
theorem Touches.getState (h : Touches shared i shared' events) :
    shared'.getState = shared.getState ∨
      ∃ function, shared'.getState = function ∧ events = [.keptState i function] := by
  cases h with
  | keepState function => exact .inr ⟨function, rfl, rfl⟩
  | _ => exact .inl rfl

/-- A step keeps what holds. -/
theorem Common.touch (h : Common env shared trace) (htouches : Touches shared i shared' events)
    (hallowed : Justified (Allowed env) (trace ++ events)) :
    Common env shared' (trace ++ events) := by
  refine ⟨fun hne => ?_, fun hzero j other hkept => ?_, fun hne => ?_, hallowed, ?_, ?_, ?_, ?_, ?_⟩
  · rcases htouches.setOptions with ⟨hsame, _⟩ | ⟨function, hfunction, hevents⟩
    · rw [hsame] at hne ⊢
      exact (h.kept hne).append events
    · rw [hevents] at hallowed ⊢
      obtain ⟨feature, name, given, hreplaced, _⟩ := hallowed trace (.kept i function) [] rfl
      rw [hfunction]
      exact ⟨hreplaced.ne_null, hreplaced.ne_hook, i, List.mem_append_right _ List.mem_cons_self⟩
  · rcases htouches.setOptions with ⟨hsame, hnone⟩ | ⟨function, hfunction, hevents⟩
    · rw [hsame] at hzero
      rcases List.mem_append.mp hkept with hin | hnow
      · exact h.unkept hzero j other hin
      · exact hnone j other hnow
    · rw [hevents] at hallowed
      obtain ⟨feature, name, given, hreplaced, _⟩ := hallowed trace (.kept i function) [] rfl
      exact hreplaced.ne_null (hfunction.symm.trans hzero)
  · rcases htouches.getState with hsame | ⟨function, hfunction, hevents⟩
    · rw [hsame] at hne ⊢
      obtain ⟨j, hkept⟩ := h.state hne
      exact ⟨j, List.mem_append_left _ hkept⟩
    · rw [hfunction, hevents]
      exact ⟨i, List.mem_append_right _ List.mem_cons_self⟩
  · rw [requests_append]
    rcases htouches.lastRequest with ⟨hsame, hnone, _⟩ | ⟨request, hlast, hevents⟩
    · rw [hsame, hnone, List.append_nil]
      exact h.last
    · rw [hlast, hevents]
      exact (held_concat _ _ _).symm
  · rw [requests_append, changes_append, List.map_append, h.changed]
    rcases htouches.lastRequest with ⟨_, hnone, hunchanged⟩ | ⟨request, _, hevents⟩
    · rw [hnone, hunchanged, List.append_nil, List.map_nil, List.append_nil]
    · have hrequests : requests events = [request] := by
        rw [hevents]
        rfl
      rw [hrequests, reported_concat, ← h.last, hevents]
      by_cases hsame : shared.lastRequest = request
      · rw [if_pos hsame, hsame]
        simp [changes]
      · rw [if_neg hsame, decide_eq_true hsame]
        rfl
  · rw [numbers_append, List.map_append, h.numbered]
    rcases htouches.setCalls with ⟨_, hnone⟩ | ⟨_, hevents⟩
    · rw [hnone, List.map_nil, List.append_nil, List.append_nil]
    · have hnumbers : numbers events = [(i, shared.setCalls + 1)] := by
        rw [hevents]
        rfl
      rw [hnumbers, List.length_append, List.length_singleton, List.range'_concat, List.map_append,
        h.count, List.map_singleton, List.map_singleton, Nat.one_mul, Nat.add_comm 1,
        UInt64.ofNat_add]
      rfl
  · rw [numbers_append]
    rcases htouches.setCalls with ⟨hsame, hnone⟩ | ⟨hcount, hevents⟩
    · rw [hsame, hnone, List.append_nil]
      exact h.count
    · have hnumbers : numbers events = [(i, shared.setCalls + 1)] := by
        rw [hevents]
        rfl
      rw [hcount, hnumbers, List.length_append, List.length_singleton, h.count, UInt64.ofNat_add]
      rfl
  · rw [stores_append]
    rcases htouches.frameGenerationOn with ⟨hsame, hnone⟩ | ⟨on, hon, hevents⟩
    · rw [hsame, hnone, List.append_nil]
      exact h.flag
    · rw [hon, hevents]
      exact (held_concat _ _ _).symm

end Registers

/-- What a call knows, it knows after its step. -/
theorem known_callStep (h : Common env shared trace) (hknown : Known env trace call.pc)
    (hstep : callStep env shared answer i call = some next) :
    Known env (trace ++ next.2.2) next.1 := by
  obtain ⟨request, pc⟩ := call
  intro original horiginal
  cases request with
  | getFunction feature name function =>
    cases pc with
    | start =>
      dsimp only [callStep, getFunctionStep] at hstep
      split at hstep
      · cases hstep
        cases horiginal
      · cases hstep
        dsimp only at horiginal
        split at horiginal
        · cases horiginal
        · split at horiginal
          · cases horiginal
          · split at horiginal
            · split at horiginal <;> cases horiginal
            · cases horiginal
    | keepState answered => cases hstep; cases horiginal
    | keepOptions answered => cases hstep; cases horiginal
    | hand result answered => cases hstep; cases horiginal
    | _ => cases hstep
  | setOptions viewport options =>
    cases pc with
    | start =>
      dsimp only [callStep, setOptionsStep] at hstep
      split at hstep
      · cases hstep
        cases horiginal
      · rename_i hne
        split at hstep <;> cases hstep <;> cases horiginal <;> exact (h.kept hne).append _
    | exchange function =>
      cases hstep
      cases horiginal
      exact (hknown _ rfl).append _
    | count function changed =>
      cases hstep
      dsimp only at horiginal
      split at horiginal
      · cases horiginal
        exact (hknown _ rfl).append _
      · split at horiginal <;> cases horiginal <;> exact (hknown _ rfl).append _
    | newer function =>
      cases hstep
      cases horiginal
      exact (hknown _ rfl).append _
    | send function report =>
      cases hstep
      dsimp only at horiginal
      split at horiginal <;> cases horiginal
    | force function report =>
      cases hstep
      dsimp only at horiginal
      split at horiginal
      · cases horiginal
        exact (hknown _ rfl).append _
      · split at horiginal <;> cases horiginal
    | replay function report refusal =>
      cases hstep
      dsimp only at horiginal
      split at horiginal <;> cases horiginal
    | write result state =>
      cases hstep
      dsimp only at horiginal
      split at horiginal <;> cases horiginal
    | askState result => cases hstep; cases horiginal
    | settle result =>
      dsimp only [callStep, setOptionsStep] at hstep
      split at hstep <;> cases hstep <;> cases horiginal
    | _ => cases hstep

/-- What a step does is allowed. -/
theorem allowed_callStep (h : Common env shared trace) (hknown : Known env trace call.pc)
    (hpast : Past env i call.request ((hooks env).own trace i) call.pc)
    (hstep : callStep env shared answer i call = some next) :
    Justified (Allowed env) (trace ++ next.2.2) := by
  obtain ⟨request, pc⟩ := call
  cases request with
  | getFunction feature name function =>
    cases pc with
    | start =>
      dsimp only [callStep, getFunctionStep] at hstep
      split at hstep
      · cases hstep
        rw [List.append_nil]
        exact h.allowed
      · cases hstep
        exact h.allowed.concat trivial
    | keepState answered =>
      cases hstep
      exact h.allowed.concat trivial
    | keepOptions answered =>
      obtain ⟨hevents, hreplaced⟩ := hpast
      have hcalled : .called i (.getFunction feature name function) ∈ (hooks env).own trace i := by
        rw [hevents]
        exact List.mem_cons_self
      have hanswered : .answered i .ok answered ∈ (hooks env).own trace i := by
        rw [hevents]
        exact List.mem_cons_of_mem _ List.mem_cons_self
      cases hstep
      exact h.allowed.concat ⟨feature, name, function, hreplaced,
        ((hooks env).mem_own rfl).mp hcalled, ((hooks env).mem_own rfl).mp hanswered⟩
    | hand result answered =>
      cases hstep
      exact h.allowed.concat trivial
    | _ => cases hstep
  | setOptions viewport options =>
    cases pc with
    | start =>
      dsimp only [callStep, setOptionsStep] at hstep
      split at hstep
      · rename_i hzero
        cases hstep
        exact h.allowed.concat (h.unkept hzero)
      · split at hstep <;> cases hstep <;> rw [List.append_nil] <;> exact h.allowed
    | exchange function =>
      cases hstep
      exact h.allowed.concat trivial
    | count function changed =>
      cases hstep
      exact h.allowed.concat trivial
    | newer function =>
      cases hstep
      dsimp only
      split
      · rw [List.append_nil]
        exact h.allowed
      · exact h.allowed.concat trivial
    | send function report =>
      cases hstep
      exact h.allowed.concat (hknown _ rfl)
    | force function report =>
      cases hstep
      exact h.allowed.concat (hknown _ rfl)
    | replay function report refusal =>
      cases hstep
      exact h.allowed.concat (hknown _ rfl)
    | write result state =>
      cases hstep
      exact h.allowed.concat trivial
    | askState result =>
      cases hstep
      dsimp only
      split
      · rw [List.append_nil]
        exact h.allowed
      · rename_i hne
        exact h.allowed.concat (h.state hne)
    | settle result =>
      dsimp only [callStep, setOptionsStep] at hstep
      split at hstep
      · cases hstep
        exact h.allowed.concat trivial
      · cases hstep
        rw [List.append_nil]
        exact h.allowed
    | _ => cases hstep

end Invariant

/-- A call that is made changes nothing. -/
theorem Common.make {env : Environment} {shared : Shared} {trace : List Event}
    (h : Common env shared trace) (i : ℕ) (request : Request) :
    Common env shared (trace ++ [.called i request]) :=
  h.touch (.quiet (i := i) shared.newerOptionsReported _ (by simp [Event.isQuiet]))
    (h.allowed.concat trivial)

/-- What the two hooks rely on and keep. -/
def discipline (env : Environment) : Discipline (hooks env) {} where
  Common := Common env
  Known _ trace _ call := Known env trace call.pc
  Past := Past env
  Change _ _ trace _ trace' := ∃ events, trace' = trace ++ events
  initially :=
    ⟨fun h => absurd rfl h, nofun, fun h => absurd rfl h, Justified.nil, rfl, rfl, rfl, rfl, rfl⟩
  make i request _ h := ⟨h.make i request, nofun, _, rfl⟩
  first _ request := by cases request <;> rfl
  advance h hknown hpast hstep :=
    ⟨h.touch (touches_callStep hstep) (allowed_callStep h hknown hpast hstep),
      known_callStep h hknown hstep, _, rfl⟩
  onward := past_callStep
  interfere {_ _ _ o} := o.elim
  stable _ h hchange := by
    obtain ⟨events, hgrown⟩ := hchange
    rw [hgrown]
    exact fun original horiginal => (h original horiginal).append events

/-! ### Requests -/

section Requests

variable {env : Environment} {i : ℕ} {viewport : UInt32} {options : DLSSGOptions} {report : Bool}
  {result : SlResult} {events : List Event}

/-- A request that was only counted has sent nothing. -/
theorem Counted.sentOf_eq (h : Counted env i viewport options report events) :
    sentOf events = [] := by
  cases h
  rfl

/-- Nor has one that is about to be sent as made. -/
theorem Asks.sentOf_eq (h : Asks env i viewport options report events) : sentOf events = [] := by
  cases h with
  | off hoff => rfl
  | own hcounted hown => exact hcounted.sentOf_eq
  | newer alreadyReported hcounted hnewer =>
    rw [sentOf_append, hcounted.sentOf_eq]
    cases alreadyReported <;> rfl

/-- A request that is sent as made is one that is passed through. -/
theorem Asks.passedThrough (h : Asks env i viewport options report events) :
    PassedThrough env.force options := by
  cases h with
  | off hoff => exact .inl hoff
  | own hcounted hown =>
    rcases hown with hnone | hdynamic
    · exact .inr (.inr (.inl hnone))
    · exact .inr (.inl hdynamic)
  | newer alreadyReported hcounted hnewer => exact .inr (.inr (.inr hnewer.newer))

/-- The request with the multiplier forced is what forcing asks for. -/
theorem forced_adjusted (env : Environment) (options : DLSSGOptions) :
    Forced env.force options (adjusted env options) :=
  ⟨sameKnownFields_copy options .on (env.force - 1), rfl, rfl⟩

/-- Streamline is called as a request is to be served. -/
theorem Answers.served (h : Answers env i viewport options report result events) :
    Served env.force viewport options (sentOf events) result := by
  cases h with
  | own original result hasks =>
    rw [sentOf_append, hasks.sentOf_eq]
    exact .own hasks.passedThrough result
  | forced original hcounted hforced =>
    rw [sentOf_append, hcounted.sentOf_eq]
    exact .forced hforced _ (forced_adjusted env options)
  | replayed original refusal result hcounted hforced hrefusal =>
    rw [sentOf_append, hcounted.sentOf_eq]
    exact .replayed hforced _ (forced_adjusted env options) refusal result hrefusal

/-- A request that was only counted has stored nothing. -/
theorem Counted.stores_eq (h : Counted env i viewport options report events) :
    stores events = [] := by
  cases h
  rfl

/-- Nor has one that is about to be sent as made. -/
theorem Asks.stores_eq (h : Asks env i viewport options report events) : stores events = [] := by
  cases h with
  | off hoff => rfl
  | own hcounted hown => exact hcounted.stores_eq
  | newer alreadyReported hcounted hnewer =>
    rw [stores_append, hcounted.stores_eq]
    cases alreadyReported <;> rfl

/-- Nor has one that was answered. -/
theorem Answers.stores_eq (h : Answers env i viewport options report result events) :
    stores events = [] := by
  cases h with
  | own original result hasks =>
    rw [stores_append, hasks.stores_eq]
    rfl
  | forced original hcounted hforced =>
    rw [stores_append, hcounted.stores_eq]
    rfl
  | replayed original refusal result hcounted hforced hrefusal =>
    rw [stores_append, hcounted.stores_eq]
    rfl

/-- What a request that returned has done: it was refused as no function was
kept, or Streamline was called as it is to be served, and where its last answer
was good it was stored whether frames are generated. -/
inductive Complete (env : Environment) (i : ℕ) (viewport : UInt32) (options : DLSSGOptions)
    (events : List Event) : Prop
  | refused : events = [.called i (.setOptions viewport options), .refused i] →
    Complete env i viewport options events
  | served (result : SlResult) : Served env.force viewport options (sentOf events) result →
    stores events = (if result = .ok then [options.mode != .off] else []) →
    Complete env i viewport options events

/-- A request that was answered is complete once its line is written and its
result stored. -/
theorem Answers.complete (h : Answers env i viewport options report result events)
    (line : List Event) (hsent : sentOf line = []) (hstored : stores line = []) :
    Complete env i viewport options
      (events ++ line ++ if result = .ok then [.stored i (options.mode != .off)] else []) := by
  refine .served result ?_ ?_
  · have hlast : sentOf (if result = .ok then [.stored i (options.mode != .off)] else []) = [] := by
      split <;> rfl
    rw [sentOf_append, sentOf_append, hsent, hlast, List.append_nil, List.append_nil]
    exact h.served
  · rw [stores_append, stores_append, h.stores_eq, hstored]
    split <;> rfl

/-- A request that returned is complete. -/
theorem complete_of_returned (h : SetPast env i viewport options events .returned) :
    Complete env i viewport options events := by
  obtain ⟨result, before, hsettles, rfl⟩ := h
  cases hsettles with
  | refused => exact .refused rfl
  | quiet hanswers =>
    have hcomplete := hanswers.complete [] rfl rfl
    rwa [List.append_nil] at hcomplete
  | written asked hanswers hasked =>
    refine hanswers.complete _ ?_ ?_
    · rcases hasked with hnone | ⟨function, hone⟩
      · rw [hnone]
        rfl
      · rw [hone]
        rfl
    · rcases hasked with hnone | ⟨function, hone⟩
      · rw [hnone]
        rfl
      · rw [hone]
        rfl

end Requests

/-- However questions and requests interleave, the hook calls the function
Streamline answered for it and never itself, and refuses no request once such a
function was kept. A request that returned reached Streamline as it is to be
served, and what `FrameGenerationOn` answers is what the last good one stored. -/
theorem requests_reach_streamline {env : Environment} {s : State Shared Request Pc Event}
    (h : (system env).Reachable s) :
    Justified (Allowed env) s.trace ∧
      s.shared.frameGenerationOn = held false (stores s.trace) ∧
      ∀ i viewport options, s.calls i = some ⟨.setOptions viewport options, .returned⟩ →
        Complete env i viewport options ((hooks env).own s.trace i) := by
  have hkeeps := (discipline env).keeps_of_reachable h
  have hcommon : Common env s.shared s.trace := hkeeps.common
  exact ⟨hcommon.allowed, hcommon.flag, fun i viewport options hcall =>
    complete_of_returned (hkeeps.past i _ hcall)⟩

/-! ### Lines of the log -/

/-- An event for which a request is reported: it changed, or its number is one of
those spaced out. -/
def Event.isReason : Event → Bool
  | .exchanged _ _ changed => changed
  | .numbered _ number => spaced number
  | _ => false

section Lines

variable {env : Environment} {i : ℕ} {viewport : UInt32} {options : DLSSGOptions} {report : Bool}
  {result : SlResult} {events : List Event}

/-- No line was written yet, and one is due or not. -/
structure Due (env : Environment) (i : ℕ) (options : DLSSGOptions) (events : List Event)
    (report : Bool) : Prop where
  unwritten : events.count (.wrote i) = 0
  due : report = true ↔ 0 < events.countP Event.isReason ∧ ¬Newer env options

/-- A request that was counted owes a line exactly where there is a reason. -/
theorem Counted.due (h : Counted env i viewport options report events) :
    events.count (.wrote i) = 0 ∧ (report = true ↔ 0 < events.countP Event.isReason) := by
  cases h with
  | counted changed number hon =>
    cases changed <;> cases hspaced : spaced number <;>
      simp [Event.isReason, hspaced]

/-- A request whose multiplier is its own is not held back as too new. -/
theorem not_newer_of_own (h : env.force = 0 ∨ options.mode = .dynamic) : ¬Newer env options :=
  fun hnewer => hnewer.forced h

/-- Nor is one whose multiplier is forced. -/
theorem not_newer_of_forced (h : ¬PassedThrough env.force options) : ¬Newer env options :=
  fun hnewer => h (.inr (.inr (.inr hnewer.newer)))

/-- A request that was counted and is not too new owes what its count says. -/
theorem Counted.due_of_not_newer (h : Counted env i viewport options report events)
    (hnot : ¬Newer env options) : Due env i options events report :=
  ⟨h.due.1, h.due.2.trans (and_iff_left hnot).symm⟩

/-- A request sent as made owes what its count says, and nothing when it is too new. -/
theorem Asks.due (h : Asks env i viewport options report events) :
    Due env i options events report := by
  cases h with
  | off hoff => exact ⟨by simp, by simp [Event.isReason]⟩
  | own hcounted hown => exact hcounted.due_of_not_newer (not_newer_of_own hown)
  | newer alreadyReported hcounted hnewer =>
    refine ⟨?_, ⟨nofun, fun hdue => absurd hnewer hdue.2⟩⟩
    rw [List.count_append, hcounted.due.1]
    cases alreadyReported <;> simp

/-- What gives no reason and writes no line leaves a line as due as it was. -/
theorem Due.append (h : Due env i options events report) {others : List Event}
    (hwrote : others.count (.wrote i) = 0) (hreason : others.countP Event.isReason = 0) :
    Due env i options (events ++ others) report := by
  refine ⟨?_, ?_⟩
  · rw [List.count_append, h.unwritten, hwrote]
  · rw [List.countP_append, hreason, Nat.add_zero]
    exact h.due

/-- An answer leaves what is owed as it is. -/
theorem Answers.due (h : Answers env i viewport options report result events) :
    Due env i options events report := by
  cases h with
  | own original result hasks => exact hasks.due.append (by simp) (by simp [Event.isReason])
  | forced original hcounted hforced =>
    exact (hcounted.due_of_not_newer (not_newer_of_forced hforced)).append (by simp)
      (by simp [Event.isReason])
  | replayed original refusal result hcounted hforced hrefusal =>
    exact (hcounted.due_of_not_newer (not_newer_of_forced hforced)).append (by simp)
      (by simp [Event.isReason])

end Lines

/-- Two requests forced to three frames, the first before the hook was handed out
and the second refused by Streamline once. -/
def optionsRun : List (Action Request Answer Empty) :=
  let options : DLSSGOptions := { mode := .on }
  .make 0 (.setOptions 1 options) :: List.replicate 2 (.advance 0 ⟨true, .ok, 0⟩) ++
    .make 1 (.getFunction 1000 (some "slDLSSGSetOptions") 0) ::
    List.replicate 3 (.advance 1 ⟨true, .ok, 77⟩) ++
    .make 2 (.setOptions 1 options) :: List.replicate 3 (.advance 2 ⟨true, .ok, 0⟩) ++
    .advance 2 ⟨true, .other 5, 0⟩ :: List.replicate 3 (.advance 2 ⟨true, .ok, 0⟩)

/-- Where they end. -/
def optionsState : State Shared Request Pc Event :=
  ((system ⟨99, 1000, fun _ => 1, 4⟩).runUnder (fun _ _ => True) { shared := {} } optionsRun).getD
    { shared := {} }

/-- Both runs of the second request reach Streamline, forced and then as made. -/
theorem requests_reach_streamline_options :
    .refused 0 ∈ optionsState.trace ∧ .handed 1 .ok 99 ∈ optionsState.trace ∧
      (sentOf optionsState.trace).map (fun call => call.1.2.numFramesToGenerate) = [3, 1] ∧
      optionsState.shared.frameGenerationOn = held false (stores optionsState.trace) :=
  ⟨by decide +kernel, by decide +kernel, by decide +kernel,
    (requests_reach_streamline (System.reachable_getD_runUnder (.start rfl) (by decide +kernel))).2.1⟩

end OpenDlssg.OptionCalls
