import OpenDlssg.CallTraces
import OpenDlssg.LogPruning
import OpenDlssg.LogRecords
import OpenDlssg.TextLines

/-!
# The log of a process, written from many threads

Threads write records to the log while it is opened or closed. A record is put
into the stream's buffer and flushed under one lock; what has reached the disk
is what is left when the process ends at any moment. Writes and flushes never
fail, and nothing else touches a file while it is open. What threads did is one
trace, and the sessions of the log are read off it.
-/

namespace OpenDlssg.LogSessions

open ByteCodec CallTraces LogFields LogRecords TransitionRuns WidePaths
open LogPruning (logName matchesPattern)
open SpoofCallers (LogLevel)

deriving instance DecidableEq for FieldValue

/-- What a process has: its conversion to UTF-8, the value of `USERPROFILE`, and
its number. -/
structure Environment where
  toUtf8 : WString → Bytes
  userProfile : WString
  pid : ℕ

/-- The number of a level. -/
def levelValue : LogLevel → ℕ
  | .off => 0
  | .error => 1
  | .warning => 2
  | .info => 3
  | .trace => 4

/-- `Enabled`, given the level in force. -/
def enabled (level current : LogLevel) : Bool := decide (levelValue level ≤ levelValue current)

/-- What is asked of the log. -/
inductive Request
  /-- a record of a level, written where `threshold` is enabled -/
  | log (threshold level : LogLevel) (event : Bytes) (fields : List (Bytes × FieldValue))
  | openLog (directory : WString) (level : LogLevel) (stream : WString)
  | close
  deriving DecidableEq

/-- `Event` -/
def Request.event (level : LogLevel) (event : Bytes) (fields : List (Bytes × FieldValue)) : Request :=
  .log level level event fields

/-- `Header` -/
def Request.header (event : Bytes) (fields : List (Bytes × FieldValue)) : Request :=
  .log .error .info event fields

def Request.isLog : Request → Bool
  | .log .. => true
  | .openLog .. | .close => false

/-- Where a call is. -/
inductive Pc
  /-- the level is read next, or the lock is taken -/
  | start
  /-- the record is made next -/
  | stamp
  | lock (line : Bytes)
  | put (line : Bytes)
  | flush
  | closeFile
  | setLevel
  | prune
  | create
  | unlock
  | returned
  deriving DecidableEq

/-- What calls do that others can see. -/
inductive Event
  | called (i : ℕ) (request : Request)
  /-- the level was found enabled, or not -/
  | checked (i : ℕ) (on : Bool)
  /-- a record was put into the stream -/
  | wrote (i : ℕ) (line : Bytes)
  /-- there was no stream to put it into -/
  | dropped (i : ℕ) (line : Bytes)
  | closed (i : ℕ)
  | leveled (i : ℕ) (level : LogLevel)
  /-- a file was opened for appending to what it held -/
  | opened (i : ℕ) (path : WString) (base : Bytes)
  deriving DecidableEq

/-- The call an event belongs to. -/
def Event.call : Event → ℕ
  | .called i _ | .checked i _ | .wrote i _ | .dropped i _ | .closed i | .leveled i _
  | .opened i _ _ => i

/-- The variables of `log.cpp`, the buffer of its stream, and the disk. -/
structure Shared where
  level : LogLevel := .off
  /-- the call that holds `g_mutex` -/
  holder : Option ℕ := none
  /-- the file `g_file` is opened on -/
  file : Option WString := none
  buffer : Bytes := []
  disk : WString → Option Bytes := fun _ => none

/-- What a step is answered: the time, how much the stream passes on at once,
which logs are deleted, and whether the file can be opened. -/
structure Answer where
  time : Int64
  count : ℕ
  removed : List WString
  opens : Bool

/-- The file a process logs to. -/
def logPath (directory stream : WString) (pid : ℕ) : WString :=
  (if directory.getLast?.all isSeparator then directory else directory ++ [kBackslash]) ++
    logName stream pid

/-- The stream passes on what it can, in one piece. -/
def Shared.passOn (shared : Shared) (count : ℕ) : Shared :=
  match shared.file with
  | none => shared
  | some path => { shared with
      buffer := shared.buffer.drop count
      disk := Function.update shared.disk path
        ((shared.disk path).map (· ++ shared.buffer.take count)) }

@[simp]
theorem Shared.level_passOn (shared : Shared) (count : ℕ) :
    (shared.passOn count).level = shared.level := by
  unfold Shared.passOn
  split <;> rfl

@[simp]
theorem Shared.holder_passOn (shared : Shared) (count : ℕ) :
    (shared.passOn count).holder = shared.holder := by
  unfold Shared.passOn
  split <;> rfl

/-- Files that are deleted. -/
def Shared.without (shared : Shared) (paths : List WString) : Shared :=
  { shared with disk := fun path => if path ∈ paths then none else shared.disk path }

section Routine

variable (env : Environment)

/-- The bytes of a record. -/
def record (level : LogLevel) (event : Bytes) (fields : List (Bytes × FieldValue)) (time : Int64) :
    Bytes :=
  write time level event (fields.map fun entry => entry.2.field env.toUtf8 env.userProfile entry.1)

/-- The lock is taken where it is free. -/
def Shared.taken (shared : Shared) (i : ℕ) : Option Shared :=
  if shared.holder = none then some { shared with holder := some i } else none

/-- The next step of a call, what it leaves in the shared state and what can be
seen of it. -/
def callStep (shared : Shared) (answer : Answer) (i : ℕ) (call : Call Request Pc) :
    Option (Pc × Shared × List Event) :=
  match call.pc, call.request with
  | .start, .log threshold _ _ _ =>
    let on := enabled threshold shared.level
    some (if on then .stamp else .returned, shared, [.checked i on])
  | .start, _ => (shared.taken i).map fun shared => (.closeFile, shared, [])
  | .stamp, .log _ level event fields =>
    some (.lock (record env level event fields answer.time), shared, [])
  | .lock line, _ => (shared.taken i).map fun shared => (.put line, shared, [])
  | .put line, _ =>
    if shared.file.isSome then
      some (.flush, { shared with buffer := shared.buffer ++ line }, [.wrote i line])
    else some (.unlock, shared, [.dropped i line])
  | .flush, _ =>
    let passed := shared.passOn answer.count
    some (if passed.buffer = [] then .unlock else .flush, passed, [])
  | .closeFile, _ =>
    if shared.file.isSome then
      some (.setLevel, { shared.passOn shared.buffer.length with file := none }, [.closed i])
    else some (.setLevel, shared, [])
  | .setLevel, .openLog _ level _ =>
    some (if level = .off then .unlock else .prune, { shared with level }, [.leveled i level])
  | .setLevel, .close => some (.unlock, { shared with level := .off }, [.leveled i .off])
  | .prune, .openLog directory _ stream =>
    if answer.removed.all (matchesPattern stream) then
      some (.create, shared.without (answer.removed.map fun name => directory ++ kBackslash :: name),
        [])
    else none
  | .create, .openLog directory _ stream =>
    if answer.opens then
      let path := logPath directory stream env.pid
      let base := (shared.disk path).getD []
      some (.unlock, { shared with
        file := some path
        disk := Function.update shared.disk path (some base) }, [.opened i path base])
    else some (.unlock, shared, [])
  | .unlock, _ => some (.returned, { shared with holder := none }, [])
  | _, _ => none

/-- What `Open` or `Close` sets the level to. -/
def Request.newLevel : Request → LogLevel
  | .openLog _ level _ => level
  | .log .. | .close => .off

/-- What a step can do. -/
inductive Taken (shared : Shared) (i : ℕ) : Request → Pc → Pc → Shared → List Event → Prop
  | check (threshold level : LogLevel) (event : Bytes) (fields : List (Bytes × FieldValue)) :
      Taken shared i (.log threshold level event fields) .start
        (if enabled threshold shared.level then .stamp else .returned) shared
        [.checked i (enabled threshold shared.level)]
  | enter {request : Request} : request.isLog = false → shared.holder = none →
      Taken shared i request .start .closeFile { shared with holder := some i } []
  | stamp (threshold level : LogLevel) (event : Bytes) (fields : List (Bytes × FieldValue))
      (time : Int64) : Taken shared i (.log threshold level event fields) .stamp
        (.lock (record env level event fields time)) shared []
  | lock {request : Request} (line : Bytes) : shared.holder = none →
      Taken shared i request (.lock line) (.put line) { shared with holder := some i } []
  | put {request : Request} (line : Bytes) : shared.file.isSome = true →
      Taken shared i request (.put line) .flush { shared with buffer := shared.buffer ++ line }
        [.wrote i line]
  | drop {request : Request} (line : Bytes) : shared.file = none →
      Taken shared i request (.put line) .unlock shared [.dropped i line]
  | flush {request : Request} (count : ℕ) : Taken shared i request .flush
      (if (shared.passOn count).buffer = [] then .unlock else .flush) (shared.passOn count) []
  | close {request : Request} : shared.file.isSome = true → Taken shared i request .closeFile
      .setLevel { shared.passOn shared.buffer.length with file := none } [.closed i]
  | skip {request : Request} : shared.file = none →
      Taken shared i request .closeFile .setLevel shared []
  | setLevel {request : Request} {pc : Pc} : request.isLog = false → pc = .unlock ∨ pc = .prune →
      Taken shared i request .setLevel pc { shared with level := request.newLevel }
        [.leveled i request.newLevel]
  | prune {request : Request} (paths : List WString) : request.isLog = false →
      Taken shared i request .prune .create (shared.without paths) []
  | create (directory : WString) (level : LogLevel) (stream : WString) :
      Taken shared i (.openLog directory level stream) .create .unlock
        { shared with
          file := some (logPath directory stream env.pid)
          disk := Function.update shared.disk (logPath directory stream env.pid)
            (some ((shared.disk (logPath directory stream env.pid)).getD [])) }
        [.opened i (logPath directory stream env.pid)
          ((shared.disk (logPath directory stream env.pid)).getD [])]
  | fail {request : Request} : request.isLog = false →
      Taken shared i request .create .unlock shared []
  | unlock {request : Request} :
      Taken shared i request .unlock .returned { shared with holder := none } []

theorem taken_iff {shared taken : Shared} {i : ℕ} :
    shared.taken i = some taken ↔
      shared.holder = none ∧ { shared with holder := some i } = taken := by
  simp only [Shared.taken, Option.ite_none_right_eq_some, Option.some.injEq]

/-- A step does one of these. -/
theorem taken_of_step {shared shared' : Shared} {answer : Answer} {i : ℕ} {request : Request}
    {pc pc' : Pc} {events : List Event}
    (h : callStep env shared answer i ⟨request, pc⟩ = some (pc', shared', events)) :
    Taken env shared i request pc pc' shared' events := by
  cases pc with
  | start =>
    cases request with
    | log threshold level event fields =>
      cases h
      exact .check threshold level event fields
    | _ =>
      obtain ⟨taken, htaken, hnext⟩ := Option.map_eq_some_iff.mp h
      obtain ⟨hfree, rfl⟩ := taken_iff.mp htaken
      cases hnext
      exact .enter rfl hfree
  | stamp =>
    cases request with
    | log threshold level event fields =>
      cases h
      exact .stamp threshold level event fields answer.time
    | _ => cases h
  | lock line =>
    obtain ⟨taken, htaken, hnext⟩ := Option.map_eq_some_iff.mp h
    obtain ⟨hfree, rfl⟩ := taken_iff.mp htaken
    cases hnext
    exact .lock line hfree
  | put line =>
    dsimp only [callStep] at h
    split at h
    · rename_i hfile
      cases h
      exact .put line hfile
    · rename_i hfile
      cases h
      exact .drop line (Option.not_isSome_iff_eq_none.mp hfile)
  | flush =>
    cases h
    exact .flush answer.count
  | closeFile =>
    dsimp only [callStep] at h
    split at h
    · rename_i hfile
      cases h
      exact .close hfile
    · rename_i hfile
      cases h
      exact .skip (Option.not_isSome_iff_eq_none.mp hfile)
  | setLevel =>
    cases request with
    | log threshold level event fields => cases h
    | openLog directory level stream =>
      cases h
      refine .setLevel rfl ?_
      split
      · exact Or.inl rfl
      · exact Or.inr rfl
    | close =>
      cases h
      exact .setLevel rfl (Or.inl rfl)
  | prune =>
    cases request with
    | openLog directory level stream =>
      dsimp only [callStep] at h
      split at h
      · cases h
        exact .prune _ rfl
      · cases h
    | _ => cases h
  | create =>
    cases request with
    | openLog directory level stream =>
      dsimp only [callStep] at h
      split at h
      · cases h
        exact .create directory level stream
      · cases h
        exact .fail rfl
    | _ => cases h
  | unlock =>
    cases h
    exact .unlock
  | returned => cases request <;> cases h

/-- A step's events are its call's. -/
theorem owner_callStep (shared : Shared) (answer : Answer) (i : ℕ) (call : Call Request Pc)
    (next : Pc × Shared × List Event) (h : callStep env shared answer i call = some next) :
    ∀ event ∈ next.2.2, event.call = i := by
  obtain ⟨request, pc⟩ := call
  obtain ⟨pc', shared', events⟩ := next
  have htaken := taken_of_step env h
  intro event hevent
  cases htaken <;> simp_all [Event.call]

/-- What others do to the disk: anything but to the file that is open. -/
def others (shared : Shared) (disk : WString → Option Bytes) : Option Shared :=
  if shared.file.all fun path => disk path = shared.disk path then some { shared with disk }
  else none

/-- The calls of a process, beside whatever others do to the disk. -/
def calls : Routine Shared Request Answer Pc Event (WString → Option Bytes) where
  start := .start
  called := .called
  owner := Event.call
  step := callStep env
  other := others
  owner_called _ _ := rfl
  owner_step := owner_callStep env

/-- The system of all calls, from any disk. -/
abbrev system (disk : WString → Option Bytes) :
    System (State Shared Request Pc Event) (Action Request Answer (WString → Option Bytes)) :=
  (calls env).system { disk }

end Routine

/-! ### What a trace shows -/

/-- The log while one file is open: what the file held, and the records put into
it since. -/
structure Session where
  path : WString
  base : Bytes
  lines : List Bytes
  deriving DecidableEq

/-- What an event does to the session. -/
def Session.after (session : Option Session) : Event → Option Session
  | .opened _ path base => some ⟨path, base, []⟩
  | .closed _ => none
  | .wrote _ line => session.map fun σ => { σ with lines := σ.lines ++ [line] }
  | .called .. | .checked .. | .dropped .. | .leveled .. => session

/-- The session a trace ends in. -/
def session (trace : List Event) : Option Session := trace.foldl Session.after none

/-- What an event does to the level. -/
def levelAfter (level : LogLevel) : Event → LogLevel
  | .leveled _ newLevel => newLevel
  | _ => level

/-- The level a trace ends with. -/
def levelInForce (trace : List Event) : LogLevel := trace.foldl levelAfter .off

theorem session_append (trace events : List Event) :
    session (trace ++ events) = events.foldl Session.after (session trace) :=
  List.foldl_append

theorem levelInForce_append (trace events : List Event) :
    levelInForce (trace ++ events) = events.foldl levelAfter (levelInForce trace) :=
  List.foldl_append

section Records

variable (env : Environment)

/-- A line is the record a request makes at some time. -/
def Request.Makes (request : Request) (line : Bytes) : Prop :=
  ∃ threshold level event fields time,
    request = .log threshold level event fields ∧ line = record env level event fields time

/-- A call that logs found its level enabled exactly if it was, and put its own
record into the session there was; without one it dropped it. -/
def Sound (before : List Event) : Event → Prop
  | .checked i on => ∃ threshold level event fields,
      .called i (.log threshold level event fields) ∈ before ∧
        on = enabled threshold (levelInForce before)
  | .wrote i line => (∃ request, .called i request ∈ before ∧ request.Makes env line) ∧
      .checked i true ∈ before ∧ (session before).isSome = true
  | .dropped i line => (∃ request, .called i request ∈ before ∧ request.Makes env line) ∧
      .checked i true ∈ before ∧ session before = none
  | .opened i path _ => ∃ directory level stream,
      .called i (.openLog directory level stream) ∈ before ∧
        path = logPath directory stream env.pid
  | .called .. | .closed .. | .leveled .. => True

/-- The events of a call that logged and returned. -/
inductive Complete (i : ℕ) (request : Request) : List Event → Prop
  | quiet : Complete i request [.called i request, .checked i false]
  | wrote {line : Bytes} : request.Makes env line →
      Complete i request [.called i request, .checked i true, .wrote i line]
  | dropped {line : Bytes} : request.Makes env line →
      Complete i request [.called i request, .checked i true, .dropped i line]

/-- The events of a call, by where it is. -/
def Past (i : ℕ) (request : Request) (events : List Event) : Pc → Prop
  | .start => events = [.called i request]
  | .stamp => request.isLog = true ∧ events = [.called i request, .checked i true]
  | .lock line | .put line =>
    request.Makes env line ∧ events = [.called i request, .checked i true]
  | .flush => ∃ line, request.Makes env line ∧
      events = [.called i request, .checked i true, .wrote i line]
  | .closeFile | .setLevel | .prune | .create =>
    request.isLog = false ∧ .called i request ∈ events
  | .unlock | .returned => request.isLog = true → Complete env i request events

/-- What holds of the shared state and the trace. While a file is open, what has
reached the disk and what is still in the buffer are its records one after
another; the buffer holds none of them but the end of the last. -/
structure Common (shared : Shared) (trace : List Event) : Prop where
  level : shared.level = levelInForce trace
  file : shared.file = (session trace).map Session.path
  disk : ∀ σ, session trace = some σ → ∃ d, shared.disk σ.path = some d ∧
    d ++ shared.buffer = σ.base ++ σ.lines.flatten ∧ shared.buffer <:+ σ.lines.getLastD []
  idle : shared.holder = none → shared.buffer = []
  held : ∀ i, shared.holder = some i → ∃ request, .called i request ∈ trace
  sound : Justified (Sound env) trace

end Records

/-- What a call knows, by where it is. -/
def Known (shared : Shared) (trace : List Event) (i : ℕ) : Pc → Prop
  | .start | .stamp | .lock _ | .returned => shared.holder ≠ some i
  | .put _ | .closeFile | .unlock => shared.holder = some i ∧ shared.buffer = []
  | .setLevel | .prune | .create =>
    shared.holder = some i ∧ shared.buffer = [] ∧ shared.file = none
  | .flush => shared.holder = some i ∧ ∃ σ lines line, session trace = some σ ∧
      σ.lines = lines ++ [line] ∧ .wrote i line ∈ trace

/-- What a step may do: take the lock, give it back, and change what it guards
only while holding it. -/
structure Change (actor : Option ℕ) (shared : Shared) (trace : List Event) (shared' : Shared)
    (trace' : List Event) : Prop where
  holder : shared'.holder = shared.holder ∨ shared'.holder = none ∨
    (shared'.holder = actor ∧ shared.holder = none)
  kept : ∀ j, shared.holder = some j → actor ≠ some j → shared'.holder = some j ∧
    shared'.buffer = shared.buffer ∧ shared'.file = shared.file ∧ session trace' = session trace
  grows : ∀ event ∈ trace, event ∈ trace'

section Steps

variable {env : Environment} {shared shared' : Shared} {trace events : List Event} {i : ℕ}
  {request : Request} {pc pc' : Pc}

/-- What a call knows survives the steps of others. -/
theorem Known.stable {actor : Option ℕ} {trace' : List Event} (hactor : actor ≠ some i)
    (h : Known shared trace i pc) (hchange : Change actor shared trace shared' trace') :
    Known shared' trace' i pc := by
  have hfree : shared.holder ≠ some i → shared'.holder ≠ some i := by
    intro hne
    rcases hchange.holder with hsame | hnone | ⟨hmine, -⟩
    · rwa [hsame]
    · rw [hnone]
      exact (Option.some_ne_none i).symm
    · rwa [hmine]
  have hkept : shared.holder = some i → shared'.holder = some i ∧
      shared'.buffer = shared.buffer ∧ shared'.file = shared.file ∧
      session trace' = session trace := fun hheld => hchange.kept i hheld hactor
  cases pc with
  | start => exact hfree h
  | stamp => exact hfree h
  | lock line => exact hfree h
  | returned => exact hfree h
  | flush =>
    obtain ⟨hheld, σ, lines, line, hσ, hlines, hwrote⟩ := h
    obtain ⟨hheld', -, -, hsession⟩ := hkept hheld
    exact ⟨hheld', σ, lines, line, hsession.trans hσ, hlines, hchange.grows _ hwrote⟩
  | put line =>
    obtain ⟨hheld', hbuffer, -⟩ := hkept h.1
    exact ⟨hheld', hbuffer.trans h.2⟩
  | closeFile =>
    obtain ⟨hheld', hbuffer, -⟩ := hkept h.1
    exact ⟨hheld', hbuffer.trans h.2⟩
  | unlock =>
    obtain ⟨hheld', hbuffer, -⟩ := hkept h.1
    exact ⟨hheld', hbuffer.trans h.2⟩
  | setLevel =>
    obtain ⟨hheld', hbuffer, hfile, -⟩ := hkept h.1
    exact ⟨hheld', hbuffer.trans h.2.1, hfile.trans h.2.2⟩
  | prune =>
    obtain ⟨hheld', hbuffer, hfile, -⟩ := hkept h.1
    exact ⟨hheld', hbuffer.trans h.2.1, hfile.trans h.2.2⟩
  | create =>
    obtain ⟨hheld', hbuffer, hfile, -⟩ := hkept h.1
    exact ⟨hheld', hbuffer.trans h.2.1, hfile.trans h.2.2⟩

/-- The holder of the lock may change what it guards. -/
theorem Change.ofHolder (hheld : shared.holder = some i)
    (hafter : shared'.holder = some i ∨ shared'.holder = none) :
    Change (some i) shared trace shared' (trace ++ events) where
  holder := hafter.imp (fun h => h.trans hheld.symm) Or.inl
  kept _ hj hne := absurd (hheld.symm.trans hj) hne
  grows _ hevent := List.mem_append_left _ hevent

/-- So may a call that takes it. -/
theorem Change.ofTaking (hfree : shared.holder = none) (hafter : shared'.holder = some i) :
    Change (some i) shared trace shared' (trace ++ events) where
  holder := Or.inr (Or.inr ⟨hafter, hfree⟩)
  kept _ hj := absurd (hfree.symm.trans hj) (Option.some_ne_none _).symm
  grows _ hevent := List.mem_append_left _ hevent

/-- A step that leaves the session alone is open to every call. -/
theorem Change.quiet {actor : Option ℕ}
    (hsession : session (trace ++ events) = session trace) :
    Change actor shared trace shared (trace ++ events) where
  holder := Or.inl rfl
  kept _ hj _ := ⟨hj, rfl, rfl, hsession⟩
  grows _ hevent := List.mem_append_left _ hevent

theorem Common.session_eq_none (h : Common env shared trace) (hfile : shared.file = none) :
    session trace = none := by
  have hmap := h.file
  rw [hfile] at hmap
  exact Option.map_eq_none_iff.mp hmap.symm

theorem Common.exists_session (h : Common env shared trace) (hfile : shared.file.isSome = true) :
    ∃ σ, session trace = some σ := by
  rw [h.file, Option.isSome_map] at hfile
  exact Option.isSome_iff_exists.mp hfile

/-- Nothing changes but the lock and the trace. -/
theorem Common.quiet (h : Common env shared trace) {holder : Option ℕ}
    (hsession : session (trace ++ events) = session trace)
    (hlevel : levelInForce (trace ++ events) = levelInForce trace)
    (hidle : holder = none → shared.buffer = [])
    (hheld : ∀ j, holder = some j → ∃ request, .called j request ∈ trace)
    (hsound : Justified (Sound env) (trace ++ events)) :
    Common env { shared with holder } (trace ++ events) where
  level := h.level.trans hlevel.symm
  file := by rw [hsession]; exact h.file
  disk σ hσ := h.disk σ (hsession ▸ hσ)
  idle := hidle
  held j hj := (hheld j hj).imp fun _ hcalled => List.mem_append_left _ hcalled
  sound := hsound

/-- A call that has not let go of the lock was made. -/
theorem called_of_past {past : List Event} (hpast : Past env i request past pc)
    (hunlock : pc ≠ .unlock) (hreturned : pc ≠ .returned) : .called i request ∈ past := by
  cases pc with
  | start => exact (show past = _ from hpast) ▸ List.mem_cons_self
  | stamp => exact hpast.2 ▸ List.mem_cons_self
  | lock line => exact hpast.2 ▸ List.mem_cons_self
  | put line => exact hpast.2 ▸ List.mem_cons_self
  | flush =>
    obtain ⟨line, -, rfl⟩ := hpast
    exact List.mem_cons_self
  | unlock => exact absurd rfl hunlock
  | returned => exact absurd rfl hreturned
  | _ => exact hpast.2

/-- A step goes on with the events of a call as it should. -/
theorem Past.onward {past : List Event} (hpast : Past env i request past pc)
    (htaken : Taken env shared i request pc pc' shared' events) :
    Past env i request (past ++ events) pc' := by
  cases htaken with
  | check threshold level event fields =>
    have hpast : past = _ := hpast
    rw [hpast]
    cases enabled threshold shared.level with
    | true => exact ⟨rfl, rfl⟩
    | false => exact fun _ => .quiet
  | enter hother =>
    have hpast : past = _ := hpast
    rw [hpast]
    exact ⟨hother, List.mem_cons_self⟩
  | stamp threshold level event fields time =>
    rw [List.append_nil, hpast.2]
    exact ⟨⟨threshold, level, event, fields, time, rfl, rfl⟩, rfl⟩
  | lock line =>
    rw [List.append_nil]
    exact hpast
  | put line hfile =>
    rw [hpast.2]
    exact ⟨line, hpast.1, rfl⟩
  | drop line hfile =>
    rw [hpast.2]
    exact fun _ => .dropped hpast.1
  | flush count =>
    rw [List.append_nil]
    obtain ⟨line, hmakes, rfl⟩ := hpast
    split
    · exact fun _ => .wrote hmakes
    · exact ⟨line, hmakes, rfl⟩
  | close hfile => exact ⟨hpast.1, List.mem_append_left _ hpast.2⟩
  | skip hfile => exact ⟨hpast.1, List.mem_append_left _ hpast.2⟩
  | setLevel hother hpc =>
    rcases hpc with rfl | rfl
    · exact fun hlog => absurd (hother.symm.trans hlog) Bool.false_ne_true
    · exact ⟨hother, List.mem_append_left _ hpast.2⟩
  | prune paths hother => exact ⟨hother, List.mem_append_left _ hpast.2⟩
  | create directory level stream => exact fun hlog => by cases hlog
  | fail hother => exact fun hlog => absurd (hother.symm.trans hlog) Bool.false_ne_true
  | unlock =>
    rw [List.append_nil]
    exact hpast

/-- Steps without events that only touch the lock. -/
theorem Common.locked (h : Common env shared trace) {holder : Option ℕ}
    (hidle : holder = none → shared.buffer = [])
    (hheld : ∀ j, holder = some j → ∃ request, .called j request ∈ trace) :
    Common env { shared with holder } (trace ++ []) := by
  have hnil : trace ++ [] = trace := List.append_nil trace
  exact h.quiet (congrArg session hnil) (congrArg levelInForce hnil) hidle hheld
    (hnil.symm ▸ h.sound)

/-- Events a step leaves join those there were. -/
theorem Common.held_append (h : Common env shared trace) (j : ℕ) (hj : shared.holder = some j) :
    ∃ request, .called j request ∈ trace ++ events :=
  (h.held j hj).imp fun _ hcalled => List.mem_append_left _ hcalled

/-- A record put into the stream is the last of its session. -/
theorem Common.put (h : Common env shared trace) (hheld : shared.holder = some i)
    (hbuffer : shared.buffer = []) {line : Bytes} (hsound : Sound env trace (.wrote i line)) :
    Common env { shared with buffer := shared.buffer ++ line } (trace ++ [.wrote i line]) := by
  have hsession : session (trace ++ [.wrote i line]) =
      (session trace).map fun σ => { σ with lines := σ.lines ++ [line] } := session_append ..
  have hlevel : levelInForce (trace ++ [.wrote i line]) = levelInForce trace :=
    levelInForce_append ..
  refine ⟨h.level.trans hlevel.symm, ?_, fun σ hσ => ?_, fun hfree => ?_, h.held_append,
    h.sound.concat hsound⟩
  · rw [hsession, Option.map_map]
    exact h.file
  · rw [hsession] at hσ
    obtain ⟨τ, hτ, rfl⟩ := Option.map_eq_some_iff.mp hσ
    obtain ⟨d, hd, hcontent, -⟩ := h.disk τ hτ
    rw [hbuffer, List.append_nil] at hcontent
    refine ⟨d, hd, ?_, ?_⟩
    · simp [hbuffer, hcontent]
    · simp [hbuffer]
  · exact absurd (hheld.symm.trans hfree) (Option.some_ne_none i)

/-- What the stream passes on leaves its buffer and reaches the disk. -/
theorem Common.passOn (h : Common env shared trace) (count : ℕ) :
    Common env (shared.passOn count) (trace ++ []) := by
  rw [List.append_nil]
  cases hfile : shared.file with
  | none =>
    have hsame : shared.passOn count = shared := by simp only [Shared.passOn, hfile]
    rwa [hsame]
  | some path =>
    have hpassed : shared.passOn count = { shared with
        buffer := shared.buffer.drop count
        disk := Function.update shared.disk path
          ((shared.disk path).map (· ++ shared.buffer.take count)) } := by
      simp only [Shared.passOn, hfile]
    rw [hpassed]
    refine ⟨h.level, h.file, fun σ hσ => ?_, fun hfree => ?_, h.held, h.sound⟩
    · obtain ⟨d, hd, hcontent, hsuffix⟩ := h.disk σ hσ
      have hpath : σ.path = path := by
        have hmap := h.file
        rw [hfile, hσ] at hmap
        exact (Option.some.inj hmap).symm
      refine ⟨d ++ shared.buffer.take count, ?_, ?_, (List.drop_suffix _ _).trans hsuffix⟩
      · rw [hpath] at hd ⊢
        simp [hd]
      · rw [List.append_assoc, List.take_append_drop]
        exact hcontent
    · simp [h.idle hfree]

/-- The holder of the lock closes the file, whose buffer is empty. -/
theorem Common.close (h : Common env shared trace) (hheld : shared.holder = some i) :
    Common env { shared.passOn shared.buffer.length with file := none } (trace ++ [.closed i]) := by
  have hsession : session (trace ++ [.closed i]) = none := session_append ..
  have hlevel : levelInForce (trace ++ [.closed i]) = levelInForce trace := levelInForce_append ..
  have hpassed := h.passOn shared.buffer.length
  rw [List.append_nil] at hpassed
  refine ⟨hpassed.level.trans hlevel.symm, by rw [hsession]; rfl, fun σ hσ => ?_, fun hfree => ?_,
    hpassed.held_append, h.sound.concat trivial⟩
  · rw [hsession] at hσ
    cases hσ
  · rw [Shared.holder_passOn, hheld] at hfree
    cases hfree

/-- The level is set by the holder of the lock. -/
theorem Common.setLevel (h : Common env shared trace) (level : LogLevel) :
    Common env { shared with level } (trace ++ [.leveled i level]) := by
  have hsession : session (trace ++ [.leveled i level]) = session trace := session_append ..
  have hlevel : levelInForce (trace ++ [.leveled i level]) = level := levelInForce_append ..
  exact ⟨hlevel.symm, by rw [hsession]; exact h.file, fun σ hσ => h.disk σ (hsession ▸ hσ), h.idle,
    h.held_append, h.sound.concat trivial⟩

/-- Others, or the deletions of a call, change the disk but for the file that is open. -/
theorem Common.redisk (h : Common env shared trace) {disk : WString → Option Bytes}
    (hopen : ∀ path, shared.file = some path → disk path = shared.disk path) :
    Common env { shared with disk } trace := by
  refine ⟨h.level, h.file, fun σ hσ => ?_, h.idle, h.held, h.sound⟩
  obtain ⟨d, hd, hrest⟩ := h.disk σ hσ
  have hfile : shared.file = some σ.path := by rw [h.file, hσ]; rfl
  exact ⟨d, (hopen σ.path hfile).trans hd, hrest⟩

/-- A file is opened on what it holds, and a session of no records begins. -/
theorem Common.create (h : Common env shared trace) (hbuffer : shared.buffer = []) {path : WString}
    {base : Bytes} (hsound : Sound env trace (.opened i path base)) :
    Common env { shared with
      file := some path
      disk := Function.update shared.disk path (some base) } (trace ++ [.opened i path base]) := by
  have hsession : session (trace ++ [.opened i path base]) = some ⟨path, base, []⟩ :=
    session_append ..
  have hlevel : levelInForce (trace ++ [.opened i path base]) = levelInForce trace :=
    levelInForce_append ..
  refine ⟨h.level.trans hlevel.symm, by rw [hsession]; rfl, fun σ hσ => ?_, fun _ => hbuffer,
    h.held_append, h.sound.concat hsound⟩
  rw [hsession] at hσ
  cases hσ
  exact ⟨base, Function.update_self .., by simp [hbuffer], by simp [hbuffer]⟩

/-- What holds is kept by every step, the call knows what it should afterwards,
and it changed no more than it may. -/
theorem Common.advance (h : Common env shared trace) (hknown : Known shared trace i pc)
    (hpast : Past env i request ((calls env).own trace i) pc)
    (htaken : Taken env shared i request pc pc' shared' events) :
    Common env shared' (trace ++ events) ∧ Known shared' (trace ++ events) i pc' ∧
      Change (some i) shared trace shared' (trace ++ events) := by
  have hnil : session (trace ++ []) = session trace := congrArg session (List.append_nil trace)
  cases htaken with
  | check threshold level event fields =>
    have hcalled : Event.called i (.log threshold level event fields) ∈ trace :=
      List.mem_of_mem_filter (called_of_past hpast (by simp) (by simp))
    have hsession : session (trace ++ [.checked i (enabled threshold shared.level)]) =
        session trace := session_append ..
    have hlevel : levelInForce (trace ++ [.checked i (enabled threshold shared.level)]) =
        levelInForce trace := levelInForce_append ..
    refine ⟨h.quiet hsession hlevel h.idle h.held (h.sound.concat ?_), ?_, .quiet hsession⟩
    · exact ⟨threshold, level, event, fields, hcalled, by rw [h.level]⟩
    · split
      · exact hknown
      · exact hknown
  | enter hother hfree =>
    have hcalled : Event.called i request ∈ trace :=
      List.mem_of_mem_filter (called_of_past hpast (by simp) (by simp))
    refine ⟨h.locked (fun _ => h.idle hfree) fun j hj => ?_, ⟨rfl, h.idle hfree⟩,
      .ofTaking hfree rfl⟩
    cases hj
    exact ⟨request, hcalled⟩
  | stamp threshold level event fields time =>
    exact ⟨h.locked h.idle h.held, hknown, .quiet hnil⟩
  | lock line hfree =>
    have hcalled : Event.called i request ∈ trace :=
      List.mem_of_mem_filter (called_of_past hpast (by simp) (by simp))
    refine ⟨h.locked (fun _ => h.idle hfree) fun j hj => ?_, ⟨rfl, h.idle hfree⟩,
      .ofTaking hfree rfl⟩
    cases hj
    exact ⟨request, hcalled⟩
  | put line hfile =>
    have hcalled : Event.called i request ∈ trace :=
      List.mem_of_mem_filter (called_of_past hpast (by simp) (by simp))
    have hmem : Event.checked i true ∈ (calls env).own trace i := by
      rw [hpast.2]
      exact List.mem_cons_of_mem _ List.mem_cons_self
    have hchecked : Event.checked i true ∈ trace := List.mem_of_mem_filter hmem
    obtain ⟨σ, hσ⟩ := h.exists_session hfile
    have hsound : Sound env trace (.wrote i line) :=
      ⟨⟨request, hcalled, hpast.1⟩, hchecked, by rw [hσ]; rfl⟩
    refine ⟨h.put hknown.1 hknown.2 hsound, ⟨hknown.1,
        ⟨σ.path, σ.base, σ.lines ++ [line]⟩, σ.lines, line, ?_, rfl, ?_⟩,
      .ofHolder hknown.1 (Or.inl hknown.1)⟩
    · rw [session_append, hσ]
      rfl
    · exact List.mem_append_right _ List.mem_cons_self
  | drop line hfile =>
    have hcalled : Event.called i request ∈ trace :=
      List.mem_of_mem_filter (called_of_past hpast (by simp) (by simp))
    have hmem : Event.checked i true ∈ (calls env).own trace i := by
      rw [hpast.2]
      exact List.mem_cons_of_mem _ List.mem_cons_self
    have hchecked : Event.checked i true ∈ trace := List.mem_of_mem_filter hmem
    have hsession : session (trace ++ [.dropped i line]) = session trace := session_append ..
    have hlevel : levelInForce (trace ++ [.dropped i line]) = levelInForce trace :=
      levelInForce_append ..
    have hsound : Sound env trace (.dropped i line) :=
      ⟨⟨request, hcalled, hpast.1⟩, hchecked, h.session_eq_none hfile⟩
    exact ⟨h.quiet hsession hlevel h.idle h.held (h.sound.concat hsound), hknown, .quiet hsession⟩
  | flush count =>
    have hheld : (shared.passOn count).holder = some i := by
      rw [Shared.holder_passOn]
      exact hknown.1
    refine ⟨h.passOn count, ?_, .ofHolder hknown.1 (Or.inl hheld)⟩
    obtain ⟨-, σ, lines, line, hσ, hlines, hwrote⟩ := hknown
    split
    · rename_i hempty
      exact ⟨hheld, hempty⟩
    · exact ⟨hheld, σ, lines, line, hnil.trans hσ, hlines, List.mem_append_left _ hwrote⟩
  | close hfile =>
    have hheld : (shared.passOn shared.buffer.length).holder = some i := by
      rw [Shared.holder_passOn]
      exact hknown.1
    refine ⟨h.close hknown.1, ⟨hheld, ?_, rfl⟩, .ofHolder hknown.1 (Or.inl hheld)⟩
    unfold Shared.passOn
    split <;> simp [hknown.2]
  | skip hfile =>
    exact ⟨h.locked h.idle h.held, ⟨hknown.1, hknown.2, hfile⟩, .quiet hnil⟩
  | setLevel hother hpc =>
    refine ⟨h.setLevel request.newLevel, ?_, .ofHolder hknown.1 (Or.inl hknown.1)⟩
    rcases hpc with rfl | rfl
    · exact ⟨hknown.1, hknown.2.1⟩
    · exact hknown
  | prune paths hother =>
    refine ⟨?_, hknown, .ofHolder hknown.1 (Or.inl hknown.1)⟩
    rw [List.append_nil]
    refine h.redisk fun path hpath => ?_
    rw [hknown.2.2] at hpath
    cases hpath
  | create directory level stream =>
    have hcalled : Event.called i (.openLog directory level stream) ∈ trace :=
      List.mem_of_mem_filter hpast.2
    have hsound : Sound env trace (.opened i (logPath directory stream env.pid)
        ((shared.disk (logPath directory stream env.pid)).getD [])) :=
      ⟨directory, level, stream, hcalled, rfl⟩
    exact ⟨h.create hknown.2.1 hsound, ⟨hknown.1, hknown.2.1⟩,
      .ofHolder hknown.1 (Or.inl hknown.1)⟩
  | fail hother => exact ⟨h.locked h.idle h.held, ⟨hknown.1, hknown.2.1⟩, .quiet hnil⟩
  | unlock =>
    refine ⟨h.locked (fun _ => hknown.2) fun j hj => ?_, (Option.some_ne_none i).symm,
      .ofHolder hknown.1 (Or.inr rfl)⟩
    cases hj

/-- Others leave the file that is open as it is. -/
theorem Common.others (h : Common env shared trace) {disk : WString → Option Bytes}
    (hothers : others shared disk = some shared') :
    Common env shared' trace ∧ Change none shared trace shared' trace := by
  simp only [LogSessions.others, Option.ite_none_right_eq_some, Option.some.injEq] at hothers
  obtain ⟨hopen, rfl⟩ := hothers
  refine ⟨h.redisk fun path hpath => ?_, Or.inl rfl, fun _ hj _ => ⟨hj, rfl, rfl, rfl⟩,
    fun _ hevent => hevent⟩
  rw [hpath, Option.all_some] at hopen
  exact of_decide_eq_true hopen

end Steps

/-- What calls rely on and keep. -/
def discipline (env : Environment) (disk : WString → Option Bytes) :
    Discipline (calls env) { disk } where
  Common := Common env
  Known shared trace i call := Known shared trace i call.pc
  Past := Past env
  Change := Change
  initially := ⟨rfl, rfl, nofun, fun _ => rfl, nofun, .nil⟩
  make {shared trace} i request hnew hcommon := by
    have hsession : session (trace ++ [.called i request]) = session trace := session_append ..
    have hlevel : levelInForce (trace ++ [.called i request]) = levelInForce trace :=
      levelInForce_append ..
    refine ⟨hcommon.quiet hsession hlevel hcommon.idle hcommon.held (hcommon.sound.concat trivial),
      fun hheld => ?_, .quiet hsession⟩
    obtain ⟨other, hcalled⟩ := hcommon.held i hheld
    have hown : Event.called i other ∈ (calls env).own trace i :=
      ((calls env).mem_own rfl).mpr hcalled
    rw [hnew] at hown
    cases hown
  first _ _ := rfl
  advance hcommon hknown hpast hstep := hcommon.advance hknown hpast (taken_of_step env hstep)
  onward hpast hstep := hpast.onward (taken_of_step env hstep)
  interfere hcommon hother := hcommon.others hother
  stable hactor hknown hchange := hknown.stable hactor hchange

/-! ### The log, read back -/

/-- What a reader of the log has for a record. -/
def Request.read (env : Environment) (time : Int64) : Request → Option Record
  | .log _ level event fields => some
    { time := time.toInt
      level := levelName level
      event := event
      fields := fields.map fun entry =>
        (entry.1, (entry.2.redact env.userProfile).original env.toUtf8) }
  | .openLog .. | .close => none

/-- What the fields of a request are to be taken for. -/
def Request.kinds : Request → List FieldKind
  | .log _ _ _ fields => fields.map fun entry => entry.2.kind
  | .openLog .. | .close => []

/-- A record is one line, read back as what was logged. -/
theorem Request.Makes.reads {env : Environment} {request : Request} {line : Bytes}
    (h : request.Makes env line) : ∃ text time, line = text ++ [10] ∧ (∀ c ∈ text, ¬c < 0x20) ∧
      readLine request.kinds text = request.read env time := by
  obtain ⟨threshold, level, event, fields, time, rfl, rfl⟩ := h
  have hprintable := JsonText.printable_objectText
    (printable_members env.toUtf8 env.userProfile time level event fields)
  refine ⟨_, time, write_eq env.toUtf8 env.userProfile time level event fields, hprintable, ?_⟩
  have hparse := JsonText.parse_objectText (timeMember time) (levelMember level ::
    eventMember event :: fields.map (fieldMember env.toUtf8 env.userProfile))
  have hfields := readFields_members env.toUtf8 env.userProfile fields
  rw [Request.kinds, readLine, hparse, Option.bind_some]
  simp only [List.map_cons, readRecord, JsonText.Member.pair, timeMember, levelMember, eventMember,
    member, and_self, if_true, hfields, Option.map_some, Request.read]

/-- What is still in the buffer is the end of a record whose call is flushing it. -/
theorem flushing {env : Environment} {disk : WString → Option Bytes}
    {s : State Shared Request Pc Event} (hkeeps : (discipline env disk).Keeps s)
    (hbuffer : s.shared.buffer ≠ []) : ∃ i request σ lines line,
      s.calls i = some ⟨request, .flush⟩ ∧ session s.trace = some σ ∧ σ.lines = lines ++ [line] ∧
        .wrote i line ∈ s.trace := by
  obtain ⟨i, hheld⟩ := Option.ne_none_iff_exists'.mp fun hfree => hbuffer (hkeeps.common.idle hfree)
  obtain ⟨other, hcalled⟩ := hkeeps.common.held i hheld
  have hown : Event.called i other ∈ (calls env).own s.trace i :=
    ((calls env).mem_own rfl).mpr hcalled
  cases hcall : s.calls i with
  | none =>
    rw [hkeeps.fresh i hcall] at hown
    cases hown
  | some call =>
    obtain ⟨request, pc⟩ := call
    have hknown : Known s.shared s.trace i pc := hkeeps.known i ⟨request, pc⟩ hcall
    cases pc with
    | start => exact absurd hheld hknown
    | stamp => exact absurd hheld hknown
    | lock line => exact absurd hheld hknown
    | returned => exact absurd hheld hknown
    | put line => exact absurd hknown.2 hbuffer
    | closeFile => exact absurd hknown.2 hbuffer
    | unlock => exact absurd hknown.2 hbuffer
    | setLevel => exact absurd hknown.2.1 hbuffer
    | prune => exact absurd hknown.2.1 hbuffer
    | create => exact absurd hknown.2.1 hbuffer
    | flush =>
      obtain ⟨-, σ, lines, line, hσ, hlines, hwrote⟩ := hknown
      exact ⟨i, request, σ, lines, line, hcall, hσ, hlines, hwrote⟩

/-- However threads log while the log is opened and closed, what is on the disk
at any moment is what the file held when it was opened and the records put into
it since, in that order; only the last may be there in part, and only while its
call has not returned. Each of them is one line, read back as what its call
logged. A call that returned had found its level disabled, or put one record
there, or found no file open. -/
theorem records_kept {env : Environment} {disk : WString → Option Bytes}
    {s : State Shared Request Pc Event} (h : (system env disk).Reachable s) :
    Justified (Sound env) s.trace ∧
      (∀ σ, session s.trace = some σ → ∃ whole part,
        s.shared.disk σ.path = some (σ.base ++ whole.flatten ++ part) ∧
          ((σ.lines = whole ∧ part = []) ∨ ∃ i request line, σ.lines = whole ++ [line] ∧
            part <+: line ∧ .wrote i line ∈ s.trace ∧ s.calls i = some ⟨request, .flush⟩)) ∧
      (∀ i line, .wrote i line ∈ s.trace → ∃ request text time, .called i request ∈ s.trace ∧
        line = text ++ [10] ∧ (∀ c ∈ text, ¬c < 0x20) ∧
        readLine request.kinds text = request.read env time) ∧
      ∀ i request, s.calls i = some ⟨request, .returned⟩ → request.isLog = true →
        Complete env i request ((calls env).own s.trace i) := by
  have hkeeps := (discipline env disk).keeps_of_reachable h
  refine ⟨hkeeps.common.sound, fun σ hσ => ?_, fun i line hwrote => ?_,
    fun i request hcall => hkeeps.past i _ hcall⟩
  · obtain ⟨d, hd, hcontent, hsuffix⟩ := hkeeps.common.disk σ hσ
    by_cases hbuffer : s.shared.buffer = []
    · rw [hbuffer, List.append_nil] at hcontent
      exact ⟨σ.lines, [], by rw [hd, hcontent, List.append_nil], Or.inl ⟨rfl, rfl⟩⟩
    · obtain ⟨i, request, τ, lines, line, hcall, hτ, hlines, hwrote⟩ := flushing hkeeps hbuffer
      cases hσ.symm.trans hτ
      rw [hlines, List.getLastD_concat] at hsuffix
      obtain ⟨part, rfl⟩ := hsuffix
      refine ⟨lines, part, ?_, Or.inr ⟨i, request, _, hlines, List.prefix_append _ _, hwrote, hcall⟩⟩
      rw [hlines, List.flatten_append, List.flatten_singleton, ← List.append_assoc,
        ← List.append_assoc] at hcontent
      rw [hd, List.append_cancel_right hcontent]
  · obtain ⟨before, after, hsplit⟩ := List.append_of_mem hwrote
    obtain ⟨⟨request, hcalled, hmakes⟩, -⟩ := hkeeps.common.sound before _ after hsplit
    obtain ⟨text, time, hline, hprintable, hread⟩ := hmakes.reads
    refine ⟨request, text, time, ?_, hline, hprintable, hread⟩
    rw [hsplit]
    exact List.mem_append_left _ hcalled

/-- A process whose texts are ASCII. -/
def asciiProcess : Environment where
  toUtf8 := narrow
  userProfile := []
  pid := 7

/-- The log is opened, and two threads log; the process ends while the second
record is being flushed. -/
def crashRun : List (Action Request Answer (WString → Option Bytes)) :=
  .make 0 (.openLog (wide "C:\\logs") .warning (wide "loader")) ::
    List.replicate 6 (.advance 0 ⟨0, 0, [wide "loader_3.jsonl"], true⟩) ++
    [.make 1 (.event .error (ascii "failed") []), .make 2 (.header (ascii "attach") []),
      .make 3 (.event .trace (ascii "frame") []), .advance 1 ⟨0, 0, [], true⟩,
      .advance 2 ⟨0, 0, [], true⟩, .advance 3 ⟨0, 0, [], true⟩, .advance 1 ⟨12, 0, [], true⟩,
      .advance 2 ⟨34, 0, [], true⟩, .advance 2 ⟨0, 0, [], true⟩, .advance 2 ⟨0, 0, [], true⟩,
      .advance 2 ⟨0, 64, [], true⟩, .advance 2 ⟨0, 0, [], true⟩, .advance 1 ⟨0, 0, [], true⟩,
      .advance 1 ⟨0, 0, [], true⟩, .advance 1 ⟨0, 9, [], true⟩]

/-- Where it ends, on an empty disk. -/
def crashState : State Shared Request Pc Event :=
  ((system asciiProcess fun _ => none).runUnder (fun _ _ => True) { shared := {} } crashRun).getD
    { shared := {} }

theorem crashState_reachable : (system asciiProcess fun _ => none).Reachable crashState :=
  System.reachable_getD_runUnder (.start rfl) (by decide +kernel)

example : crashState.shared.disk (wide "C:\\logs\\loader_7.jsonl") = some
    (ascii "\x7b\"t\":34,\"lvl\":\"info\",\"event\":\"attach\"\x7d\n" ++
      ascii "\x7b\"t\":12,\"") := by
  decide +kernel

/-- The record of the call that returned is there, whole. -/
theorem records_kept_crash : Complete asciiProcess 2 (.header (ascii "attach") [])
    ((calls asciiProcess).own crashState.trace 2) :=
  (records_kept crashState_reachable).2.2.2 2 _ (by decide +kernel) rfl

end OpenDlssg.LogSessions
