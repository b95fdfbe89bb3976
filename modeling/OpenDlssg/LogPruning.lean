import OpenDlssg.ByteSearch
import OpenDlssg.RecordTable
import OpenDlssg.TransitionRuns
import OpenDlssg.WidePaths
import Mathlib.Data.List.Perm.Subperm

/-!
# The logs a game folder keeps

Each process of a game opens a log of its own and first deletes the older ones
of the stream. Processes start, log and end in any order, several at once, and
their steps interleave: one lists the folder, deletes file by file and then
opens its log while others do the same. Listing the folder is one step and never
fails, and other programs make no file whose name is of the logs' pattern.
-/

namespace OpenDlssg.LogPruning

open RecordTable TransitionRuns WidePaths
open ByteSearch (toDecimal decimalValue_toDecimal)

/-- An entry of the folder. -/
structure Entry where
  name : WString
  directory : Bool
  /-- the time of the last write -/
  written : ℕ
  deriving DecidableEq

/-- Windows compares names without regard to case. -/
def Entry.key (entry : Entry) : WString := entry.name.map fold

/-- Where a process is in `Open` or after it. Listings are numbered. -/
inductive Phase
  /-- the folder is listed next -/
  | starting
  /-- the files still to be deleted -/
  | pruning (listing : ℕ) (doomed : List WString)
  | running (listing : ℕ) (logging : Bool)
  /-- logging is off -/
  | quiet
  deriving DecidableEq

/-- A process of the game. -/
structure Process where
  pid : ℕ
  phase : Phase
  deriving DecidableEq

/-- The folder, the processes, and three counts kept for what is said of runs. -/
structure State where
  entries : List Entry
  processes : List Process
  /-- how often the folder has been listed -/
  listings : ℕ
  /-- the last listing whose process has opened its log, 0 before there is one -/
  lastPruned : ℕ
  /-- the most processes there have been at once -/
  peak : ℕ
  deriving DecidableEq

/-- What is fixed: the stream, and the files Windows lets a process delete. -/
structure Environment where
  stream : WString
  removable : WString → Bool

/-- What happens next. Where times are equal, or the listing is in another
order, sorting may leave any arrangement; creating a file may fail. -/
inductive Action
  | start (pid : ℕ)
  /-- `Open` with logging off -/
  | skip (pid : ℕ)
  /-- `FindFirstFileW` to `std::sort` -/
  | list (pid : ℕ) (arrangement : List Entry)
  /-- `DeleteFileW` -/
  | delete (pid : ℕ)
  /-- `_wfopen` -/
  | openLog (pid : ℕ) (time : ℕ) (succeeds : Bool)
  | write (pid : ℕ) (time : ℕ)
  | exit (pid : ℕ)
  /-- another program makes a file, or removes one -/
  | make (entry : Entry)
  | drop (name : WString)
  deriving DecidableEq

/-- How many logs of a stream are kept, the one about to be opened included. -/
def kKeptLogs : ℕ := 10

/-- `{stream}_{pid}.jsonl` -/
def logName (stream : WString) (pid : ℕ) : WString :=
  stream ++ wide "_" ++ ((toDecimal pid).map fun c => UInt16.ofNat c.toNat) ++ wide ".jsonl"

/-- The pattern `{stream}_*.jsonl`. -/
def matchesPattern (stream name : WString) : Bool :=
  let first := stream ++ wide "_"
  let last := wide ".jsonl"
  let folded := name.map fold
  decide (first.length + last.length ≤ folded.length) &&
    folded.take first.length == first.map fold &&
    folded.drop (folded.length - last.length) == last.map fold

section Model

variable (env : Environment)

/-- The key of a process's log. -/
def logKey (pid : ℕ) : WString := (logName env.stream pid).map fold

/-- What `PruneOldLogs` collects. -/
def Entry.isLog (entry : Entry) : Bool := !entry.directory && matchesPattern env.stream entry.name

/-- The logs of the folder. -/
def logs (entries : List Entry) : List Entry := entries.filter (Entry.isLog env)

/-- An arrangement `std::sort` may leave: the newest first. -/
def Sorted (arrangement : List Entry) : Prop :=
  arrangement.Pairwise fun first second => second.written ≤ first.written

instance (arrangement : List Entry) : Decidable (Sorted arrangement) :=
  inferInstanceAs (Decidable (List.Pairwise _ _))

/-- The logs that are deleted, in the order in which they are. -/
def doomed (arrangement : List Entry) : List WString :=
  if arrangement.length < kKeptLogs then []
  else (arrangement.drop (kKeptLogs - 1)).map Entry.name

/-- Whether a process holds its log open. -/
def Process.holds (process : Process) (key : WString) : Bool :=
  match process.phase with
  | .running _ true => logKey env process.pid == key
  | _ => false

/-- A file some process of the game holds open is not deleted. -/
def State.held (s : State) (key : WString) : Bool := s.processes.any (Process.holds env · key)

/-- `DeleteFileW`: files only, and those neither held nor protected. -/
def State.deletable (s : State) (name : WString) : Bool :=
  match find Entry.key (name.map fold) s.entries with
  | none => false
  | some entry => !entry.directory && env.removable entry.key && !s.held env entry.key

/-- A process moves on. -/
def State.moved (s : State) (pid : ℕ) (phase : Phase) : List Process :=
  update Process.pid pid (fun process => { process with phase }) s.processes

/-- The entries when a process has written to its log. -/
def stamped (entries : List Entry) (pid time : ℕ) : List Entry :=
  update Entry.key (logKey env pid) (fun entry => { entry with written := time }) entries

/-- One step of a process. -/
def stepProcess (s : State) (process : Process) : Action → Option State
  | .skip pid =>
    if process.phase = .starting then some { s with processes := s.moved pid .quiet } else none
  | .list pid arrangement =>
    if process.phase = .starting ∧ arrangement.Perm (logs env s.entries) ∧ Sorted arrangement then
      some { s with
        processes := s.moved pid (.pruning (s.listings + 1) (doomed arrangement))
        listings := s.listings + 1 }
    else none
  | .delete pid =>
    match process.phase with
    | .pruning listing (name :: rest) =>
      some { s with
        entries := if s.deletable env name then remove Entry.key (name.map fold) s.entries
          else s.entries
        processes := s.moved pid (.pruning listing rest) }
    | _ => none
  | .openLog pid time succeeds =>
    match process.phase with
    | .pruning listing [] =>
      let directory := (find Entry.key (logKey env pid) s.entries).any Entry.directory
      let logging := succeeds && !directory
      some { s with
        entries := if logging then add Entry.key ⟨logName env.stream pid, false, time⟩ s.entries
          else s.entries
        processes := s.moved pid (.running listing logging)
        lastPruned := max s.lastPruned listing }
    | _ => none
  | .write pid time =>
    match process.phase with
    | .running _ true => some { s with entries := stamped env s.entries pid time }
    | _ => none
  | .exit pid => some { s with processes := remove Process.pid pid s.processes }
  | _ => none

/-- The process an action is a step of. -/
def Action.pid : Action → Option ℕ
  | .skip pid | .list pid _ | .delete pid | .openLog pid _ _ | .write pid _ | .exit pid => some pid
  | .start _ | .make _ | .drop _ => none

/-- One step. A pid is given to one process at a time; other programs make no
logs of the stream and, like the game, delete no file that is held open. -/
def step (s : State) (a : Action) : Option State :=
  match a with
  | .start pid =>
    if (find Process.pid pid s.processes).isSome then none
    else some { s with
      processes := s.processes ++ [⟨pid, .starting⟩]
      peak := max s.peak (s.processes.length + 1) }
  | .make entry =>
    if matchesPattern env.stream entry.name then none
    else some { s with entries := add Entry.key entry s.entries }
  | .drop name =>
    if s.held env (name.map fold) then none
    else some { s with entries := remove Entry.key (name.map fold) s.entries }
  | a => do
    let process ← find Process.pid (← a.pid) s.processes
    stepProcess env s process a

/-- Runs from any folder, before the first process of the game. -/
def system : System State Action where
  init s := (s.entries.map Entry.key).Nodup ∧ s.processes = [] ∧ s.listings = 0 ∧
    s.lastPruned = 0 ∧ s.peak = 0
  step := step env

end Model

/-! ### Names of logs -/

/-- A process's own log is one of the stream. -/
theorem logName_matches (stream : WString) (pid : ℕ) :
    matchesPattern stream (logName stream pid) = true := by
  have hfolded : (logName stream pid).map fold = (stream ++ wide "_").map fold ++
      (((toDecimal pid).map fun c => UInt16.ofNat c.toNat).map fold ++ (wide ".jsonl").map fold) := by
    simp only [logName, List.map_append, List.append_assoc]
  have hfirst : ((logName stream pid).map fold).take (stream ++ wide "_").length =
      (stream ++ wide "_").map fold := by
    rw [hfolded, List.take_left' (List.length_map _)]
  have hlast : ((logName stream pid).map fold).drop
      (((logName stream pid).map fold).length - (wide ".jsonl").length) =
        (wide ".jsonl").map fold := by
    have hlength : (wide ".jsonl").length = ((wide ".jsonl").map fold).length := rfl
    rw [hfolded, ← List.append_assoc, List.length_append, hlength, Nat.add_sub_cancel,
      List.drop_left]
  have hlength : (stream ++ wide "_").length + (wide ".jsonl").length ≤
      ((logName stream pid).map fold).length := by
    rw [hfolded]
    simp only [List.length_append, List.length_map]
    omega
  simp only [matchesPattern, hfirst, hlast, hlength, decide_true, beq_self_eq_true, Bool.and_self]

/-- The pattern is matched without regard to case. -/
theorem matchesPattern_congr {stream name other : WString} (h : name.map fold = other.map fold) :
    matchesPattern stream name = matchesPattern stream other := by
  simp only [matchesPattern, h]

/-! ### What the folder's operations do to its logs -/

section Folder

variable {env : Environment} {entries : List Entry}

/-- The keys of the folder's logs. -/
def logKeys (env : Environment) (entries : List Entry) : List WString :=
  (logs env entries).map Entry.key

/-- The keys of the logs in a folder. -/
theorem mem_logKeys {k : WString} :
    k ∈ logKeys env entries ↔ ∃ e ∈ entries, e.isLog env = true ∧ e.key = k := by
  simp only [logKeys, logs, List.mem_map, List.mem_filter, and_assoc]

/-- A file removed is no log of the folder, and the others are. -/
theorem mem_logKeys_remove {k removed : WString} :
    k ∈ logKeys env (remove Entry.key removed entries) ↔ k ∈ logKeys env entries ∧ k ≠ removed := by
  simp only [mem_logKeys, remove, List.mem_filter, decide_eq_true_eq]
  constructor
  · rintro ⟨e, ⟨he, hne⟩, hlog, rfl⟩
    exact ⟨⟨e, he, hlog, rfl⟩, hne⟩
  · rintro ⟨⟨e, he, hlog, rfl⟩, hne⟩
    exact ⟨e, ⟨he, hne⟩, hlog, rfl⟩

/-- A file added is the only new log there can be. -/
theorem mem_logKeys_add {k : WString} {entry : Entry}
    (h : k ∈ logKeys env (add Entry.key entry entries)) :
    k ∈ logKeys env entries ∨ (k = entry.key ∧ entry.isLog env = true) := by
  obtain ⟨e, he, hlog, rfl⟩ := mem_logKeys.mp h
  unfold add at he
  split at he
  · exact Or.inl (mem_logKeys.mpr ⟨e, he, hlog, rfl⟩)
  · rcases List.mem_append.mp he with hold | hnew
    · exact Or.inl (mem_logKeys.mpr ⟨e, hold, hlog, rfl⟩)
    · rw [List.mem_singleton.mp hnew] at hlog ⊢
      exact Or.inr ⟨rfl, hlog⟩

/-- A write makes no new log. -/
theorem mem_logKeys_stamped (hkeys : (entries.map Entry.key).Nodup) {k : WString} {pid time : ℕ}
    (h : k ∈ logKeys env (stamped env entries pid time)) : k ∈ logKeys env entries := by
  obtain ⟨e, he, hlog, rfl⟩ := mem_logKeys.mp h
  rcases mem_update hkeys he with ⟨hold, -⟩ | ⟨before, hold, -, rfl⟩
  · exact mem_logKeys.mpr ⟨e, hold, hlog, rfl⟩
  · exact mem_logKeys.mpr ⟨before, hold, hlog, rfl⟩

/-- A write leaves the names as they are. -/
theorem map_stamped (entries : List Entry) (pid time : ℕ) :
    (stamped env entries pid time).map Entry.key = entries.map Entry.key :=
  map_update Entry.key _ (fun entry => { entry with written := time }) (fun _ => rfl) entries

end Folder

/-! ### What is known of the logs at a listing -/

/-- The listing behind where a process is. -/
def Phase.listing : Phase → Option ℕ
  | .starting | .quiet => none
  | .pruning listing _ | .running listing _ => some listing

/-- Up to the names still to be deleted, the logs are the nine a listing kept
and those of processes that were there when it was taken. -/
def Covered (env : Environment) (s : State) (listing : ℕ) (names : List WString) : Prop :=
  ∃ kept : List WString, ∃ pids : List ℕ, kept.length < kKeptLogs ∧ pids.length ≤ s.peak ∧
    (∀ p ∈ s.processes, ∀ l, p.phase.listing = some l → l ≤ listing → p.pid ∈ pids) ∧
    ∀ k ∈ logKeys env s.entries, env.removable k = true →
      k ∈ names.map (List.map fold) ∨ k ∈ kept ∨ k ∈ pids.map (logKey env)

/-- What every reachable state keeps. -/
structure Inv (env : Environment) (s : State) : Prop where
  keys : (s.entries.map Entry.key).Nodup
  pids : (s.processes.map Process.pid).Nodup
  peak : s.processes.length ≤ s.peak
  numbered : ∀ p ∈ s.processes, ∀ l, p.phase.listing = some l → l ≤ s.listings
  pruned : s.lastPruned ≤ s.listings
  opened : ∀ p ∈ s.processes, ∀ l logging, p.phase = .running l logging → l ≤ s.lastPruned
  present : ∀ p ∈ s.processes, ∀ l, p.phase = .running l true →
    ∃ e ∈ s.entries, e.key = logKey env p.pid ∧ e.directory = false
  /-- a process that lists after all that have opened their logs -/
  pruning : ∀ p ∈ s.processes, ∀ l names, p.phase = .pruning l names → s.lastPruned < l →
    Covered env s l names
  settled : s.lastPruned ≠ 0 → Covered env s s.lastPruned []

section Steps

variable {env : Environment} {s t : State}

/-- What is known at a listing stays known while no process comes to be of that
listing or an earlier one, and no log appears but of those that are. -/
theorem Covered.mono {listing : ℕ} {names : List WString} (h : Covered env s listing names)
    (hpeak : s.peak ≤ t.peak)
    (hprocesses : ∀ p ∈ t.processes, ∀ l, p.phase.listing = some l → l ≤ listing →
      ∃ q ∈ s.processes, q.pid = p.pid ∧ q.phase.listing = some l)
    (hlogs : ∀ k ∈ logKeys env t.entries, k ∈ logKeys env s.entries ∨
      ∃ p ∈ s.processes, ∃ l, p.phase.listing = some l ∧ l ≤ listing ∧ logKey env p.pid = k) :
    Covered env t listing names := by
  obtain ⟨kept, pids, hkept, hpids, halive, hcover⟩ := h
  refine ⟨kept, pids, hkept, hpids.trans hpeak, fun p hp l hl hle => ?_, fun k hk hremovable => ?_⟩
  · obtain ⟨q, hq, hpid, hlisting⟩ := hprocesses p hp l hl hle
    exact hpid ▸ halive q hq l hlisting hle
  · rcases hlogs k hk with hold | ⟨p, hp, l, hl, hle, rfl⟩
    · exact hcover k hold hremovable
    · exact Or.inr (Or.inr (List.mem_map_of_mem (halive p hp l hl hle)))

/-- A process that moves on leaves the others as they were. -/
theorem mem_moved (hpids : (s.processes.map Process.pid).Nodup) {pid : ℕ} {phase : Phase}
    {p : Process} (hp : p ∈ s.moved pid phase) :
    (p ∈ s.processes ∧ p.pid ≠ pid) ∨ p = ⟨pid, phase⟩ := by
  rcases mem_update hpids hp with hother | ⟨q, -, rfl, rfl⟩
  · exact Or.inl hother
  · exact Or.inr rfl

/-- A process that moves on keeps its number. -/
theorem map_moved (s : State) (pid : ℕ) (phase : Phase) :
    (s.moved pid phase).map Process.pid = s.processes.map Process.pid :=
  map_update Process.pid _ (fun process => { process with phase }) (fun _ => rfl) s.processes

/-- There are as many processes as before. -/
theorem length_moved (s : State) (pid : ℕ) (phase : Phase) :
    (s.moved pid phase).length = s.processes.length := by
  have h := congrArg List.length (map_moved s pid phase)
  rwa [List.length_map, List.length_map] at h

/-- A process that moves on within its listing, or to one of its own, is no
newcomer to the listings there were. -/
theorem listed_moved (h : Inv env s) {process : Process} (hprocess : process ∈ s.processes)
    {phase : Phase} (hphase : ∀ l, phase.listing = some l →
      process.phase.listing = some l ∨ s.listings < l) {listing : ℕ} (hle : listing ≤ s.listings) :
    ∀ p ∈ s.moved process.pid phase, ∀ l, p.phase.listing = some l → l ≤ listing →
      ∃ q ∈ s.processes, q.pid = p.pid ∧ q.phase.listing = some l := by
  intro p hp l hl hlisting
  rcases mem_moved h.pids hp with ⟨hother, -⟩ | rfl
  · exact ⟨p, hother, rfl, hl⟩
  · rcases hphase l hl with hold | hnew
    · exact ⟨process, hprocess, rfl, hold⟩
    · exact absurd (hlisting.trans hle) (Nat.not_le.mpr hnew)

/-- What is known at a listing outlasts a step of one process. -/
theorem Covered.moved (h : Inv env s) {process : Process} (hprocess : process ∈ s.processes)
    {phase : Phase} (hphase : ∀ l, phase.listing = some l →
      process.phase.listing = some l ∨ s.listings < l) {entries : List Entry}
    {listings lastPruned listing : ℕ} {names : List WString}
    (hlogs : ∀ k ∈ logKeys env entries, k ∈ logKeys env s.entries ∨
      ∃ p ∈ s.processes, ∃ l, p.phase.listing = some l ∧ l ≤ listing ∧ logKey env p.pid = k)
    (hcovered : Covered env s listing names) (hle : listing ≤ s.listings) :
    Covered env ⟨entries, s.moved process.pid phase, listings, lastPruned, s.peak⟩ listing names :=
  hcovered.mono le_rfl (listed_moved h hprocess hphase hle) hlogs

/-- A step of one process keeps what is known, given what it does to the folder
and to what is known of the listings. -/
theorem Inv.moved (h : Inv env s) {process : Process} {phase : Phase}
    {entries : List Entry} {listings lastPruned : ℕ} (hkeys : (entries.map Entry.key).Nodup)
    (hlistings : s.listings ≤ listings) (hpruned : lastPruned ≤ listings)
    (hlast : s.lastPruned ≤ lastPruned)
    (hnumbered : ∀ l, phase.listing = some l → l ≤ listings)
    (hopened : ∀ l logging, phase = .running l logging → l ≤ lastPruned)
    (hpresent : ∀ k, s.held env k = true → (∃ e ∈ s.entries, e.key = k ∧ e.directory = false) →
      ∃ e ∈ entries, e.key = k ∧ e.directory = false)
    (hown : ∀ l, phase = .running l true →
      ∃ e ∈ entries, e.key = logKey env process.pid ∧ e.directory = false)
    (hcovered : ∀ l names, Covered env s l names → l ≤ s.listings → lastPruned ≤ l →
      Covered env ⟨entries, s.moved process.pid phase, listings, lastPruned, s.peak⟩ l names)
    (hprocess : ∀ l names, phase = .pruning l names → lastPruned < l →
      Covered env ⟨entries, s.moved process.pid phase, listings, lastPruned, s.peak⟩ l names)
    (hsettled : lastPruned ≠ s.lastPruned →
      Covered env ⟨entries, s.moved process.pid phase, listings, lastPruned, s.peak⟩
        lastPruned []) :
    Inv env ⟨entries, s.moved process.pid phase, listings, lastPruned, s.peak⟩ := by
  refine ⟨hkeys, ?_, ?_, fun p hp l hl => ?_, hpruned, fun p hp l logging hp' => ?_,
    fun p hp l hl => ?_, fun p hp l names hp' hlt => ?_, fun hne => ?_⟩
  · rw [map_moved]
    exact h.pids
  · rw [length_moved]
    exact h.peak
  · rcases mem_moved h.pids hp with ⟨hother, -⟩ | rfl
    · exact (h.numbered p hother l hl).trans hlistings
    · exact hnumbered l hl
  · rcases mem_moved h.pids hp with ⟨hother, -⟩ | rfl
    · exact (h.opened p hother l logging hp').trans hlast
    · exact hopened l logging hp'
  · rcases mem_moved h.pids hp with ⟨hother, -⟩ | rfl
    · refine hpresent _ ?_ (h.present p hother l hl)
      exact List.any_eq_true.mpr ⟨p, hother, by simp [Process.holds, hl]⟩
    · exact hown l hl
  · rcases mem_moved h.pids hp with ⟨hother, -⟩ | rfl
    · have hlisted := h.numbered p hother l (by rw [hp']; rfl)
      exact hcovered l names (h.pruning p hother l names hp' (hlast.trans_lt hlt)) hlisted hlt.le
    · exact hprocess l names hp' hlt
  · by_cases heq : lastPruned = s.lastPruned
    · subst heq
      exact hcovered _ [] (h.settled hne) h.pruned le_rfl
    · exact hsettled heq

/-- A process with logging off keeps the invariant. -/
theorem Inv.skip (h : Inv env s) {process : Process} (hprocess : process ∈ s.processes) :
    Inv env { s with processes := s.moved process.pid .quiet } := by
  refine h.moved h.keys le_rfl h.pruned le_rfl (fun _ hl => by cases hl) (fun _ _ hl => by cases hl)
    (fun _ _ hentry => hentry) (fun _ hl => by cases hl) (fun l names hcovered hle _ => ?_)
    (fun _ _ hl => by cases hl) (fun hne => absurd rfl hne)
  exact Covered.moved h hprocess (fun _ hl => by cases hl) (fun _ hk => Or.inl hk) hcovered hle

/-- A listing covers the logs: those it keeps, and those to be deleted. -/
theorem Inv.list (h : Inv env s) {process : Process} (hprocess : process ∈ s.processes)
    {arrangement : List Entry} (hperm : arrangement.Perm (logs env s.entries)) :
    Inv env { s with
      processes := s.moved process.pid (.pruning (s.listings + 1) (doomed arrangement))
      listings := s.listings + 1 } := by
  have hphase : ∀ l, (Phase.pruning (s.listings + 1) (doomed arrangement)).listing = some l →
      process.phase.listing = some l ∨ s.listings < l := fun l hl => by
    cases hl
    exact Or.inr (Nat.lt_succ_self _)
  refine h.moved h.keys (Nat.le_succ _) (h.pruned.trans (Nat.le_succ _)) le_rfl
    (fun l hl => by cases hl; exact le_rfl) (fun _ _ hl => by cases hl)
    (fun _ _ hentry => hentry) (fun _ hl => by cases hl) (fun l names hcovered hle _ => ?_)
    (fun l names hl _ => ?_) (fun hne => absurd rfl hne)
  · exact Covered.moved h hprocess hphase (fun _ hk => Or.inl hk) hcovered hle
  · cases hl
    refine ⟨(arrangement.take (kKeptLogs - 1)).map Entry.key, s.processes.map Process.pid,
      ?_, ?_, fun p hp _ _ _ => ?_, fun k hk _ => ?_⟩
    · rw [List.length_map, List.length_take, kKeptLogs]
      omega
    · rw [List.length_map]
      exact h.peak
    · rw [← map_moved s process.pid (.pruning (s.listings + 1) (doomed arrangement))]
      exact List.mem_map_of_mem hp
    · have hmem : k ∈ arrangement.map Entry.key := (hperm.map Entry.key).mem_iff.mpr hk
      unfold doomed
      split
      · rename_i hfew
        rw [List.take_of_length_le (by rw [kKeptLogs] at hfew ⊢; omega)]
        exact Or.inr (Or.inl hmem)
      · rw [← List.take_append_drop (kKeptLogs - 1) arrangement, List.map_append,
          List.mem_append] at hmem
        rcases hmem with hkept | hdoomed
        · exact Or.inr (Or.inl hkept)
        · refine Or.inl ?_
          rw [List.map_map]
          exact hdoomed

/-- A file is held where a process that logs opened it. -/
theorem held_iff {k : WString} : s.held env k = true ↔
    ∃ p ∈ s.processes, ∃ l, p.phase = .running l true ∧ logKey env p.pid = k := by
  simp only [State.held, List.any_eq_true]
  refine exists_congr fun p => and_congr_right fun _ => ?_
  unfold Process.holds
  split
  · rename_i l hl
    simp [hl]
  · rename_i hother
    simp only [Bool.false_eq_true, false_iff]
    rintro ⟨l, hl, -⟩
    exact hother l hl

/-- A log that may be removed and is not deleted is held. -/
theorem held_of_not_deletable (hkeys : (s.entries.map Entry.key).Nodup) {name : WString}
    (hlog : name.map fold ∈ logKeys env s.entries) (hremovable : env.removable (name.map fold))
    (hdeletable : s.deletable env name = false) : s.held env (name.map fold) = true := by
  obtain ⟨e, he, hislog, hkey⟩ := mem_logKeys.mp hlog
  have hfind : find Entry.key (name.map fold) s.entries = some e := hkey ▸ find_of_mem hkeys he
  have hfile : e.directory = false := by
    simp only [Entry.isLog, Bool.and_eq_true, Bool.not_eq_true'] at hislog
    exact hislog.1
  simpa [State.deletable, hfind, hfile, hkey, hremovable] using hdeletable

/-- What is deleted is not held. -/
theorem not_held_of_deletable {name : WString} (hdeletable : s.deletable env name = true) :
    s.held env (name.map fold) = false := by
  unfold State.deletable at hdeletable
  split at hdeletable
  · cases hdeletable
  · rename_i e hfind
    simp only [Bool.and_eq_true, Bool.not_eq_true', key_of_find hfind] at hdeletable
    exact hdeletable.2

/-- A deletion leaves a doomed log only where a process that opened it holds it. -/
theorem Inv.delete (h : Inv env s) {process : Process} (hprocess : process ∈ s.processes)
    {listing : ℕ} {name : WString} {rest : List WString}
    (hphase : process.phase = .pruning listing (name :: rest)) :
    Inv env { s with
      entries := if s.deletable env name then remove Entry.key (name.map fold) s.entries
        else s.entries
      processes := s.moved process.pid (.pruning listing rest) } := by
  have hsame : ∀ l, (Phase.pruning listing rest).listing = some l →
      process.phase.listing = some l ∨ s.listings < l := fun l hl => by
    rw [hphase]
    exact Or.inl hl
  have hlogs : ∀ k, k ∈ logKeys env (if s.deletable env name then
      remove Entry.key (name.map fold) s.entries else s.entries) →
      k ∈ logKeys env s.entries ∧ (s.deletable env name = true → k ≠ name.map fold) := by
    intro k hk
    split at hk
    · exact ⟨(mem_logKeys_remove.mp hk).1, fun _ => (mem_logKeys_remove.mp hk).2⟩
    · rename_i hkept
      exact ⟨hk, fun hdeletable => absurd hdeletable hkept⟩
  refine h.moved ?_ le_rfl h.pruned le_rfl ?_ (fun _ _ hl => by cases hl) ?_
    (fun _ hl => by cases hl) (fun l names hcovered hle _ => ?_) (fun l names hl hlt => ?_)
    (fun hne => absurd rfl hne)
  · split
    · exact h.keys.sublist (List.filter_sublist.map _)
    · exact h.keys
  · exact fun l hl => h.numbered process hprocess l (by rw [hphase]; exact hl)
  · rintro k hheld ⟨e, he, rfl, hfile⟩
    split
    · rename_i hdeletable
      refine ⟨e, List.mem_filter.mpr ⟨he, decide_eq_true fun hkey => ?_⟩, rfl, hfile⟩
      rw [hkey, not_held_of_deletable hdeletable] at hheld
      cases hheld
    · exact ⟨e, he, rfl, hfile⟩
  · exact Covered.moved h hprocess hsame (fun k hk => Or.inl (hlogs k hk).1) hcovered hle
  · cases hl
    have hcovered := h.pruning process hprocess listing _ hphase hlt
    have hlisted : listing ≤ s.listings :=
      h.numbered process hprocess listing (by rw [hphase]; rfl)
    obtain ⟨kept, pids, hkept, hpids, halive, hcover⟩ := hcovered
    refine ⟨kept, pids, hkept, hpids, fun p hp l hl hle => ?_, fun k hk hremovable => ?_⟩
    · obtain ⟨q, hq, hpid, hl'⟩ := listed_moved h hprocess hsame hlisted p hp l hl hle
      exact hpid ▸ halive q hq l hl' hle
    rcases hcover k (hlogs k hk).1 hremovable with hnames | hrest
    · rw [List.map_cons, List.mem_cons] at hnames
      rcases hnames with rfl | hrest
      · have hkept : s.deletable env name = false :=
          Bool.eq_false_iff.mpr fun hdeletable => (hlogs _ hk).2 hdeletable rfl
        have hheld := held_of_not_deletable h.keys (hlogs _ hk).1 hremovable hkept
        obtain ⟨p, hp, l, hl, hkey⟩ := held_iff.mp hheld
        -- its holder has opened it, so it listed the folder before this process did
        have hle : l ≤ listing := (h.opened p hp l true hl).trans hlt.le
        have hpid := halive p hp l (by rw [hl]; rfl) hle
        exact Or.inr (Or.inr (hkey ▸ List.mem_map_of_mem hpid))
      · exact Or.inl hrest
    · exact Or.inr hrest

/-- An entry stays when another is added. -/
theorem mem_add {e entry : Entry} {entries : List Entry} (he : e ∈ entries) :
    e ∈ add Entry.key entry entries := by
  unfold add
  split
  · exact he
  · exact List.mem_append_left _ he

/-- A log opened for appending is there. -/
theorem exists_add {pid time : ℕ} {entries : List Entry}
    (hfile : (find Entry.key (logKey env pid) entries).any Entry.directory = false) :
    ∃ e ∈ add Entry.key ⟨logName env.stream pid, false, time⟩ entries,
      e.key = logKey env pid ∧ e.directory = false := by
  cases hfind : find Entry.key (logKey env pid) entries with
  | none =>
    have hadd : add Entry.key ⟨logName env.stream pid, false, time⟩ entries =
        entries ++ [⟨logName env.stream pid, false, time⟩] := by
      rw [add, if_neg]
      intro hsome
      obtain ⟨e, he⟩ := Option.isSome_iff_exists.mp hsome
      cases hfind.symm.trans he
    exact ⟨_, hadd ▸ List.mem_append_right _ List.mem_cons_self, rfl, rfl⟩
  | some e =>
    rw [hfind, Option.any_some] at hfile
    exact ⟨e, mem_add (List.mem_of_find?_eq_some hfind), key_of_find hfind, hfile⟩

/-- A process opens its log after its deletions: the log is one of a process
that its listing and every later one know of. -/
theorem Inv.openLog (h : Inv env s) {process : Process} (hprocess : process ∈ s.processes)
    {listing time : ℕ} {logging : Bool} (hphase : process.phase = .pruning listing [])
    (hfile : logging = true →
      (find Entry.key (logKey env process.pid) s.entries).any Entry.directory = false) :
    Inv env { s with
      entries := if logging then add Entry.key ⟨logName env.stream process.pid, false, time⟩ s.entries
        else s.entries
      processes := s.moved process.pid (.running listing logging)
      lastPruned := max s.lastPruned listing } := by
  have hlisting : process.phase.listing = some listing := by rw [hphase]; rfl
  have hsame : ∀ l, (Phase.running listing logging).listing = some l →
      process.phase.listing = some l ∨ s.listings < l := fun l hl => Or.inl (hlisting.trans hl)
  have hlisted : listing ≤ s.listings := h.numbered process hprocess listing hlisting
  have hlogs : ∀ l, listing ≤ l → ∀ k ∈ logKeys env (if logging then
      add Entry.key ⟨logName env.stream process.pid, false, time⟩ s.entries else s.entries),
      k ∈ logKeys env s.entries ∨ ∃ p ∈ s.processes, ∃ l',
        p.phase.listing = some l' ∧ l' ≤ l ∧ logKey env p.pid = k := by
    intro l hle k hk
    split at hk
    · rcases mem_logKeys_add hk with hold | ⟨rfl, -⟩
      · exact Or.inl hold
      · exact Or.inr ⟨process, hprocess, listing, hlisting, hle, rfl⟩
    · exact Or.inl hk
  refine h.moved ?_ le_rfl (max_le h.pruned hlisted) (le_max_left _ _) (fun l hl => ?_)
    (fun l logging hl => ?_) ?_ (fun l hl => ?_) (fun l names hcovered hle hlast => ?_)
    (fun _ _ hl => by cases hl) (fun hne => ?_)
  · split
    · exact nodup_map_add h.keys
    · exact h.keys
  · cases hl
    exact hlisted
  · cases hl
    exact le_max_right _ _
  · rintro k - ⟨e, he, hkey, hentry⟩
    split
    · exact ⟨e, mem_add he, hkey, hentry⟩
    · exact ⟨e, he, hkey, hentry⟩
  · cases hl
    exact exists_add (hfile rfl)
  · exact Covered.moved h hprocess hsame (hlogs l ((le_max_right _ _).trans hlast)) hcovered hle
  · have hlt : s.lastPruned < listing := by
      rcases le_or_gt listing s.lastPruned with hle | hlt
      · exact absurd (max_eq_left hle) hne
      · exact hlt
    rw [max_eq_right hlt.le]
    exact Covered.moved h hprocess hsame (hlogs listing le_rfl)
      (h.pruning process hprocess listing [] hphase hlt) hlisted

/-- A change of the folder that makes no log and takes none that is held. -/
theorem Inv.folder (h : Inv env s) {entries : List Entry} (hkeys : (entries.map Entry.key).Nodup)
    (hpresent : ∀ k, s.held env k = true → (∃ e ∈ s.entries, e.key = k ∧ e.directory = false) →
      ∃ e ∈ entries, e.key = k ∧ e.directory = false)
    (hlogs : ∀ k ∈ logKeys env entries, k ∈ logKeys env s.entries) :
    Inv env { s with entries } where
  keys := hkeys
  pids := h.pids
  peak := h.peak
  numbered := h.numbered
  pruned := h.pruned
  opened := h.opened
  present p hp l hl := hpresent _ (held_iff.mpr ⟨p, hp, l, hl, rfl⟩) (h.present p hp l hl)
  pruning p hp l names hl hlt := (h.pruning p hp l names hl hlt).mono le_rfl
    (fun q hq _ hl _ => ⟨q, hq, rfl, hl⟩) fun k hk => Or.inl (hlogs k hk)
  settled hne := (h.settled hne).mono le_rfl (fun q hq _ hl _ => ⟨q, hq, rfl, hl⟩)
    fun k hk => Or.inl (hlogs k hk)

/-- Writing a log keeps the invariant. -/
theorem Inv.write (h : Inv env s) (pid time : ℕ) :
    Inv env { s with entries := stamped env s.entries pid time } := by
  refine h.folder (by rw [map_stamped]; exact h.keys) ?_ fun k hk => mem_logKeys_stamped h.keys hk
  rintro k - ⟨e, he, hkey, hfile⟩
  have hupdate : e ∈ stamped env s.entries pid time ∨
      ({ e with written := time } : Entry) ∈ stamped env s.entries pid time :=
    mem_update_of_mem he
  rcases hupdate with hsame | hchanged
  · exact ⟨e, hsame, hkey, hfile⟩
  · exact ⟨_, hchanged, hkey, hfile⟩

/-- So does a file another program makes. -/
theorem Inv.make (h : Inv env s) {entry : Entry}
    (hother : matchesPattern env.stream entry.name = false) :
    Inv env { s with entries := add Entry.key entry s.entries } := by
  refine h.folder (nodup_map_add h.keys) ?_ fun k hk => ?_
  · rintro k - ⟨e, he, hkey, hfile⟩
    exact ⟨e, mem_add he, hkey, hfile⟩
  · rcases mem_logKeys_add hk with hold | ⟨-, hlog⟩
    · exact hold
    · simp [Entry.isLog, hother] at hlog

/-- So does one it removes. -/
theorem Inv.drop (h : Inv env s) {name : WString} (hheld : s.held env (name.map fold) = false) :
    Inv env { s with entries := remove Entry.key (name.map fold) s.entries } := by
  refine h.folder (h.keys.sublist (List.filter_sublist.map _)) ?_
    fun k hk => (mem_logKeys_remove.mp hk).1
  rintro k hk ⟨e, he, rfl, hfile⟩
  refine ⟨e, List.mem_filter.mpr ⟨he, decide_eq_true fun hkey => ?_⟩, rfl, hfile⟩
  rw [hkey, hheld] at hk
  cases hk

/-- So does a process that starts. -/
theorem Inv.start (h : Inv env s) {pid : ℕ} (hpid : pid ∉ s.processes.map Process.pid) :
    Inv env { s with
      processes := s.processes ++ [⟨pid, .starting⟩]
      peak := max s.peak (s.processes.length + 1) } := by
  have hmem : ∀ p ∈ s.processes ++ [⟨pid, .starting⟩], p ∈ s.processes ∨ p = ⟨pid, .starting⟩ :=
    fun p hp => (List.mem_append.mp hp).imp_right List.mem_singleton.mp
  have hmono : ∀ l names, Covered env s l names → Covered env { s with
      processes := s.processes ++ [⟨pid, .starting⟩]
      peak := max s.peak (s.processes.length + 1) } l names := by
    refine fun l names hcovered => hcovered.mono (le_max_left _ _) (fun p hp l' hl' _ => ?_)
      fun _ hk => Or.inl hk
    rcases hmem p hp with hold | rfl
    · exact ⟨p, hold, rfl, hl'⟩
    · cases hl'
  refine ⟨h.keys, ?_, ?_, fun p hp l hl => ?_, h.pruned, fun p hp l logging hl => ?_,
    fun p hp l hl => ?_, fun p hp l names hl hlt => ?_, fun hne => hmono _ _ (h.settled hne)⟩
  · rw [List.map_append, List.nodup_append]
    refine ⟨h.pids, List.pairwise_singleton _ _, fun p hp q hq => ?_⟩
    rw [List.mem_singleton.mp hq]
    rintro rfl
    exact hpid hp
  · rw [List.length_append]
    exact le_max_right _ _
  · rcases hmem p hp with hold | rfl
    · exact h.numbered p hold l hl
    · cases hl
  · rcases hmem p hp with hold | rfl
    · exact h.opened p hold l logging hl
    · cases hl
  · rcases hmem p hp with hold | rfl
    · exact h.present p hold l hl
    · cases hl
  · rcases hmem p hp with hold | rfl
    · exact hmono _ _ (h.pruning p hold l names hl hlt)
    · cases hl

/-- And so does one that ends. -/
theorem Inv.exit (h : Inv env s) (pid : ℕ) :
    Inv env { s with processes := remove Process.pid pid s.processes } := by
  have hmem : ∀ p ∈ remove Process.pid pid s.processes, p ∈ s.processes :=
    fun p hp => (List.mem_filter.mp hp).1
  have hmono : ∀ l names, Covered env s l names →
      Covered env { s with processes := remove Process.pid pid s.processes } l names :=
    fun l names hcovered => hcovered.mono le_rfl (fun p hp l' hl' _ => ⟨p, hmem p hp, rfl, hl'⟩)
      fun _ hk => Or.inl hk
  exact ⟨h.keys, h.pids.sublist (List.filter_sublist.map _),
    (List.length_filter_le _ _).trans h.peak, fun p hp => h.numbered p (hmem p hp), h.pruned,
    fun p hp => h.opened p (hmem p hp), fun p hp => h.present p (hmem p hp),
    fun p hp l names hl hlt => hmono _ _ (h.pruning p (hmem p hp) l names hl hlt),
    fun hne => hmono _ _ (h.settled hne)⟩

/-- Every step of a process keeps what is known. -/
theorem Inv.stepProcess (h : Inv env s) {process : Process} (hprocess : process ∈ s.processes)
    {a : Action} (hpid : a.pid = some process.pid)
    (hstep : stepProcess env s process a = some t) : Inv env t := by
  cases a with
  | skip pid =>
    obtain rfl : pid = process.pid := Option.some.inj hpid
    simp only [LogPruning.stepProcess, Option.ite_none_right_eq_some, Option.some.injEq] at hstep
    obtain ⟨-, rfl⟩ := hstep
    exact h.skip hprocess
  | list pid arrangement =>
    obtain rfl : pid = process.pid := Option.some.inj hpid
    simp only [LogPruning.stepProcess, Option.ite_none_right_eq_some, Option.some.injEq] at hstep
    obtain ⟨⟨-, hperm, -⟩, rfl⟩ := hstep
    exact h.list hprocess hperm
  | delete pid =>
    obtain rfl : pid = process.pid := Option.some.inj hpid
    simp only [LogPruning.stepProcess] at hstep
    split at hstep
    · rename_i hphase
      cases hstep
      exact h.delete hprocess hphase
    · cases hstep
  | openLog pid time succeeds =>
    obtain rfl : pid = process.pid := Option.some.inj hpid
    simp only [LogPruning.stepProcess] at hstep
    split at hstep
    · rename_i hphase
      cases hstep
      refine h.openLog hprocess hphase fun hlogging => ?_
      simp only [Bool.and_eq_true, Bool.not_eq_true'] at hlogging
      exact hlogging.2
    · cases hstep
  | write pid time =>
    obtain rfl : pid = process.pid := Option.some.inj hpid
    simp only [LogPruning.stepProcess] at hstep
    split at hstep
    · cases hstep
      exact h.write process.pid time
    · cases hstep
  | exit pid =>
    cases hstep
    exact h.exit pid
  | start pid => cases hpid
  | make entry => cases hpid
  | drop name => cases hpid

/-- Every step keeps the invariant. -/
theorem Inv.step (h : Inv env s) {a : Action} (hstep : step env s a = some t) : Inv env t := by
  have hprocess : ∀ pid, a.pid = some pid → (do
      let process ← find Process.pid pid s.processes
      LogPruning.stepProcess env s process a) = some t → Inv env t := by
    intro pid hpid hbind
    obtain ⟨process, hfind, hprocess⟩ := Option.bind_eq_some_iff.mp hbind
    refine h.stepProcess (List.mem_of_find?_eq_some hfind) ?_ hprocess
    rw [hpid, key_of_find hfind]
  cases a with
  | start pid =>
    simp only [LogPruning.step, Option.ite_none_left_eq_some, Option.some.injEq] at hstep
    obtain ⟨hnew, rfl⟩ := hstep
    exact h.start fun hmem => hnew (isSome_find.mpr hmem)
  | make entry =>
    simp only [LogPruning.step, Option.ite_none_left_eq_some, Option.some.injEq] at hstep
    obtain ⟨hother, rfl⟩ := hstep
    exact h.make (Bool.eq_false_iff.mpr hother)
  | drop name =>
    simp only [LogPruning.step, Option.ite_none_left_eq_some, Option.some.injEq] at hstep
    obtain ⟨hheld, rfl⟩ := hstep
    exact h.drop (Bool.eq_false_iff.mpr hheld)
  | skip pid => exact hprocess pid rfl hstep
  | list pid arrangement => exact hprocess pid rfl hstep
  | delete pid => exact hprocess pid rfl hstep
  | openLog pid time succeeds => exact hprocess pid rfl hstep
  | write pid time => exact hprocess pid rfl hstep
  | exit pid => exact hprocess pid rfl hstep

/-- It holds in every run. -/
theorem inv_reachable (h : (system env).Reachable s) : Inv env s := by
  refine h.invariant (Inv env) (fun s hstart => ?_) fun s a t hinv _ hstep => hinv.step hstep
  obtain ⟨hkeys, hprocesses, hlistings, hlast, hpeak⟩ := hstart
  have hnone : ∀ p, p ∉ s.processes := fun p => by
    rw [hprocesses]
    exact List.not_mem_nil
  exact ⟨hkeys, by rw [hprocesses]; exact List.nodup_nil, by rw [hprocesses]; exact Nat.zero_le _,
    fun p hp => absurd hp (hnone p), by rw [hlast]; exact Nat.zero_le _,
    fun p hp => absurd hp (hnone p), fun p hp => absurd hp (hnone p),
    fun p hp => absurd hp (hnone p), fun hne => absurd hlast hne⟩

end Steps

/-- However many processes of a game start, prune, log and end at once, a log
that is held open stays in the folder, and once a process has opened its log
there are no more logs that can be removed than nine beside one for each of the
most processes there have been at once. -/
theorem logs_bounded {env : Environment} {s : State} (h : (system env).Reachable s) :
    (∀ p ∈ s.processes, ∀ l, p.phase = .running l true →
        ∃ e ∈ logs env s.entries, e.key = logKey env p.pid) ∧
      (s.lastPruned ≠ 0 → ((logs env s.entries).filter fun e => env.removable e.key).length ≤
        kKeptLogs - 1 + s.peak) := by
  have hinv := inv_reachable h
  refine ⟨fun p hp l hl => ?_, fun hne => ?_⟩
  · obtain ⟨e, he, hkey, hfile⟩ := hinv.present p hp l hl
    have hmatches : matchesPattern env.stream e.name = true :=
      (matchesPattern_congr hkey).trans (logName_matches env.stream p.pid)
    have hlog : e.isLog env = true := by simp [Entry.isLog, hfile, hmatches]
    exact ⟨e, List.mem_filter.mpr ⟨he, hlog⟩, hkey⟩
  obtain ⟨kept, pids, hkept, hpids, -, hcover⟩ := hinv.settled hne
  have hnodup : (((logs env s.entries).filter fun e => env.removable e.key).map
      Entry.key).Nodup :=
    hinv.keys.sublist ((List.filter_sublist.trans List.filter_sublist).map _)
  have hsubset : ((logs env s.entries).filter fun e => env.removable e.key).map Entry.key ⊆
      kept ++ pids.map (logKey env) := by
    intro k hk
    obtain ⟨e, he, rfl⟩ := List.mem_map.mp hk
    obtain ⟨hlog, hremovable⟩ := List.mem_filter.mp he
    rcases hcover e.key (List.mem_map_of_mem hlog) hremovable with hnone | hrest
    · cases hnone
    · exact List.mem_append.mpr hrest
  have hlength := (List.subperm_of_subset hnodup hsubset).length_le
  rw [List.length_map, List.length_append, List.length_map] at hlength
  rw [kKeptLogs] at hkept ⊢
  omega

/-- The loader's stream; one of the logs is protected. -/
def loaderLogs : Environment where
  stream := wide "loader"
  removable name := name ≠ wide "loader_1.jsonl"

/-- A folder with a log for each of twelve past processes. -/
def crowded : State where
  entries := ⟨wide "opendlssg.ini", false, 0⟩ ::
    (List.range' 1 12).map fun pid => ⟨logName loaderLogs.stream pid, false, pid⟩
  processes := []
  listings := 0
  lastPruned := 0
  peak := 0

/-- Its logs, the newest first. -/
def newestFirst : List Entry :=
  ((List.range' 1 12).map fun pid => ⟨logName loaderLogs.stream pid, false, pid⟩).reverse

/-- Two processes list the folder before either deletes. -/
def crowdedRun : List Action :=
  [.start 20, .start 21, .list 20 newestFirst, .list 21 newestFirst, .delete 20, .delete 21,
    .delete 21, .delete 20, .delete 21, .openLog 21 100 true, .write 21 101, .delete 20,
    .openLog 20 102 true]

/-- Where they end. -/
def crowdedState : State :=
  ((system loaderLogs).runUnder (fun _ _ => True) crowded crowdedRun).getD crowded

/-- The crowd is a run. -/
theorem crowdedState_reachable : (system loaderLogs).Reachable crowdedState := by
  have hinit : (system loaderLogs).init crowded := ⟨by decide +kernel, rfl, rfl, rfl, rfl⟩
  exact System.reachable_getD_runUnder (.start hinit) (by decide +kernel)

example : (logs loaderLogs crowdedState.entries).map Entry.written =
    [1, 4, 5, 6, 7, 8, 9, 10, 11, 12, 101, 102] := by
  decide +kernel

/-- Both have opened a log, and there are as many as there can be. -/
theorem logs_bounded_crowded : (((logs loaderLogs crowdedState.entries).filter fun e =>
    loaderLogs.removable e.key).length ≤ 11) ∧
      ((logs loaderLogs crowdedState.entries).filter fun e =>
        loaderLogs.removable e.key).length = 11 :=
  ⟨(logs_bounded crowdedState_reachable).2 (by decide +kernel), by decide +kernel⟩

end OpenDlssg.LogPruning
