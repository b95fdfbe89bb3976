import OpenDlssg.ByteCodec
import OpenDlssg.LastWriteMap
import OpenDlssg.RecordTable
import OpenDlssg.TransitionRuns

/-!
# What a wrapper calls through

The Vulkan loader's two resolvers hand out wrappers of the functions this engine
takes over. The function behind a wrapper is recorded before the wrapper is
handed out, per device for a resolution through a device; a resolution through
an instance serves every device. Resolutions run on any threads, and the table
is changed under its lock.
-/

namespace OpenDlssg.VulkanResolutions

open ByteCodec LastWriteMap RecordTable TransitionRuns

/-- An address: of a function, or the handle of a device or an instance; 0 is null. -/
abbrev Pointer := UInt64

/-- The functions this engine may wrap. -/
inductive Function
  | createCuModule
  | createCuFunction
  | setLatencySleepMode
  | latencySleep
  deriving DecidableEq

/-- A function by the name it is resolved by. -/
structure NamedFunction where
  name : Bytes
  function : Function

/-- The functions and their names. -/
def kFunctions : List NamedFunction :=
  [⟨ascii "vkCreateCuModuleNVX", .createCuModule⟩, ⟨ascii "vkCreateCuFunctionNVX", .createCuFunction⟩,
    ⟨ascii "vkSetLatencySleepModeNV", .setLatencySleepMode⟩, ⟨ascii "vkLatencySleepNV", .latencySleep⟩]

/-- What a resolver returned for a function. The device is null for a resolution
through an instance. -/
structure Resolution where
  function : Function
  device : Pointer
  original : Pointer
  deriving DecidableEq

/-- What a resolution is recorded under. -/
def Resolution.key (r : Resolution) : Function × Pointer := (r.function, r.device)

/-- A known resolution with the function of a new one. -/
def Resolution.renew (r known : Resolution) : Resolution := { known with original := r.original }

theorem Resolution.key_renew (r known : Resolution) : (r.renew known).key = known.key := rfl

/-- Record a resolution: change the function of one already known, or append it. -/
def record (r : Resolution) (table : List Resolution) : List Resolution :=
  put Resolution.key r r.renew table

/-- What a resolver answers: the function as it was resolved, or a wrapper, with the
resolution to record before it is handed out. -/
inductive Answer
  | resolved (function : Pointer)
  | wrapped (resolution : Resolution) (wrapper : Pointer)

/-- Answer a resolution. The device is null for one through an instance; a name that
is null is absent. -/
def intercept (wrapperFor : Option (Function → Pointer)) (name : Option Bytes) (resolved device : Pointer) :
    Answer :=
  match name, wrapperFor with
  | some name, some wrapperFor =>
    if resolved = 0 then .resolved resolved
    else
      match kFunctions.find? fun named => name = named.name with
      | none => .resolved resolved
      | some named =>
        let wrapper := wrapperFor named.function
        if wrapper = 0 then .resolved resolved
        else .wrapped ⟨named.function, device, resolved⟩ wrapper
  | _, _ => .resolved resolved

/-- The driver's own resolver, absent while it is not hooked. -/
abbrev GetProcAddr := Option (Pointer → Option Bytes → Pointer)

/-- `vkGetDeviceProcAddr` as hooked. -/
def hookedGetDeviceProcAddr (original : GetProcAddr) (wrapperFor : Option (Function → Pointer))
    (device : Pointer) (name : Option Bytes) : Answer :=
  match original with
  | none => .resolved 0
  | some original => intercept wrapperFor name (original device name) device

/-- `vkGetInstanceProcAddr` as hooked. -/
def hookedGetInstanceProcAddr (original : GetProcAddr) (wrapperFor : Option (Function → Pointer))
    (inst : Pointer) (name : Option Bytes) : Answer :=
  match original with
  | none => .resolved 0
  | some original => intercept wrapperFor name (original inst name) 0

/-- The function a wrapper calls through for a device, null when there is none. -/
def original (table : List Resolution) (function : Function) (device : Pointer) : Pointer :=
  let found := table.foldl (fun (found : Pointer × Pointer) r =>
    if r.function ≠ function then found
    else if r.device = device then (r.original, found.2)
    else if r.device = 0 then (found.1, r.original)
    else found) (0, 0)
  if found.1 ≠ 0 then found.1 else found.2

/-- The two resolvers. -/
inductive Resolver
  | device
  | inst
  deriving DecidableEq

/-- A resolution that a wrapper is handed out for: through which resolver, for which
device or instance, and what is recorded of it. -/
structure Call where
  resolver : Resolver
  handle : Pointer
  resolution : Resolution
  deriving DecidableEq

/-- Where a thread is: it records a resolution, and then hands a wrapper out. -/
inductive Phase
  | idle
  | recording (call : Call) (wrapper : Pointer)
  | handingOut (call : Call) (wrapper : Pointer)
  deriving DecidableEq

/-- A wrapper handed out. -/
structure HandedOut where
  call : Call
  wrapper : Pointer
  deriving DecidableEq

/-- The table, where the threads are, and what happened so far: the resolutions in
the order they were recorded, and the wrappers handed out. -/
structure State where
  table : List Resolution := []
  phase : ℕ → Phase := fun _ => .idle
  recorded : List Call := []
  handedOut : List HandedOut := []

/-- What the threads do. -/
inductive Action
  /-- a thread resolves a name through a resolver, which the driver answers -/
  | resolve (i : ℕ) (resolver : Resolver) (handle : Pointer) (name : Option Bytes)
      (original : GetProcAddr) (wrapperFor : Option (Function → Pointer))
  /-- a thread records its resolution, under the table's lock -/
  | record (i : ℕ)
  /-- a thread hands its wrapper out -/
  | handOut (i : ℕ)

/-- What a resolver answers for a handle. -/
def Resolver.answer (resolver : Resolver) (original : GetProcAddr)
    (wrapperFor : Option (Function → Pointer)) (handle : Pointer) (name : Option Bytes) : Answer :=
  match resolver with
  | .device => hookedGetDeviceProcAddr original wrapperFor handle name
  | .inst => hookedGetInstanceProcAddr original wrapperFor handle name

/-- The resolvers over the steps of the threads that call them, in any order. -/
def machine : System State Action where
  init s := s = {}
  step s action :=
    match action with
    | .resolve i resolver handle name original wrapperFor =>
      if s.phase i = .idle then
        match resolver.answer original wrapperFor handle name with
        | .resolved _ => some s
        | .wrapped resolution wrapper =>
          some { s with phase := Function.update s.phase i (.recording ⟨resolver, handle, resolution⟩ wrapper) }
      else none
    | .record i =>
      match s.phase i with
      | .recording call wrapper => some { s with
          table := VulkanResolutions.record call.resolution s.table
          phase := Function.update s.phase i (.handingOut call wrapper)
          recorded := s.recorded ++ [call] }
      | _ => none
    | .handOut i =>
      match s.phase i with
      | .handingOut call wrapper => some { s with
          phase := Function.update s.phase i .idle
          handedOut := ⟨call, wrapper⟩ :: s.handedOut }
      | _ => none

/-! ### The table -/

/-- The table after a list of resolutions. -/
def tableOf (resolutions : List Resolution) : List Resolution :=
  resolutions.foldl (fun table r => record r table) []

/-- A resolution recorded is found under its function and device, and changes what is
found under no other. -/
theorem find_record (k : Function × Pointer) (r : Resolution) (table : List Resolution) :
    find Resolution.key k (record r table) =
      if r.key = k then some r else find Resolution.key k table := by
  have hrenew : ∀ known : Resolution, known.key = r.key → r.renew known = r := by
    intro known hknown
    obtain ⟨hfunction, hdevice⟩ := Prod.mk.inj hknown
    rw [Resolution.renew, hfunction, hdevice]
  rw [record, find_put Resolution.key k r r.key_renew hrenew]
  by_cases hk : k = r.key
  · rw [if_pos hk, if_pos hk.symm]
  · rw [if_neg hk, if_neg (Ne.symm hk)]

/-- The table never holds two resolutions of a function for a device. -/
theorem nodup_tableOf (resolutions : List Resolution) :
    ((tableOf resolutions).map Resolution.key).Nodup := by
  suffices h : ∀ table : List Resolution, (table.map Resolution.key).Nodup →
      ((resolutions.foldl (fun table r => record r table) table).map Resolution.key).Nodup from
    h [] List.nodup_nil
  induction resolutions with
  | nil => exact fun table h => h
  | cons r resolutions ih =>
    intro table h
    rw [List.foldl_cons]
    exact ih _ (nodup_map_put r.key_renew h)

/-- What is found under a function and a device is what was last recorded for them. -/
theorem find_tableOf (k : Function × Pointer) (resolutions : List Resolution) :
    find Resolution.key k (tableOf resolutions) =
      (resolutions.filter fun r => r.key = k).getLast? := by
  have hlast := foldl_last_write_empty (fun table r => record r table)
    (fun table => find Resolution.key k table) (fun r => r.key = k) id
    (fun table r => find_record k r table) resolutions (s := []) rfl
  rw [Option.map_id] at hlast
  exact hlast

/-- A wrapper calls through what is found for its device, and through what serves
every device when nothing is. -/
theorem original_eq {table : List Resolution} (hnodup : (table.map Resolution.key).Nodup)
    (hpresent : ∀ k r, find Resolution.key k table = some r → r.original ≠ 0)
    (function : Function) (device : Pointer) :
    original table function device =
      match find Resolution.key (function, device) table with
      | some r => r.original
      | none => ((find Resolution.key (function, 0) table).map Resolution.original).getD 0 := by
  let step := fun (found : Pointer × Pointer) (r : Resolution) =>
    if r.function ≠ function then found
    else if r.device = device then (r.original, found.2)
    else if r.device = 0 then (found.1, r.original)
    else found
  have hkey : ∀ (r : Resolution) (d : Pointer), r.key = (function, d) ↔ r.function = function ∧ r.device = d :=
    fun r d => Prod.mk_inj
  have hdevice : some (table.foldl step (0, 0)).1 =
      ((find Resolution.key (function, device) table).map Resolution.original).or (some 0) := by
    rw [← getLast?_filter _ hnodup]
    refine foldl_last_write step (fun found => some found.1)
      (fun r => r.key = (function, device)) Resolution.original (fun found r => ?_) table (0, 0)
    simp only [step, hkey]
    split_ifs <;> simp_all
  -- a null device is found by the first comparison and never reaches the second
  have hany : some (table.foldl step (0, 0)).2 =
      (if device = 0 then none
        else (find Resolution.key (function, 0) table).map Resolution.original).or (some 0) := by
    by_cases hnull : device = 0
    · rw [if_pos hnull]
      have hnone := foldl_last_write step (fun found => some found.2) (fun _ => False)
        Resolution.original (fun found r => ?_) table (0, 0)
      · rw [hnone]
        simp
      · simp only [step, hnull]
        split_ifs <;> simp_all
    · rw [if_neg hnull, ← getLast?_filter _ hnodup]
      refine foldl_last_write step (fun found => some found.2)
        (fun r => r.key = (function, 0)) Resolution.original (fun found r => ?_) table (0, 0)
      simp only [step, hkey]
      split_ifs <;> simp_all
  have hfold : original table function device =
      if (table.foldl step (0, 0)).1 ≠ 0 then (table.foldl step (0, 0)).1
      else (table.foldl step (0, 0)).2 := rfl
  rw [hfold]
  cases hfind : find Resolution.key (function, device) table with
  | some r =>
    rw [hfind] at hdevice
    have hfirst : (table.foldl step (0, 0)).1 = r.original := Option.some.inj hdevice
    rw [hfirst, if_pos (hpresent _ _ hfind)]
  | none =>
    rw [hfind] at hdevice
    have hfirst : (table.foldl step (0, 0)).1 = 0 := Option.some.inj hdevice
    rw [hfirst, if_neg (by simp)]
    by_cases hnull : device = 0
    · rw [if_pos hnull] at hany
      have hserves : find Resolution.key (function, 0) table = none := by
        rw [← hnull]
        exact hfind
      rw [hserves]
      exact Option.some.inj hany
    · rw [if_neg hnull] at hany
      cases hserves : find Resolution.key (function, 0) table with
      | none =>
        rw [hserves] at hany
        exact Option.some.inj hany
      | some r =>
        rw [hserves] at hany
        exact Option.some.inj hany

/-! ### Runs -/

/-- What a resolution is recorded for: the device it was made through, and none when
it was made through an instance. -/
def Resolver.deviceOf (resolver : Resolver) (handle : Pointer) : Pointer :=
  match resolver with
  | .device => handle
  | .inst => 0

/-- What a call that hands a wrapper out records: a function that is there, for its
device. -/
structure CallOk (c : Call) : Prop where
  present : c.resolution.original ≠ 0
  device : c.resolution.device = c.resolver.deviceOf c.handle

/-- A resolver hands a wrapper out only with a function behind it. -/
theorem answer_wrapped {resolver : Resolver} {original : GetProcAddr}
    {wrapperFor : Option (Function → Pointer)} {handle : Pointer} {name : Option Bytes}
    {resolution : Resolution} {wrapper : Pointer}
    (h : resolver.answer original wrapperFor handle name = .wrapped resolution wrapper) :
    CallOk ⟨resolver, handle, resolution⟩ := by
  have hintercept : ∀ resolved device, intercept wrapperFor name resolved device =
      .wrapped resolution wrapper → resolution.original ≠ 0 ∧ resolution.device = device := by
    intro resolved device hwrapped
    unfold intercept at hwrapped
    split at hwrapped
    · split at hwrapped
      · cases hwrapped
      · rename_i hresolved
        split at hwrapped
        · cases hwrapped
        · dsimp only at hwrapped
          split at hwrapped
          · cases hwrapped
          · cases hwrapped
            exact ⟨hresolved, rfl⟩
    · cases hwrapped
  cases original with
  | none => cases resolver <;> cases h
  | some original =>
    cases resolver with
    | device =>
      obtain ⟨hpresent, hdevice⟩ := hintercept _ _ h
      exact ⟨hpresent, hdevice⟩
    | inst =>
      obtain ⟨hpresent, hdevice⟩ := hintercept _ _ h
      exact ⟨hpresent, hdevice⟩

/-- What a thread has done where it is. -/
def PhaseOk (recorded : List Call) : Phase → Prop
  | .idle => True
  | .recording call _ => CallOk call
  | .handingOut call _ => call ∈ recorded

/-- What holds in every state: the table is what was recorded, and a wrapper is
handed out after its function was. -/
structure StateOk (s : State) : Prop where
  table : s.table = tableOf (s.recorded.map Call.resolution)
  recorded : ∀ c ∈ s.recorded, CallOk c
  phase : ∀ i, PhaseOk s.recorded (s.phase i)
  handedOut : ∀ h ∈ s.handedOut, h.call ∈ s.recorded

/-- A thread moves on while the others stay where they are. -/
theorem phaseOk_update {phase : ℕ → Phase} {recorded recorded' : List Call}
    (h : ∀ i, PhaseOk recorded (phase i)) (hgrows : recorded ⊆ recorded') {i : ℕ} {next : Phase}
    (hnext : PhaseOk recorded' next) (j : ℕ) : PhaseOk recorded' (Function.update phase i next j) := by
  rw [Function.update_apply]
  split
  · exact hnext
  · have hj := h j
    cases hphase : phase j with
    | idle => trivial
    | recording call wrapper =>
      rw [hphase] at hj
      exact hj
    | handingOut call wrapper =>
      rw [hphase] at hj
      exact hgrows hj

/-- Every step keeps what holds. -/
theorem step_ok {s t : State} {action : Action} (hs : StateOk s)
    (h : machine.step s action = some t) : StateOk t := by
  cases action with
  | resolve i resolver handle name original wrapperFor =>
    unfold machine at h
    dsimp only at h
    split at h
    · split at h
      · cases h
        exact hs
      · rename_i hanswer
        cases h
        exact ⟨hs.table, hs.recorded,
          phaseOk_update hs.phase (List.Subset.refl _) (answer_wrapped hanswer), hs.handedOut⟩
    · cases h
  | record i =>
    unfold machine at h
    dsimp only at h
    split at h
    · rename_i call wrapper hphase
      have hcall : CallOk call := by
        have hi := hs.phase i
        rwa [hphase] at hi
      cases h
      refine ⟨?_, ?_, ?_, fun h hh => List.mem_append_left _ (hs.handedOut h hh)⟩
      · change record call.resolution s.table = tableOf ((s.recorded ++ [call]).map Call.resolution)
        rw [hs.table, tableOf, tableOf, List.map_append, List.foldl_append]
        rfl
      · intro c hc
        rcases List.mem_append.mp hc with hc | hc
        · exact hs.recorded c hc
        · rw [List.mem_singleton.mp hc]
          exact hcall
      · exact phaseOk_update hs.phase (List.subset_append_left _ _)
          (List.mem_append_right _ List.mem_cons_self)
    · cases h
  | handOut i =>
    unfold machine at h
    dsimp only at h
    split at h
    · rename_i call wrapper hphase
      have hcall : call ∈ s.recorded := by
        have hi := hs.phase i
        rwa [hphase] at hi
      cases h
      refine ⟨hs.table, hs.recorded, phaseOk_update hs.phase (List.Subset.refl _) trivial, ?_⟩
      intro h hh
      rcases List.mem_cons.mp hh with rfl | hh
      · exact hcall
      · exact hs.handedOut h hh
    · cases h

/-- What holds in every state any interleaving reaches. -/
theorem ok_of_reachable {s : State} (hreach : machine.Reachable s) : StateOk s := by
  refine System.ReachableUnder.invariant StateOk ?_ (fun _ _ _ hs _ h => step_ok hs h) hreach
  rintro _ rfl
  exact ⟨rfl, fun c hc => absurd hc List.not_mem_nil, fun _ => trivial,
    fun h hh => absurd hh List.not_mem_nil⟩

/-! ### What a wrapper finds -/

/-- The last resolution of a function recorded through the device resolver for a device. -/
def throughDevice (recorded : List Call) (function : Function) (device : Pointer) : Option Call :=
  (recorded.filter fun c =>
    c.resolver = .device ∧ c.handle = device ∧ c.resolution.function = function).getLast?

/-- The last resolution of a function recorded through the instance resolver, or through
the device resolver for no device. -/
def throughInstance (recorded : List Call) (function : Function) : Option Call :=
  (recorded.filter fun c =>
    (c.resolver = .inst ∨ c.handle = 0) ∧ c.resolution.function = function).getLast?

/-- The function most recently resolved for a device, or else for every device. -/
def mostRecent (recorded : List Call) (function : Function) (device : Pointer) : Pointer :=
  match throughDevice recorded function device with
  | some c => c.resolution.original
  | none =>
    match throughInstance recorded function with
    | some c => c.resolution.original
    | none => 0

/-- Whether a wrapper was obtained for a device: through the instance resolver it is for
every device. -/
def HandedOut.serves (h : HandedOut) (device : Pointer) : Prop :=
  h.call.resolver = .inst ∨ h.call.handle = 0 ∨ h.call.handle = device

/-- The last resolution under a key is the last call that recorded one. -/
theorem getLast?_resolutions {recorded : List Call} {k : Function × Pointer} {hit : Call → Prop}
    [DecidablePred hit] (hhit : ∀ c ∈ recorded, c.resolution.key = k ↔ hit c) :
    ((recorded.map Call.resolution).filter fun r => r.key = k).getLast? =
      ((recorded.filter fun c => hit c).getLast?).map Call.resolution := by
  rw [List.filter_map, List.getLast?_map]
  congr 2
  refine List.filter_congr fun c hc => ?_
  exact decide_eq_decide.mpr (hhit c hc)

theorem CallOk.key_device {c : Call} (h : CallOk c) (function : Function) {device : Pointer}
    (hdevice : device ≠ 0) : c.resolution.key = (function, device) ↔
      c.resolver = .device ∧ c.handle = device ∧ c.resolution.function = function := by
  rw [Resolution.key, Prod.mk_inj, h.device]
  cases c.resolver with
  | device => simp [Resolver.deviceOf, and_comm]
  | inst => simp [Resolver.deviceOf, hdevice.symm]

theorem CallOk.key_any {c : Call} (h : CallOk c) (function : Function) :
    c.resolution.key = (function, 0) ↔
      (c.resolver = .inst ∨ c.handle = 0) ∧ c.resolution.function = function := by
  rw [Resolution.key, Prod.mk_inj, h.device]
  cases c.resolver with
  | device => simp [Resolver.deviceOf, and_comm]
  | inst => simp [Resolver.deviceOf]

/-- What is recorded is a function that is there. -/
theorem StateOk.present {s : State} (hs : StateOk s) (k : Function × Pointer) (r : Resolution)
    (h : find Resolution.key k s.table = some r) : r.original ≠ 0 := by
  rw [hs.table, find_tableOf] at h
  obtain ⟨c, hc, rfl⟩ := List.mem_map.mp (List.mem_of_mem_filter (List.mem_of_getLast? h))
  exact (hs.recorded c hc).present

theorem StateOk.nodup {s : State} (hs : StateOk s) : (s.table.map Resolution.key).Nodup := by
  rw [hs.table]
  exact nodup_tableOf _

/-- A wrapper calls through what was most recently recorded for its device. -/
theorem StateOk.original_eq_mostRecent {s : State} (hs : StateOk s) (function : Function)
    {device : Pointer} (hdevice : device ≠ 0) :
    original s.table function device = mostRecent s.recorded function device := by
  rw [original_eq hs.nodup hs.present, hs.table, find_tableOf, find_tableOf,
    getLast?_resolutions fun c hc => (hs.recorded c hc).key_device function hdevice,
    getLast?_resolutions fun c hc => (hs.recorded c hc).key_any function]
  unfold mostRecent throughDevice throughInstance
  generalize (s.recorded.filter fun c => decide (c.resolver = .device ∧ c.handle = device ∧
    c.resolution.function = function)).getLast? = forDevice
  generalize (s.recorded.filter fun c => decide ((c.resolver = .inst ∨ c.handle = 0) ∧
    c.resolution.function = function)).getLast? = forAny
  cases forDevice with
  | some c => rfl
  | none =>
    cases forAny with
    | some c => rfl
    | none => rfl

/-- What was recorded stays found. -/
theorem StateOk.found {s : State} (hs : StateOk s) {c : Call} (hc : c ∈ s.recorded) :
    ∃ r, find Resolution.key c.resolution.key s.table = some r := by
  rw [← Option.isSome_iff_exists, Option.isSome_iff_ne_none, hs.table, find_tableOf]
  intro hnone
  have hmem : c.resolution ∈ (s.recorded.map Call.resolution).filter fun r => r.key = c.resolution.key :=
    List.mem_filter.mpr ⟨List.mem_map_of_mem hc, decide_eq_true rfl⟩
  rw [List.getLast?_eq_none_iff.mp hnone] at hmem
  exact absurd hmem List.not_mem_nil

/-- A wrapper has a function behind it for every device it was obtained for. -/
theorem StateOk.original_ne_zero {s : State} (hs : StateOk s) {h : HandedOut} (hh : h ∈ s.handedOut)
    {device : Pointer} (hserves : h.serves device) :
    original s.table h.call.resolution.function device ≠ 0 := by
  have hrecorded := hs.handedOut h hh
  obtain ⟨r, hfound⟩ := hs.found hrecorded
  rw [original_eq hs.nodup hs.present]
  cases hdevice : find Resolution.key (h.call.resolution.function, device) s.table with
  | some found => exact hs.present _ _ hdevice
  | none =>
    have hany : h.call.resolution.device = 0 := by
      by_contra hnot
      have hkey := (hs.recorded _ hrecorded).device
      rcases hserves with hinstance | hnull | hsame
      · rw [hinstance] at hkey
        exact hnot hkey
      · cases hresolver : h.call.resolver with
        | device =>
          rw [hresolver] at hkey
          exact hnot (hkey.trans hnull)
        | inst =>
          rw [hresolver] at hkey
          exact hnot hkey
      · cases hresolver : h.call.resolver with
        | device =>
          rw [hresolver] at hkey
          have hkeys : h.call.resolution.key = (h.call.resolution.function, device) :=
            Prod.mk_inj.mpr ⟨rfl, hkey.trans hsame⟩
          rw [hkeys, hdevice] at hfound
          cases hfound
        | inst =>
          rw [hresolver] at hkey
          exact hnot hkey
    have hkeys : h.call.resolution.key = (h.call.resolution.function, 0) :=
      Prod.mk_inj.mpr ⟨rfl, hany⟩
    rw [hkeys] at hfound
    rw [hfound]
    exact hs.present _ _ hfound

/-- In every state the threads reach: the table holds one resolution for a function and
a device; a wrapper calls through the function most recently recorded for its device,
or else for every device; and a wrapper that was handed out finds one for each device
it was obtained for. -/
theorem original_found {s : State} (hreach : machine.Reachable s) :
    (s.table.map Resolution.key).Nodup ∧
      (∀ function device, device ≠ 0 →
        original s.table function device = mostRecent s.recorded function device) ∧
      ∀ h ∈ s.handedOut, ∀ device, h.serves device →
        original s.table h.call.resolution.function device ≠ 0 := by
  have hs := ok_of_reachable hreach
  exact ⟨hs.nodup, fun function device hdevice => hs.original_eq_mostRecent function hdevice,
    fun h hh device hserves => hs.original_ne_zero hh hserves⟩

/-- The name of the function that creates a module. -/
def createCuModuleName : Bytes := ascii "vkCreateCuModuleNVX"

/-- A resolution through a device and one through an instance, recorded the other way
round. -/
def crossedRun : List Action :=
  [.resolve 1 .device 5 (some createCuModuleName) (some fun _ _ => 70) (some fun _ => 90),
    .resolve 2 .inst 6 (some createCuModuleName) (some fun _ _ => 80) (some fun _ => 90),
    .record 2, .record 1, .handOut 1, .handOut 2]

/-- A resolution through the device resolver for a null device. -/
def nullDeviceRun : List Action :=
  [.resolve 1 .device 0 (some createCuModuleName) (some fun _ _ => 70) (some fun _ => 90),
    .record 1, .handOut 1]

/-- The state after a list of actions. -/
def after (actions : List Action) : State := (machine.runUnder (fun _ _ => True) {} actions).getD {}

/-- It is one that the threads reach. -/
theorem after_reachable {actions : List Action}
    (h : (machine.runUnder (fun _ _ => True) {} actions).isSome = true) :
    machine.Reachable (after actions) :=
  System.reachable_getD_runUnder (.start rfl) h

/-- The device has its own function, another device the instance's. -/
theorem original_found_crossed :
    (original (after crossedRun).table .createCuModule 5 = 70 ∧
      original (after crossedRun).table .createCuModule 4 = 80) ∧
    ((after crossedRun).table.map Resolution.key).Nodup ∧
      (∀ function device, device ≠ 0 → original (after crossedRun).table function device =
        mostRecent (after crossedRun).recorded function device) ∧
      ∀ h ∈ (after crossedRun).handedOut, ∀ device, h.serves device →
        original (after crossedRun).table h.call.resolution.function device ≠ 0 :=
  ⟨by decide +kernel, original_found (after_reachable (by decide +kernel))⟩

/-- What was resolved through the device resolver for a null device is found for a
device nothing was resolved for, without a resolution through an instance. -/
theorem nullDevice_found :
    machine.Reachable (after nullDeviceRun) ∧
      (∀ c ∈ (after nullDeviceRun).recorded, c.resolver = .device ∧ c.handle ≠ 5) ∧
      original (after nullDeviceRun).table .createCuModule 5 = 70 :=
  ⟨after_reachable (by decide +kernel), by decide +kernel, by decide +kernel⟩

end OpenDlssg.VulkanResolutions
