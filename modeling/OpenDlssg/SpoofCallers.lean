import OpenDlssg.WidePaths

/-!
# Who is told the GPU is Ada

The callers told Ada are a list of component names, and an empty list tells
everyone. A redirected runtime joins the list under the file it was configured
as. It is compared by the file name of the module it became, so a runtime
configured with a directory is not found in the list; and joining an empty
list, it takes Ada from everyone else.
-/

namespace OpenDlssg.SpoofCallers

open WidePaths

/-- The lowest level of event that is written to the log. -/
inductive LogLevel where
  | off | error | warning | info | trace
  deriving DecidableEq

/-- Everything the INI can set, with its defaults. -/
structure Settings where
  enabled : Bool := true
  spoofArchToGame : Bool := true
  /-- Modules told the GPU is Ada. -/
  spoofCallers : List WString := [wide "sl.common.dll", wide "_nvngx.dll", wide "nvngx_dlssg.dll"]
  patchFlipMetering : Bool := true
  /-- Negative derives the value from the plugin's own code. -/
  flipMeteringValue : ℤ := -1
  patchFrameClamp : Bool := false
  stubScgPriority : Bool := true
  /-- 0 follows the game's requested multiplier. -/
  forceMultiplier : ℤ := 0
  multiFrame : Bool := true
  retargetKernels : Bool := true
  /-- 0 asks the CUDA driver which architecture this is. -/
  targetSm : ℤ := 0
  vulkanHooks : Bool := true
  /-- Load a different runtime in place of the game's. -/
  redirectRuntime : Bool := false
  runtimeFile : WString := wide "opendlssg_nvngx_dlssg.dll"
  streamlineDiagnostics : Bool := false
  dumpKernels : Bool := false
  logLevel : LogLevel := .warning
  logDirectory : WString := wide "opendlssg\\logs"

/-- A path, taken relative to a directory unless it is absolute. -/
def resolveRelative (base path : WString) : WString :=
  if 2 ≤ path.length ∧ (path[1]? = some 58 ∨
      path[0]? = some kBackslash ∧ path[1]? = some kBackslash) then path
  else
    let resolved := if base ≠ [] ∧ base.getLast? ≠ some kBackslash then base ++ [kBackslash] else base
    resolved ++ path

/-- The callers told Ada. A redirected runtime creates no kernels unless it is
told Ada too, so its name joins the one it stands in for. -/
def spoofCallers (settings : Settings) : List WString :=
  if settings.redirectRuntime then settings.spoofCallers ++ [settings.runtimeFile]
  else settings.spoofCallers

/-- The file a runtime is redirected to, absent when there is none: the
parameter is whether the system finds a file at a path. -/
def configureRuntimeRedirect (fileExists : WString → Bool) (settings : Settings) (selfDir : WString) :
    Option WString :=
  let path := resolveRelative selfDir settings.runtimeFile
  if fileExists (cString path) then some (cString path) else none

/-- Whether a caller is told Ada, given the path of the module it calls from;
absent when its return address lies in no module. -/
def callerIsSpoofed (callers : List WString) (caller : Option WString) : Bool :=
  if callers.isEmpty then true
  else
    match caller with
    | none => false
    | some path => callers.any fun candidate =>
        fileNameEqualsInsensitive (componentFileName path) candidate

/-- A list that is not empty tells the callers it names. -/
theorem callerIsSpoofed_iff {callers : List WString} (hcallers : callers ≠ []) (caller : Option WString) :
    callerIsSpoofed callers caller = true ↔ ∃ path, caller = some path ∧
      ∃ candidate ∈ callers, wcsicmp (componentFileName path) candidate = true := by
  unfold callerIsSpoofed
  rw [if_neg (by rwa [List.isEmpty_iff])]
  cases caller with
  | none => simp
  | some path =>
    simp only [List.any_eq_true, fileNameEqualsInsensitive, leaf_componentFileName, Option.some.injEq,
      exists_eq_left']

/-- The callers told with a redirect on are those listed and the runtime's. -/
theorem redirected_iff (settings : Settings) (caller : Option WString) :
    callerIsSpoofed (spoofCallers { settings with redirectRuntime := true }) caller = true ↔
      ∃ path, caller = some path ∧
        ((∃ candidate ∈ settings.spoofCallers, wcsicmp (componentFileName path) candidate = true) ∨
          wcsicmp (componentFileName path) settings.runtimeFile = true) := by
  have hlist : spoofCallers { settings with redirectRuntime := true } =
      settings.spoofCallers ++ [settings.runtimeFile] := rfl
  rw [hlist, callerIsSpoofed_iff (List.append_ne_nil_of_right_ne_nil _ (List.cons_ne_nil _ _))]
  refine exists_congr fun path => and_congr_right fun _ => ?_
  simp only [List.mem_append, List.mem_singleton, or_and_right, exists_or, exists_eq_left]

/-- Turning the redirect on keeps every caller told Ada exactly where the list
was not empty, or the caller is the redirected runtime itself. -/
theorem redirect_keeps_iff (settings : Settings) (caller : Option WString) :
    (callerIsSpoofed (spoofCallers { settings with redirectRuntime := false }) caller = true →
        callerIsSpoofed (spoofCallers { settings with redirectRuntime := true }) caller = true) ↔
      settings.spoofCallers ≠ [] ∨ ∃ path, caller = some path ∧
        fileNameEqualsInsensitive (componentFileName path) settings.runtimeFile = true := by
  have hoff : spoofCallers { settings with redirectRuntime := false } = settings.spoofCallers := rfl
  rw [hoff, redirected_iff]
  by_cases hempty : settings.spoofCallers = []
  · have heveryone : callerIsSpoofed [] caller = true := rfl
    simp only [hempty, heveryone, List.not_mem_nil, false_and, exists_false, false_or, ne_eq,
      not_true_eq_false, forall_const, fileNameEqualsInsensitive, leaf_componentFileName]
  · refine iff_of_true (fun htold => ?_) (Or.inl hempty)
    obtain ⟨path, hcaller, hlisted⟩ := (callerIsSpoofed_iff hempty caller).mp htold
    exact ⟨path, hcaller, Or.inl hlisted⟩

/-- With everyone told, the redirect takes Ada from the plugin that decides
whether frame generation is offered. -/
theorem redirect_takes_common :
    callerIsSpoofed (spoofCallers { spoofCallers := [], redirectRuntime := false })
        (some (wide "C:\\game\\sl.common.dll")) = true ∧
      callerIsSpoofed (spoofCallers { spoofCallers := [], redirectRuntime := true })
        (some (wide "C:\\game\\sl.common.dll")) = false := by
  decide +kernel

/-- The system reports a module under the name of the file it was loaded from,
whatever the case of its letters. So it does for a name with an extension behind
a separator; it need not for one relative to a drive, without an extension or
with a dot at its end. -/
def LoadedFrom (file modulePath : WString) : Prop := wcsicmp (leaf modulePath) (leaf file) = true

instance (file modulePath : WString) : Decidable (LoadedFrom file modulePath) :=
  inferInstanceAs (Decidable (_ = _))

/-- A resolved path ends with the name it was resolved from. -/
theorem leaf_resolveRelative {base : WString} (hbase : 0 ∉ base) (path : WString) :
    leaf (cString (resolveRelative base path)) = leaf (cString path) := by
  have hbackslash : isSeparator kBackslash = true := by decide
  unfold resolveRelative
  split
  · rfl
  · dsimp only
    split
    · rw [List.append_assoc, List.singleton_append, cString_append hbase, leaf_append _ hbackslash]
    · rename_i hends
      rcases List.eq_nil_or_concat' base with rfl | ⟨directory, last, rfl⟩
      · rfl
      · have hlast : last = kBackslash := by
          by_contra hne
          exact hends ⟨by simp, by simpa using hne⟩
        rw [hlast] at hbase ⊢
        have hdirectory : 0 ∉ directory := fun hc => hbase (List.mem_append_left _ hc)
        rw [List.append_assoc, List.singleton_append, cString_append hdirectory,
          leaf_append _ hbackslash]

/-- A name is the file name of its own path exactly where it has no directory. -/
theorem wcsicmp_leaf_iff (path : WString) : wcsicmp (leaf (cString path)) path = true ↔
    (cString path).any isSeparator = false := by
  have hseen : cString (leaf (cString path)) = leaf (cString path) := cString_eq_self fun hc =>
    zero_notMem_cString path ((List.rtakeWhile_suffix _ _).subset hc)
  rw [wcsicmp_iff, hseen, List.any_eq_false]
  constructor
  · intro hsame c hc hseparator
    have hlt := length_leaf_lt hc hseparator
    have hlen := congrArg List.length hsame
    rw [List.length_map, List.length_map] at hlen
    omega
  · intro hname
    rw [leaf_eq_self fun c hc => Bool.eq_false_iff.mpr (hname c hc)]

/-- No path's file name is a setting with a directory. -/
theorem wcsicmp_leaf_of_directory {setting : WString} (h : (cString setting).any isSeparator = true)
    (path : WString) : wcsicmp (leaf path) setting = false := by
  rw [Bool.eq_false_iff, Ne, wcsicmp_iff]
  intro hsame
  obtain ⟨c, hc, hseparator⟩ := List.any_eq_true.mp h
  have hfolded : fold c ∈ (cString (leaf path)).map fold := by
    rw [hsame]
    exact List.mem_map_of_mem hc
  obtain ⟨d, hd, hdc⟩ := List.mem_map.mp hfolded
  have hname : isSeparator d = false :=
    not_isSeparator_of_mem_leaf ((List.takeWhile_prefix _).subset hd)
  rw [← isSeparator_fold, hdc, isSeparator_fold, hseparator] at hname
  cases hname

/-- A redirected runtime is told Ada exactly where the component it is was
listed, or the file it was configured as is the name of the component it is: for
a copy in the model store the component's, for any other the file name the
system reports. That is no setting with a directory, and where the system
reports the file's own name it is every other. -/
theorem redirected_told_iff {settings : Settings} {fileExists : WString → Bool}
    {selfDir file modulePath : WString} (hredirect : settings.redirectRuntime = true)
    (hselfDir : 0 ∉ selfDir)
    (hfile : configureRuntimeRedirect fileExists settings selfDir = some file) :
    (callerIsSpoofed (spoofCallers settings) (some modulePath) = true ↔
      (∃ candidate ∈ settings.spoofCallers,
          wcsicmp (componentFileName modulePath) candidate = true) ∨
        match otaComponent modulePath with
        | some component => wcsicmp component.module settings.runtimeFile = true
        | none => wcsicmp (leaf modulePath) settings.runtimeFile = true) ∧
      ((cString settings.runtimeFile).any isSeparator = true →
        wcsicmp (leaf modulePath) settings.runtimeFile = false) ∧
      (LoadedFrom file modulePath → (wcsicmp (leaf modulePath) settings.runtimeFile = true ↔
        (cString settings.runtimeFile).any isSeparator = false)) := by
  have hon : settings = { settings with redirectRuntime := true } := by rw [← hredirect]
  have hname : leaf file = leaf (cString settings.runtimeFile) := by
    unfold configureRuntimeRedirect at hfile
    dsimp only at hfile
    split at hfile
    · cases hfile
      exact leaf_resolveRelative hselfDir settings.runtimeFile
    · cases hfile
  refine ⟨?_, fun hdirectory => wcsicmp_leaf_of_directory hdirectory modulePath, fun hloaded => ?_⟩
  · rw [hon, redirected_iff]
    simp only [Option.some.injEq, exists_eq_left']
    refine or_congr_right ?_
    unfold componentFileName
    cases otaComponent modulePath with
    | some component => exact Iff.rfl
    | none => exact Iff.rfl
  · rw [wcsicmp_congr hloaded, hname]
    exact wcsicmp_leaf_iff settings.runtimeFile

/-- The runtime the engine ships is told Ada. -/
theorem redirected_told_bundled :
    callerIsSpoofed (spoofCallers { redirectRuntime := true })
      (some (wide "C:\\Game\\OpenDLSSG_nvngx_dlssg.dll")) = true := by
  have hfile : configureRuntimeRedirect (fun _ => true) { redirectRuntime := true } (wide "C:\\Game") =
      some (wide "C:\\Game\\opendlssg_nvngx_dlssg.dll") := by decide +kernel
  have houtside : otaComponent (wide "C:\\Game\\OpenDLSSG_nvngx_dlssg.dll") = none :=
    Option.isNone_iff_eq_none.mp (by decide +kernel)
  refine (redirected_told_iff rfl (by decide +kernel) hfile).1.mpr (Or.inr ?_)
  rw [houtside]
  exact ((redirected_told_iff rfl (by decide +kernel) hfile).2.2 (by decide +kernel)).mpr
    (by decide +kernel)

/-- A runtime in a directory of its own is not told. -/
theorem nested_runtime_not_told :
    configureRuntimeRedirect (fun _ => true)
        { redirectRuntime := true, runtimeFile := wide "runtimes\\new.dll" } (wide "C:\\game") =
          some (wide "C:\\game\\runtimes\\new.dll") ∧
      callerIsSpoofed
        (spoofCallers { redirectRuntime := true, runtimeFile := wide "runtimes\\new.dll" })
        (some (wide "C:\\game\\runtimes\\new.dll")) = false := by
  decide +kernel

end OpenDlssg.SpoofCallers
