import Mathlib.Data.List.DropRight
import OpenDlssg.ByteCodec

/-!
# Wide-character paths and the component a module is

A path is compared by its last segment and without regard to the case of its
letters. A copy in the NGX model store carries a name that says nothing, so it
is known by the name its component ships under.
-/

namespace OpenDlssg.WidePaths

/-- A wide string; a view of one is the string it shows. -/
abbrev WString := List UInt16

/-- The characters of a text constant; every constant modelled is ASCII. -/
def wide (text : String) : WString := text.toList.map fun c => UInt16.ofNat c.toNat

/-- The characters up to the first NUL, all a function of the C library sees. -/
def cString (text : WString) : WString := text.takeWhile (· != 0)

/-- A letter without its case. The C library folds no others in its own locale. -/
def fold (c : UInt16) : UInt16 := if 65 ≤ c ∧ c ≤ 90 then c + 32 else c

/-- Whether `_wcsicmp` finds two strings equal. -/
def wcsicmp (first second : WString) : Bool := (cString first).map fold == (cString second).map fold

/-- Whether `_wcsnicmp` finds the first `count` characters of two strings equal. -/
def wcsnicmp (first second : WString) (count : ℕ) : Bool :=
  wcsicmp (first.take count) (second.take count)

/-- The backslash. -/
def kBackslash : UInt16 := 92

/-- Whether a character ends a segment of a path. -/
def isSeparator (c : UInt16) : Bool := c == kBackslash || c == 47

/-- The last segment of a path: the file name, or the whole path when it has no
directory. -/
def leaf (path : WString) : WString := path.rtakeWhile fun c => !isSeparator c

/-- Whether a path's file name is a name, whatever the case of their letters. -/
def fileNameEqualsInsensitive (path name : WString) : Bool := wcsicmp (leaf path) name

/-- Where a string stands in another, whatever the case of their letters. -/
def findInsensitive (haystack needle : WString) : Option ℕ :=
  if needle = [] ∨ haystack.length < needle.length then none
  else (List.range (haystack.length - needle.length + 1)).find? fun i =>
    wcsnicmp (haystack.drop i) needle needle.length

/-- A directory of the NGX model store and the module it replaces. -/
structure OtaComponent where
  directory : WString
  module : WString

/-- The component directories this engine acts on. -/
def kOtaComponents : List OtaComponent :=
  [⟨wide "sl_common_0", wide "sl.common.dll"⟩, ⟨wide "sl_common_override_0", wide "sl.common.dll"⟩,
    ⟨wide "sl_dlss_g_0", wide "sl.dlss_g.dll"⟩, ⟨wide "sl_dlss_g_override_0", wide "sl.dlss_g.dll"⟩,
    ⟨wide "dlssg", wide "nvngx_dlssg.dll"⟩]

/-- The segments every path in the model store has. -/
def kOtaMarker : WString := wide "\\NGX\\models\\"

/-- The segment that names the component, when a path is in the model store;
empty otherwise. -/
def otaComponentDirectory (path : WString) : WString :=
  match findInsensitive path kOtaMarker with
  | none => []
  | some marker =>
    let rest := path.drop (marker + kOtaMarker.length)
    if rest.contains kBackslash then rest.takeWhile (· != kBackslash) else []

/-- The component a path in the model store belongs to. -/
def otaComponent (path : WString) : Option OtaComponent :=
  let directory := otaComponentDirectory path
  kOtaComponents.find? fun component =>
    directory.length == component.directory.length &&
      wcsnicmp directory component.directory directory.length

/-- The file name that says which component a module is. -/
def componentFileName (path : WString) : WString :=
  match otaComponent path with
  | some component => component.module
  | none => leaf path

/-- The value of a folded character. -/
theorem toNat_fold (c : UInt16) :
    (fold c).toNat = if 65 ≤ c.toNat ∧ c.toNat ≤ 90 then c.toNat + 32 else c.toNat := by
  have hletter : 65 ≤ c ∧ c ≤ 90 ↔ 65 ≤ c.toNat ∧ c.toNat ≤ 90 :=
    and_congr UInt16.le_iff_toNat_le UInt16.le_iff_toNat_le
  unfold fold
  by_cases h : 65 ≤ c.toNat ∧ c.toNat ≤ 90
  · rw [if_pos (hletter.mpr h), if_pos h, UInt16.toNat_add]
    change (c.toNat + 32) % 65536 = c.toNat + 32
    omega
  · rw [if_neg (fun hc => h (hletter.mp hc)), if_neg h]

/-- The separators by their values. -/
theorem isSeparator_iff {c : UInt16} : isSeparator c = true ↔ c.toNat = 92 ∨ c.toNat = 47 := by
  unfold isSeparator kBackslash
  rw [Bool.or_eq_true, beq_iff_eq, beq_iff_eq, ← UInt16.toNat_inj, ← UInt16.toNat_inj]
  rfl

/-- Folding keeps a character a separator or not. -/
theorem isSeparator_fold (c : UInt16) : isSeparator (fold c) = isSeparator c := by
  rw [Bool.eq_iff_iff, isSeparator_iff, isSeparator_iff, toNat_fold]
  split <;> omega

/-- The NUL alone is folded to it. -/
theorem fold_eq_zero {c : UInt16} : fold c = 0 ↔ c = 0 := by
  rw [← UInt16.toNat_inj, ← UInt16.toNat_inj, toNat_fold]
  change (if 65 ≤ c.toNat ∧ c.toNat ≤ 90 then c.toNat + 32 else c.toNat) = 0 ↔ c.toNat = 0
  split <;> omega

/-- Strings are equal without case where what is seen of them folds alike. -/
theorem wcsicmp_iff {first second : WString} : wcsicmp first second = true ↔
    (cString first).map fold = (cString second).map fold := beq_iff_eq

/-- A string without a NUL is all a function of the C library sees of it. -/
theorem cString_eq_self {text : WString} (h : 0 ∉ text) : cString text = text :=
  List.takeWhile_eq_self_iff.mpr fun _ hc => bne_iff_ne.mpr (ne_of_mem_of_not_mem hc h)

/-- What is seen of a string holds no NUL. -/
theorem zero_notMem_cString (text : WString) : 0 ∉ cString text := fun h =>
  bne_iff_ne.mp (List.mem_takeWhile_imp (p := fun c : UInt16 => c != 0) h) rfl

/-- A directory's path in front of a string without a NUL is seen whole. -/
theorem cString_append {directory : WString} (hdirectory : 0 ∉ directory) (path : WString) :
    cString (directory ++ kBackslash :: path) = directory ++ kBackslash :: cString path := by
  unfold cString
  rw [List.takeWhile_append_of_pos fun _ hc => bne_iff_ne.mpr (ne_of_mem_of_not_mem hc hdirectory),
    List.takeWhile_cons_of_pos (by decide)]

/-- Characters that fold alike hold a NUL alike. -/
theorem zero_notMem_of_fold {first second : WString} (h : first.map fold = second.map fold)
    (hsecond : 0 ∉ second) : 0 ∉ first := fun hmem => by
  obtain ⟨c, hc, hfold⟩ := List.mem_map.mp (h ▸ List.mem_map_of_mem hmem)
  have hzero : c = 0 := fold_eq_zero.mp (hfold.trans (fold_eq_zero.mpr rfl))
  exact hsecond (hzero ▸ hc)

/-- A text begins with a constant exactly where their characters fold alike. -/
theorem wcsnicmp_iff {text needle : WString} (hneedle : 0 ∉ needle) :
    wcsnicmp text needle needle.length = true ↔
      (text.take needle.length).map fold = needle.map fold := by
  unfold wcsnicmp
  rw [wcsicmp_iff, List.take_length, cString_eq_self hneedle]
  constructor
  · intro h
    have hprefix : cString (text.take needle.length) <+: text.take needle.length :=
      List.takeWhile_prefix _
    have hlength : (cString (text.take needle.length)).length = needle.length := by
      have hmaps := congrArg List.length h
      rwa [List.length_map, List.length_map] at hmaps
    have hwhole : cString (text.take needle.length) = text.take needle.length :=
      hprefix.eq_of_length_le (by rw [hlength]; exact List.length_take_le _ _)
    rwa [hwhole] at h
  · intro h
    rw [cString_eq_self (zero_notMem_of_fold h hneedle), h]

/-- Equal names are equal to the same names. -/
theorem wcsicmp_congr {first second third : WString} (h : wcsicmp first second = true) :
    wcsicmp first third = wcsicmp second third := by
  unfold wcsicmp
  rw [wcsicmp_iff.mp h]

/-- A file name holds no separator. -/
theorem not_isSeparator_of_mem_leaf {path : WString} {c : UInt16} (h : c ∈ leaf path) :
    isSeparator c = false := by
  have hname := List.mem_rtakeWhile_imp h
  rwa [Bool.not_eq_true'] at hname

/-- A path without a separator is its own file name. -/
theorem leaf_eq_self {path : WString} (h : ∀ c ∈ path, isSeparator c = false) : leaf path = path :=
  List.rtakeWhile_eq_self_iff.mpr fun c hc => by rw [h c hc]; rfl

/-- A path with a separator is longer than its file name. -/
theorem length_leaf_lt {path : WString} {c : UInt16} (hmem : c ∈ path) (hc : isSeparator c = true) :
    (leaf path).length < path.length := by
  have hle : (leaf path).length ≤ path.length := (List.rtakeWhile_suffix _ _).length_le
  refine lt_of_le_of_ne hle fun hlen => ?_
  have hsame : leaf path = path := (List.rtakeWhile_suffix _ _).eq_of_length hlen
  have hnot := not_isSeparator_of_mem_leaf (hsame ▸ hmem)
  rw [hc] at hnot
  cases hnot

/-- A run of characters ends before one that is not of its class. -/
theorem takeWhile_append_cons {p : UInt16 → Bool} {c : UInt16} (hc : p c = false)
    (text rest : WString) : (text ++ c :: rest).takeWhile p = text.takeWhile p := by
  induction text with
  | nil => rw [List.nil_append, List.takeWhile_cons_of_neg (by rw [hc]; decide), List.takeWhile_nil]
  | cons b text ih => rw [List.cons_append, List.takeWhile_cons, List.takeWhile_cons, ih]

/-- What stands before a separator does not change the file name. -/
theorem leaf_append (directory : WString) {c : UInt16} (hc : isSeparator c = true) (path : WString) :
    leaf (directory ++ c :: path) = leaf path := by
  unfold leaf List.rtakeWhile
  rw [List.reverse_append, List.reverse_cons, List.append_assoc, List.singleton_append,
    takeWhile_append_cons (by rw [hc]; rfl)]

/-- A component found is one of the listed ones. -/
theorem mem_of_otaComponent {path : WString} {component : OtaComponent}
    (h : otaComponent path = some component) : component ∈ kOtaComponents := by
  unfold otaComponent at h
  exact List.mem_of_find?_eq_some h

/-- A component's own file name is the name it is known by. -/
theorem leaf_componentFileName (path : WString) :
    leaf (componentFileName path) = componentFileName path := by
  refine leaf_eq_self fun c hc => ?_
  unfold componentFileName at hc
  split at hc
  · rename_i component hcomponent
    have hnames : (kOtaComponents.all fun component => component.module.all fun c => !isSeparator c) =
        true := by decide
    have hname := List.all_eq_true.mp (List.all_eq_true.mp hnames component
      (mem_of_otaComponent hcomponent)) c hc
    rwa [Bool.not_eq_true'] at hname
  · exact not_isSeparator_of_mem_leaf hc

end OpenDlssg.WidePaths
