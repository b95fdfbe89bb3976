import OpenDlssg.ByteSearch
import OpenDlssg.RecordTable
import OpenDlssg.WidePaths
import Mathlib.Data.List.Nodup
import Mathlib.Data.List.Sort
import Mathlib.Logic.Function.Basic

/-!
# Standing in for a system DLL

`tools/gen_proxy.py` reads the export table of a system DLL and writes the
proxy: a pointer, a stub and a table row for each named export, and the list of
exports. When Windows loads the proxy, the rows are bound to the system's copy;
a call then jumps through its stub's pointer.
-/

namespace OpenDlssg.ProxyForwarding

open ByteCodec RecordTable WidePaths
open ByteSearch (toDecimal decimalValue_toDecimal)

/-- An address in the process; the null pointer is 0. -/
abbrev Pointer := ℕ

/-- An entry of an export table as it is parsed. -/
structure ExportSymbol where
  ordinal : ℕ
  /-- absent where the DLL exports the function by ordinal only -/
  name : Option Bytes
  deriving DecidableEq

/-- `collect_exports`: the named ones, in the order of their ordinals. -/
def collectExports (symbols : List ExportSymbol) : List (ℕ × Bytes) :=
  (symbols.filterMap fun symbol => symbol.name.map fun name => (symbol.ordinal, name)).insertionSort
    fun first second => first.1 ≤ second.1

/-- A naked function whose body is `jmp *slot(%rip)`. -/
structure Stub where
  name : Bytes
  slot : Bytes
  deriving DecidableEq

/-- `Export`: the name asked of the system's copy and the pointer it fills. -/
structure Export where
  name : Bytes
  slot : Bytes
  deriving DecidableEq

/-- A line of the export list, `entry=internal @ordinal`. -/
structure DefLine where
  entry : Bytes
  internal : Bytes
  ordinal : ℕ
  deriving DecidableEq

/-- What the two generated files declare. -/
structure Proxy where
  dll : WString
  slots : List Bytes
  stubs : List Stub
  table : List Export
  exports : List DefLine
  deriving DecidableEq

/-- `g_{stem}_{ordinal}` -/
def slotName (stem : Bytes) (ordinal : ℕ) : Bytes :=
  ascii "g_" ++ stem ++ ascii "_" ++ toDecimal ordinal

/-- `odg_{stem}_stub_{ordinal}` -/
def stubName (stem : Bytes) (ordinal : ℕ) : Bytes :=
  ascii "odg_" ++ stem ++ ascii "_stub_" ++ toDecimal ordinal

/-- `emit` -/
def emit (stem : Bytes) (realDll : WString) (exports : List (ℕ × Bytes)) : Proxy where
  dll := realDll
  slots := exports.map fun e => slotName stem e.1
  stubs := exports.map fun e => ⟨stubName stem e.1, slotName stem e.1⟩
  table := exports.map fun e => ⟨e.2, slotName stem e.1⟩
  exports := exports.map fun e => ⟨e.2, stubName stem e.1, e.1⟩

/-- What a loaded DLL answers to `GetProcAddress`, null for a name it lacks. -/
abbrev Library := Bytes → Pointer

/-- The Windows functions binding rests on. -/
structure Windows where
  /-- `GetSystemDirectoryW`, nothing where it fails -/
  systemDirectory : Option WString
  /-- `LoadLibraryW` -/
  loadLibrary : WString → Option Library

def maxPath : ℕ := 260

/-- `LoadSystemLibrary` -/
def loadSystemLibrary (windows : Windows) (name : WString) : Option Library :=
  match windows.systemDirectory with
  | none => none
  | some directory =>
    if directory.length = 0 ∨ maxPath ≤ directory.length then none
    else windows.loadLibrary (directory ++ kBackslash :: name)

/-- `BindResult` -/
structure BindResult where
  dll : Option WString
  resolved : ℕ
  total : ℕ
  attempted : Bool
  deriving DecidableEq

/-- The proxy's variables: its pointers by name, and `g_last_bind`. -/
structure State where
  slots : Bytes → Pointer
  lastBind : BindResult

/-- The variables as the proxy is mapped. -/
def State.initial : State := ⟨fun _ => 0, ⟨none, 0, 0, false⟩⟩

/-- The loop of `Bind`: the rows still to be resolved, the pointers, and how
many have been resolved. -/
def bindLoop (library : Library) : List Export → (Bytes → Pointer) → ℕ → (Bytes → Pointer) × ℕ
  | [], slots, resolved => (slots, resolved)
  | e :: rest, slots, resolved =>
    let fn := library e.name
    bindLoop library rest (Function.update slots e.slot fn)
      (if fn ≠ 0 then resolved + 1 else resolved)

/-- `Bind` -/
def bind (windows : Windows) (realDll : WString) (exports : List Export) (state : State) :
    Bool × State :=
  let attempt : BindResult := ⟨some realDll, 0, exports.length, true⟩
  match loadSystemLibrary windows realDll with
  | none => (false, { state with lastBind := attempt })
  | some library =>
    let (slots, resolved) := bindLoop library exports state.slots 0
    (resolved == exports.length, ⟨slots, { attempt with resolved }⟩)

/-- `BindActive`, as the proxy's `DllMain` calls it with the name it was loaded
under. -/
def Proxy.bindActive (proxy : Proxy) (windows : Windows) (loadedFileName : WString)
    (state : State) : Bool × State :=
  if !wcsicmp loadedFileName proxy.dll then (false, state)
  else bind windows proxy.dll proxy.table state

/-- Where a call of an export jumps: to what the pointer of its stub holds. -/
def Proxy.jumps (proxy : Proxy) (state : State) (line : DefLine) : Option Pointer :=
  (find Stub.name line.internal proxy.stubs).map fun stub => state.slots stub.slot

/-- A call by name; nothing where the proxy exports no such name. -/
def Proxy.callByName (proxy : Proxy) (state : State) (name : Bytes) : Option Pointer :=
  (find DefLine.entry name proxy.exports).bind (proxy.jumps state)

/-- A call by ordinal; nothing where the proxy exports no such ordinal. -/
def Proxy.callByOrdinal (proxy : Proxy) (state : State) (ordinal : ℕ) : Option Pointer :=
  (find DefLine.ordinal ordinal proxy.exports).bind (proxy.jumps state)

/-- What the compiler and the linker ask of the names in the two files: every
symbol is defined once and every one used is defined, and no name or ordinal is
exported twice. Whether the names are such as the two can read is not asked. -/
structure Proxy.Builds (proxy : Proxy) : Prop where
  symbols : (proxy.slots ++ proxy.stubs.map Stub.name).Nodup
  stubs : ∀ stub ∈ proxy.stubs, stub.slot ∈ proxy.slots
  table : ∀ e ∈ proxy.table, e.slot ∈ proxy.slots
  internals : ∀ line ∈ proxy.exports, line.internal ∈ proxy.stubs.map Stub.name
  entries : (proxy.exports.map DefLine.entry).Nodup
  ordinals : (proxy.exports.map DefLine.ordinal).Nodup

/-! ### Names of symbols -/

theorem toDecimal_injective : Function.Injective toDecimal := fun first second h => by
  rw [← decimalValue_toDecimal first, h, decimalValue_toDecimal]

theorem slotName_injective (stem : Bytes) : Function.Injective (slotName stem) := fun _ _ h =>
  toDecimal_injective (List.append_cancel_left h)

theorem stubName_injective (stem : Bytes) : Function.Injective (stubName stem) := fun _ _ h =>
  toDecimal_injective (List.append_cancel_left h)

/-- A pointer and a stub never share a name, whatever the stem. -/
theorem slotName_ne_stubName (stem : Bytes) (ordinal other : ℕ) :
    slotName stem ordinal ≠ stubName stem other := by
  intro h
  have hhead := congrArg List.head? h
  simp [slotName, stubName, ascii] at hhead

/-! ### The exports collected -/

theorem mem_collectExports {symbols : List ExportSymbol} {ordinal : ℕ} {name : Bytes} :
    (ordinal, name) ∈ collectExports symbols ↔ ⟨ordinal, some name⟩ ∈ symbols := by
  simp only [collectExports, List.mem_insertionSort, List.mem_filterMap, Option.map_eq_some_iff,
    Prod.mk.injEq]
  constructor
  · rintro ⟨⟨_, _⟩, hsymbol, _, rfl, rfl, rfl⟩
    exact hsymbol
  · exact fun h => ⟨_, h, name, rfl, rfl, rfl⟩

/-- The names in the generated files are as asked exactly when no two of the
exports share an ordinal or a name. -/
theorem builds_emit {stem : Bytes} {realDll : WString} {exports : List (ℕ × Bytes)} :
    (emit stem realDll exports).Builds ↔
      (exports.map Prod.fst).Nodup ∧ (exports.map Prod.snd).Nodup := by
  constructor
  · intro h
    have hordinals := h.ordinals
    have hentries := h.entries
    simp only [emit, List.map_map] at hordinals hentries
    exact ⟨hordinals, hentries⟩
  · rintro ⟨hordinals, hnames⟩
    have hslots : (exports.map fun e => slotName stem e.1).Nodup := by
      have h := hordinals.map (slotName_injective stem)
      rwa [List.map_map] at h
    have hstubs : (exports.map fun e => stubName stem e.1).Nodup := by
      have h := hordinals.map (stubName_injective stem)
      rwa [List.map_map] at h
    constructor
    · simp only [emit, List.map_map]
      refine List.nodup_append.mpr ⟨hslots, hstubs, fun slot hslot stub hstub => ?_⟩
      obtain ⟨e, -, rfl⟩ := List.mem_map.mp hslot
      obtain ⟨e', -, rfl⟩ := List.mem_map.mp hstub
      exact slotName_ne_stubName stem e.1 e'.1
    · intro stub hstub
      obtain ⟨e, he, rfl⟩ := List.mem_map.mp hstub
      exact List.mem_map_of_mem he
    · intro row hrow
      obtain ⟨e, he, rfl⟩ := List.mem_map.mp hrow
      exact List.mem_map_of_mem he
    · intro line hline
      obtain ⟨e, he, rfl⟩ := List.mem_map.mp hline
      simp only [emit, List.map_map]
      exact List.mem_map_of_mem he
    · simp only [emit, List.map_map]
      exact hnames
    · simp only [emit, List.map_map]
      exact hordinals

/-! ### Binding and calling -/

/-- The loop writes each row's pointer, what the library has under the row's
name, and no other; it counts the names found. -/
theorem bindLoop_spec (library : Library) (table : List Export) (slots : Bytes → Pointer)
    (resolved : ℕ) (hslots : (table.map Export.slot).Nodup) :
    (∀ e ∈ table, (bindLoop library table slots resolved).1 e.slot = library e.name) ∧
      (∀ slot, slot ∉ table.map Export.slot →
        (bindLoop library table slots resolved).1 slot = slots slot) ∧
      (bindLoop library table slots resolved).2 =
        resolved + table.countP fun e => library e.name ≠ 0 := by
  induction table generalizing slots resolved with
  | nil => simp [bindLoop]
  | cons e rest ih =>
    have hnodup := List.nodup_cons.mp hslots
    obtain ⟨hrows, hframe, hcount⟩ := ih (Function.update slots e.slot (library e.name))
      (if library e.name ≠ 0 then resolved + 1 else resolved) hnodup.2
    refine ⟨fun row hrow => ?_, fun slot hslot => ?_, ?_⟩
    · rcases List.mem_cons.mp hrow with rfl | hrest
      · have hfirst := hframe row.slot hnodup.1
        rw [Function.update_self] at hfirst
        exact hfirst
      · exact hrows row hrest
    · have hne : slot ≠ e.slot := fun h => hslot (h ▸ List.mem_cons_self)
      have hrest : slot ∉ rest.map Export.slot := fun h => hslot (List.mem_cons_of_mem _ h)
      have hframed := hframe slot hrest
      rw [Function.update_of_ne hne] at hframed
      exact hframed
    · rw [List.countP_cons]
      have hstep : (bindLoop library (e :: rest) slots resolved).2 =
          (if library e.name ≠ 0 then resolved + 1 else resolved) +
            rest.countP fun e => library e.name ≠ 0 := hcount
      rw [hstep]
      by_cases h : library e.name = 0
      · simp [h]
      · simp only [ne_eq, h, not_false_eq_true, if_true, decide_true]
        omega

section Emitted

variable {stem : Bytes} {realDll : WString} {exports : List (ℕ × Bytes)}

/-- A call of an export reads the pointer of its ordinal. -/
theorem jumps_emit (hbuilds : (emit stem realDll exports).Builds) (state : State) {e : ℕ × Bytes}
    (he : e ∈ exports) :
    (emit stem realDll exports).jumps state ⟨e.2, stubName stem e.1, e.1⟩ =
      some (state.slots (slotName stem e.1)) := by
  have hstubs : ((emit stem realDll exports).stubs.map Stub.name).Nodup :=
    (List.nodup_append.mp hbuilds.symbols).2.1
  have hmem : (⟨stubName stem e.1, slotName stem e.1⟩ : Stub) ∈ (emit stem realDll exports).stubs :=
    List.mem_map_of_mem he
  have hfind := find_of_mem hstubs hmem
  simp only [Proxy.jumps, hfind, Option.map_some]

/-- A call by name reads the pointer of an export of that name. -/
theorem callByName_emit (hbuilds : (emit stem realDll exports).Builds) (state : State)
    {name : Bytes} {target : Pointer} :
    (emit stem realDll exports).callByName state name = some target ↔
      ∃ ordinal, (ordinal, name) ∈ exports ∧ target = state.slots (slotName stem ordinal) := by
  constructor
  · intro h
    obtain ⟨line, hfind, hjumps⟩ := Option.bind_eq_some_iff.mp h
    have hentry : line.entry = name := by simpa using List.find?_some hfind
    obtain ⟨e, he, rfl⟩ := List.mem_map.mp (List.mem_of_find?_eq_some hfind)
    rw [jumps_emit hbuilds state he] at hjumps
    exact ⟨e.1, hentry ▸ he, (Option.some.inj hjumps).symm⟩
  · rintro ⟨ordinal, he, rfl⟩
    have hmem : (⟨name, stubName stem ordinal, ordinal⟩ : DefLine) ∈
        (emit stem realDll exports).exports := List.mem_map_of_mem he
    have hfind := find_of_mem hbuilds.entries hmem
    simp only [Proxy.callByName, hfind, Option.bind_some]
    exact jumps_emit hbuilds state he

/-- A call by ordinal reads the pointer of that ordinal. -/
theorem callByOrdinal_emit (hbuilds : (emit stem realDll exports).Builds) (state : State)
    {ordinal : ℕ} {target : Pointer} :
    (emit stem realDll exports).callByOrdinal state ordinal = some target ↔
      (∃ name, (ordinal, name) ∈ exports) ∧ target = state.slots (slotName stem ordinal) := by
  constructor
  · intro h
    obtain ⟨line, hfind, hjumps⟩ := Option.bind_eq_some_iff.mp h
    have hordinal : line.ordinal = ordinal := by simpa using List.find?_some hfind
    obtain ⟨e, he, rfl⟩ := List.mem_map.mp (List.mem_of_find?_eq_some hfind)
    rw [jumps_emit hbuilds state he] at hjumps
    simp only at hordinal
    subst hordinal
    exact ⟨⟨e.2, he⟩, (Option.some.inj hjumps).symm⟩
  · rintro ⟨⟨name, he⟩, rfl⟩
    have hmem : (⟨name, stubName stem ordinal, ordinal⟩ : DefLine) ∈
        (emit stem realDll exports).exports := List.mem_map_of_mem he
    have hfind := find_of_mem hbuilds.ordinals hmem
    simp only [Proxy.callByOrdinal, hfind, Option.bind_some]
    exact jumps_emit hbuilds state he

end Emitted

/-- What stands behind the proxy's exports: the system's copy, where the proxy
was loaded under its DLL's name and the copy was found. -/
def behind (windows : Windows) (realDll loadedFileName : WString) : Option Library :=
  if wcsicmp loadedFileName realDll then loadSystemLibrary windows realDll else none

/-- What binding leaves: in each export's pointer what stands behind it, and the
number of names found. -/
theorem bindActive_emit {stem : Bytes} {realDll : WString} {exports : List (ℕ × Bytes)}
    (hbuilds : (emit stem realDll exports).Builds) (windows : Windows) (loadedFileName : WString) :
    let outcome := (emit stem realDll exports).bindActive windows loadedFileName State.initial
    let target := (behind windows realDll loadedFileName).getD fun _ => 0
    (∀ e ∈ exports, outcome.2.slots (slotName stem e.1) = target e.2) ∧
      (outcome.1 = true ↔ (behind windows realDll loadedFileName).isSome ∧
        ∀ e ∈ exports, target e.2 ≠ 0) ∧
      outcome.2.lastBind = if wcsicmp loadedFileName realDll then
          ⟨some realDll, exports.countP fun e => target e.2 ≠ 0, exports.length, true⟩
        else State.initial.lastBind := by
  have htable : ((emit stem realDll exports).table.map Export.slot).Nodup := by
    have h := (List.nodup_append.mp hbuilds.symbols).1
    simp only [emit, List.map_map] at h ⊢
    exact h
  by_cases hname : wcsicmp loadedFileName realDll = true
  · cases hload : loadSystemLibrary windows realDll with
    | none => simp [emit, Proxy.bindActive, behind, bind, hname, hload, State.initial]
    | some library =>
      obtain ⟨hrows, -, hcount⟩ := bindLoop_spec library _ State.initial.slots 0 htable
      have hcounted : ((emit stem realDll exports).table.countP fun e => library e.name ≠ 0) =
          exports.countP fun e => library e.2 ≠ 0 := by
        simp only [emit, List.countP_map]
        rfl
      rw [Nat.zero_add, hcounted] at hcount
      have hlength : (emit stem realDll exports).table.length = exports.length :=
        List.length_map _
      have hdll : (emit stem realDll exports).dll = realDll := rfl
      simp only [Proxy.bindActive, bind, behind, hdll, hname, hload, hlength, hcount, if_true,
        Bool.not_true, Bool.false_eq_true, if_false, Option.getD_some, Option.isSome_some, true_and,
        beq_iff_eq, List.countP_eq_length, decide_eq_true_eq, and_true]
      exact fun e he => hrows ⟨e.2, slotName stem e.1⟩ (List.mem_map_of_mem he)
  · simp [emit, Proxy.bindActive, behind, hname, State.initial]

/-- Whatever the DLL, its proxy exports each of its named functions under its
name and its ordinal, and nothing else. A call jumps to what the system's copy
has under that name; where the proxy was loaded under another name, or there is
no copy, it jumps nowhere. Binding reports success exactly where the copy was
found and has every name, and the result kept says how many it has. -/
theorem forwards_exports {stem : Bytes} {symbols : List ExportSymbol} {realDll : WString}
    (hbuilds : (emit stem realDll (collectExports symbols)).Builds) (windows : Windows)
    (loadedFileName : WString) :
    let proxy := emit stem realDll (collectExports symbols)
    let outcome := proxy.bindActive windows loadedFileName State.initial
    let target := (behind windows realDll loadedFileName).getD fun _ => 0
    (∀ name p, proxy.callByName outcome.2 name = some p ↔
        (∃ ordinal, ⟨ordinal, some name⟩ ∈ symbols) ∧ p = target name) ∧
      (∀ ordinal p, proxy.callByOrdinal outcome.2 ordinal = some p ↔
        ∃ name, ⟨ordinal, some name⟩ ∈ symbols ∧ p = target name) ∧
      (outcome.1 = true ↔ (behind windows realDll loadedFileName).isSome ∧
        ∀ ordinal name, ⟨ordinal, some name⟩ ∈ symbols → target name ≠ 0) ∧
      outcome.2.lastBind = if wcsicmp loadedFileName realDll then
          ⟨some realDll, (collectExports symbols).countP fun e => target e.2 ≠ 0,
            (collectExports symbols).length, true⟩
        else State.initial.lastBind := by
  intro proxy outcome target
  obtain ⟨hslots, hresult, hlast⟩ := bindActive_emit hbuilds windows loadedFileName
  have hall : (∀ e ∈ collectExports symbols, target e.2 ≠ 0) ↔
      ∀ ordinal name, ⟨ordinal, some name⟩ ∈ symbols → target name ≠ 0 :=
    ⟨fun h ordinal name hmem => h (ordinal, name) (mem_collectExports.mpr hmem),
      fun h e he => h e.1 e.2 (mem_collectExports.mp he)⟩
  refine ⟨fun name p => ?_, fun ordinal p => ?_, hresult.trans (and_congr_right' hall), hlast⟩
  · rw [callByName_emit hbuilds]
    constructor
    · rintro ⟨ordinal, he, rfl⟩
      exact ⟨⟨ordinal, mem_collectExports.mp he⟩, hslots _ he⟩
    · rintro ⟨⟨ordinal, hmem⟩, rfl⟩
      have he := mem_collectExports.mpr hmem
      exact ⟨ordinal, he, (hslots _ he).symm⟩
  · rw [callByOrdinal_emit hbuilds]
    constructor
    · rintro ⟨⟨name, he⟩, rfl⟩
      exact ⟨name, mem_collectExports.mp he, hslots _ he⟩
    · rintro ⟨name, hmem, rfl⟩
      have he := mem_collectExports.mpr hmem
      exact ⟨⟨name, he⟩, (hslots _ he).symm⟩

/-- The export table of `dinput8.dll`, with a function exported by ordinal only. -/
def directInput : List ExportSymbol :=
  [⟨3, some (ascii "DllGetClassObject")⟩, ⟨1, some (ascii "DirectInput8Create")⟩, ⟨7, none⟩,
    ⟨2, some (ascii "DllCanUnloadNow")⟩]

example : (emit (ascii "dinput8") (wide "dinput8.dll") (collectExports directInput)).exports =
    [⟨ascii "DirectInput8Create", ascii "odg_dinput8_stub_1", 1⟩,
      ⟨ascii "DllCanUnloadNow", ascii "odg_dinput8_stub_2", 2⟩,
      ⟨ascii "DllGetClassObject", ascii "odg_dinput8_stub_3", 3⟩] := by
  decide +kernel

/-- A system whose copy lacks one of the functions. -/
def olderWindows : Windows where
  systemDirectory := some (wide "C:\\Windows\\System32")
  loadLibrary path :=
    if path = wide "C:\\Windows\\System32\\dinput8.dll" then
      some fun name => if name = ascii "DirectInput8Create" then 4096
        else if name = ascii "DllCanUnloadNow" then 8192 else 0
    else none

/-- The proxy loaded in capitals on that system: what is there is reached, and
what is missing is reported. -/
theorem forwards_exports_older :
    let proxy := emit (ascii "dinput8") (wide "dinput8.dll") (collectExports directInput)
    let outcome := proxy.bindActive olderWindows (wide "DINPUT8.DLL") State.initial
    proxy.callByName outcome.2 (ascii "DirectInput8Create") = some 4096 ∧
      proxy.callByOrdinal outcome.2 2 = some 8192 ∧ outcome.1 = false ∧
      outcome.2.lastBind = ⟨some (wide "dinput8.dll"), 2, 3, true⟩ := by
  intro proxy outcome
  have hbuilds : proxy.Builds := builds_emit.mpr (by decide +kernel)
  obtain ⟨hname, hordinal, hresult, hlast⟩ :=
    forwards_exports hbuilds olderWindows (wide "DINPUT8.DLL")
  refine ⟨(hname _ _).mpr ⟨⟨1, by decide +kernel⟩, by decide +kernel⟩,
    (hordinal 2 8192).mpr ⟨ascii "DllCanUnloadNow", by decide +kernel, by decide +kernel⟩, ?_, ?_⟩
  · refine Bool.eq_false_iff.mpr fun h => ?_
    have hfound := (hresult.mp h).2 3 (ascii "DllGetClassObject") (by decide +kernel)
    exact hfound (by decide +kernel)
  · rw [hlast]
    decide +kernel

end OpenDlssg.ProxyForwarding
