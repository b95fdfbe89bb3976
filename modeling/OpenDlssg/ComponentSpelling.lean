import Mathlib.Data.List.TakeWhile
import OpenDlssg.WidePaths

/-!
# Spellings of a path

Windows loads a path in any case of its letters and with either separator. The
file name of a path does not depend on the spelling. The component a path
belongs to does: the marker of the model store and the end of the component's
directory are looked for with backslashes alone.
-/

namespace OpenDlssg.ComponentSpelling

open WidePaths

/-- A character without its case, and either separator as the backslash. -/
def canonical (c : UInt16) : UInt16 := if isSeparator c then kBackslash else fold c

/-- Another spelling of a path: letters in another case, other separators. -/
def Respelling (path spelled : WString) : Prop := spelled.map canonical = path.map canonical

instance (path spelled : WString) : Decidable (Respelling path spelled) :=
  inferInstanceAs (Decidable (_ = _))

/-- Names that are equal up to the case of their letters. -/
def SameName (first second : WString) : Prop := first.map fold = second.map fold

instance (first second : WString) : Decidable (SameName first second) :=
  inferInstanceAs (Decidable (_ = _))

/-- A path that goes through the directory of a component of the model store, in
whatever spelling. -/
def InStore (component : OtaComponent) (path : WString) : Prop :=
  ∃ before marker directory rest : WString, ∃ separator : UInt16,
    path = before ++ (marker ++ (directory ++ separator :: rest)) ∧
      Respelling kOtaMarker marker ∧ SameName directory component.directory ∧
      isSeparator separator = true

/-- What a component's name promises of a path: it is the same up to case in every
spelling, and that of the module the path's directory holds. -/
def RecognisedInEverySpelling (path : WString) : Prop :=
  ∀ spelled, Respelling path spelled →
    SameName (componentFileName spelled) (componentFileName path) ∧
      ∀ component ∈ kOtaComponents, InStore component path →
        SameName (componentFileName spelled) component.module

/-! ### Characters -/

/-- A character other than a separator in its spelling is its folded self. -/
theorem canonical_of_not {c : UInt16} (h : isSeparator c = false) : canonical c = fold c := by
  rw [canonical, h]
  rfl

/-- A spelling keeps a character a separator or not. -/
theorem isSeparator_canonical (c : UInt16) : isSeparator (canonical c) = isSeparator c := by
  unfold canonical
  split
  · rename_i hseparator
    rw [hseparator]
    rfl
  · exact isSeparator_fold c

/-- No character but the backslash folds to it. -/
theorem eq_backslash_of_fold {c : UInt16} (h : fold c = kBackslash) : c = kBackslash := by
  have hvalue := congrArg UInt16.toNat h
  rw [toNat_fold] at hvalue
  change _ = 92 at hvalue
  rw [← UInt16.toNat_inj]
  change c.toNat = 92
  split at hvalue <;> omega

/-! ### Spellings -/

namespace SameName

variable {first second third : WString}

/-- Names are the same both ways. -/
theorem symm (h : SameName first second) : SameName second first := Eq.symm h

/-- Names the same as one name are the same. -/
theorem trans (h : SameName first second) (h' : SameName second third) : SameName first third :=
  Eq.trans h h'

/-- They are equally long. -/
theorem length_eq (h : SameName first second) : first.length = second.length := by
  have hlength := congrArg List.length h
  rwa [List.length_map, List.length_map] at hlength

/-- A name in another case is another spelling of it. -/
theorem respelling (h : SameName first second) : Respelling second first := by
  have hmap : ∀ text : WString, text.map canonical =
      (text.map fold).map fun c => if isSeparator c then kBackslash else c := by
    intro text
    rw [List.map_map]
    refine List.map_congr_left fun c _ => ?_
    change canonical c = if isSeparator (fold c) then kBackslash else fold c
    rw [isSeparator_fold]
    rfl
  unfold Respelling
  rw [hmap first, hmap second, h]

end SameName

/-- Where no character is a separator another spelling differs in case alone. -/
theorem Respelling.sameName {path spelled : WString} (h : Respelling path spelled)
    (hpath : ∀ c ∈ path, isSeparator c = false) : SameName spelled path := by
  have hspelled : ∀ c ∈ spelled, isSeparator c = false := by
    intro c hc
    obtain ⟨d, hd, hsame⟩ := List.mem_map.mp (h ▸ List.mem_map_of_mem hc)
    rw [← isSeparator_canonical, ← hsame, isSeparator_canonical]
    exact hpath d hd
  calc spelled.map fold = spelled.map canonical :=
        List.map_congr_left fun c hc => (canonical_of_not (hspelled c hc)).symm
    _ = path.map canonical := h
    _ = path.map fold := List.map_congr_left fun c hc => canonical_of_not (hpath c hc)

/-- The file name does not depend on the spelling. -/
theorem leaf_respelling {path spelled : WString} (h : Respelling path spelled) :
    SameName (leaf spelled) (leaf path) := by
  have hmap : ∀ text : WString, (leaf text).map canonical = leaf (text.map canonical) := by
    intro text
    unfold leaf List.rtakeWhile
    rw [List.map_reverse, ← List.map_reverse (f := canonical) (l := text), List.takeWhile_map]
    congr 3
    funext c
    change (!isSeparator c) = !isSeparator (canonical c)
    rw [isSeparator_canonical]
  have hleaf : Respelling (leaf path) (leaf spelled) := by
    unfold Respelling
    rw [hmap, hmap, h]
  exact hleaf.sameName fun c hc => not_isSeparator_of_mem_leaf hc

/-- A path with slashes alone. -/
def slashed (path : WString) : WString := path.map fun c => if isSeparator c then 47 else c

/-- A path with slashes is another spelling of it. -/
theorem slashed_respelling (path : WString) : Respelling path (slashed path) := by
  unfold Respelling slashed
  rw [List.map_map]
  refine List.map_congr_left fun c _ => ?_
  change canonical (if isSeparator c then 47 else c) = canonical c
  split
  · rename_i hseparator
    rw [canonical, canonical, hseparator]
    rfl
  · rfl

/-- It holds no backslash. -/
theorem backslash_notMem_slashed (path : WString) : kBackslash ∉ slashed path := by
  intro h
  obtain ⟨c, -, hc⟩ := List.mem_map.mp h
  split at hc
  · exact absurd hc (by decide)
  · rename_i hnot
    rw [hc] at hnot
    exact hnot (by decide)

/-- A component's directory is on a path in every spelling of it. -/
theorem InStore.respelling {component : OtaComponent} {path spelled : WString}
    (h : InStore component spelled) (hname : ∀ c ∈ component.directory, isSeparator c = false)
    (hspelled : Respelling path spelled) : InStore component path := by
  obtain ⟨before, marker, directory, rest, separator, rfl, hmarker, hdirectory, hseparator⟩ := h
  have hsplit := hspelled.symm
  rw [List.map_append, List.map_append, List.map_append, List.map_cons] at hsplit
  obtain ⟨before', tail, rfl, -, htail⟩ := List.map_eq_append_iff.mp hsplit
  obtain ⟨marker', tail, rfl, hmarker', htail⟩ := List.map_eq_append_iff.mp htail
  obtain ⟨directory', tail, rfl, hdirectory', htail⟩ := List.map_eq_append_iff.mp htail
  obtain ⟨separator', rest', rfl, hseparator', -⟩ := List.map_eq_cons_iff.mp htail
  have hdirectories : Respelling component.directory directory' :=
    hdirectory'.trans hdirectory.respelling
  refine ⟨before', marker', directory', rest', separator', rfl, hmarker'.trans hmarker,
    hdirectories.sameName hname, ?_⟩
  · rw [← isSeparator_canonical, hseparator', isSeparator_canonical]
    exact hseparator

/-! ### Components -/

/-- What the listed directories are: names without a separator or a NUL, each of
one module. -/
structure Listed (component : OtaComponent) : Prop where
  segment : ∀ c ∈ component.directory, isSeparator c = false
  seen : 0 ∉ component.directory
  present : component.directory ≠ []
  module : ∀ other ∈ kOtaComponents, SameName component.directory other.directory →
    other.module = component.module

/-- A component of the list is listed. -/
theorem listed {component : OtaComponent} (h : component ∈ kOtaComponents) : Listed component where
  segment c hc := by
    have hall : (kOtaComponents.all fun component => component.directory.all fun c => !isSeparator c) =
        true := by decide
    have hname := List.all_eq_true.mp (List.all_eq_true.mp hall component h) c hc
    rwa [Bool.not_eq_true'] at hname
  seen := by
    have hall : ∀ component ∈ kOtaComponents, 0 ∉ component.directory := by decide
    exact hall component h
  present := by
    have hall : ∀ component ∈ kOtaComponents, component.directory ≠ [] := by decide
    exact hall component h
  module := by
    have hall : ∀ component ∈ kOtaComponents, ∀ other ∈ kOtaComponents,
        SameName component.directory other.directory → other.module = component.module := by
      decide +kernel
    exact hall component h

/-- A directory is that of a component where the two are the same name. -/
theorem directory_matches_iff {directory : WString} {component : OtaComponent}
    (h : Listed component) : (directory.length == component.directory.length &&
      wcsnicmp directory component.directory directory.length) = true ↔
        SameName directory component.directory := by
  rw [Bool.and_eq_true, beq_iff_eq]
  constructor
  · rintro ⟨hlength, hmatches⟩
    rw [hlength, wcsnicmp_iff h.seen, ← hlength, List.take_length] at hmatches
    exact hmatches
  · intro hsame
    have hlength := hsame.length_eq
    refine ⟨hlength, ?_⟩
    rw [hlength, wcsnicmp_iff h.seen, ← hlength, List.take_length]
    exact hsame

/-- A directory ends before the first backslash. -/
theorem takeWhile_directory {directory : WString} (h : kBackslash ∉ directory) (rest : WString) :
    (directory ++ kBackslash :: rest).takeWhile (· != kBackslash) = directory := by
  rw [takeWhile_append_cons (by decide)]
  exact List.takeWhile_eq_self_iff.mpr fun c hc => bne_iff_ne.mpr (ne_of_mem_of_not_mem hc h)

/-- A component's directory that is found stands behind the marker of the store. -/
theorem otaComponentDirectory_on {path : WString} (h : otaComponentDirectory path ≠ []) :
    ∃ before marker rest : WString,
      path = before ++ (marker ++ (otaComponentDirectory path ++ kBackslash :: rest)) ∧
        SameName marker kOtaMarker := by
  unfold otaComponentDirectory at h ⊢
  cases hfound : findInsensitive path kOtaMarker with
  | none =>
    rw [hfound] at h
    exact absurd rfl h
  | some start =>
    rw [hfound] at h
    dsimp only at h ⊢
    by_cases hends : (path.drop (start + kOtaMarker.length)).contains kBackslash = true
    · rw [if_pos hends]
      have hmarker : wcsnicmp (path.drop start) kOtaMarker kOtaMarker.length = true := by
        unfold findInsensitive at hfound
        split at hfound
        · cases hfound
        · exact List.find?_some (p := fun i => wcsnicmp (path.drop i) kOtaMarker kOtaMarker.length)
            hfound
      rw [wcsnicmp_iff (by decide)] at hmarker
      obtain ⟨directory, rest, hsplit, hdirectory⟩ :=
        List.eq_append_cons_of_mem (List.contains_iff_mem.mp hends)
      refine ⟨path.take start, (path.drop start).take kOtaMarker.length, rest, ?_, hmarker⟩
      rw [hsplit, takeWhile_directory hdirectory, ← hsplit, ← List.drop_drop, List.take_append_drop,
        List.take_append_drop]
    · rw [if_neg hends] at h
      exact absurd rfl h

/-- A component that is found has the name of the directory. -/
theorem directory_of_otaComponent {path : WString} {component : OtaComponent}
    (h : otaComponent path = some component) :
    SameName (otaComponentDirectory path) component.directory := by
  have hlisted := listed (mem_of_otaComponent h)
  unfold otaComponent at h
  exact (directory_matches_iff hlisted).mp (List.find?_some (p := fun component : OtaComponent =>
    (otaComponentDirectory path).length == component.directory.length &&
      wcsnicmp (otaComponentDirectory path) component.directory (otaComponentDirectory path).length) h)

/-- A component is recognised by a directory that is not empty. -/
theorem directory_ne_nil {path : WString} {component : OtaComponent}
    (h : otaComponent path = some component) : otaComponentDirectory path ≠ [] := by
  intro hempty
  have hsame := directory_of_otaComponent h
  rw [hempty] at hsame
  exact (listed (mem_of_otaComponent h)).present (List.map_eq_nil_iff.mp hsame.symm)

/-- A component that is found has its directory on the path. -/
theorem inStore_of_otaComponent {path : WString} {component : OtaComponent}
    (h : otaComponent path = some component) : InStore component path := by
  obtain ⟨before, marker, rest, hpath, hmarker⟩ := otaComponentDirectory_on (directory_ne_nil h)
  exact ⟨before, marker, _, rest, kBackslash, hpath, hmarker.respelling, directory_of_otaComponent h, rfl⟩

/-- The first marker of a path is one that no backslash precedes. -/
theorem findInsensitive_marker {before : WString} (h : kBackslash ∉ before) (rest : WString) :
    findInsensitive (before ++ (kOtaMarker ++ rest)) kOtaMarker = some before.length := by
  have hlength : (before ++ (kOtaMarker ++ rest)).length =
      before.length + (kOtaMarker.length + rest.length) := by
    rw [List.length_append, List.length_append]
  unfold findInsensitive
  rw [if_neg (by rw [not_or]; exact ⟨by decide, by omega⟩), List.find?_range_eq_some]
  refine ⟨?_, List.mem_range.mpr (by omega), fun j hj => ?_⟩
  · rw [List.drop_left, wcsnicmp_iff (by decide), List.take_left]
  · rw [Bool.not_eq_true', Bool.eq_false_iff]
    intro hmatch
    rw [wcsnicmp_iff (by decide), List.drop_append_of_le_length (Nat.le_of_lt hj),
      List.drop_eq_getElem_cons hj] at hmatch
    -- the marker begins with a backslash, and no character before it folds to one
    have hfirst : fold before[j] = kBackslash := (List.cons.inj hmatch).1
    exact h (eq_backslash_of_fold hfirst ▸ List.getElem_mem hj)

/-- A path through a component's directory has a spelling in which it is found. -/
theorem InStore.found {component : OtaComponent} (hmem : component ∈ kOtaComponents) {path : WString}
    (h : InStore component path) :
    ∃ spelled, Respelling path spelled ∧ componentFileName spelled = component.module := by
  have hlisted := listed hmem
  obtain ⟨before, marker, directory, rest, separator, rfl, hmarker, hdirectory, hseparator⟩ := h
  have hsegment : kBackslash ∉ directory := by
    intro hin
    obtain ⟨c, hc, hsame⟩ := List.mem_map.mp (hdirectory ▸ List.mem_map_of_mem hin)
    have hno := hlisted.segment c hc
    rw [← isSeparator_fold, hsame] at hno
    exact absurd hno (by decide)
  refine ⟨slashed before ++ (kOtaMarker ++ (directory ++ kBackslash :: rest)), ?_, ?_⟩
  · unfold Respelling
    rw [List.map_append, List.map_append, List.map_append, List.map_cons, List.map_append,
      List.map_append, List.map_append, List.map_cons, slashed_respelling, hmarker]
    congr 4
    rw [canonical, canonical, hseparator]
    rfl
  · have hfound : otaComponentDirectory
        (slashed before ++ (kOtaMarker ++ (directory ++ kBackslash :: rest))) = directory := by
      have hcontains : (directory ++ kBackslash :: rest).contains kBackslash = true :=
        List.contains_iff_mem.mpr (List.mem_append_right _ List.mem_cons_self)
      unfold otaComponentDirectory
      rw [findInsensitive_marker (backslash_notMem_slashed before)]
      dsimp only
      rw [← List.drop_drop, List.drop_left, List.drop_left, if_pos hcontains,
        takeWhile_directory hsegment]
    unfold componentFileName
    cases hcomponent : otaComponent
        (slashed before ++ (kOtaMarker ++ (directory ++ kBackslash :: rest))) with
    | none =>
      unfold otaComponent at hcomponent
      rw [hfound] at hcomponent
      exact absurd ((directory_matches_iff hlisted).mpr hdirectory)
        (List.find?_eq_none.mp hcomponent component hmem)
    | some other =>
      have hother := directory_of_otaComponent hcomponent
      rw [hfound] at hother
      exact hlisted.module other (mem_of_otaComponent hcomponent) (hdirectory.symm.trans hother)

/-- A path with slashes alone is known by its file name. -/
theorem componentFileName_slashed (path : WString) :
    componentFileName (slashed path) = leaf (slashed path) := by
  unfold componentFileName
  cases hcomponent : otaComponent (slashed path) with
  | none => rfl
  | some component =>
    obtain ⟨before, marker, rest, hpath, -⟩ := otaComponentDirectory_on (directory_ne_nil hcomponent)
    refine absurd ?_ (backslash_notMem_slashed path)
    rw [hpath]
    exact List.mem_append_right _ (List.mem_append_right _ (List.mem_append_right _ List.mem_cons_self))

/-- Where the components on a path have the name of its file, every spelling of the
path is known by that name. -/
theorem componentFileName_respelling {path spelled : WString}
    (h : ∀ component ∈ kOtaComponents, InStore component path → SameName (leaf path) component.module)
    (hspelled : Respelling path spelled) : SameName (componentFileName spelled) (leaf path) := by
  unfold componentFileName
  cases hcomponent : otaComponent spelled with
  | none => exact leaf_respelling hspelled
  | some component =>
    have hmem := mem_of_otaComponent hcomponent
    have hstore := (inStore_of_otaComponent hcomponent).respelling (listed hmem).segment hspelled
    exact (h component hmem hstore).symm

/-- A component is recognised in every spelling of a path exactly where the file's
own name is the component's: one named after its directory alone is recognised
with backslashes only. -/
theorem recognised_iff (path : WString) : RecognisedInEverySpelling path ↔
    ∀ component ∈ kOtaComponents, InStore component path → SameName (leaf path) component.module := by
  constructor
  · intro h component hmem hstore
    obtain ⟨spelled, hspelled, hmodule⟩ := hstore.found hmem
    have hslashed := h (slashed path) (slashed_respelling path)
    rw [componentFileName_slashed] at hslashed
    calc (leaf path).map fold = (leaf (slashed path)).map fold :=
          (leaf_respelling (slashed_respelling path)).symm
      _ = (componentFileName path).map fold := hslashed.1
      _ = (componentFileName spelled).map fold := (h spelled hspelled).1.symm
      _ = component.module.map fold := by rw [hmodule]
  · intro h spelled hspelled
    have hname := componentFileName_respelling h hspelled
    refine ⟨hname.trans (componentFileName_respelling h rfl).symm, fun component hmem hstore => ?_⟩
    exact hname.trans (h component hmem hstore)

/-- A runtime in the model store by its path. -/
def storePath : WString :=
  wide "C:\\ProgramData\\NVIDIA\\NGX\\models\\dlssg\\versions\\1\\files\\160_E658700.bin"

/-- With slashes the runtime in the model store is not recognised. -/
theorem storePath_not_recognised :
    componentFileName storePath = wide "nvngx_dlssg.dll" ∧
      componentFileName (slashed storePath) = wide "160_E658700.bin" ∧
      ¬RecognisedInEverySpelling storePath := by
  have hstore : componentFileName storePath = wide "nvngx_dlssg.dll" := by decide +kernel
  have hslashed : componentFileName (slashed storePath) = wide "160_E658700.bin" := by decide +kernel
  refine ⟨hstore, hslashed, fun h => ?_⟩
  have hsame := (h (slashed storePath) (slashed_respelling storePath)).1
  rw [hstore, hslashed] at hsame
  exact absurd hsame (by decide)

end OpenDlssg.ComponentSpelling
