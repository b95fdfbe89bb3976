import OpenDlssg.SettingReports
import OpenDlssg.UnicodeText

/-!
# The module list of the settings file

The reader drops every whitespace character of an item, not only those around it,
and leaves out the items that are empty or `none` after that. Names without
whitespace are read as written. A name that holds whitespace is not, and a value of
commas alone names nobody, so that everyone is told.
-/

namespace OpenDlssg.SpoofCallersSetting

open ByteCodec ByteSearch WidePaths IniFile SpoofCallers IniSettings SettingReports Trimming UnicodeText

/-- An item without whitespace. -/
def stripped (item : Bytes) : Bytes := item.filter fun c => !isSpace c

/-- The items of a value. -/
def items (value : Bytes) : List Bytes := value.splitOn kComma

/-- Whether an item without whitespace names a module. -/
def Names (item : Bytes) : Prop := item ≠ [] ∧ item ≠ ascii "none"

instance (item : Bytes) : Decidable (Names item) := inferInstanceAs (Decidable (_ ∧ _))

section Split

variable (fromUtf8 : Bytes → WString)

/-- The modules of items without whitespace. -/
def modulesOf (stripped : List Bytes) : List WString := (stripped.filter Names).map fromUtf8

/-- A comma closes the item under way. -/
theorem splitStep_comma (modules : List WString) (item : Bytes) :
    splitStep fromUtf8 (modules, item) kComma = (modules ++ modulesOf fromUtf8 [item], []) := by
  have hstep : splitStep fromUtf8 (modules, item) kComma =
      if Names item then (modules ++ [fromUtf8 item], []) else (modules, []) := rfl
  unfold modulesOf
  rw [hstep]
  by_cases hnames : Names item
  · simp [hnames]
  · simp [hnames]

/-- Any other character goes on with it, unless it is whitespace. -/
theorem splitStep_char {c : UInt8} (hc : c ≠ kComma) (modules : List WString) (item : Bytes) :
    splitStep fromUtf8 (modules, item) c = (modules, item ++ stripped [c]) := by
  unfold splitStep stripped
  rw [if_pos hc]
  split_ifs with hspace
  · simp [hspace]
  · simp [hspace]

/-- From inside an item, the rest of the value completes that item first. -/
theorem foldl_splitStep (value : Bytes) (modules : List WString) (item : Bytes) :
    ((value ++ [kComma]).foldl (splitStep fromUtf8) (modules, item)).1 =
      modules ++ modulesOf fromUtf8 (((items value).map stripped).modifyHead (item ++ ·)) := by
  induction value generalizing modules item with
  | nil =>
    change (splitStep fromUtf8 (modules, item) kComma).1 = modules ++ modulesOf fromUtf8 [item ++ []]
    rw [splitStep_comma, List.append_nil]
  | cons c value ih =>
    obtain ⟨first, others, hitems⟩ : ∃ first others, items value = first :: others :=
      List.exists_cons_of_ne_nil (List.splitOnP_ne_nil (· == kComma) value)
    have hsplit : items (c :: value) =
        if c == kComma then [] :: items value else (items value).modifyHead (List.cons c) :=
      List.splitOn_cons_eq_if_modifyHead c value
    rw [List.cons_append, List.foldl_cons, hsplit]
    rw [hitems] at ih ⊢
    by_cases hcomma : c = kComma
    · have hfirst : modulesOf fromUtf8 (item :: stripped first :: others.map stripped) =
          modulesOf fromUtf8 [item] ++ modulesOf fromUtf8 (stripped first :: others.map stripped) := by
        unfold modulesOf
        rw [← List.map_append, ← List.filter_append]
        rfl
      rw [hcomma, splitStep_comma, ih, if_pos (beq_self_eq_true kComma), List.append_assoc]
      change _ = modules ++ modulesOf fromUtf8 ((item ++ []) :: stripped first :: others.map stripped)
      rw [List.append_nil, hfirst]
      rfl
    · have hmore : stripped (c :: first) = stripped [c] ++ stripped first :=
        List.filter_append [c] first
      rw [splitStep_char fromUtf8 hcomma, ih, if_neg (by rw [beq_iff_eq]; exact hcomma)]
      simp only [List.modifyHead_cons, List.map_cons]
      rw [hmore, List.append_assoc]

/-- The modules of a value are those its items leave once stripped. -/
theorem splitModules_eq (value : Bytes) :
    splitModules fromUtf8 value = modulesOf fromUtf8 ((items value).map stripped) := by
  unfold splitModules
  rw [foldl_splitStep, List.nil_append]
  congr 1
  cases (items value).map stripped with
  | nil => rfl
  | cons first others => rfl

end Split

/-- The value of the setting. -/
def setting (ini : Ini) : Bytes := ini.getString (ascii "Compatibility") (ascii "SpoofCallers") []

/-- The callers a file names are those of the setting, or the default without a value. -/
theorem spoofCallers_fromIni (fromUtf8 : Bytes → WString) (ini : Ini) :
    (fromIni fromUtf8 ini).1.spoofCallers =
      if setting ini ≠ [] then modulesOf fromUtf8 ((items (setting ini)).map stripped)
      else Settings.spoofCallers {} := by
  have hrun := (reads_fromIni fromUtf8 ini).run ini.rejected
  have hini : fromIni fromUtf8 ini = (settingsOf fromUtf8 ini, _) := hrun
  rw [hini, ← splitModules_eq]
  rfl

/-! ### Names -/

/-- Whitespace. -/
def isWhite : Char → Bool := onChars isSpace

/-- The name of a module as the setting lists it. -/
structure ModuleName (name : List Char) : Prop where
  nonempty : name ≠ []
  noComma : ',' ∉ name
  /-- There is no whitespace at its ends. -/
  bare : Bare isWhite name
  notNone : name ≠ "none".toList

instance (name : List Char) : Decidable (ModuleName name) :=
  decidable_of_iff (name ≠ [] ∧ ',' ∉ name ∧ Bare isWhite name ∧ name ≠ "none".toList)
    ⟨fun ⟨h1, h2, h3, h4⟩ => ⟨h1, h2, h3, h4⟩, fun h => ⟨h.nonempty, h.noComma, h.bare, h.notNone⟩⟩

/-- A name among whitespace. -/
def Spaced (name : List Char) (item : Bytes) : Prop :=
  ∃ before after, Padding isSpace before ∧ Padding isSpace after ∧ item = before ++ utf8 name ++ after

/-- The text of a list of names, with any whitespace around the commas. -/
def ListText (names : List (List Char)) (value : Bytes) : Prop :=
  ∃ items, List.Forall₂ Spaced names items ∧ value = [kComma].intercalate items

/-- Whitespace is ASCII. -/
theorem isSpace_lt (b : UInt8) (h : isSpace b = true) : b.toNat < 128 := by
  unfold isSpace at h
  rw [Bool.or_eq_true, beq_iff_eq, Bool.and_eq_true, decide_eq_true_iff, decide_eq_true_iff] at h
  rcases h with rfl | ⟨-, hhigh⟩
  · decide
  · have := UInt8.le_iff_toNat_le.mp hhigh
    exact this.trans_lt (by decide)

/-- Nothing is left of whitespace. -/
theorem stripped_padding {gap : Bytes} (h : Padding isSpace gap) : stripped gap = [] :=
  List.filter_eq_nil_iff.mpr fun c hc => by rw [h c hc]; decide

/-- Without its whitespace an item is the name without whitespace. -/
theorem stripped_spaced {name : List Char} {item : Bytes} (h : Spaced name item) :
    stripped item = utf8 (name.filter fun c => !isWhite c) := by
  obtain ⟨before, after, hbefore, hafter, rfl⟩ := h
  have happend : stripped (before ++ utf8 name ++ after) =
      stripped before ++ stripped (utf8 name) ++ stripped after := by
    unfold stripped
    rw [List.filter_append, List.filter_append]
  rw [happend, stripped_padding hbefore, stripped_padding hafter, List.nil_append, List.append_nil]
  exact filter_utf8 isSpace_lt name

/-- A module's name, spaced, holds no comma. -/
theorem comma_notMem {name : List Char} (hname : ModuleName name) {item : Bytes} (h : Spaced name item) :
    kComma ∉ item := by
  obtain ⟨before, after, hbefore, hafter, rfl⟩ := h
  have hgap : ∀ {gap : Bytes}, Padding isSpace gap → kComma ∉ gap := by
    intro gap hgap hcomma
    exact absurd (hgap kComma hcomma) (by decide)
  have hutf8 : kComma ∉ utf8 name := by
    intro hcomma
    obtain ⟨c, hc, hin⟩ := List.mem_flatMap.mp hcomma
    have hnat : c.toNat = 44 := (utf8EncodeChar_eq (by decide) hin).2
    have hchar : c = ',' := Char.toNat_inj.mp hnat
    exact hname.noComma (hchar ▸ hc)
  rw [List.mem_append, List.mem_append, not_or, not_or]
  exact ⟨⟨hgap hbefore, hutf8⟩, hgap hafter⟩

/-- A name without its whitespace, as the reader keeps it. -/
def squeezed (name : List Char) : Bytes := utf8 (name.filter fun c => !isWhite c)

/-- So a list of spaced names is split into them. -/
theorem spaced_texts {names : List (List Char)} {texts : List Bytes} (h : List.Forall₂ Spaced names texts)
    (hnames : ∀ name ∈ names, ModuleName name) :
    (∀ text ∈ texts, kComma ∉ text) ∧ texts.map stripped = names.map squeezed := by
  induction h with
  | nil => exact ⟨fun text htext => absurd htext List.not_mem_nil, rfl⟩
  | cons hspaced _ ih =>
    obtain ⟨hcomma, hmap⟩ := ih fun name hname => hnames name (List.mem_cons_of_mem _ hname)
    constructor
    · exact List.forall_mem_cons.mpr ⟨comma_notMem (hnames _ List.mem_cons_self) hspaced, hcomma⟩
    · rw [List.map_cons, List.map_cons, hmap, stripped_spaced hspaced]
      rfl

/-- The items of a list of names are the names, without whitespace. -/
theorem map_stripped_items {names : List (List Char)} (hne : names ≠ [])
    (hnames : ∀ name ∈ names, ModuleName name) {value : Bytes} (h : ListText names value) :
    (items value).map stripped = names.map squeezed := by
  obtain ⟨texts, htexts, rfl⟩ := h
  obtain ⟨hcomma, hmap⟩ := spaced_texts htexts hnames
  have htextsne : texts ≠ [] := by
    rintro rfl
    exact hne (List.forall₂_nil_right_iff.mp htexts)
  have hitems : items ([kComma].intercalate texts) = texts :=
    List.splitOn_intercalate kComma hcomma htextsne
  rw [hitems, hmap]

/-- A list of names has a value. -/
theorem ListText.ne_nil {names : List (List Char)} (hne : names ≠ [])
    (hnames : ∀ name ∈ names, ModuleName name) {value : Bytes} (h : ListText names value) : value ≠ [] := by
  rintro rfl
  have hmap := map_stripped_items hne hnames h
  obtain ⟨name, others, rfl⟩ := List.exists_cons_of_ne_nil hne
  have hfirst : [] = squeezed name := (List.cons.inj hmap).1
  have hname := hnames name List.mem_cons_self
  obtain ⟨c, rest, rfl⟩ := List.exists_cons_of_ne_nil hname.nonempty
  have hblack : (!isWhite c) = true := by rw [hname.bare.first c rfl]; rfl
  unfold squeezed at hfirst
  rw [List.filter_cons_of_pos (p := fun c => !isWhite c) hblack] at hfirst
  exact String.utf8EncodeChar_ne_nil (List.append_eq_nil_iff.mp hfirst.symm).1

/-- Names are read as written where they hold no whitespace. -/
theorem modulesOf_squeezed_iff {fromUtf8 : Bytes → WString} (hdecodes : Decodes fromUtf8)
    {names : List (List Char)} (hnames : ∀ name ∈ names, ModuleName name) :
    modulesOf fromUtf8 (names.map squeezed) = names.map utf16 ↔
      ∀ name ∈ names, ∀ c ∈ name, isWhite c = false := by
  have hkept : ∀ name : List Char, name.filter (fun c => !isWhite c) = name ↔
      ∀ c ∈ name, isWhite c = false := by
    intro name
    rw [List.filter_eq_self]
    exact forall₂_congr fun c _ => Bool.not_eq_eq_eq_not
  unfold modulesOf
  constructor
  · intro h name hname
    have hlength : ((names.map squeezed).filter Names).length = (names.map squeezed).length := by
      have := congrArg List.length h
      rw [List.length_map, List.length_map] at this
      rw [this, List.length_map]
    rw [List.filter_eq_self.mpr (List.length_filter_eq_length_iff.mp hlength), List.map_map] at h
    have hsame := List.map_inj_left.mp h name hname
    change fromUtf8 (utf8 (name.filter fun c => !isWhite c)) = utf16 name at hsame
    rw [hdecodes] at hsame
    exact (hkept name).mp (utf16_filter_eq hsame)
  · intro h
    have hsqueezed : names.map squeezed = names.map utf8 := by
      refine List.map_congr_left fun name hname => ?_
      unfold squeezed
      rw [(hkept name).mpr (h name hname)]
    have hall : ∀ item ∈ names.map utf8, decide (Names item) = true := by
      rintro _ hitem
      obtain ⟨name, hname, rfl⟩ := List.mem_map.mp hitem
      have hmodule := hnames name hname
      refine decide_eq_true ⟨fun hnil => hmodule.nonempty (utf8_injective hnil), fun hnone => ?_⟩
      have htext : utf8 "none".toList = ascii "none" := by decide
      exact hmodule.notNone (utf8_injective (hnone.trans htext.symm))
    rw [hsqueezed, List.filter_eq_self.mpr hall, List.map_map]
    exact List.map_congr_left fun name _ => hdecodes name

/-! ### Nobody named -/

/-- Whether a value holds the item `none`. -/
def HoldsNone (value : Bytes) : Prop := ∃ item ∈ items value, trim isSpace item = ascii "none"

/-- Nobody is named where every item is empty or `none` without its whitespace. -/
theorem modulesOf_eq_nil_iff {fromUtf8 : Bytes → WString} {value : Bytes} :
    modulesOf fromUtf8 ((items value).map stripped) = [] ↔
      ∀ item ∈ items value, ¬Names (stripped item) := by
  unfold modulesOf
  rw [List.map_eq_nil_iff, List.filter_eq_nil_iff, List.forall_mem_map]
  exact forall₂_congr fun item _ => not_congr decide_eq_true_iff

/-- Everyone is told without the item `none` exactly where a value is there and each of
its items is empty or `none` once its whitespace is dropped. -/
theorem everyone_told_iff (fromUtf8 : Bytes → WString) (ini : Ini) :
    ((fromIni fromUtf8 ini).1.spoofCallers = [] → HoldsNone (setting ini)) ↔
      setting ini = [] ∨ HoldsNone (setting ini) ∨ ∃ item ∈ items (setting ini), Names (stripped item) := by
  rw [spoofCallers_fromIni]
  by_cases hvalue : setting ini = []
  · rw [if_neg (not_not.mpr hvalue)]
    refine iff_of_true (fun hnil => ?_) (Or.inl hvalue)
    exact absurd hnil (List.cons_ne_nil _ _)
  · rw [if_pos hvalue, modulesOf_eq_nil_iff]
    constructor
    · intro h
      refine Or.inr (or_iff_not_imp_right.mpr fun hnames => h fun item hitem hname => ?_)
      exact hnames ⟨item, hitem, hname⟩
    · rintro (h | h | ⟨item, hitem, hname⟩) hall
      · exact absurd h hvalue
      · exact h
      · exact absurd hname (hall item hitem)

/-- A list of names is read as written exactly where no name holds whitespace, and everyone
is told without the item `none` exactly where a value is there and no item of it is left. -/
theorem setting_read_iff {fromUtf8 : Bytes → WString} (hdecodes : Decodes fromUtf8) :
    (∀ (names : List (List Char)) (value : Bytes) (ini : Ini), names ≠ [] →
      (∀ name ∈ names, ModuleName name) → ListText names value →
      ini.find (ascii "Compatibility") (ascii "SpoofCallers") = some value →
      ((fromIni fromUtf8 ini).1.spoofCallers = names.map utf16 ↔
        ∀ name ∈ names, ∀ c ∈ name, isWhite c = false)) ∧
      ∀ ini : Ini, ((fromIni fromUtf8 ini).1.spoofCallers = [] → HoldsNone (setting ini)) ↔
        setting ini = [] ∨ HoldsNone (setting ini) ∨
          ∃ item ∈ items (setting ini), Names (stripped item) := by
  refine ⟨fun names value ini hne hnames hvalue hfind => ?_, everyone_told_iff fromUtf8⟩
  have hsetting : setting ini = value := by
    unfold setting Ini.getString
    rw [hfind]
    rfl
  rw [spoofCallers_fromIni, hsetting, if_pos (hvalue.ne_nil hne hnames),
    map_stripped_items hne hnames hvalue]
  exact modulesOf_squeezed_iff hdecodes hnames

/-- Two of the default's names, with a space after the comma. -/
def twoNames : List (List Char) := ["sl.common.dll".toList, "_nvngx.dll".toList]

/-- The list as it is written. -/
theorem twoNames_text : ListText twoNames (ascii "sl.common.dll, _nvngx.dll") :=
  ⟨[ascii "sl.common.dll", ascii " _nvngx.dll"],
    .cons ⟨[], [], by decide, by decide, by decide⟩
      (.cons ⟨ascii " ", [], by decide, by decide, by decide⟩ .nil), by decide⟩

/-- Neither of its names holds whitespace. -/
theorem twoNames_black : ∀ name ∈ twoNames, ∀ c ∈ name, isWhite c = false := by
  have hall : (twoNames.all fun name => name.all fun c => !isWhite c) = true := by decide +kernel
  intro name hname c hc
  have hblack := List.all_eq_true.mp (List.all_eq_true.mp hall name hname) c hc
  exact Bool.eq_false_of_not_eq_true' hblack

/-- A file that lists them. -/
def twoListed : Ini := (load (some (ascii "[Compatibility]\nSpoofCallers = sl.common.dll, _nvngx.dll"))).2

/-- It is read as the two names. -/
theorem setting_read_twoNames :
    (fromIni decode twoListed).1.spoofCallers = [wide "sl.common.dll", wide "_nvngx.dll"] := by
  have hiff := (setting_read_iff decodes_decode).1 twoNames (ascii "sl.common.dll, _nvngx.dll") twoListed
    (by decide) (by decide +kernel) twoNames_text (by decide +kernel)
  exact (hiff.mpr twoNames_black).trans (by decide +kernel)

/-- A file with one name that holds a space. -/
def spacedName : Ini := (load (some (ascii "[Compatibility]\nSpoofCallers=my game.dll"))).2

/-- A file with a comma for a list. -/
def commaAlone : Ini := (load (some (ascii "[Compatibility]\nSpoofCallers=,"))).2

/-- A name with a space loses it, and a comma alone is the empty list. -/
theorem setting_misread :
    ModuleName "my game.dll".toList ∧ setting spacedName = utf8 "my game.dll".toList ∧
      (fromIni decode spacedName).1.spoofCallers = [wide "mygame.dll"] ∧
      (fromIni decode spacedName).1.spoofCallers ≠ ["my game.dll".toList].map utf16 ∧
      setting commaAlone = ascii "," ∧ ¬HoldsNone (setting commaAlone) ∧
      (fromIni decode commaAlone).1.spoofCallers = [] := by
  have hspaced : setting spacedName = utf8 "my game.dll".toList := by decide +kernel
  have hcomma : setting commaAlone = ascii "," := by decide +kernel
  have hread : (fromIni decode spacedName).1.spoofCallers = [wide "mygame.dll"] := by
    have hmodules : modulesOf decode ((items (utf8 "my game.dll".toList)).map stripped) =
        [decode (utf8 "mygame.dll".toList)] := by
      have hstripped : (items (utf8 "my game.dll".toList)).map stripped = [utf8 "mygame.dll".toList] := by
        decide +kernel
      have hnames : decide (Names (utf8 "mygame.dll".toList)) = true := by decide
      unfold modulesOf
      rw [hstripped, List.filter_cons_of_pos (p := fun item => decide (Names item)) hnames]
      rfl
    rw [spoofCallers_fromIni, hspaced, if_pos (by decide), hmodules, decodes_decode]
    decide
  have hnobody : (fromIni decode commaAlone).1.spoofCallers = [] := by
    rw [spoofCallers_fromIni, hcomma, if_pos (by decide), modulesOf_eq_nil_iff]
    decide
  refine ⟨by decide +kernel, hspaced, hread, ?_, hcomma, ?_, hnobody⟩
  · rw [hread]
    decide
  · rw [hcomma]
    unfold HoldsNone
    decide

end OpenDlssg.SpoofCallersSetting
