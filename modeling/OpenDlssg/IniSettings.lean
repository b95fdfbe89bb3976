import OpenDlssg.IniFile
import OpenDlssg.SpoofCallers

/-!
# The settings of a settings file

Each setting is read from its key, checked against its range and replaced by its
default where the file has no value or a bad one. A bad value is reported once,
by the reader that finds it bad; the defaults pass the checks that come after.
-/

namespace OpenDlssg.IniSettings

open ByteCodec ByteSearch WidePaths IniFile SpoofCallers

/-- The text of a number, `std::to_string`. -/
def toText (n : ℤ) : Bytes := if n < 0 then ascii "-" ++ toDecimal n.natAbs else toDecimal n.natAbs

/-- Read a switch. -/
def getBool (sect key : Bytes) (fallback : Bool) : StateM Ini Bool := fun ini =>
  ini.getBool sect key fallback

/-- Read a whole number. -/
def getInt (sect key : Bytes) (fallback : ℤ) : StateM Ini ℤ := fun ini => ini.getInt sect key fallback

/-- Read a text. -/
def getString (sect key fallback : Bytes) : StateM Ini Bytes := fun ini =>
  (ini.getString sect key fallback, ini)

/-- Report a value. -/
def reject (sect key reason : Bytes) : StateM Ini Unit := fun ini => ((), ini.reject sect key reason)

/-- Read an integer and reject it when it is not accepted. -/
def readChecked (sect key : Bytes) (fallback : ℤ) (accepts : ℤ → Bool) (complaint : ℤ → Bytes) :
    StateM Ini ℤ := do
  let value ← getInt sect key fallback
  if accepts value then return value
  reject sect key (complaint value)
  return fallback

/-- Read an integer and reject it when it falls outside a range. -/
def readRange (sect key : Bytes) (fallback low high : ℤ) : StateM Ini ℤ :=
  readChecked sect key fallback (fun value => low ≤ value ∧ value ≤ high) fun value =>
    toText value ++ ascii " is outside " ++ toText low ++ ascii ".." ++ toText high

/-- Read an integer that is 0 for "not set", or in a range. -/
def readOptionalRange (sect key : Bytes) (low high : ℤ) : StateM Ini ℤ :=
  readChecked sect key 0 (fun value => value = 0 ∨ low ≤ value ∧ value ≤ high) fun value =>
    toText value ++ ascii " is neither 0 nor within " ++ toText low ++ ascii ".." ++ toText high

/-- The comma. -/
def kComma : UInt8 := 44

/-- Take a character of a module list: the modules so far, and the item under way. -/
def splitStep (fromUtf8 : Bytes → WString) (split : List WString × Bytes) (c : UInt8) :
    List WString × Bytes :=
  if c ≠ kComma then
    if !isSpace c then (split.1, split.2 ++ [c]) else split
  else if split.2 ≠ [] ∧ split.2 ≠ ascii "none" then (split.1 ++ [fromUtf8 split.2], [])
  else (split.1, [])

/-- A comma-separated module list. "none" clears it, which makes the spoof
unconditional. The parameter converts UTF-8 to wide characters. -/
def splitModules (fromUtf8 : Bytes → WString) (value : Bytes) : List WString :=
  ((value ++ [kComma]).foldl (splitStep fromUtf8) ([], [])).1

/-- The lowest level that is written, for a setting of 0 to 3. -/
def levelFromSetting (setting : ℤ) : LogLevel :=
  if setting = 0 then .off
  else if setting = 1 then .warning
  else if setting = 2 then .info
  else .trace

/-- Read the runtime's mode, its letters lowered. -/
def readMode : StateM Ini Bytes := do
  let mode ← getString (ascii "Runtime") (ascii "Mode") (ascii "Off")
  let mode := lower mode
  if mode ≠ ascii "off" ∧ mode ≠ ascii "bundled" then
    reject (ascii "Runtime") (ascii "Mode") (ascii "'" ++ mode ++ ascii "' is neither Off nor Bundled")
  return mode

/-- The settings of a settings file. -/
def fromIni (fromUtf8 : Bytes → WString) : StateM Ini Settings := do
  let s : Settings := {}
  let enabled ← getBool (ascii "General") (ascii "Enabled") s.enabled
  let spoofArchToGame ← getBool (ascii "Compatibility") (ascii "SpoofArchToGame") s.spoofArchToGame
  let callers ← getString (ascii "Compatibility") (ascii "SpoofCallers") []
  let patchFlipMetering ← getBool (ascii "Compatibility") (ascii "PatchFlipMetering") s.patchFlipMetering
  let flipMeteringValue ← readRange (ascii "Compatibility") (ascii "FlipMeteringValue") (-1) (-1) 1
  let patchFrameClamp ← getBool (ascii "Compatibility") (ascii "PatchFrameClamp") s.patchFrameClamp
  let stubScgPriority ← getBool (ascii "Compatibility") (ascii "StubScgPriority") s.stubScgPriority
  let forceMultiplier ← readOptionalRange (ascii "FrameGeneration") (ascii "ForceMultiplier") 2 6
  let multiFrame ← getBool (ascii "FrameGeneration") (ascii "MultiFrame") s.multiFrame
  let retargetKernels ← getBool (ascii "Kernels") (ascii "Retarget") s.retargetKernels
  let targetSm ← readOptionalRange (ascii "Kernels") (ascii "TargetSM") 50 200
  let vulkanHooks ← getBool (ascii "Kernels") (ascii "VulkanHooks") s.vulkanHooks
  let mode ← readMode
  let runtimeFile ← getString (ascii "Runtime") (ascii "RuntimeFile") []
  let streamlineDiagnostics ←
    getBool (ascii "Debug") (ascii "StreamlineDiagnostics") s.streamlineDiagnostics
  let dumpKernels ← getBool (ascii "Debug") (ascii "DumpKernels") s.dumpKernels
  let level ← readRange (ascii "Logging") (ascii "Level") 1 0 3
  let directory ← getString (ascii "Logging") (ascii "Directory") []
  return {
    enabled, spoofArchToGame, patchFlipMetering, flipMeteringValue, patchFrameClamp, stubScgPriority,
    forceMultiplier, multiFrame, retargetKernels, targetSm, vulkanHooks, streamlineDiagnostics,
    dumpKernels
    spoofCallers := if callers ≠ [] then splitModules fromUtf8 callers else s.spoofCallers
    redirectRuntime := mode == ascii "bundled"
    runtimeFile := if runtimeFile ≠ [] then fromUtf8 runtimeFile else s.runtimeFile
    logLevel := levelFromSetting level
    logDirectory := if directory ≠ [] then fromUtf8 directory else s.logDirectory }

/-! ### Readers -/

/-- What a reader returns. -/
def valueOf {α : Type} (reader : StateM Ini α) (ini : Ini) : α := (reader ⟨ini.sections, []⟩).1

/-- What a reader reports. -/
def ownOf {α : Type} (reader : StateM Ini α) (ini : Ini) : List Bytes :=
  (reader ⟨ini.sections, []⟩).2.rejected

/-- A run of a reader: it depends on the values alone and adds to what was reported. -/
structure Reads {α : Type} (ini : Ini) (reader : StateM Ini α) (value : α) (own : List Bytes) : Prop where
  run : ∀ rejected, reader ⟨ini.sections, rejected⟩ = (value, ⟨ini.sections, rejected ++ own⟩)

namespace Reads

variable {α β : Type} {ini : Ini} {reader : StateM Ini α} {value : α} {own : List Bytes}

/-- A value that is given reports nothing. -/
theorem pure (ini : Ini) (value : α) : Reads ini (Pure.pure value) value [] where
  run rejected := by
    rw [List.append_nil]
    rfl

/-- A reader that goes on reports for both of its halves. -/
theorem bind {next : α → StateM Ini β} {value' : β} {own' : List Bytes}
    (h : Reads ini reader value own) (h' : Reads ini (next value) value' own') :
    Reads ini (reader >>= next) value' (own ++ own') where
  run rejected := by
    change next (reader ⟨ini.sections, rejected⟩).1 (reader ⟨ini.sections, rejected⟩).2 = _
    rw [h.run]
    change next value ⟨ini.sections, rejected ++ own⟩ = _
    rw [h'.run, List.append_assoc]

/-- A reader has the value it reads. -/
theorem valueOf_eq (h : Reads ini reader value own) : valueOf reader ini = value := by
  rw [valueOf, h.run]

/-- It reports what it reports of its own. -/
theorem ownOf_eq (h : Reads ini reader value own) : ownOf reader ini = own := by
  rw [ownOf, h.run, List.nil_append]

/-- The value of a reader and its reports are those of any of its runs. -/
theorem canonical (h : Reads ini reader value own) :
    Reads ini reader (valueOf reader ini) (ownOf reader ini) := by
  rw [h.valueOf_eq, h.ownOf_eq]
  exact h

end Reads

/-- A text is read without a report. -/
theorem reads_getString (ini : Ini) (sect key fallback : Bytes) :
    Reads ini (getString sect key fallback) (ini.getString sect key fallback) [] where
  run rejected := by
    rw [List.append_nil]
    rfl

/-- A rejection is its own report. -/
theorem reads_reject (ini : Ini) (sect key reason : Bytes) :
    Reads ini (reject sect key reason) () [rejection sect key reason] where
  run _ := rfl

/-- A whole number as it is written: digits, with a minus sign or without, in the range
of an `int`. -/
def WholeNumber (text : Bytes) (n : ℤ) : Prop :=
  ∃ digits : Bytes, digits ≠ [] ∧ (∀ c ∈ digits, isDigit c = true) ∧
    (text = digits ∧ n = decimalValue digits ∨ text = 45 :: digits ∧ n = -(decimalValue digits : ℤ)) ∧
    -2 ^ 31 ≤ n ∧ n < 2 ^ 31

/-- A number is taken whole where there are digits alone and it fits. -/
theorem fromDigits_iff {negative : Bool} {unsigned : Bytes} {n : ℤ} :
    fromDigits negative unsigned = some (n, []) ↔
      unsigned ≠ [] ∧ (∀ c ∈ unsigned, isDigit c = true) ∧
        n = (if negative then -(decimalValue unsigned : ℤ) else decimalValue unsigned) ∧
        -2 ^ 31 ≤ n ∧ n < 2 ^ 31 := by
  unfold fromDigits
  dsimp only
  constructor
  · intro h
    generalize hvalue : (if negative = true then -(decimalValue (unsigned.takeWhile isDigit) : ℤ)
      else decimalValue (unsigned.takeWhile isDigit)) = value at h
    split at h
    · cases h
    · rename_i hfits
      obtain ⟨rfl, hrest⟩ := Prod.mk.inj (Option.some.inj h)
      rw [not_or, not_or, not_lt, not_le] at hfits
      have hall : unsigned.takeWhile isDigit = unsigned :=
        (List.takeWhile_prefix isDigit).eq_of_length_le (List.drop_eq_nil_iff.mp hrest)
      rw [hall] at hfits hvalue
      exact ⟨hfits.1, List.takeWhile_eq_self_iff.mp hall, hvalue.symm, hfits.2.1, hfits.2.2⟩
  · rintro ⟨hne, hdigits, hvalue, hlow, hhigh⟩
    rw [List.takeWhile_eq_self_iff.mpr hdigits, ← hvalue, List.drop_length,
      if_neg (by rw [not_or, not_or, not_lt, not_le]; exact ⟨hne, hlow, hhigh⟩)]

/-- What `std::from_chars` takes whole is a whole number. -/
theorem fromChars_iff {text : Bytes} {n : ℤ} : fromChars text = some (n, []) ↔ WholeNumber text n := by
  unfold fromChars
  by_cases hsign : text.head? = some 45
  · obtain ⟨unsigned, rfl⟩ := List.head?_eq_some_iff.mp hsign
    rw [if_pos hsign, List.tail_cons, fromDigits_iff]
    constructor
    · rintro ⟨hne, hdigits, hvalue, hrange⟩
      exact ⟨unsigned, hne, hdigits, Or.inr ⟨rfl, hvalue⟩, hrange⟩
    · rintro ⟨digits, hne, hdigits, ⟨rfl, -⟩ | ⟨htext, hvalue⟩, hrange⟩
      · exact absurd (hdigits 45 List.mem_cons_self) (by decide)
      · cases htext
        exact ⟨hne, hdigits, hvalue, hrange⟩
  · rw [if_neg hsign, fromDigits_iff]
    constructor
    · rintro ⟨hne, hdigits, hvalue, hrange⟩
      exact ⟨text, hne, hdigits, Or.inl ⟨rfl, hvalue⟩, hrange⟩
    · rintro ⟨digits, hne, hdigits, ⟨rfl, hvalue⟩ | ⟨rfl, -⟩, hrange⟩
      · exact ⟨hne, hdigits, hvalue, hrange⟩
      · exact absurd rfl hsign

/-- A text is one number at most. -/
theorem WholeNumber.unique {text : Bytes} {n m : ℤ} (hn : WholeNumber text n) (hm : WholeNumber text m) :
    n = m := by
  have hsame := (fromChars_iff.mpr hn).symm.trans (fromChars_iff.mpr hm)
  exact (Prod.mk.inj (Option.some.inj hsame)).1

/-- What was reported does not matter to a value. -/
theorem find_sections (ini : Ini) (rejected : List Bytes) (sect key : Bytes) :
    Ini.find ⟨ini.sections, rejected⟩ sect key = ini.find sect key := rfl

/-- A key has one text. -/
theorem of_find {ini : Ini} {sect key text : Bytes} {P : Bytes → Prop}
    (hfind : ini.find sect key = some text) (h : P text) :
    ∀ other, ini.find sect key = some other → other ≠ [] → P other := by
  intro other hother _
  rw [hfind] at hother
  rw [← Option.some.inj hother]
  exact h

/-- What reading a whole number comes to: the number, or the fallback and a report. -/
structure IntOutcome (ini : Ini) (sect key : Bytes) (fallback : ℤ) (value : ℤ) (own : List Bytes) :
    Prop where
  /-- Without a value nothing is reported. -/
  missing : (∀ text, ini.find sect key = some text → text = []) → value = fallback ∧ own = []
  present : ∀ text, ini.find sect key = some text → text ≠ [] →
    WholeNumber text value ∧ own = [] ∨
      (∀ n, ¬WholeNumber text n) ∧ value = fallback ∧ ∃ reason, own = [rejection sect key reason]

section Number

variable {ini : Ini} {sect key : Bytes} (fallback : ℤ)

/-- A number that is missing or empty is the fallback. -/
theorem getInt_missing (hmissing : ∀ text, ini.find sect key = some text → text = []) :
    Reads ini (getInt sect key fallback) fallback [] where
  run rejected := by
    unfold getInt Ini.getInt
    rw [find_sections, List.append_nil]
    cases hfind : ini.find sect key with
    | none => rfl
    | some text => exact if_pos (hmissing text hfind)

/-- A number is read. -/
theorem getInt_number {text : Bytes} {n : ℤ} (hfind : ini.find sect key = some text) (hne : text ≠ [])
    (hn : WholeNumber text n) : Reads ini (getInt sect key fallback) n [] where
  run rejected := by
    unfold getInt Ini.getInt
    rw [find_sections, hfind, List.append_nil]
    dsimp only
    rw [if_neg hne, fromChars_iff.mpr hn]

/-- Anything else is rejected, and the fallback stands. -/
theorem getInt_other {text : Bytes} (hfind : ini.find sect key = some text) (hne : text ≠ [])
    (hnone : ∀ n, ¬WholeNumber text n) :
    Reads ini (getInt sect key fallback) fallback
      [rejection sect key (ascii "'" ++ text ++ ascii "' is not a whole number")] where
  run rejected := by
    unfold getInt Ini.getInt
    rw [find_sections, hfind]
    dsimp only
    rw [if_neg hne]
    cases hchars : fromChars text with
    | none => rfl
    | some parsed =>
      obtain ⟨n, rest⟩ := parsed
      cases rest with
      | nil => exact absurd (fromChars_iff.mp hchars) (hnone n)
      | cons c rest => rfl

end Number

/-- Reading a number has one of the three outcomes. -/
theorem reads_getInt (ini : Ini) (sect key : Bytes) (fallback : ℤ) :
    ∃ value own, Reads ini (getInt sect key fallback) value own ∧
      IntOutcome ini sect key fallback value own := by
  by_cases hmissing : ∀ text, ini.find sect key = some text → text = []
  · exact ⟨fallback, [], getInt_missing fallback hmissing, fun _ => ⟨rfl, rfl⟩,
      fun text htext hne => absurd (hmissing text htext) hne⟩
  · push Not at hmissing
    obtain ⟨text, hfind, hne⟩ := hmissing
    have hpresent : ¬∀ text, ini.find sect key = some text → text = [] := fun h => hne (h text hfind)
    by_cases hnumber : ∃ n, WholeNumber text n
    · obtain ⟨n, hn⟩ := hnumber
      exact ⟨n, [], getInt_number fallback hfind hne hn, fun h => absurd h hpresent,
        of_find hfind (Or.inl ⟨hn, rfl⟩)⟩
    · push Not at hnumber
      exact ⟨fallback, _, getInt_other fallback hfind hne hnumber, fun h => absurd h hpresent,
        of_find hfind (Or.inr ⟨hnumber, rfl, _, rfl⟩)⟩

/-- What reading a checked number comes to: a number that is accepted, or the fallback
and one report. -/
structure CheckedOutcome (ini : Ini) (sect key : Bytes) (fallback : ℤ) (accepts : ℤ → Bool) (value : ℤ)
    (own : List Bytes) : Prop where
  accepted : accepts value = true
  reports : ∀ e ∈ own, ∃ reason, e = rejection sect key reason
  present : ∀ text, ini.find sect key = some text → text ≠ [] →
    WholeNumber text value ∧ own = [] ∨
      (∀ n, WholeNumber text n → accepts n = false) ∧ value = fallback ∧ own.length = 1

/-- A checked number is rejected once: where it is no number the fallback is accepted. -/
theorem reads_readChecked (ini : Ini) (sect key : Bytes) {fallback : ℤ} {accepts : ℤ → Bool}
    (hfallback : accepts fallback = true) (complaint : ℤ → Bytes) :
    ∃ value own, Reads ini (readChecked sect key fallback accepts complaint) value own ∧
      CheckedOutcome ini sect key fallback accepts value own := by
  obtain ⟨value, own, hreads, houtcome⟩ := reads_getInt ini sect key fallback
  by_cases hfound : ∀ text, ini.find sect key = some text → text = []
  · obtain ⟨rfl, rfl⟩ := houtcome.missing hfound
    refine ⟨value, [] ++ [], hreads.bind ?_, hfallback, fun e he => absurd he List.not_mem_nil, ?_⟩
    · rw [if_pos hfallback]
      exact Reads.pure ini value
    · exact fun text htext hne => absurd (hfound text htext) hne
  · push Not at hfound
    obtain ⟨text, htext, hne⟩ := hfound
    rcases houtcome.present text htext hne with ⟨hnumber, rfl⟩ | ⟨hnone, rfl, reason, rfl⟩
    · cases haccepts : accepts value with
      | true =>
        refine ⟨value, [] ++ [], hreads.bind ?_, haccepts, fun e he => absurd he List.not_mem_nil, ?_⟩
        · rw [if_pos haccepts]
          exact Reads.pure ini value
        · exact of_find htext (Or.inl ⟨hnumber, rfl⟩)
      | false =>
        refine ⟨fallback, [] ++ ([rejection sect key (complaint value)] ++ []), hreads.bind ?_, hfallback,
          ?_, ?_⟩
        · rw [if_neg (Bool.eq_false_iff.mp haccepts)]
          exact (reads_reject ini sect key (complaint value)).bind (Reads.pure ini fallback)
        · exact fun e he => ⟨complaint value, List.mem_singleton.mp he⟩
        · refine of_find htext (Or.inr ⟨fun n hn => ?_, rfl, rfl⟩)
          rw [hn.unique hnumber]
          exact haccepts
    · refine ⟨value, [rejection sect key reason] ++ [], hreads.bind ?_, hfallback, ?_, ?_⟩
      · rw [if_pos hfallback]
        exact Reads.pure ini value
      · exact fun e he => ⟨reason, List.mem_singleton.mp he⟩
      · exact of_find htext (Or.inr ⟨fun n h => absurd h (hnone n), rfl, rfl⟩)

/-- A switch as it is written. -/
def SwitchSpelling (text : Bytes) (on : Bool) : Prop := lower text ∈ if on then kTrue else kFalse

/-- What reading a switch comes to: the switch, or the fallback and one report. -/
structure SwitchOutcome (ini : Ini) (sect key : Bytes) (fallback value : Bool) (own : List Bytes) :
    Prop where
  reports : ∀ e ∈ own, ∃ reason, e = rejection sect key reason
  present : ∀ text, ini.find sect key = some text → text ≠ [] →
    SwitchSpelling text value ∧ own = [] ∨
      (∀ on, ¬SwitchSpelling text on) ∧ value = fallback ∧ own.length = 1

/-- No text is a switch that is on and off. -/
theorem kTrue_kFalse {text : Bytes} (htrue : text ∈ kTrue) : text ∉ kFalse := by
  have hapart : ∀ text ∈ kTrue, text ∉ kFalse := by decide
  exact hapart text htrue

section Switch

variable {ini : Ini} {sect key : Bytes} (fallback : Bool)

/-- A switch that is missing or empty is the fallback. -/
theorem getBool_missing (hmissing : ∀ text, ini.find sect key = some text → text = []) :
    Reads ini (getBool sect key fallback) fallback [] where
  run rejected := by
    unfold getBool Ini.getBool
    rw [find_sections, List.append_nil]
    cases hfind : ini.find sect key with
    | none => rfl
    | some text => exact if_pos (hmissing text hfind)

/-- A switch is read. -/
theorem getBool_switch {text : Bytes} {on : Bool} (hfind : ini.find sect key = some text)
    (hne : text ≠ []) (hon : SwitchSpelling text on) : Reads ini (getBool sect key fallback) on [] where
  run rejected := by
    unfold getBool Ini.getBool
    rw [find_sections, hfind, List.append_nil]
    dsimp only
    rw [if_neg hne]
    cases on with
    | true => exact if_pos hon
    | false =>
      have htrue : lower text ∉ kTrue := fun htrue => kTrue_kFalse htrue hon
      rw [if_neg htrue]
      exact if_pos hon

/-- Anything else is rejected, and the fallback stands. -/
theorem getBool_other {text : Bytes} (hfind : ini.find sect key = some text) (hne : text ≠ [])
    (hneither : ∀ on, ¬SwitchSpelling text on) :
    Reads ini (getBool sect key fallback) fallback
      [rejection sect key (ascii "'" ++ text ++ ascii "' is not 0 or 1")] where
  run rejected := by
    unfold getBool Ini.getBool
    rw [find_sections, hfind]
    dsimp only
    have htrue : lower text ∉ kTrue := hneither true
    have hfalse : lower text ∉ kFalse := hneither false
    rw [if_neg hne, if_neg htrue, if_neg hfalse]
    rfl

end Switch

/-- Reading a switch has one of the three outcomes. -/
theorem reads_getBool (ini : Ini) (sect key : Bytes) (fallback : Bool) :
    ∃ value own, Reads ini (getBool sect key fallback) value own ∧
      SwitchOutcome ini sect key fallback value own := by
  have hnothing : ∀ e ∈ ([] : List Bytes), ∃ reason, e = rejection sect key reason :=
    fun e he => absurd he List.not_mem_nil
  by_cases hmissing : ∀ text, ini.find sect key = some text → text = []
  · exact ⟨fallback, [], getBool_missing fallback hmissing, hnothing,
      fun text htext hne => absurd (hmissing text htext) hne⟩
  · push Not at hmissing
    obtain ⟨text, hfind, hne⟩ := hmissing
    by_cases hswitch : ∃ on, SwitchSpelling text on
    · obtain ⟨on, hon⟩ := hswitch
      exact ⟨on, [], getBool_switch fallback hfind hne hon, hnothing, of_find hfind (Or.inl ⟨hon, rfl⟩)⟩
    · rw [not_exists] at hswitch
      exact ⟨fallback, _, getBool_other fallback hfind hne hswitch,
        fun e he => ⟨_, List.mem_singleton.mp he⟩, of_find hfind (Or.inr ⟨hswitch, rfl, rfl⟩)⟩

/-- The runtime's mode is reported under its own key. -/
theorem reads_readMode (ini : Ini) : ∃ value own, Reads ini readMode value own ∧
    ∀ e ∈ own, ∃ reason, e = rejection (ascii "Runtime") (ascii "Mode") reason := by
  have hstring := reads_getString ini (ascii "Runtime") (ascii "Mode") (ascii "Off")
  let mode := lower (ini.getString (ascii "Runtime") (ascii "Mode") (ascii "Off"))
  let reason := ascii "'" ++ mode ++ ascii "' is neither Off nor Bundled"
  by_cases hknown : mode ≠ ascii "off" ∧ mode ≠ ascii "bundled"
  · refine ⟨mode, [] ++ ([rejection (ascii "Runtime") (ascii "Mode") reason] ++ []), hstring.bind ?_,
      fun e he => ⟨reason, List.mem_singleton.mp he⟩⟩
    dsimp only
    rw [if_pos hknown]
    exact (reads_reject ini _ _ _).bind (Reads.pure ini mode)
  · refine ⟨mode, [] ++ [], hstring.bind ?_, fun e he => absurd he List.not_mem_nil⟩
    dsimp only
    rw [if_neg hknown]
    exact Reads.pure ini mode

end OpenDlssg.IniSettings
