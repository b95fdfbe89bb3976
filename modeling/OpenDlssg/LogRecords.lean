import OpenDlssg.JsonText
import OpenDlssg.LogFields

/-!
# Reading a log back

Every record is one line that holds one JSON object and no control byte, whatever
bytes its event and its fields hold. The reader of the log gets the event and the
fields back, in order. A path in the profile directory comes back relative to the
placeholder.
-/

namespace OpenDlssg.LogRecords

open ByteCodec ByteSearch WidePaths SpoofCallers IniSettings LogFields JsonText

/-- What a field is built from. -/
inductive FieldValue where
  | str (value : Bytes)
  | strWide (value : Option WString)
  | path (value : Option WString)
  | int (value : Int64)
  | uint (value : UInt64)
  | hex (value : UInt64)
  | bool (value : Bool)

/-- What a reader of the log takes the value of a field for. -/
inductive FieldKind where
  | text | integer | hexadecimal | truth

/-- The value of a field as a reader of the log has it. -/
inductive Datum where
  | text (value : Bytes)
  | integer (value : ℤ)
  | truth (value : Bool)
  deriving DecidableEq

/-- A record as a reader of the log has it. -/
structure Record where
  time : ℤ
  level : Bytes
  event : Bytes
  fields : List (Bytes × Datum)
  deriving DecidableEq

/-- Read the value of a field. -/
def FieldKind.read : FieldKind → Json → Option Datum
  | .text, .string value => some (.text value)
  | .integer, .number digits exponent =>
    if 0 ≤ exponent then some (.integer (digits * 10 ^ exponent.toNat)) else none
  | .hexadecimal, .string value =>
    if value.take 2 = ascii "0x" then (hexNumber (value.drop 2)).map fun n => .integer n else none
  | .truth, .bool value => some (.truth value)
  | _, _ => none

/-- Read the fields of a record. -/
def readFields : List FieldKind → List (Bytes × Json) → Option (List (Bytes × Datum))
  | [], [] => some []
  | kind :: kinds, (key, item) :: members => do
    let datum ← kind.read item
    let fields ← readFields kinds members
    return (key, datum) :: fields
  | _, _ => none

/-- Read a record. -/
def readRecord (kinds : List FieldKind) : Json → Option Record
  | .object ((time, .number ms 0) :: (level, .string name) :: (event, .string text) :: members) =>
    if time = ascii "t" ∧ level = ascii "lvl" ∧ event = ascii "event" then
      (readFields kinds members).map fun fields => ⟨ms, name, text, fields⟩
    else none
  | _ => none

/-- Read a line of the log, given what its fields are to be taken for. -/
def readLine (kinds : List FieldKind) (line : Bytes) : Option Record := (parse line).bind (readRecord kinds)

namespace FieldValue

/-- What the value of a field is to be taken for. -/
def kind : FieldValue → FieldKind
  | .str _ | .strWide _ | .path _ => .text
  | .int _ | .uint _ => .integer
  | .hex _ => .hexadecimal
  | .bool _ => .truth

variable (toUtf8 : WString → Bytes) (userProfile : WString)

/-- The field of a key and a value. -/
def field (key : Bytes) : FieldValue → Field
  | .str value => .str key value
  | .strWide value => .strWide toUtf8 key value
  | .path value => .path toUtf8 userProfile key value
  | .int value => .int key value
  | .uint value => .uint key value
  | .hex value => .hex key value
  | .bool value => .bool key value

/-- The text of a wide string, empty where there is none. -/
def wideText (value : Option WString) : Bytes := (value.map fun text => toUtf8 (cString text)).getD []

/-- The value a field is built from. -/
def original : FieldValue → Datum
  | .str value => .text value
  | .strWide value | .path value => .text (wideText toUtf8 value)
  | .int value => .integer value.toInt
  | .uint value => .integer value.toNat
  | .hex value => .integer value.toNat
  | .bool value => .truth value

/-- A value with a path in the profile directory made relative to the placeholder. -/
def redact : FieldValue → FieldValue
  | .path value => .path (value.map fun path => redacted (profileDirectory userProfile) (cString path))
  | value => value

/-- The JSON value of a field. -/
def item : FieldValue → Json
  | .str value => .string value
  | .strWide value | .path value => .string (wideText toUtf8 value)
  | .int value => .number value.toInt 0
  | .uint value => .number value.toNat 0
  | .hex value => .string (ascii "0x" ++ toHex value.toNat)
  | .bool value => .bool value

end FieldValue

/-! ### Texts -/

/-- The four digits of a control byte are read as that byte. -/
theorem codePoint_control {n : ℕ} (hn : n < 32) (rest : Bytes) :
    codePoint ([48, 48, hexDigit (n / 16), hexDigit (n % 16)] ++ rest) = some ([UInt8.ofNat n], rest) := by
  have hdigits : ∀ n < 32, hexNumber [48, 48, hexDigit (n / 16), hexDigit (n % 16)] = some n ∧
      encode n = [UInt8.ofNat n] := by decide
  obtain ⟨hnumber, hencode⟩ := hdigits n hn
  rw [codePoint_append rfl hnumber (by omega), hencode]

/-- Every byte is read back from the way it is escaped. -/
theorem spells_escapeByte (c : UInt8) : Spells (escapeByte c) c := by
  unfold escapeByte
  split_ifs with hquote hbackslash hnewline hreturn htab hcontrol
  · subst hquote
    exact spells_escaped fun _ => rfl
  · subst hbackslash
    exact spells_escaped fun _ => rfl
  · subst hnewline
    exact spells_escaped fun _ => rfl
  · subst hreturn
    exact spells_escaped fun _ => rfl
  · subst htab
    exact spells_escaped fun _ => rfl
  · have hspelled : ascii "\\u00" ++ [hexDigit (c.toNat / 16), hexDigit (c.toNat % 16)] =
        92 :: 117 :: [48, 48, hexDigit (c.toNat / 16), hexDigit (c.toNat % 16)] := rfl
    rw [hspelled]
    refine spells_escaped fun rest => ?_
    have hescaped : escaped (117 :: [48, 48, hexDigit (c.toNat / 16), hexDigit (c.toNat % 16)] ++ rest) =
      codePoint ([48, 48, hexDigit (c.toNat / 16), hexDigit (c.toNat % 16)] ++ rest) := rfl
    have hlt := UInt8.lt_iff_toNat_lt.mp hcontrol
    rw [hescaped, codePoint_control hlt, UInt8.ofNat_toNat]
  · exact spells_self hquote hbackslash hcontrol

/-- A text between quotes is read back whatever bytes it holds. -/
theorem quotes_escapeJson (text : Bytes) : Quotes (escapeJson text) text :=
  quotes_flatMap spells_escapeByte text

/-- A text escaped is read back. -/
theorem unescape_escapeJson (text : Bytes) : unescape (escapeJson text) = some text :=
  (quotes_escapeJson text).unescape_eq

/-- No two texts are escaped alike. -/
theorem escapeJson_injective : Function.Injective escapeJson := fun first second h =>
  Option.some.inj (by rw [← unescape_escapeJson first, h, unescape_escapeJson])

/-- An escaped text holds no control character. -/
theorem printable_escapeJson (text : Bytes) : Printable (escapeJson text) :=
  printable_flatMap fun c _ => by
    unfold escapeByte
    split_ifs with hquote hbackslash hnewline hreturn htab hcontrol
    · decide
    · decide
    · decide
    · decide
    · decide
    · have hdigits : ∀ n < 32, Printable [hexDigit (n / 16), hexDigit (n % 16)] := by decide
      exact Printable.append (by decide) (hdigits c.toNat (UInt8.lt_iff_toNat_lt.mp hcontrol))
    · exact printable_singleton hcontrol

/-- A text in quotes is read as the text. -/
theorem reads_quote (text : Bytes) : Reads (quote text) (.string text) :=
  reads_string (quotes_escapeJson text)

/-- A text in quotes holds no control character. -/
theorem printable_quote (text : Bytes) : Printable (quote text) :=
  (Printable.cons (by decide) (printable_escapeJson text)).append (by decide)

/-- A text with nothing to escape is its own escape. -/
theorem escapeJson_eq_self {text : Bytes} (h : ∀ c ∈ text, c ≠ 34 ∧ c ≠ 92 ∧ ¬c < 0x20) :
    escapeJson text = text := by
  have hbyte : ∀ c ∈ text, escapeByte c = [c] := by
    intro c hc
    obtain ⟨hquote, hbackslash, hcontrol⟩ := h c hc
    have hne : c ≠ 10 ∧ c ≠ 13 ∧ c ≠ 9 := by
      refine ⟨?_, ?_, ?_⟩ <;> rintro rfl <;> exact hcontrol (by decide)
    rw [escapeByte, if_neg hquote, if_neg hbackslash, if_neg hne.1, if_neg hne.2.1, if_neg hne.2.2,
      if_neg hcontrol]
  rw [escapeJson, List.flatMap_congr hbyte, List.flatMap_singleton']

/-! ### Numbers -/

/-- A number in decimal is spelled as JSON asks. -/
theorem wholeNumber_toDecimal (n : ℕ) : WholeNumber (toDecimal n) where
  ne_nil := toDecimal_ne_nil n
  isDigit _ := isDigit_of_mem_toDecimal
  zero h := by
    rw [head?_toDecimal h]
    rfl

/-- An integer is read back, its sign included. -/
theorem reads_toText (n : ℤ) : Reads (toText n) (.number n 0) := by
  have hwhole := wholeNumber_toDecimal n.natAbs
  unfold toText
  split_ifs with hn
  · have hread := reads_negative hwhole
    have hvalue : -((n.natAbs : ℕ) : ℤ) = n := by omega
    rw [decimalValue_toDecimal, hvalue] at hread
    exact hread
  · have hread := reads_whole hwhole
    rw [decimalValue_toDecimal, Int.natAbs_of_nonneg (by omega)] at hread
    exact hread

/-- Its digits are no control characters. -/
theorem printable_toText (n : ℤ) : Printable (toText n) := by
  have hdigits : Printable (toDecimal n.natAbs) := fun c hc hlt => by
    have hdigit := isDigit_of_mem_toDecimal hc
    rw [isDigit, Bool.and_eq_true, decide_eq_true_iff] at hdigit
    have hcontrol : c.toNat < 32 := UInt8.lt_iff_toNat_lt.mp hlt
    omega
  unfold toText
  split_ifs
  · exact Printable.append (by decide) hdigits
  · exact hdigits

/-- A number below sixteen is one digit. -/
theorem toHex_of_lt {n : ℕ} (h : n < 16) : toHex n = [hexDigit n] := by
  have hdigit : ∀ d < 16, UInt8.ofNat d.digitChar.toNat = hexDigit d := by decide
  rw [toHex, Nat.toDigits_of_lt_base h, List.map_cons, List.map_nil, hdigit n h]

/-- Any other is the digits before the last, and the last. -/
theorem toHex_of_le {n : ℕ} (h : 16 ≤ n) : toHex n = toHex (n / 16) ++ [hexDigit (n % 16)] := by
  have hlast := toHex_of_lt (Nat.mod_lt n (by decide : 0 < 16))
  rw [toHex, Nat.toDigits_of_base_le (by decide) h, List.map_append, ← hlast, toHex, toHex,
    Nat.toDigits_of_lt_base (Nat.mod_lt n (by decide))]

/-- A digit has the value it is written for. -/
theorem hexValue_hexDigit : ∀ d < 16, hexValue (hexDigit d) = some d := by decide

/-- The text of a number to base 16 denotes it. -/
theorem hexNumber_toHex (n : ℕ) : hexNumber (toHex n) = some n := by
  induction n using Nat.strongRecOn with
  | ind n ih =>
    by_cases h : n < 16
    · rw [toHex_of_lt h]
      simp [hexNumber, hexValue_hexDigit n h]
    · have hquotient := ih (n / 16) (by omega)
      unfold hexNumber at hquotient ⊢
      rw [toHex_of_le (by omega), List.foldlM_append, hquotient]
      simp [hexValue_hexDigit (n % 16) (Nat.mod_lt n (by decide))]
      omega

/-- Every byte of a number to base 16 is a digit. -/
theorem exists_of_mem_toHex {n : ℕ} {c : UInt8} (h : c ∈ toHex n) : ∃ d < 16, c = hexDigit d := by
  induction n using Nat.strongRecOn with
  | ind n ih =>
    by_cases hn : n < 16
    · rw [toHex_of_lt hn] at h
      exact ⟨n, hn, List.mem_singleton.mp h⟩
    · rw [toHex_of_le (by omega), List.mem_append] at h
      rcases h with hhigh | hlast
      · exact ih (n / 16) (by omega) hhigh
      · exact ⟨n % 16, Nat.mod_lt n (by decide), List.mem_singleton.mp hlast⟩

/-- The buffer holds the whole text of a number to base 16, which needs no escapes. -/
theorem token_hex (key : Bytes) (value : UInt64) :
    (Field.hex key value).token = quote (ascii "0x" ++ toHex value.toNat) := by
  have hdigits : (toHex value.toNat).length ≤ 16 := by
    rw [toHex, List.length_map]
    exact (Nat.length_toDigits_le_iff (by norm_num) (by norm_num)).mpr
      (value.toNat_lt.trans_le (by norm_num))
  have hfits : (34 :: ascii "0x" ++ toHex value.toNat ++ [34]).length ≤ 23 := by
    have hprefix : (34 :: ascii "0x").length = 3 := by decide
    rw [List.length_append, List.length_append, hprefix, List.length_singleton]
    omega
  have hplain : ∀ d < 16, hexDigit d ≠ 34 ∧ hexDigit d ≠ 92 ∧ ¬hexDigit d < 0x20 := by decide
  have hescape : escapeJson (ascii "0x" ++ toHex value.toNat) = ascii "0x" ++ toHex value.toNat := by
    refine escapeJson_eq_self (List.forall_mem_append.mpr ⟨?_, ?_⟩)
    · exact List.forall_mem_cons.mpr ⟨by decide, List.forall_mem_singleton.mpr (by decide)⟩
    · intro c hc
      obtain ⟨d, hd, rfl⟩ := exists_of_mem_toHex hc
      exact hplain d hd
  rw [quote, hescape, Field.hex, List.take_of_length_le hfits, List.cons_append]

/-! ### Fields -/

namespace FieldValue

variable (toUtf8 : WString → Bytes) (userProfile : WString)

/-- A field is a member under its own key. -/
theorem key_field (key : Bytes) (value : FieldValue) : (value.field toUtf8 userProfile key).key = key := by
  cases value with
  | path path => cases path <;> rfl
  | _ => rfl

/-- The token of a field is read as its value, a path relative to the placeholder. -/
theorem reads_field (key : Bytes) (value : FieldValue) :
    Reads (value.field toUtf8 userProfile key).token ((value.redact userProfile).item toUtf8) := by
  cases value with
  | str text => exact reads_quote text
  | strWide text => cases text <;> exact reads_quote _
  | path path => cases path <;> exact reads_quote _
  | int number => exact reads_toText number.toInt
  | uint number => exact reads_toText number.toNat
  | hex number =>
    have hread := reads_quote (ascii "0x" ++ toHex number.toNat)
    rw [← token_hex key] at hread
    exact hread
  | bool truth => exact reads_bool truth

/-- Its value holds no control character. -/
theorem printable_field (key : Bytes) (value : FieldValue) :
    Printable (value.field toUtf8 userProfile key).token := by
  cases value with
  | str text => exact printable_quote text
  | strWide text => cases text <;> exact printable_quote _
  | path path => cases path <;> exact printable_quote _
  | int number => exact printable_toText number.toInt
  | uint number => exact printable_toText number.toNat
  | hex number =>
    have hprintable := printable_quote (ascii "0x" ++ toHex number.toNat)
    rw [← token_hex key] at hprintable
    exact hprintable
  | bool truth =>
    have hnames : ∀ b : Bool, Printable (if b then ascii "true" else ascii "false") := by decide
    exact hnames truth

/-- A reader that knows what a field is to be taken for has its value. -/
theorem read_item (value : FieldValue) :
    value.kind.read (value.item toUtf8) = some (value.original toUtf8) := by
  cases value with
  | hex number =>
    have htake : (ascii "0x" ++ toHex number.toNat).take 2 = ascii "0x" := List.take_left' (by decide)
    have hdrop : (ascii "0x" ++ toHex number.toNat).drop 2 = toHex number.toNat :=
      List.drop_left' (by decide)
    simp [kind, item, original, FieldKind.read, htake, hdrop, hexNumber_toHex]
  | int number => simp [kind, item, original, FieldKind.read]
  | uint number => simp [kind, item, original, FieldKind.read]
  | _ => rfl

/-- Redacting a value leaves what kind it is. -/
theorem kind_redact (value : FieldValue) : (value.redact userProfile).kind = value.kind := by
  cases value <;> rfl

end FieldValue

/-! ### Records -/

/-- A member of a record: its key is escaped as a string is. -/
def member (key token : Bytes) (item : Json) (reads : Reads token item) : Member :=
  ⟨escapeJson key, key, token, item, quotes_escapeJson key, reads⟩

/-- A member whose value holds no control character holds none. -/
theorem printable_member (key : Bytes) {token : Bytes} {item : Json} (reads : Reads token item)
    (h : Printable token) : Printable (member key token item reads).text :=
  Member.printable_text (printable_escapeJson key) h

/-- The members every record begins with: its time, its level and its event. -/
def timeMember (ms : Int64) : Member := member (ascii "t") _ _ (reads_toText ms.toInt)

/-- The member of a record that names its level. -/
def levelMember (level : LogLevel) : Member := member (ascii "lvl") _ _ (reads_quote (levelName level))

/-- The member that names its event. -/
def eventMember (event : Bytes) : Member := member (ascii "event") _ _ (reads_quote event)

section

variable (toUtf8 : WString → Bytes) (userProfile : WString)

/-- The member of a field. -/
def fieldMember (entry : Bytes × FieldValue) : Member :=
  member entry.1 _ _ (entry.2.reads_field toUtf8 userProfile entry.1)

/-- A record is the text of one object, and a newline. -/
theorem write_eq (ms : Int64) (level : LogLevel) (event : Bytes) (fields : List (Bytes × FieldValue)) :
    write ms level event (fields.map fun entry => entry.2.field toUtf8 userProfile entry.1) =
      objectText (timeMember ms) (levelMember level :: eventMember event ::
        fields.map (fieldMember toUtf8 userProfile)) ++ [10] := by
  have htime : (timeMember ms).text = ascii "\"t\":" ++ toText ms.toInt := rfl
  have hlevel : (levelMember level).text = ascii "\"lvl\":\"" ++ (levelName level ++ [34]) := by
    cases level <;> rfl
  have hevent : (eventMember event).text = ascii "\"event\":" ++ quote event := rfl
  have hfield : ∀ entry : Bytes × FieldValue, ascii ",\"" ++
      escapeJson (entry.2.field toUtf8 userProfile entry.1).key ++ ascii "\":" ++
        (entry.2.field toUtf8 userProfile entry.1).token =
      44 :: (fieldMember toUtf8 userProfile entry).text := by
    intro entry
    have hcomma : ascii ",\"" = [44, 34] := rfl
    have hcolon : ascii "\":" = [34, 58] := rfl
    simp [FieldValue.key_field, hcomma, hcolon, fieldMember, member, Member.text]
  have hfields : (fields.map fun entry => entry.2.field toUtf8 userProfile entry.1).flatMap
      (fun field => ascii ",\"" ++ escapeJson field.key ++ ascii "\":" ++ field.token) =
      followingText (fields.map (fieldMember toUtf8 userProfile)) := by
    rw [followingText, List.flatMap_map, List.flatMap_map]
    exact List.flatMap_congr fun entry _ => hfield entry
  have hopen : ascii "\x7b\"t\":" = 123 :: ascii "\"t\":" := rfl
  have hcomma : ascii ",\"lvl\":\"" = 44 :: ascii "\"lvl\":\"" := rfl
  have hquote : ascii "\",\"event\":" = 34 :: 44 :: ascii "\"event\":" := rfl
  have hclose : ascii "\x7d\n" = [125, 10] := rfl
  rw [write, hfields, objectText, htime, hopen, hcomma, hquote, hclose]
  simp [followingText, hlevel, hevent]

/-- The members of a record carry no control byte. -/
theorem printable_members (ms : Int64) (level : LogLevel) (event : Bytes)
    (fields : List (Bytes × FieldValue)) :
    ∀ member ∈ timeMember ms :: levelMember level :: eventMember event ::
      fields.map (fieldMember toUtf8 userProfile), Printable member.text := by
  refine List.forall_mem_cons.mpr ⟨?_, List.forall_mem_cons.mpr ⟨?_, List.forall_mem_cons.mpr ⟨?_, ?_⟩⟩⟩
  · exact printable_member _ _ (printable_toText ms.toInt)
  · exact printable_member _ _ (printable_quote (levelName level))
  · exact printable_member _ _ (printable_quote event)
  · intro member hmember
    obtain ⟨entry, _, rfl⟩ := List.mem_map.mp hmember
    exact printable_member _ _ (entry.2.printable_field toUtf8 userProfile entry.1)

/-- The fields are read back one by one, in their order. -/
theorem readFields_members (fields : List (Bytes × FieldValue)) :
    readFields (fields.map fun entry => entry.2.kind)
        ((fields.map (fieldMember toUtf8 userProfile)).map Member.pair) =
      some (fields.map fun entry => (entry.1, (entry.2.redact userProfile).original toUtf8)) := by
  induction fields with
  | nil => rfl
  | cons entry fields ih =>
    have hread : entry.2.kind.read ((entry.2.redact userProfile).item toUtf8) =
        some ((entry.2.redact userProfile).original toUtf8) := by
      have hitem := FieldValue.read_item toUtf8 (entry.2.redact userProfile)
      rw [FieldValue.kind_redact] at hitem
      exact hitem
    rw [List.map_cons, List.map_cons, List.map_cons, Member.pair, readFields, ih]
    simp [fieldMember, member, hread]

/-- **A record is one line that is read back.** Whatever bytes its event and its fields hold, it
ends in its only control byte, is one object, and is read back as its time, its level, its event and
its fields in their order; a path in the profile directory is read back relative to the placeholder.
Escaping loses nothing. -/
theorem record_readLine (ms : Int64) (level : LogLevel) (event : Bytes)
    (fields : List (Bytes × FieldValue)) :
    (∃ line, write ms level event
          (fields.map fun entry => entry.2.field toUtf8 userProfile entry.1) = line ++ [10] ∧
        (∀ c ∈ line, ¬c < 0x20) ∧
        (∃ members, parse line = some (.object members)) ∧
        readLine (fields.map fun entry => entry.2.kind) line = some
          { time := ms.toInt
            level := levelName level
            event := event
            fields := fields.map fun entry =>
              (entry.1, (entry.2.redact userProfile).original toUtf8) }) ∧
      Function.Injective escapeJson ∧ ∀ text, unescape (escapeJson text) = some text := by
  have hparse := parse_objectText (timeMember ms) (levelMember level :: eventMember event ::
    fields.map (fieldMember toUtf8 userProfile))
  refine ⟨⟨_, write_eq toUtf8 userProfile ms level event fields,
    printable_objectText (printable_members toUtf8 userProfile ms level event fields),
    ⟨_, hparse⟩, ?_⟩, escapeJson_injective, unescape_escapeJson⟩
  have hfields := readFields_members toUtf8 userProfile fields
  rw [readLine, hparse, Option.bind_some]
  simp only [List.map_cons, readRecord, Member.pair, timeMember, levelMember, eventMember, member,
    and_self, if_true, hfields, Option.map_some]

end

/-- The UTF-8 text of a wide string of ASCII characters. -/
def narrow (text : WString) : Bytes := text.map fun c => UInt8.ofNat c.toNat

/-- A path in the profile directory is not read back as it was. -/
theorem profile_path_not_kept :
    readLine [.text] (write 0 .info (ascii "loaded")
        [Field.path narrow (wide "C:\\Users\\bob") (ascii "path")
          (some (wide "C:\\Users\\bob\\nvngx.dll"))]).dropLast ≠
      some { time := 0
             level := ascii "info"
             event := ascii "loaded"
             fields := [(ascii "path",
               (FieldValue.path (some (wide "C:\\Users\\bob\\nvngx.dll"))).original narrow)] } := by
  decide +kernel

end OpenDlssg.LogRecords
