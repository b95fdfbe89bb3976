import OpenDlssg.IniSettings

/-!
# Log records

A record is one line: its time, its level, its event and its fields. A field is a
key and the text that is written for its value. Strings are quoted.
A path under the profile directory is written relative to the placeholder, since
an account name appears in a logged path only through that directory.
-/

namespace OpenDlssg.LogFields

open ByteCodec ByteSearch WidePaths SpoofCallers IniSettings

/-- A digit of a number to base 16. -/
def hexDigit (n : ℕ) : UInt8 := UInt8.ofNat (if n < 10 then 48 + n else 87 + n)

/-- A byte as a string of a record spells it. -/
def escapeByte (c : UInt8) : Bytes :=
  if c = 34 then ascii "\\\""
  else if c = 92 then ascii "\\\\"
  else if c = 10 then ascii "\\n"
  else if c = 13 then ascii "\\r"
  else if c = 9 then ascii "\\t"
  else if c < 0x20 then ascii "\\u00" ++ [hexDigit (c.toNat / 16), hexDigit (c.toNat % 16)]
  else [c]

/-- The bytes of a string of a record. -/
def escapeJson (text : Bytes) : Bytes := text.flatMap escapeByte

/-- A string in quotes. -/
def quote (value : Bytes) : Bytes := 34 :: escapeJson value ++ [34]

/-- A field: its key, and the text written for its value. -/
structure Field where
  key : Bytes
  token : Bytes
  deriving DecidableEq

/-- `Field::Str`: a string. -/
def Field.str (key value : Bytes) : Field := ⟨key, quote value⟩

/-- `Field::Str`: a wide string, which may be absent. The parameter converts to UTF-8. -/
def Field.strWide (toUtf8 : WString → Bytes) (key : Bytes) (value : Option WString) : Field :=
  ⟨key, quote (match value with
    | some value => toUtf8 (cString value)
    | none => [])⟩

/-- Whether a path is a directory or inside it. Only the whole directory counts. -/
def isUnderDirectory (path directory : WString) : Bool :=
  if directory = [] ∨ path.length < directory.length then false
  else if !wcsnicmp path directory directory.length then false
  else
    match path[directory.length]? with
    | none => true
    | some next => isSeparator next

/-- The length a path may have, its NUL included. -/
def kMaxPath : ℕ := 260

/-- The profile directory, given the value of the environment variable, empty when it is not
set. A value that does not fit in the buffer is as good as none. -/
def profileDirectory (userProfile : WString) : WString :=
  let value := cString userProfile
  if 0 < value.length ∧ value.length < kMaxPath then value else []

/-- What stands for the profile directory in a logged path. -/
def kUserProfile : WString := wide "%USERPROFILE%"

/-- A path as it is logged. -/
def redacted (profile path : WString) : WString :=
  if isUnderDirectory path profile then kUserProfile ++ path.drop profile.length else path

/-- `Field::Path`: a path, which may be absent. -/
def Field.path (toUtf8 : WString → Bytes) (userProfile : WString) (key : Bytes)
    (value : Option WString) : Field :=
  match value with
  | none => .str key []
  | some value => .strWide toUtf8 key (some (redacted (profileDirectory userProfile) (cString value)))

/-- `Field::Int`: a signed number. -/
def Field.int (key : Bytes) (value : Int64) : Field := ⟨key, toText value.toInt⟩

/-- `Field::Uint`: an unsigned number. -/
def Field.uint (key : Bytes) (value : UInt64) : Field := ⟨key, toText value.toNat⟩

/-- The text of a number to base 16, the format `%llx`. -/
def toHex (n : ℕ) : Bytes := (Nat.toDigits 16 n).map fun c => UInt8.ofNat c.toNat

/-- `Field::Hex`: a number to base 16, in quotes. The buffer has room for 23 bytes and a NUL. -/
def Field.hex (key : Bytes) (value : UInt64) : Field :=
  ⟨key, (34 :: ascii "0x" ++ toHex value.toNat ++ [34]).take 23⟩

/-- `Field::Bool`: a truth value. -/
def Field.bool (key : Bytes) (value : Bool) : Field :=
  ⟨key, if value then ascii "true" else ascii "false"⟩

/-- The name of a level. -/
def levelName : LogLevel → Bytes
  | .error => ascii "error"
  | .warning => ascii "warn"
  | .info => ascii "info"
  | .trace => ascii "trace"
  | .off => ascii "off"

/-- The record of an event, at a time in milliseconds. -/
def write (ms : Int64) (level : LogLevel) (event : Bytes) (fields : List Field) : Bytes :=
  ascii "\x7b\"t\":" ++ toText ms.toInt ++ ascii ",\"lvl\":\"" ++ levelName level ++
    ascii "\",\"event\":" ++ quote event ++
    fields.flatMap (fun field => ascii ",\"" ++ escapeJson field.key ++ ascii "\":" ++ field.token) ++
    ascii "\x7d\n"

end OpenDlssg.LogFields
