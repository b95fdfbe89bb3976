import OpenDlssg.ByteSearch
import OpenDlssg.LastWriteMap
import OpenDlssg.TextLines
import OpenDlssg.Trimming

/-!
# The INI reader

A settings file is read line by line into one value for each section and key. A
value that is there but malformed yields the caller's fallback, and is recorded
so that it can be reported.
-/

namespace OpenDlssg.IniFile

open ByteCodec ByteSearch LastWriteMap TextLines Trimming

/-- The UTF-8 byte-order mark. -/
def kUtf8Bom : Bytes := [0xEF, 0xBB, 0xBF]

/-- `std::tolower`. The C library changes no others in its own locale. -/
def toLower (c : UInt8) : UInt8 := if 65 ≤ c ∧ c ≤ 90 then c + 32 else c

/-- A text without the case of its letters. -/
def lower (text : Bytes) : Bytes := text.map toLower

/-- `std::isspace`. -/
def isSpace (c : UInt8) : Bool := c == 32 || (9 ≤ c && c ≤ 13)

/-- Whether a character starts a comment. -/
def isMark (c : UInt8) : Bool := c == 59 || c == 35

/-- A text up to the comment that starts in it, given the character before. -/
def stripAfter (previous : UInt8) : Bytes → Bytes
  | [] => []
  | c :: text => if isMark c && isSpace previous then [] else c :: stripAfter c text

/-- A line without its comment. A mark starts one only after whitespace, so a value
that contains one, such as a path, is kept whole. -/
def stripComment : Bytes → Bytes
  | [] => []
  | c :: text => c :: stripAfter c text

/-- The equals sign. -/
def kEquals : UInt8 := 61

/-- The brackets of a section's line. -/
def kOpen : UInt8 := 91
def kClose : UInt8 := 93

/-- The values of a settings file, by section and key. -/
abbrev Sections := Map Bytes (Map Bytes Bytes)

/-- A settings file as it was read, and what was rejected of it since. -/
structure Ini where
  sections : Sections := ∅
  rejected : List Bytes := []

/-- Where the reader is: the section it is in, and what it has read. -/
structure Reading where
  current : Bytes := []
  sections : Sections := ∅

/-- Read a line. -/
def readLine (reading : Reading) (text : Bytes) : Reading :=
  let line := trim isSpace (stripComment text)
  match line with
  | [] => reading
  | first :: rest =>
    if isMark first then reading
    else if first = kOpen ∧ line.getLast? = some kClose then
      { reading with current := lower (trim isSpace rest.dropLast) }
    else if kEquals ∈ line then
      let key := lower (trim isSpace (line.takeWhile (· != kEquals)))
      if key = [] then reading
      else
        let value := trim isSpace ((line.dropWhile (· != kEquals)).drop 1)
        { reading with sections := insertNested reading.sections reading.current key value }
    else reading

/-- `Ini::Load`, given the content of the file, which is absent when it cannot be
opened. -/
def load (file : Option Bytes) : Bool × Ini :=
  match file with
  | none => (false, {})
  | some content =>
    let text := if kUtf8Bom.isPrefixOf content then content.drop kUtf8Bom.length else content
    (true, { sections := ((lines text).foldl readLine {}).sections })

/-- The value of a key, absent when the file has none. -/
def Ini.find (ini : Ini) (sect key : Bytes) : Option Bytes :=
  lookupNested ini.sections (lower sect) (lower key)

/-- The entry for a rejected value. -/
def rejection (sect key reason : Bytes) : Bytes :=
  ascii "[" ++ sect ++ ascii "] " ++ key ++ ascii ": " ++ reason

/-- Record that a value was rejected. -/
def Ini.reject (ini : Ini) (sect key reason : Bytes) : Ini :=
  { ini with rejected := ini.rejected ++ [rejection sect key reason] }

/-- A value as text. -/
def Ini.getString (ini : Ini) (sect key fallback : Bytes) : Bytes := (ini.find sect key).getD fallback

/-- The number at the start of a text without its sign and what follows it, absent when
there is none or it does not fit an `int`. -/
def fromDigits (negative : Bool) (unsigned : Bytes) : Option (ℤ × Bytes) :=
  let digits := unsigned.takeWhile isDigit
  let value : ℤ := if negative then -(decimalValue digits : ℤ) else decimalValue digits
  if digits = [] ∨ value < -2 ^ 31 ∨ 2 ^ 31 ≤ value then none
  else some (value, unsigned.drop digits.length)

/-- `std::from_chars` for an `int`. -/
def fromChars (text : Bytes) : Option (ℤ × Bytes) :=
  if text.head? = some 45 then fromDigits true text.tail else fromDigits false text

/-- A value as a whole number. -/
def Ini.getInt (ini : Ini) (sect key : Bytes) (fallback : ℤ) : ℤ × Ini :=
  match ini.find sect key with
  | none => (fallback, ini)
  | some value =>
    if value = [] then (fallback, ini)
    else
      match fromChars value with
      | some (parsed, []) => (parsed, ini)
      | _ => (fallback, ini.reject sect key (ascii "'" ++ value ++ ascii "' is not a whole number"))

/-- The spellings of a switch that is on. -/
def kTrue : List Bytes := [ascii "1", ascii "true", ascii "on", ascii "yes"]

/-- The spellings of a switch that is off. -/
def kFalse : List Bytes := [ascii "0", ascii "false", ascii "off", ascii "no"]

/-- A value as a switch. -/
def Ini.getBool (ini : Ini) (sect key : Bytes) (fallback : Bool) : Bool × Ini :=
  match ini.find sect key with
  | none => (fallback, ini)
  | some value =>
    if value = [] then (fallback, ini)
    else if lower value ∈ kTrue then (true, ini)
    else if lower value ∈ kFalse then (false, ini)
    else (fallback, ini.reject sect key (ascii "'" ++ value ++ ascii "' is not 0 or 1"))

end OpenDlssg.IniFile
