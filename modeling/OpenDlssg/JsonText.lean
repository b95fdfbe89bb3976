import OpenDlssg.ByteSearch

/-!
# The text of a JSON value

A reader of JSON over bytes: it takes a text that is one value and nothing else.
Strings are byte strings, numbers keep their decimal digits and objects the order
of their members. The rules say what a piece of text is read as wherever it stands,
so that the text of a whole is read from what its parts are read as.
-/
namespace OpenDlssg.JsonText
open ByteCodec ByteSearch

/-- A value. A number is its decimal digits times a power of ten; an object keeps its members
in the order of the text, and strings are byte strings. -/
inductive Json where
  | null
  | bool (value : Bool)
  | number (digits exponent : ℤ)
  | string (value : Bytes)
  | array (items : List Json)
  | object (members : List (Bytes × Json))

/-- A byte that may stand between tokens. -/
def isBlank (c : UInt8) : Bool := c == 32 || c == 9 || c == 10 || c == 13

/-- A text after the blanks it opens with. -/
def skipBlanks (text : Bytes) : Bytes := text.dropWhile isBlank

/-- The value of a digit to base 16. -/
def hexValue (c : UInt8) : Option ℕ :=
  if 48 ≤ c ∧ c ≤ 57 then some (c.toNat - 48)
  else if 65 ≤ c ∧ c ≤ 70 then some (c.toNat - 55)
  else if 97 ≤ c ∧ c ≤ 102 then some (c.toNat - 87)
  else none

/-- The number digits to base 16 denote. -/
def hexNumber : Bytes → Option ℕ := List.foldlM (fun n c => do return 16 * n + (← hexValue c)) 0

/-- The four digits of a `\u` escape, as a UTF-16 unit. -/
def codeUnit (text : Bytes) : Option (ℕ × Bytes) :=
  if text.length < 4 then none
  else (hexNumber (text.take 4)).map fun unit => (unit, text.drop 4)

/-- The bytes of a code point. -/
def encode (point : ℕ) : Bytes := String.utf8EncodeChar (Char.ofNat point)

/-- What follows `\u`: a code point, or a high surrogate and the escape of a low one. -/
def codePoint (text : Bytes) : Option (Bytes × Bytes) := do
  let (unit, rest) ← codeUnit text
  if unit < 0xD800 ∨ 0xE000 ≤ unit then return (encode unit, rest)
  if 0xDC00 ≤ unit ∨ rest.take 2 ≠ ascii "\\u" then none
  let (low, rest) ← codeUnit (rest.drop 2)
  if low < 0xDC00 ∨ 0xE000 ≤ low then none
  return (encode (0x10000 + (unit - 0xD800) * 0x400 + (low - 0xDC00)), rest)

/-- What follows a backslash. -/
def escaped : Bytes → Option (Bytes × Bytes)
  | [] => none
  | c :: rest =>
    if c = 34 ∨ c = 92 ∨ c = 47 then some ([c], rest)
    else if c = 98 then some ([8], rest)
    else if c = 102 then some ([12], rest)
    else if c = 110 then some ([10], rest)
    else if c = 114 then some ([13], rest)
    else if c = 116 then some ([9], rest)
    else if c = 117 then codePoint rest
    else none

/-- The characters of a string, up to the quote that closes it. A control byte is no character. -/
def characters : ℕ → Bytes → Option (Bytes × Bytes)
  | 0, _ => none
  | _, [] => none
  | fuel + 1, c :: rest =>
    if c = 34 then some ([], rest)
    else if c = 92 then do
      let (character, rest) ← escaped rest
      let (value, rest) ← characters fuel rest
      return (character ++ value, rest)
    else if c < 0x20 then none
    else do
      let (value, rest) ← characters fuel rest
      return (c :: value, rest)

/-- A string in quotes. -/
def string : Bytes → Option (Bytes × Bytes)
  | [] => none
  | c :: rest => if c = 34 then characters (rest.length + 1) rest else none

/-- The digits a text opens with, at least one. -/
def digits (text : Bytes) : Option (Bytes × Bytes) :=
  if text.takeWhile isDigit = [] then none
  else some (text.takeWhile isDigit, text.dropWhile isDigit)

/-- The whole part of a number. Only the number 0 has the digit 0 first. -/
def wholePart (text : Bytes) : Option (Bytes × Bytes) := do
  let (run, rest) ← digits text
  if run.head? = some 48 ∧ 1 < run.length then none
  return (run, rest)

/-- The part of a number after its point, which it need not have. -/
def fraction (text : Bytes) : Option (Bytes × Bytes) :=
  if text.head? = some 46 then digits text.tail else some ([], text)

/-- The exponent of a number, 0 where it has none. -/
def exponent (text : Bytes) : Option (ℤ × Bytes) :=
  if text.head? = some 69 ∨ text.head? = some 101 then
    if text.tail.head? = some 45 then
      (digits text.tail.tail).map fun (run, rest) => (-decimalValue run, rest)
    else if text.tail.head? = some 43 then
      (digits text.tail.tail).map fun (run, rest) => (decimalValue run, rest)
    else (digits text.tail).map fun (run, rest) => (decimalValue run, rest)
  else some (0, text)

/-- A number without its sign. -/
def magnitude (text : Bytes) : Option ((ℤ × ℤ) × Bytes) := do
  let (whole, rest) ← wholePart text
  let (part, rest) ← fraction rest
  let (power, rest) ← exponent rest
  return ((decimalValue (whole ++ part), power - part.length), rest)

/-- A number. -/
def number (text : Bytes) : Option (Json × Bytes) :=
  if text.head? = some 45 then
    (magnitude text.tail).map fun (value, rest) => (.number (-value.1) value.2, rest)
  else (magnitude text).map fun (value, rest) => (.number value.1 value.2, rest)

/-- A name a text opens with, for the value it stands for. -/
def literal (name : Bytes) (value : Json) (text : Bytes) : Option (Json × Bytes) :=
  if name.isPrefixOf text then some (value, text.drop name.length) else none

mutual

/-- The value a text opens with, and the text after it. -/
def value : ℕ → Bytes → Option (Json × Bytes)
  | 0, _ => none
  | fuel + 1, text =>
    match skipBlanks text with
    | [] => none
    | c :: rest =>
      if c = 123 then
        if (skipBlanks rest).head? = some 125 then some (.object [], (skipBlanks rest).tail)
        else (members fuel rest).map fun (list, rest) => (.object list, rest)
      else if c = 91 then
        if (skipBlanks rest).head? = some 93 then some (.array [], (skipBlanks rest).tail)
        else (items fuel rest).map fun (list, rest) => (.array list, rest)
      else if c = 34 then (string (c :: rest)).map fun (text, rest) => (.string text, rest)
      else if c = 116 then literal (ascii "true") (.bool true) (c :: rest)
      else if c = 102 then literal (ascii "false") (.bool false) (c :: rest)
      else if c = 110 then literal (ascii "null") .null (c :: rest)
      else number (c :: rest)

/-- The items of an array, up to the bracket that closes it. -/
def items : ℕ → Bytes → Option (List Json × Bytes)
  | 0, _ => none
  | fuel + 1, text => do
    let (item, rest) ← value fuel text
    match skipBlanks rest with
    | [] => none
    | c :: rest =>
      if c = 44 then
        let (list, rest) ← items fuel rest
        return (item :: list, rest)
      else if c = 93 then return ([item], rest)
      else none

/-- The members of an object, up to the brace that closes it. -/
def members : ℕ → Bytes → Option (List (Bytes × Json) × Bytes)
  | 0, _ => none
  | fuel + 1, text => do
    let (key, rest) ← string (skipBlanks text)
    if (skipBlanks rest).head? ≠ some 58 then none
    let (item, rest) ← value fuel (skipBlanks rest).tail
    match skipBlanks rest with
    | [] => none
    | c :: rest =>
      if c = 44 then
        let (list, rest) ← members fuel rest
        return ((key, item) :: list, rest)
      else if c = 125 then return ([(key, item)], rest)
      else none

end

/-- The value a text is. -/
def parse (text : Bytes) : Option Json := do
  let (value, rest) ← value (text.length + 1) text
  if skipBlanks rest = [] then return value else none

example : [ascii " \x7b\"a\" : [-1, 2.5e+3, true], \"b\" : \x7b\x7d\x7d", ascii "\"\\ud83d\\ude00\""].all
    (fun text => (parse text).isSome) = true := by decide +kernel

example : [ascii "[1,]", ascii "01", ascii "\"\n\"", ascii "\"\\ud83d\"", ascii "\x7b\x7d \x7b\x7d"].all
    (fun text => (parse text).isNone) = true := by decide +kernel

/-! ### Strings -/

/-- A piece of a string that is read as one byte. -/
structure Spells (piece : Bytes) (c : UInt8) : Prop where
  ne_nil : piece ≠ []
  characters : ∀ fuel rest, characters (fuel + 1) (piece ++ rest) =
    (characters fuel rest).map fun found => (c :: found.1, found.2)

/-- A byte that is neither a quote, a backslash nor a control byte is read as itself. -/
theorem spells_self {c : UInt8} (hquote : c ≠ 34) (hbackslash : c ≠ 92) (hcontrol : ¬c < 0x20) :
    Spells [c] c where
  ne_nil := List.cons_ne_nil _ _
  characters fuel rest := by
    rw [List.singleton_append, characters, if_neg hquote, if_neg hbackslash, if_neg hcontrol]
    cases characters fuel rest <;> rfl

/-- A backslash and what follows it are read as the byte they escape. -/
theorem spells_escaped {piece : Bytes} {c : UInt8}
    (h : ∀ rest, escaped (piece ++ rest) = some ([c], rest)) : Spells (92 :: piece) c where
  ne_nil := List.cons_ne_nil _ _
  characters fuel rest := by
    rw [List.cons_append, characters, if_neg (by decide), if_pos rfl, h]
    cases hrest : characters fuel rest <;> simp [hrest]

/-- Four digits outside the surrogates are read as the code point they denote. -/
theorem codePoint_append {run : Bytes} (hrun : run.length = 4) {unit : ℕ}
    (hunit : hexNumber run = some unit) (hscalar : unit < 0xD800) (rest : Bytes) :
    codePoint (run ++ rest) = some (encode unit, rest) := by
  have hread : codeUnit (run ++ rest) = some (unit, rest) := by
    rw [codeUnit, if_neg (by rw [List.length_append]; omega), List.take_left' hrun,
      List.drop_left' hrun, hunit]
    rfl
  simp [codePoint, hread, hscalar]

/-- A text that is read as a string when it stands between quotes. -/
def Quotes (text value : Bytes) : Prop := ∀ rest, string (34 :: text ++ 34 :: rest) = some (value, rest)

/-- Pieces that are each read as a byte are read as the string of these. -/
theorem characters_flatMap {spell : UInt8 → Bytes} (hspell : ∀ c, Spells (spell c) c) (value rest : Bytes)
    {fuel : ℕ} (hfuel : (value.flatMap spell).length < fuel) :
    characters fuel (value.flatMap spell ++ 34 :: rest) = some (value, rest) := by
  induction value generalizing fuel with
  | nil =>
    obtain ⟨fuel, rfl⟩ : ∃ n, fuel = n + 1 := ⟨fuel - 1, by simp only [List.flatMap_nil] at hfuel; omega⟩
    rw [List.flatMap_nil, List.nil_append, characters, if_pos rfl]
  | cons c value ih =>
    obtain ⟨fuel, rfl⟩ : ∃ n, fuel = n + 1 := ⟨fuel - 1, by omega⟩
    have hpiece := List.length_pos_iff.mpr (hspell c).ne_nil
    rw [List.flatMap_cons, List.length_append] at hfuel
    rw [List.flatMap_cons, List.append_assoc, (hspell c).characters, ih (by omega)]
    rfl

/-- A text spelled character by character is quoted as the text. -/
theorem quotes_flatMap {spell : UInt8 → Bytes} (hspell : ∀ c, Spells (spell c) c) (value : Bytes) :
    Quotes (value.flatMap spell) value := by
  intro rest
  rw [List.cons_append, string, if_pos rfl]
  exact characters_flatMap hspell value rest (by rw [List.length_append]; omega)

/-- The byte string a string's text stands for. -/
def unescape (text : Bytes) : Option Bytes := do
  let (value, rest) ← string (34 :: text ++ [34])
  if rest = [] then return value else none

/-- A quoted text is unescaped to the text. -/
theorem Quotes.unescape_eq {text value : Bytes} (h : Quotes text value) : unescape text = some value := by
  unfold unescape
  rw [h []]
  rfl

/-! ### Values -/

/-- A text a number does not go on with. -/
def Delimits (rest : Bytes) : Prop :=
  ∀ c ∈ rest.head?, isDigit c = false ∧ c ≠ 46 ∧ c ≠ 69 ∧ c ≠ 101

/-- A number ends before a character that is no part of one. -/
theorem delimits_cons {c : UInt8} (hdigit : isDigit c = false) (hpoint : c ≠ 46) (hupper : c ≠ 69)
    (hlower : c ≠ 101) (rest : Bytes) : Delimits (c :: rest) := fun _ hd =>
  Option.some.inj hd ▸ ⟨hdigit, hpoint, hupper, hlower⟩

/-- A token that is read as a value wherever a number would not go on. -/
def Reads (token : Bytes) (item : Json) : Prop :=
  ∀ fuel rest, token.length < fuel → Delimits rest → value fuel (token ++ rest) = some (item, rest)

/-- A value begins where its text does, unless that begins with a blank. -/
theorem skipBlanks_cons {c : UInt8} (h : isBlank c = false) (rest : Bytes) :
    skipBlanks (c :: rest) = c :: rest := by
  rw [skipBlanks, List.dropWhile_cons, if_neg (by rw [h]; decide)]

/-- A quoted text between quotes is read as a string. -/
theorem reads_string {text content : Bytes} (h : Quotes text content) :
    Reads (34 :: text ++ [34]) (.string content) := by
  intro fuel rest hfuel _
  obtain ⟨fuel, rfl⟩ : ∃ n, fuel = n + 1 := ⟨fuel - 1, by omega⟩
  have hopen : (34 :: text ++ [34]) ++ rest = 34 :: (text ++ 34 :: rest) := by simp
  have hread : string (34 :: (text ++ 34 :: rest)) = some (content, rest) := h rest
  rw [hopen, value, skipBlanks_cons (by decide)]
  dsimp only
  rw [if_neg (by decide), if_neg (by decide), if_pos rfl, hread]
  rfl

/-- A truth value is read. -/
theorem reads_bool (b : Bool) : Reads (if b then ascii "true" else ascii "false") (.bool b) := by
  intro fuel rest hfuel _
  obtain ⟨fuel, rfl⟩ : ∃ n, fuel = n + 1 := ⟨fuel - 1, by omega⟩
  cases b <;> rfl

/-- The digits of a whole number: one at least, and the first is 0 only where it is the only one. -/
structure WholeNumber (run : Bytes) : Prop where
  ne_nil : run ≠ []
  isDigit : ∀ c ∈ run, isDigit c = true
  zero : run.head? = some 48 → run.length = 1

/-- A run of digits is read whole, up to what is none. -/
theorem digits_append {run : Bytes} (hne : run ≠ []) (hrun : ∀ c ∈ run, isDigit c = true) {rest : Bytes}
    (hrest : ∀ c ∈ rest.head?, isDigit c = false) : digits (run ++ rest) = some (run, rest) := by
  have hstop : rest.takeWhile isDigit = [] ∧ rest.dropWhile isDigit = rest := by
    cases rest with
    | nil => exact ⟨rfl, rfl⟩
    | cons c rest =>
      have hc : isDigit c = false := hrest c rfl
      simp [hc]
  have htake : (run ++ rest).takeWhile isDigit = run := by
    rw [List.takeWhile_append_of_pos hrun, hstop.1, List.append_nil]
  have hdrop : (run ++ rest).dropWhile isDigit = rest := by
    rw [List.dropWhile_append_of_pos hrun, hstop.2]
  rw [digits, htake, hdrop, if_neg hne]

namespace WholeNumber

variable {run : Bytes}

/-- A whole number is read with neither a fraction nor an exponent. -/
theorem magnitude_append (h : WholeNumber run) {rest : Bytes} (hrest : Delimits rest) :
    magnitude (run ++ rest) = some (((decimalValue run : ℤ), 0), rest) := by
  have hdigits := digits_append h.ne_nil h.isDigit fun c hc => (hrest c hc).1
  have hwhole : wholePart (run ++ rest) = some (run, rest) := by
    have hzero : ¬(run.head? = some 48 ∧ 1 < run.length) := fun hzero => by
      have hone := h.zero hzero.1
      omega
    simp [wholePart, hdigits, hzero]
  have hfraction : fraction rest = some ([], rest) := by
    rw [fraction, if_neg]
    intro hpoint
    exact (hrest _ hpoint).2.1 rfl
  have hexponent : exponent rest = some (0, rest) := by
    rw [exponent, if_neg]
    rintro (hupper | hlower)
    · exact (hrest _ hupper).2.2.1 rfl
    · exact (hrest _ hlower).2.2.2 rfl
  simp [magnitude, hwhole, hfraction, hexponent]

/-- The digit a whole number begins with. -/
theorem exists_cons (h : WholeNumber run) :
    ∃ c digits, run = c :: digits ∧ 48 ≤ c.toNat ∧ c.toNat ≤ 57 := by
  obtain ⟨c, digits, rfl⟩ := List.exists_cons_of_ne_nil h.ne_nil
  have hc := h.isDigit c List.mem_cons_self
  unfold ByteSearch.isDigit at hc
  rw [Bool.and_eq_true, decide_eq_true_iff, decide_eq_true_iff] at hc
  exact ⟨c, digits, rfl, hc⟩

end WholeNumber

/-- A value that begins with a digit or a minus sign is a number. -/
theorem value_number {c : UInt8} (hc : c = 45 ∨ 48 ≤ c.toNat ∧ c.toNat ≤ 57) (fuel : ℕ) (rest : Bytes) :
    value (fuel + 1) (c :: rest) = number (c :: rest) := by
  have hne : ∀ d : UInt8, (d.toNat < 45 ∨ 57 < d.toNat) → c ≠ d := by
    rintro d hd rfl
    rcases hc with rfl | hc
    · revert hd
      decide
    · omega
  have hblank : isBlank c = false := by
    simp [isBlank, hne 32 (by decide), hne 9 (by decide), hne 10 (by decide), hne 13 (by decide)]
  rw [value, skipBlanks_cons hblank]
  dsimp only
  rw [if_neg (hne 123 (by decide)), if_neg (hne 91 (by decide)), if_neg (hne 34 (by decide)),
    if_neg (hne 116 (by decide)), if_neg (hne 102 (by decide)), if_neg (hne 110 (by decide))]

/-- A whole number is read. -/
theorem reads_whole {run : Bytes} (h : WholeNumber run) : Reads run (.number (decimalValue run) 0) := by
  intro fuel rest hfuel hrest
  obtain ⟨fuel, rfl⟩ : ∃ n, fuel = n + 1 := ⟨fuel - 1, by omega⟩
  have hmagnitude := h.magnitude_append hrest
  obtain ⟨c, digits, rfl, hc⟩ := h.exists_cons
  have hsign : ¬(c :: (digits ++ rest)).head? = some 45 := by
    intro hsign
    obtain rfl : c = 45 := Option.some.inj hsign
    revert hc
    decide
  rw [List.cons_append] at hmagnitude ⊢
  rw [value_number (Or.inr hc), number, if_neg hsign, hmagnitude]
  rfl

/-- So is one behind a minus sign. -/
theorem reads_negative {run : Bytes} (h : WholeNumber run) :
    Reads (45 :: run) (.number (-decimalValue run) 0) := by
  intro fuel rest hfuel hrest
  obtain ⟨fuel, rfl⟩ : ∃ n, fuel = n + 1 := ⟨fuel - 1, by omega⟩
  rw [List.cons_append, value_number (Or.inl rfl), number, List.head?_cons, if_pos rfl, List.tail_cons,
    h.magnitude_append hrest]
  rfl

/-! ### Objects -/

/-- A text without control bytes. -/
def Printable (text : Bytes) : Prop := ∀ c ∈ text, ¬c < 0x20

instance (text : Bytes) : Decidable (Printable text) := List.decidableBAll (fun c => ¬c < 0x20) text

/-- Printable texts one behind the other are printable. -/
theorem Printable.append {first second : Bytes} (hfirst : Printable first) (hsecond : Printable second) :
    Printable (first ++ second) := List.forall_mem_append.mpr ⟨hfirst, hsecond⟩

/-- So is one behind a printable character. -/
theorem Printable.cons {c : UInt8} (hc : ¬c < 0x20) {rest : Bytes} (hrest : Printable rest) :
    Printable (c :: rest) := List.forall_mem_cons.mpr ⟨hc, hrest⟩

/-- So is a printable character alone. -/
theorem printable_singleton {c : UInt8} (hc : ¬c < 0x20) : Printable [c] :=
  List.forall_mem_singleton.mpr hc

/-- So are any number of them. -/
theorem printable_flatMap {α : Type} {list : List α} {text : α → Bytes}
    (h : ∀ a ∈ list, Printable (text a)) : Printable (list.flatMap text) := fun c hc => by
  obtain ⟨a, ha, hmem⟩ := List.mem_flatMap.mp hc
  exact h a ha c hmem

/-- A member of an object, with the texts that are read as its key and its value. -/
structure Member where
  spelled : Bytes
  key : Bytes
  token : Bytes
  item : Json
  quotes : Quotes spelled key
  reads : Reads token item

namespace Member

/-- The text of a member. -/
def text (member : Member) : Bytes := 34 :: member.spelled ++ 34 :: 58 :: member.token

/-- What a member is read as. -/
def pair (member : Member) : Bytes × Json := (member.key, member.item)

/-- A member is printable when its key and its value are. -/
theorem printable_text {member : Member} (hspelled : Printable member.spelled)
    (htoken : Printable member.token) : Printable member.text :=
  (Printable.cons (by decide) hspelled).append (Printable.cons (by decide) (.cons (by decide) htoken))

end Member

/-- The text of the members that follow the first. -/
def followingText (list : List Member) : Bytes := list.flatMap fun member => 44 :: member.text

/-- The text of an object, with nothing between its tokens. -/
def objectText (first : Member) (list : List Member) : Bytes :=
  123 :: first.text ++ followingText list ++ [125]

/-- So is an object of printable members. -/
theorem printable_objectText {first : Member} {list : List Member}
    (h : ∀ member ∈ first :: list, Printable member.text) : Printable (objectText first list) := by
  obtain ⟨hfirst, hlist⟩ := List.forall_mem_cons.mp h
  have hfollowing : Printable (followingText list) :=
    printable_flatMap fun member hmember => .cons (by decide) (hlist member hmember)
  exact ((Printable.cons (by decide) hfirst).append hfollowing).append (printable_singleton (by decide))

/-- The text of the members is read as the members, in their order. -/
theorem members_text (first : Member) (list : List Member) (rest : Bytes) {fuel : ℕ}
    (hfuel : (first.text ++ followingText list).length < fuel) :
    members fuel (first.text ++ followingText list ++ 125 :: rest) =
      some ((first :: list).map Member.pair, rest) := by
  induction list generalizing first fuel with
  | nil =>
    obtain ⟨fuel, rfl⟩ : ∃ n, fuel = n + 1 := ⟨fuel - 1, by omega⟩
    have hroom : first.token.length < fuel := by
      simp only [Member.text, followingText, List.flatMap_nil, List.append_nil, List.length_append,
        List.length_cons] at hfuel
      omega
    have htext : first.text ++ followingText [] ++ 125 :: rest =
        34 :: (first.spelled ++ 34 :: 58 :: (first.token ++ 125 :: rest)) := by
      simp [Member.text, followingText]
    have hkey : string (34 :: (first.spelled ++ 34 :: 58 :: (first.token ++ 125 :: rest))) =
      some (first.key, 58 :: (first.token ++ 125 :: rest)) := first.quotes _
    have hvalue := first.reads fuel (125 :: rest) hroom
      (delimits_cons (by decide) (by decide) (by decide) (by decide) rest)
    rw [htext, members, skipBlanks_cons (by decide), hkey]
    simp [skipBlanks_cons, isBlank, hvalue, Member.pair]
  | cons next list ih =>
    obtain ⟨fuel, rfl⟩ : ∃ n, fuel = n + 1 := ⟨fuel - 1, by omega⟩
    have hroom : first.token.length < fuel ∧ (next.text ++ followingText list).length < fuel := by
      simp only [Member.text, followingText, List.flatMap_cons, List.length_append,
        List.length_cons] at hfuel ⊢
      omega
    have htext : first.text ++ followingText (next :: list) ++ 125 :: rest =
        34 :: (first.spelled ++ 34 :: 58 :: (first.token ++
          44 :: (next.text ++ followingText list ++ 125 :: rest))) := by
      simp [Member.text, followingText]
    have hkey : string (34 :: (first.spelled ++ 34 :: 58 :: (first.token ++
        44 :: (next.text ++ followingText list ++ 125 :: rest)))) =
      some (first.key, 58 :: (first.token ++
        44 :: (next.text ++ followingText list ++ 125 :: rest))) := first.quotes _
    have hvalue := first.reads fuel (44 :: (next.text ++ followingText list ++ 125 :: rest)) hroom.1
      (delimits_cons (by decide) (by decide) (by decide) (by decide) _)
    have hnext := ih next hroom.2
    rw [htext, members, skipBlanks_cons (by decide), hkey]
    simp only [List.append_assoc] at hvalue hnext
    simp [skipBlanks_cons, isBlank, hvalue, hnext, Member.pair]

/-- The text of an object is that object and nothing else. -/
theorem parse_objectText (first : Member) (list : List Member) :
    parse (objectText first list) = some (.object ((first :: list).map Member.pair)) := by
  have htext : objectText first list = 123 :: (first.text ++ followingText list ++ [125]) := by
    simp [objectText]
  have hroom : (first.text ++ followingText list).length < (objectText first list).length := by
    simp only [htext, List.length_cons, List.length_append, List.length_nil]
    omega
  have hmembers := members_text first list [] hroom
  have hhead : (skipBlanks (first.text ++ followingText list ++ [125])).head? ≠ some 125 := by
    rw [Member.text, List.cons_append, List.cons_append, List.cons_append, skipBlanks_cons (by decide),
      List.head?_cons]
    decide
  have hvalue : value ((objectText first list).length + 1) (objectText first list) =
      some (.object ((first :: list).map Member.pair), []) := by
    have hskip : skipBlanks (objectText first list) = objectText first list := by
      rw [htext, skipBlanks_cons (by decide)]
    rw [value, hskip, htext]
    dsimp only
    rw [← htext]
    rw [if_pos rfl, if_neg hhead, hmembers]
    rfl
  unfold parse
  rw [hvalue]
  rfl

end OpenDlssg.JsonText
