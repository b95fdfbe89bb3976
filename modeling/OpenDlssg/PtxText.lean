import OpenDlssg.TextLines

/-!
# The entry points a PTX text declares

A text is read token by token; comments, strings and preprocessor lines are no
part of it. An entry point is declared by `.entry` and the name after it,
whatever blanks, comments and line breaks stand between. Where a line begins,
the text may be in the middle of a comment or of a declaration, and what the
line declares depends on the lines before it through these two alone.
-/

namespace OpenDlssg.PtxText

open ByteCodec TextLines

/-- What a byte of a text may stand in, or behind. -/
inductive Mode where
  | code | slash | comment | star | remark | quoted
  deriving DecidableEq

/-- What follows a byte of code; `#` opens a preprocessor line. -/
def Mode.behind (c : UInt8) : Mode :=
  if c == 47 then .slash else if c == 34 then .quoted else if c == 35 then .remark else .code

/-- What follows a byte. A comment between `/*` and `*/` goes on over line
breaks and does not nest. -/
def Mode.next : Mode → UInt8 → Mode
  | .code, c => .behind c
  | .slash, c => if c == 42 then .comment else if c == 47 then .remark else .behind c
  | .comment, c => if c == 42 then .star else .comment
  | .star, c => if c == 47 then .code else if c == 42 then .star else .comment
  | .remark, _ => .remark
  | .quoted, c => if c == 34 then .code else .quoted

/-- What is left of a byte where the text is read as code: a blank of a comment,
and of a string its opening quote. -/
def Mode.read (mode : Mode) (c : UInt8) : UInt8 :=
  if (mode = .code ∨ mode = .slash) ∧ (mode.next c = .code ∨ mode.next c = .quoted) then c else 32

/-- A line without its comments. -/
def uncommented : Mode → Bytes → Bytes
  | _, [] => []
  | mode, c :: cs => mode.read c :: uncommented (mode.next c) cs

/-- Whether a byte may stand in a name. -/
def isNameByte (c : UInt8) : Bool :=
  decide (48 ≤ c ∧ c ≤ 57) || decide (65 ≤ c ∧ c ≤ 90) || decide (97 ≤ c ∧ c ≤ 122) || c == 95 ||
    c == 36 || c == 37

/-- Whether a byte only separates tokens. -/
def isSpace (c : UInt8) : Bool := c == 32 || decide (9 ≤ c ∧ c ≤ 13)

/-- The tokens of a line of code that goes on with the given word: words, which
a dot may open, and single bytes. -/
def tokensFrom (word : Bytes) : Bytes → List Bytes
  | [] => if word = [] then [] else [word]
  | c :: cs =>
    if isNameByte c then tokensFrom (word ++ [c]) cs
    else
      (if word = [] then [] else [word]) ++
        if c == 46 then tokensFrom [c] cs
        else if isSpace c then tokensFrom [] cs
        else [c] :: tokensFrom [] cs

/-- The directive that declares an entry point. -/
def kEntry : Bytes := ascii ".entry"

/-- Whether a token is a name; one opens with no digit. -/
def isName (token : Bytes) : Bool :=
  token.all isNameByte && (token.head?.map fun c => !decide (48 ≤ c ∧ c ≤ 57)).getD false

/-- The names among the tokens that follow `.entry`, which may have stood before
the first of them. -/
def named : Bool → List Bytes → List Bytes
  | _, [] => []
  | afterEntry, token :: rest =>
    (if afterEntry && isName token then [token] else []) ++ named (token == kEntry) rest

/-- What the lines before a line have begun and not ended. -/
structure Place where
  inComment : Bool := false
  /-- The last token is `.entry`. -/
  afterEntry : Bool := false
  deriving DecidableEq

/-- What the first byte of a line stands in. -/
def Place.mode (place : Place) : Mode := if place.inComment then .comment else .code

/-- The tokens of a line. -/
def lineTokens (place : Place) (line : Bytes) : List Bytes :=
  tokensFrom [] (uncommented place.mode line)

/-- The entry points a line names, where it stands. -/
def lineEntries (place : Place) (line : Bytes) : List Bytes :=
  named place.afterEntry (lineTokens place line)

/-- What a line leaves begun. A line break ends everything but a comment. -/
def nextPlace (place : Place) (line : Bytes) : Place where
  inComment := decide (line.foldl Mode.next place.mode ∈ [Mode.comment, .star])
  afterEntry := ((lineTokens place line).getLast?.map (· == kEntry)).getD place.afterEntry

/-- The entry points lines name, in order. -/
def entriesFrom : Place → List Bytes → List Bytes
  | _, [] => []
  | place, line :: ls => lineEntries place line ++ entriesFrom (nextPlace place line) ls

/-- The entry points a text declares, in order. -/
def entryPoints (text : Bytes) : List Bytes := entriesFrom {} (lines text)

/-- Lines name what the first of them name, and the rest name behind these. -/
theorem entriesFrom_append (place : Place) (before behind : List Bytes) :
    entriesFrom place (before ++ behind) =
      entriesFrom place before ++ entriesFrom (before.foldl nextPlace place) behind := by
  induction before generalizing place with
  | nil => rfl
  | cons line ls ih =>
    rw [List.cons_append, entriesFrom, entriesFrom, ih, List.foldl_cons, List.append_assoc]

/-- A line that ends whatever the lines before it have begun. -/
def kApart : Bytes := ascii "*/;"

/-- It names nothing. -/
theorem lineEntries_kApart (place : Place) : lineEntries place kApart = [] := by
  obtain ⟨inComment, afterEntry⟩ := place
  cases inComment <;> cases afterEntry <;> decide

/-- What follows it is read on its own. -/
theorem nextPlace_kApart (place : Place) : nextPlace place kApart = {} := by
  obtain ⟨inComment, afterEntry⟩ := place
  cases inComment <;> cases afterEntry <;> decide

example : entryPoints (ascii ".visible .entry // first\r\n  a()\n/* .entry b() */ .weak .entry c()") =
    [ascii "a", ascii "c"] := by decide +kernel

end OpenDlssg.PtxText
