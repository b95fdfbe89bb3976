import OpenDlssg.IniFile

/-!
# What a settings file says

A document writes values in the order of its lines: a section's line, then a
line for each key, among blank lines and comments. Read back, each key has the
last value that was written for it, whatever the case of the letters.
-/

namespace OpenDlssg.IniFormat

open ByteCodec LastWriteMap TextLines Trimming IniFile

/-- A value written for a key of a section. -/
structure Triple where
  sect : Bytes
  key : Bytes
  value : Bytes
  deriving DecidableEq

/-- A mark directly after whitespace starts a comment. -/
def NoComment (previous c : UInt8) : Prop := isSpace previous = true → isMark c = false

instance : DecidableRel NoComment := fun previous c =>
  inferInstanceAs (Decidable (isSpace previous = true → isMark c = false))

/-- A text that can be written on a line: it has no line feed and no whitespace around
it, and nothing in it starts a comment. -/
structure Plain (text : Bytes) : Prop where
  newline : kNewline ∉ text
  bare : Bare isSpace text
  start : ∀ c ∈ text.head?, isMark c = false
  inside : text.IsChain NoComment

instance (text : Bytes) : Decidable (Plain text) :=
  decidable_of_iff (kNewline ∉ text ∧ Bare isSpace text ∧ (∀ c ∈ text.head?, isMark c = false) ∧
      text.IsChain NoComment)
    ⟨fun ⟨hnewline, hbare, hstart, hinside⟩ => ⟨hnewline, hbare, hstart, hinside⟩,
      fun h => ⟨h.newline, h.bare, h.start, h.inside⟩⟩

/-- What can be written and read back: keys are not empty, have no equals sign, and
with their value do not look like a section. -/
structure Triple.WellFormed (t : Triple) : Prop where
  sect : Plain t.sect
  key : Plain t.key
  value : Plain t.value
  present : t.key ≠ []
  equals : kEquals ∉ t.key
  section_like : t.key.head? = some kOpen → t.value.getLast? ≠ some kClose

instance (t : Triple) : Decidable t.WellFormed :=
  decidable_of_iff (Plain t.sect ∧ Plain t.key ∧ Plain t.value ∧ t.key ≠ [] ∧ kEquals ∉ t.key ∧
      (t.key.head? = some kOpen → t.value.getLast? ≠ some kClose))
    ⟨fun ⟨hsect, hkey, hvalue, hpresent, hequals, hlike⟩ =>
        ⟨hsect, hkey, hvalue, hpresent, hequals, hlike⟩,
      fun h => ⟨h.sect, h.key, h.value, h.present, h.equals, h.section_like⟩⟩

/-- Whitespace within a line. -/
def Gap (text : Bytes) : Prop := Padding isSpace text ∧ kNewline ∉ text

/-- What may follow on a line: whitespace, and then a comment. A carriage return before
the line feed is whitespace or the end of the comment. -/
inductive Trailing : Bytes → Prop
  | gap {gap : Bytes} : Gap gap → Trailing gap
  | comment {gap : Bytes} {space mark : UInt8} {text : Bytes} : Gap gap → isSpace space = true →
      space ≠ kNewline → isMark mark = true → kNewline ∉ text →
      Trailing (gap ++ space :: mark :: text)

/-- A line that says nothing. -/
inductive Filler : Bytes → Prop
  | blank {gap : Bytes} : Gap gap → Filler gap
  | comment {gap text : Bytes} {mark : UInt8} : Gap gap → isMark mark = true → kNewline ∉ text →
      Filler (gap ++ mark :: text)

/-- The line of a section. -/
inductive Header (name : Bytes) : Bytes → Prop
  | line {before left right after : Bytes} : Gap before → Gap left → Gap right → Trailing after →
      Header name (before ++ (kOpen :: (left ++ name ++ right) ++ [kClose]) ++ after)

/-- The line of a key. -/
inductive Pair (key value : Bytes) : Bytes → Prop
  | line {before left right after : Bytes} : Gap before → Gap left → Gap right → Trailing after →
      Pair key value (before ++ (key ++ left ++ kEquals :: (right ++ value)) ++ after)

/-- The lines that write values, given the section they are in, if any. -/
inductive Writes : Option Bytes → List Triple → List Bytes → Prop
  | done {current : Option Bytes} : Writes current [] []
  | filler {current : Option Bytes} {triples : List Triple} {line : Bytes} {rest : List Bytes} :
      Filler line → Writes current triples rest → Writes current triples (line :: rest)
  | header {current : Option Bytes} {name : Bytes} {triples : List Triple} {line : Bytes}
      {rest : List Bytes} : Plain name → Header name line → Writes (some name) triples rest →
      Writes current triples (line :: rest)
  | pair {sect key value : Bytes} {triples : List Triple} {line : Bytes} {rest : List Bytes} :
      Pair key value line → Writes (some sect) triples rest →
      Writes (some sect) (⟨sect, key, value⟩ :: triples) (line :: rest)

/-- A text that writes values: its lines, after a byte-order mark or not. -/
inductive Document (triples : List Triple) : Bytes → Prop
  | plain {rest : List Bytes} : Writes none triples rest → Document triples (joined rest)
  | marked {rest : List Bytes} : Writes none triples rest →
      Document triples (kUtf8Bom ++ joined rest)

/-! ### Comments -/

/-- Nothing is stripped where nothing starts a comment. -/
theorem stripComment_eq_self {text : Bytes} (h : text.IsChain NoComment) : stripComment text = text := by
  have hafter : ∀ (text : Bytes) (previous : UInt8), (previous :: text).IsChain NoComment →
      stripAfter previous text = text := by
    intro text
    induction text with
    | nil => exact fun _ _ => rfl
    | cons c text ih =>
      intro previous hchain
      obtain ⟨hfirst, hrest⟩ := List.isChain_cons_cons.mp hchain
      have hkeep : (isMark c && isSpace previous) = false := by
        cases hspace : isSpace previous with
        | false => rw [Bool.and_false]
        | true => rw [hfirst hspace, Bool.false_and]
      rw [stripAfter, hkeep, if_neg Bool.false_ne_true, ih c hrest]
  cases text with
  | nil => rfl
  | cons c text => rw [stripComment, hafter text c h]

/-- A comment is stripped from the mark on. -/
theorem stripComment_comment {text : Bytes} {space mark : UInt8} (h : (text ++ [space]).IsChain NoComment)
    (hspace : isSpace space = true) (hmark : isMark mark = true) (comment : Bytes) :
    stripComment (text ++ space :: mark :: comment) = text ++ [space] := by
  have hafter : ∀ (text : Bytes) (previous : UInt8), (previous :: (text ++ [space])).IsChain NoComment →
      stripAfter previous (text ++ space :: mark :: comment) = text ++ [space] := by
    intro text
    induction text with
    | nil =>
      intro previous hchain
      have hkeep : (isMark space && isSpace previous) = false := by
        cases hprevious : isSpace previous with
        | false => rw [Bool.and_false]
        | true =>
          have hfirst := (List.isChain_cons_cons.mp hchain).1 hprevious
          rw [hfirst, Bool.false_and]
      rw [List.nil_append, stripAfter, hkeep, if_neg Bool.false_ne_true, stripAfter, hmark, hspace]
      rfl
    | cons c text ih =>
      intro previous hchain
      obtain ⟨hfirst, hrest⟩ := List.isChain_cons_cons.mp hchain
      have hkeep : (isMark c && isSpace previous) = false := by
        cases hprevious : isSpace previous with
        | false => rw [Bool.and_false]
        | true => rw [hfirst hprevious, Bool.false_and]
      rw [List.cons_append, stripAfter, hkeep, if_neg Bool.false_ne_true, ih c hrest, List.cons_append]
  cases text with
  | nil =>
    rw [List.nil_append, stripComment, stripAfter, hmark, hspace]
    rfl
  | cons c text => rw [List.cons_append, stripComment, hafter text c h, List.cons_append]

/-- Whitespace starts no comment. -/
theorem isMark_of_isSpace {c : UInt8} (h : isSpace c = true) : isMark c = false := by
  rw [Bool.eq_false_iff]
  intro hmark
  unfold isMark at hmark
  rcases (Bool.or_eq_true _ _).mp hmark with hc | hc
  · rw [beq_iff_eq.mp hc] at h
    exact absurd h (by decide)
  · rw [beq_iff_eq.mp hc] at h
    exact absurd h (by decide)

/-- A text without marks starts no comment. -/
theorem chain_of_unmarked {text : Bytes} (h : ∀ c ∈ text, isMark c = false) : text.IsChain NoComment := by
  induction text with
  | nil => exact List.isChain_nil
  | cons c text ih =>
    cases text with
    | nil => exact List.isChain_singleton c
    | cons d text =>
      exact List.isChain_cons_cons.mpr ⟨fun _ => h d (List.mem_cons_of_mem _ List.mem_cons_self),
        ih fun e he => h e (List.mem_cons_of_mem _ he)⟩

/-- A text that starts no comment may follow another. -/
theorem chain_append {first second : Bytes} (hfirst : first.IsChain NoComment)
    (hsecond : second.IsChain NoComment) (hstart : ∀ c ∈ second.head?, isMark c = false) :
    (first ++ second).IsChain NoComment :=
  List.isChain_append.mpr ⟨hfirst, hsecond, fun _ _ c hc _ => hstart c hc⟩

/-- No comment starts right after a character other than whitespace. -/
theorem chain_cons {c : UInt8} (hc : isSpace c = false) {text : Bytes} (h : text.IsChain NoComment) :
    (c :: text).IsChain NoComment := by
  refine List.isChain_cons.mpr ⟨fun _ _ hspace => ?_, h⟩
  rw [hc] at hspace
  cases hspace

/-- Whitespace opens no comment. -/
theorem chain_padding {gap : Bytes} (h : Padding isSpace gap) : gap.IsChain NoComment :=
  chain_of_unmarked fun c hc => isMark_of_isSpace (h c hc)

/-- It does not begin with a mark. -/
theorem start_padding {gap : Bytes} (h : Padding isSpace gap) : ∀ c ∈ gap.head?, isMark c = false :=
  fun c hc => isMark_of_isSpace (h c (List.mem_of_mem_head? hc))

/-- What follows on a line is stripped but for whitespace. -/
theorem strip_trailing {text after : Bytes} (htext : text.IsChain NoComment) (h : Trailing after) :
    ∃ gap, Padding isSpace gap ∧ stripComment (text ++ after) = text ++ gap := by
  cases h with
  | gap hgap =>
    exact ⟨after, hgap.1, stripComment_eq_self
      (chain_append htext (chain_padding hgap.1) (start_padding hgap.1))⟩
  | @comment gap space mark comment hgap hspace _ hmark _ =>
    have hpadding : Padding isSpace (gap ++ [space]) :=
      hgap.1.append fun c hc => (List.mem_singleton.mp hc) ▸ hspace
    refine ⟨gap ++ [space], hpadding, ?_⟩
    have hchain : ((text ++ gap) ++ [space]).IsChain NoComment := by
      rw [List.append_assoc]
      exact chain_append htext (chain_padding hpadding) (start_padding hpadding)
    rw [← List.append_assoc, stripComment_comment hchain hspace hmark comment, List.append_assoc]

/-! ### Lines -/

/-- A line that says nothing changes nothing. -/
theorem readLine_filler {line : Bytes} (h : Filler line) (reading : Reading) :
    readLine reading line = reading := by
  cases h with
  | blank hgap =>
    have hcontent : trim isSpace (stripComment line) = [] := by
      rw [stripComment_eq_self (chain_padding hgap.1)]
      exact trim_padding hgap.1
    rw [readLine, hcontent]
  | @comment gap text mark hgap hmark _ =>
    rcases List.eq_nil_or_concat' gap with rfl | ⟨before, space, rfl⟩
    · have hnot : isSpace mark = false := by
        rw [Bool.eq_false_iff]
        intro hspace
        rw [isMark_of_isSpace hspace] at hmark
        cases hmark
      obtain ⟨rest, hcontent⟩ := trim_cons hnot (stripAfter mark text)
      rw [readLine, List.nil_append, stripComment, hcontent]
      dsimp only
      rw [if_pos hmark]
    · have hspace : isSpace space = true := hgap.1 space (List.mem_append_right _ List.mem_cons_self)
      have hcontent : trim isSpace (stripComment (before ++ [space] ++ mark :: text)) = [] := by
        rw [List.append_assoc, List.singleton_append,
          stripComment_comment (chain_padding hgap.1) hspace hmark]
        exact trim_padding hgap.1
      rw [readLine, hcontent]

/-- The line of a section opens it. -/
theorem readLine_header {name line : Bytes} (hname : Plain name) (h : Header name line)
    (reading : Reading) : readLine reading line = { reading with current := lower name } := by
  cases h with
  | @line before left right after hbefore hleft hright hafter =>
    have hinside : (left ++ name ++ right).IsChain NoComment :=
      chain_append (chain_append (chain_padding hleft.1) hname.inside hname.start)
        (chain_padding hright.1) (start_padding hright.1)
    have hopened : (kOpen :: (left ++ name ++ right)).IsChain NoComment :=
      chain_cons (by decide) hinside
    have hcore : (before ++ (kOpen :: (left ++ name ++ right) ++ [kClose])).IsChain NoComment := by
      refine chain_append (chain_padding hbefore.1) (chain_append hopened (List.isChain_singleton _) ?_) ?_
      · intro c hc
        rw [← Option.some.inj hc]
        decide
      · intro c hc
        rw [← Option.some.inj hc]
        decide
    obtain ⟨gap, hgap, hstrip⟩ := strip_trailing hcore hafter
    have hbare : Bare isSpace (kOpen :: (left ++ name ++ right) ++ [kClose]) := by
      refine ⟨fun c hc => ?_, fun c hc => ?_⟩
      · rw [← Option.some.inj hc]
        decide
      · rw [List.getLast?_concat] at hc
        rw [← Option.some.inj hc]
        decide
    have hcontent : trim isSpace (stripComment (before ++ (kOpen :: (left ++ name ++ right) ++ [kClose]) ++
        after)) = kOpen :: ((left ++ name ++ right) ++ [kClose]) := by
      rw [hstrip]
      exact trim_padded hbefore.1 hbare hgap
    have hlast : (kOpen :: ((left ++ name ++ right) ++ [kClose])).getLast? = some kClose := by
      rw [← List.cons_append]
      exact List.getLast?_concat
    rw [readLine, hcontent]
    dsimp only
    rw [if_neg (by decide), if_pos ⟨rfl, hlast⟩, List.dropLast_concat,
      trim_padded hleft.1 hname.bare hright.1]

/-- What a key's line is trimmed to: whitespace after the equals sign goes with an empty
value. -/
def kept (right value : Bytes) : Bytes := if value = [] then [] else right ++ value

/-- What is kept of a value, trimmed, is the value. -/
theorem trim_kept {right value : Bytes} (hright : Padding isSpace right) (hvalue : Bare isSpace value) :
    trim isSpace (kept right value) = value := by
  unfold kept
  split
  · rename_i hnil
    rw [hnil]
    rfl
  · have hpadded := trim_padded hright hvalue padding_nil
    rwa [List.append_nil] at hpadded

/-- The last character of a key's line is that of its value, or the equals sign. -/
theorem getLast?_kept (text right value : Bytes) :
    (text ++ kEquals :: kept right value).getLast? = some (value.getLast?.getD kEquals) := by
  unfold kept
  split
  · rename_i hnil
    rw [hnil]
    exact List.getLast?_concat
  · rename_i hvalue
    obtain ⟨front, last, rfl⟩ := (List.eq_nil_or_concat' value).resolve_left hvalue
    rw [List.getLast?_concat, ← List.append_assoc, ← List.cons_append, ← List.append_assoc]
    exact List.getLast?_concat

/-- The content of a key's line. -/
theorem content_pair {t : Triple} (ht : t.WellFormed) {before left right after : Bytes}
    (hbefore : Gap before) (hleft : Gap left) (hright : Gap right) (hafter : Trailing after) :
    trim isSpace (stripComment (before ++ (t.key ++ left ++ kEquals :: (right ++ t.value)) ++ after)) =
      t.key ++ left ++ kEquals :: kept right t.value := by
  have hequals : isSpace kEquals = false ∧ isMark kEquals = false := by decide
  have hvalue : (kEquals :: (right ++ t.value)).IsChain NoComment :=
    chain_cons hequals.1 (chain_append (chain_padding hright.1) ht.value.inside ht.value.start)
  have hkey : (t.key ++ left).IsChain NoComment :=
    chain_append ht.key.inside (chain_padding hleft.1) (start_padding hleft.1)
  have hstart : ∀ c ∈ (t.key ++ left ++ kEquals :: (right ++ t.value)).head?, isMark c = false := by
    obtain ⟨c, key, hcons⟩ := List.exists_cons_of_ne_nil ht.present
    intro d hd
    rw [hcons] at hd
    rw [← Option.some.inj hd]
    exact ht.key.start c (by rw [hcons]; rfl)
  have hline : (before ++ (t.key ++ left ++ kEquals :: (right ++ t.value))).IsChain NoComment := by
    refine chain_append (chain_padding hbefore.1) (chain_append hkey hvalue fun c hc => ?_) hstart
    rw [← Option.some.inj hc]
    exact hequals.2
  obtain ⟨gap, hgap, hstrip⟩ := strip_trailing hline hafter
  have hbare : Bare isSpace (t.key ++ left ++ kEquals :: kept right t.value) := by
    refine ⟨?_, fun c hc => ?_⟩
    · obtain ⟨c, key, hcons⟩ := List.exists_cons_of_ne_nil ht.present
      intro d hd
      rw [hcons] at hd
      rw [← Option.some.inj hd]
      exact ht.key.bare.first c (by rw [hcons]; rfl)
    · rw [getLast?_kept] at hc
      rw [← Option.some.inj hc]
      cases hlast : t.value.getLast? with
      | none => exact hequals.1
      | some last => exact ht.value.bare.last last hlast
  rw [hstrip]
  by_cases hnil : t.value = []
  · have hpadding : Padding isSpace (right ++ gap) := hright.1.append hgap
    have hsplit : before ++ (t.key ++ left ++ kEquals :: (right ++ t.value)) ++ gap =
        before ++ (t.key ++ left ++ kEquals :: kept right t.value) ++ (right ++ gap) := by
      rw [hnil, kept, if_pos rfl]
      simp
    rw [hsplit]
    exact trim_padded hbefore.1 hbare hpadding
  · have hkept : kept right t.value = right ++ t.value := if_neg hnil
    rw [← hkept]
    exact trim_padded hbefore.1 hbare hgap

/-- The line of a key assigns its value. -/
theorem readLine_pair {t : Triple} (ht : t.WellFormed) {line : Bytes} (h : Pair t.key t.value line)
    (reading : Reading) : readLine reading line = { reading with
      sections := insertNested reading.sections reading.current (lower t.key) t.value } := by
  cases h with
  | @line before left right after hbefore hleft hright hafter =>
    have hcontent := content_pair ht hbefore hleft hright hafter
    have hnot : ∀ c ∈ t.key ++ left, (c != kEquals) = true := by
      intro c hc
      rw [bne_iff_ne]
      rintro rfl
      rcases List.mem_append.mp hc with hkey | hgap
      · exact ht.equals hkey
      · exact absurd (hleft.1 _ hgap) (by decide)
    have htake : (t.key ++ left ++ kEquals :: kept right t.value).takeWhile (· != kEquals) =
        t.key ++ left := by
      rw [List.takeWhile_append_of_pos hnot, List.takeWhile_cons_of_neg (by decide), List.append_nil]
    have hdrop : (t.key ++ left ++ kEquals :: kept right t.value).dropWhile (· != kEquals) =
        kEquals :: kept right t.value := by
      rw [List.dropWhile_append_of_pos hnot, List.dropWhile_cons_of_neg (by decide)]
    have hmem : kEquals ∈ t.key ++ left ++ kEquals :: kept right t.value :=
      List.mem_append_right _ List.mem_cons_self
    have hkey : trim isSpace (t.key ++ left) = t.key :=
      trim_padded padding_nil ht.key.bare hleft.1
    have hpresent : lower t.key ≠ [] := fun hnil => ht.present (List.map_eq_nil_iff.mp hnil)
    obtain ⟨c, key, hcons⟩ := List.exists_cons_of_ne_nil ht.present
    have hfirst : isMark c = false := ht.key.start c (by rw [hcons]; rfl)
    have hsection : ¬(c = kOpen ∧
        (t.key ++ left ++ kEquals :: kept right t.value).getLast? = some kClose) := by
      rintro ⟨hopen, hclose⟩
      rw [getLast?_kept] at hclose
      cases hlast : t.value.getLast? with
      | none =>
        rw [hlast] at hclose
        exact absurd hclose (by decide)
      | some last =>
        rw [hlast] at hclose
        exact ht.section_like (by rw [hcons, hopen]; rfl) (hlast.trans hclose)
    have hhead : t.key ++ left ++ kEquals :: kept right t.value =
        c :: (key ++ left ++ kEquals :: kept right t.value) := by
      rw [hcons]
      rfl
    rw [hhead] at htake hdrop hmem hsection
    rw [readLine, hcontent, hhead]
    dsimp only
    rw [if_neg (Bool.eq_false_iff.mp hfirst), if_neg hsection, if_pos hmem, htake, hkey, if_neg hpresent,
      hdrop, List.drop_one, List.tail_cons, trim_kept hright.1 ht.value.bare]

/-! ### Documents -/

/-- What is read of a document is the values it writes, in their order. -/
theorem foldl_readLine {current : Option Bytes} {triples : List Triple} {rest : List Bytes}
    (h : Writes current triples rest) (hwell : ∀ t ∈ triples, t.WellFormed) (reading : Reading)
    (hcurrent : ∀ name, current = some name → reading.current = lower name) :
    (rest.foldl readLine reading).sections = triples.foldl (fun sections t =>
      insertNested sections (lower t.sect) (lower t.key) t.value) reading.sections := by
  induction h generalizing reading with
  | done => rfl
  | filler hfiller _ ih =>
    rw [List.foldl_cons, readLine_filler hfiller]
    exact ih hwell reading hcurrent
  | @header _ name _ _ _ hname hheader _ ih =>
    rw [List.foldl_cons, readLine_header hname hheader]
    exact ih hwell _ fun name' h => by rw [← Option.some.inj h]
  | @pair sect key value triples line rest hpair _ ih =>
    have hfirst : Triple.WellFormed ⟨sect, key, value⟩ := hwell _ List.mem_cons_self
    rw [List.foldl_cons, readLine_pair hfirst hpair, List.foldl_cons, hcurrent sect rfl]
    exact ih (fun t ht => hwell t (List.mem_cons_of_mem _ ht)) _ fun name h => by
      rw [← Option.some.inj h]

/-- What trails a value holds no line feed. -/
theorem Trailing.newline {after : Bytes} (h : Trailing after) : kNewline ∉ after := by
  cases h with
  | gap hgap => exact hgap.2
  | @comment gap space mark text hgap _ hspace hmark htext =>
    have hmarked : kNewline ≠ mark := by
      rintro rfl
      exact absurd hmark (by decide)
    rw [List.mem_append, List.mem_cons, List.mem_cons]
    rintro (hin | rfl | hin | hin)
    · exact hgap.2 hin
    · exact hspace rfl
    · exact hmarked hin
    · exact htext hin

/-- Nor does a line that says nothing. -/
theorem Filler.newline {line : Bytes} (h : Filler line) : kNewline ∉ line := by
  cases h with
  | blank hgap => exact hgap.2
  | @comment gap text mark hgap hmark htext =>
    rw [List.mem_append, List.mem_cons]
    rintro (hin | rfl | hin)
    · exact hgap.2 hin
    · exact absurd hmark (by decide)
    · exact htext hin

/-- Nor does the header of a section. -/
theorem Header.newline {name line : Bytes} (hname : Plain name) (h : Header name line) :
    kNewline ∉ line := by
  cases h with
  | line hbefore hleft hright hafter =>
    simp only [List.mem_append, List.mem_cons]
    rintro ((hin | (hin | (hin | hin) | hin) | hin) | hin)
    · exact hbefore.2 hin
    · exact absurd hin (by decide)
    · exact hleft.2 hin
    · exact hname.newline hin
    · exact hright.2 hin
    · exact absurd hin (by decide)
    · exact hafter.newline hin

/-- Nor does the line of a key. -/
theorem Pair.newline {t : Triple} (ht : t.WellFormed) {line : Bytes} (h : Pair t.key t.value line) :
    kNewline ∉ line := by
  cases h with
  | line hbefore hleft hright hafter =>
    simp only [List.mem_append, List.mem_cons]
    rintro ((hin | (hin | hin) | hin | hin | hin) | hin)
    · exact hbefore.2 hin
    · exact ht.key.newline hin
    · exact hleft.2 hin
    · exact absurd hin (by decide)
    · exact hright.2 hin
    · exact ht.value.newline hin
    · exact hafter.newline hin

/-- The lines of a document hold no line feed. -/
theorem Writes.newline {current : Option Bytes} {triples : List Triple} {rest : List Bytes}
    (h : Writes current triples rest) (hwell : ∀ t ∈ triples, t.WellFormed) :
    ∀ line ∈ rest, kNewline ∉ line := by
  induction h with
  | done => exact fun line hline => absurd hline List.not_mem_nil
  | filler hfiller _ ih => exact List.forall_mem_cons.mpr ⟨hfiller.newline, ih hwell⟩
  | header hname hheader _ ih => exact List.forall_mem_cons.mpr ⟨hheader.newline hname, ih hwell⟩
  | @pair sect key value _ _ _ hpair _ ih =>
    have hfirst : Triple.WellFormed ⟨sect, key, value⟩ := hwell _ List.mem_cons_self
    exact List.forall_mem_cons.mpr ⟨hpair.newline hfirst,
      ih fun t ht => hwell t (List.mem_cons_of_mem _ ht)⟩

/-- Padding before a text that does not begin like a byte-order mark leaves it so. -/
theorem start_padded {gap text : Bytes} (hgap : Padding isSpace gap) (htext : ∀ c ∈ text.head?, c ≠ 0xEF) :
    ∀ c ∈ (gap ++ text).head?, c ≠ 0xEF := by
  cases gap with
  | nil => exact htext
  | cons d gap =>
    intro c hc hmark
    have hspace := hgap d List.mem_cons_self
    rw [Option.some.inj hc, hmark] at hspace
    exact absurd hspace (by decide)

/-- A document does not begin like a byte-order mark. -/
theorem Writes.start {triples : List Triple} {line : Bytes} {rest : List Bytes}
    (h : Writes none triples (line :: rest)) : ∀ c ∈ line.head?, c ≠ 0xEF := by
  cases h with
  | filler hfiller _ =>
    cases hfiller with
    | blank hgap =>
      have hempty : ∀ c ∈ ([] : Bytes).head?, c ≠ 0xEF := fun c hc => by cases hc
      have hstart := start_padded hgap.1 hempty
      rwa [List.append_nil] at hstart
    | @comment gap text mark hgap hmark _ =>
      refine start_padded hgap.1 fun c hc hbom => ?_
      rw [← Option.some.inj hc] at hbom
      rw [hbom] at hmark
      exact absurd hmark (by decide)
  | header hname hheader _ =>
    cases hheader with
    | @line before left right after hbefore =>
      rw [List.append_assoc]
      refine start_padded hbefore.1 fun c hc hbom => ?_
      have hopen : kOpen = c := Option.some.inj hc
      rw [← hopen] at hbom
      exact absurd hbom (by decide)

/-- Lines begin as the first of them does. -/
theorem start_joined {line : Bytes} (rest : List Bytes) (hline : ∀ c ∈ line.head?, c ≠ 0xEF) :
    ∀ c ∈ (joined (line :: rest)).head?, c ≠ 0xEF := by
  have hsplit : ∃ tail : Bytes, joined (line :: rest) = line ++ tail ∧ ∀ c ∈ tail.head?, c ≠ 0xEF := by
    cases rest with
    | nil => exact ⟨[], by simp [joined], fun c hc => by cases hc⟩
    | cons next rest =>
      refine ⟨kNewline :: joined (next :: rest), by simp [joined], fun c hc => ?_⟩
      rw [← Option.some.inj hc]
      decide
  obtain ⟨tail, hjoined, htail⟩ := hsplit
  rw [hjoined]
  cases line with
  | nil => exact htail
  | cons c line => exact hline

/-- The lines of a document are read as they were written. -/
theorem foldl_lines_joined {rest : List Bytes} (hnewline : ∀ line ∈ rest, kNewline ∉ line) :
    (lines (joined rest)).foldl readLine {} = rest.foldl readLine {} := by
  cases rest with
  | nil => rfl
  | cons line rest =>
    unfold lines joined
    rw [List.splitOn_intercalate kNewline hnewline (List.cons_ne_nil _ _)]

/-- A byte-order mark is passed over, and nothing else is. -/
theorem load_document {triples : List Triple} (hwell : ∀ t ∈ triples, t.WellFormed) {text : Bytes}
    (h : Document triples text) : ∃ rest, Writes none triples rest ∧
      (load (some text)).2.sections = (rest.foldl readLine {}).sections := by
  cases h with
  | @plain rest hrest =>
    refine ⟨rest, hrest, ?_⟩
    have hstart : ∀ c ∈ (joined rest).head?, c ≠ 0xEF := by
      cases rest with
      | nil => exact fun c hc => by cases hc
      | cons line rest => exact start_joined rest hrest.start
    have hbom : ¬kUtf8Bom.isPrefixOf (joined rest) = true := by
      intro hprefix
      obtain ⟨tail, htail⟩ := List.isPrefixOf_iff_prefix.mp hprefix
      exact hstart 0xEF (by rw [← htail]; rfl) rfl
    rw [load]
    dsimp only
    rw [if_neg hbom, foldl_lines_joined (hrest.newline hwell)]
  | @marked rest hrest =>
    refine ⟨rest, hrest, ?_⟩
    have hbom : kUtf8Bom.isPrefixOf (kUtf8Bom ++ joined rest) = true :=
      List.isPrefixOf_iff_prefix.mpr (List.prefix_append _ _)
    rw [load]
    dsimp only
    rw [if_pos hbom, List.drop_left, foldl_lines_joined (hrest.newline hwell)]

/-- Read back, a key has the last value written for it, whatever the case of the
letters, and a key that none was written for the fallback. -/
theorem getString_document {triples : List Triple} (hwell : ∀ t ∈ triples, t.WellFormed) {text : Bytes}
    (hdocument : Document triples text) (sect key fallback : Bytes) :
    (load (some text)).2.getString sect key fallback =
      match (triples.filter fun t => lower t.sect = lower sect ∧ lower t.key = lower key).getLast? with
      | some t => t.value
      | none => fallback := by
  obtain ⟨rest, hrest, hsections⟩ := load_document hwell hdocument
  have hread := foldl_readLine hrest hwell {} fun name h => by cases h
  have hlast := foldl_last_write_empty
    (fun (sections : Sections) (t : Triple) =>
      insertNested sections (lower t.sect) (lower t.key) t.value)
    (fun sections => lookupNested sections (lower sect) (lower key))
    (fun t => lower t.sect = lower sect ∧ lower t.key = lower key) Triple.value
    (fun sections t => lookupNested_insertNested sections _ _ _ _ _) triples
    (s := ∅) (lookupNested_empty _ _)
  unfold Ini.getString Ini.find
  rw [hsections, hread, hlast]
  cases (triples.filter fun t => decide (lower t.sect = lower sect ∧ lower t.key = lower key)).getLast? with
  | some t => rfl
  | none => rfl

/-- A path with a semicolon in it, written twice. -/
def twice : List Triple :=
  [⟨ascii "Logging", ascii "Directory", ascii "C:\\odd;games"⟩,
    ⟨ascii "Logging", ascii "DIRECTORY", ascii "logs"⟩]

/-- Its lines: a section with a comment behind it, and the two values, with and without
whitespace. -/
def twiceLines : List Bytes :=
  [[] ++ (kOpen :: ([] ++ ascii "Logging" ++ []) ++ [kClose]) ++ ([] ++ 32 :: 59 :: ascii "where\r"),
    [] ++ (ascii "Directory" ++ [32] ++ kEquals :: ([32] ++ ascii "C:\\odd;games")) ++ [13],
    [] ++ (ascii "DIRECTORY" ++ [] ++ kEquals :: ([] ++ ascii "logs")) ++ []]

/-- The triples are well formed. -/
theorem twice_wellFormed : ∀ t ∈ twice, t.WellFormed := by decide +kernel

/-- The text is a document of them. -/
theorem twice_document : Document twice (kUtf8Bom ++ joined twiceLines) := by
  have hnone : Gap [] := ⟨fun c hc => absurd hc List.not_mem_nil, List.not_mem_nil⟩
  have hblank : Gap [32] := ⟨by decide, by decide⟩
  have hreturn : Gap [13] := ⟨by decide, by decide⟩
  have hname : Plain (ascii "Logging") := (twice_wellFormed _ List.mem_cons_self).sect
  refine .marked (.header hname (.line hnone hnone hnone (.comment hnone ?_ ?_ ?_ ?_)) (.pair
    (.line hnone hblank hblank (.gap hreturn)) (.pair (.line hnone hnone hnone (.gap hnone)) .done)))
  · decide
  · decide
  · decide
  · decide

/-- The last of the two is read. -/
theorem getString_document_twice :
    (load (some (kUtf8Bom ++ joined twiceLines))).2.getString (ascii "LOGGING") (ascii "directory") [] =
      match (twice.filter fun t => lower t.sect = lower (ascii "LOGGING") ∧
        lower t.key = lower (ascii "directory")).getLast? with
      | some t => t.value
      | none => [] :=
  getString_document twice_wellFormed twice_document (ascii "LOGGING") (ascii "directory") []

end OpenDlssg.IniFormat
