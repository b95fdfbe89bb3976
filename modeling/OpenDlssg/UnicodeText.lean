import Mathlib.Data.List.Basic
import Mathlib.Data.List.Flatten

/-!
# Text in its two encodings

A text is a list of characters; UTF-8 and UTF-16 write each of them in turn. A byte
below 128 stands for its character alone, so a class of such bytes is a class of
characters.
-/

namespace OpenDlssg.UnicodeText

/-- A text in UTF-8. -/
def utf8 (text : List Char) : List UInt8 := text.flatMap String.utf8EncodeChar

/-- The code units of a character: one, or a surrogate pair. -/
def utf16Char (c : Char) : List UInt16 :=
  if c.toNat < 0x10000 then [UInt16.ofNat c.toNat]
  else [UInt16.ofNat (0xD800 + (c.toNat - 0x10000) / 0x400),
    UInt16.ofNat (0xDC00 + (c.toNat - 0x10000) % 0x400)]

/-- A text in UTF-16. -/
def utf16 (text : List Char) : List UInt16 := text.flatMap utf16Char

/-- A conversion from UTF-8 to UTF-16: what it makes of bytes that are no text is left open. -/
def Decodes (convert : List UInt8 → List UInt16) : Prop := ∀ text, convert (utf8 text) = utf16 text

/-- A conversion that gives nothing for bytes that are no text. -/
def decode (bytes : List UInt8) : List UInt16 :=
  utf16 ((bytes.toByteArray.utf8Decode?.getD #[]).toList)

/-- The decoder decodes. -/
theorem decodes_decode : Decodes decode := by
  intro text
  unfold decode
  have hencoded : (utf8 text).toByteArray = text.utf8Encode := rfl
  rw [hencoded, List.utf8Decode?_utf8Encode]
  rfl

/-- No two texts are encoded alike. -/
theorem utf8_injective : Function.Injective utf8 := by
  intro first second h
  have hdecoded : first.utf8Encode.utf8Decode? = second.utf8Encode.utf8Decode? :=
    congrArg (fun bytes => bytes.toByteArray.utf8Decode?) h
  rw [List.utf8Decode?_utf8Encode, List.utf8Decode?_utf8Encode] at hdecoded
  exact congrArg Array.toList (Option.some.inj hdecoded)

/-- A character takes at least one unit. -/
theorem utf16Char_ne_nil (c : Char) : utf16Char c ≠ [] := by
  unfold utf16Char
  split_ifs
  · exact List.cons_ne_nil _ _
  · exact List.cons_ne_nil _ _

/-- A byte that leads or follows in a longer character is 128 or more. -/
theorem toNat_ofNat_mod_add (n : ℕ) {width offset : ℕ} (hoffset : 128 ≤ offset) (hwidth : 0 < width)
    (hfits : width + offset ≤ 256) : 128 ≤ (UInt8.ofNat (n % width + offset)).toNat := by
  have hmod := Nat.mod_lt n hwidth
  rw [UInt8.toNat_ofNat', Nat.mod_eq_of_lt (by omega)]
  omega

/-- A byte below 128 is all there is of its character. -/
theorem utf8EncodeChar_eq {c : Char} {b : UInt8} (hb : b.toNat < 128)
    (h : b ∈ String.utf8EncodeChar c) : String.utf8EncodeChar c = [b] ∧ c.toNat = b.toNat := by
  have hhigh : ∀ n {width offset : ℕ}, 128 ≤ offset → 0 < width → width + offset ≤ 256 →
      b ≠ UInt8.ofNat (n % width + offset) := by
    rintro n width offset hoffset hwidth hfits rfl
    exact absurd hb (Nat.not_lt.mpr (toNat_ofNat_mod_add n hoffset hwidth hfits))
  unfold String.utf8EncodeChar at h ⊢
  dsimp only at h ⊢
  split_ifs at h ⊢ with hone htwo hthree
  · obtain rfl := List.mem_singleton.mp h
    refine ⟨rfl, ?_⟩
    rw [UInt8.toNat_ofNat', Nat.mod_eq_of_lt (by omega)]
    rfl
  all_goals
    exfalso
    simp only [List.mem_cons, List.not_mem_nil, or_false] at h
  · rcases h with h | h
    · exact hhigh _ (by decide) (by decide) (by decide) h
    · exact hhigh _ (by decide) (by decide) (by decide) h
  · rcases h with h | h | h
    · exact hhigh _ (by decide) (by decide) (by decide) h
    · exact hhigh _ (by decide) (by decide) (by decide) h
    · exact hhigh _ (by decide) (by decide) (by decide) h
  · rcases h with h | h | h | h
    · exact hhigh _ (by decide) (by decide) (by decide) h
    · exact hhigh _ (by decide) (by decide) (by decide) h
    · exact hhigh _ (by decide) (by decide) (by decide) h
    · exact hhigh _ (by decide) (by decide) (by decide) h

/-- A character below 128 is its own byte. -/
theorem utf8EncodeChar_of_lt {c : Char} (hc : c.toNat < 128) :
    String.utf8EncodeChar c = [UInt8.ofNat c.toNat] := by
  unfold String.utf8EncodeChar
  exact if_pos (Nat.le_of_lt_succ hc)

/-- The characters that are bytes of a class. -/
def onChars (p : UInt8 → Bool) (c : Char) : Bool := decide (c.toNat < 128) && p (UInt8.ofNat c.toNat)

section Class

variable {p : UInt8 → Bool}

/-- A byte of a character is in a class where the character is. -/
theorem eq_onChars (hp : ∀ b, p b = true → b.toNat < 128) {c : Char} {b : UInt8}
    (h : b ∈ String.utf8EncodeChar c) : p b = onChars p c := by
  unfold onChars
  by_cases hc : c.toNat < 128
  · rw [utf8EncodeChar_of_lt hc] at h
    rw [List.mem_singleton.mp h, decide_eq_true hc, Bool.true_and]
  · rw [decide_eq_false hc, Bool.false_and, Bool.eq_false_iff]
    intro hin
    exact hc ((utf8EncodeChar_eq (hp b hin) h).2 ▸ hp b hin)

/-- Bytes outside a class are those of the characters outside it. -/
theorem filter_utf8 (hp : ∀ b, p b = true → b.toNat < 128) (text : List Char) :
    (utf8 text).filter (fun b => !p b) = utf8 (text.filter fun c => !onChars p c) := by
  induction text with
  | nil => rfl
  | cons c text ih =>
    have hhead : (String.utf8EncodeChar c).filter (fun b => !p b) =
        if onChars p c then [] else String.utf8EncodeChar c := by
      split_ifs with hc
      · refine List.filter_eq_nil_iff.mpr fun b hb => ?_
        rw [eq_onChars hp hb, hc]
        decide
      · refine List.filter_eq_self.mpr fun b hb => ?_
        rw [eq_onChars hp hb, Bool.eq_false_iff.mpr hc]
        rfl
    change (String.utf8EncodeChar c ++ utf8 text).filter _ = _
    rw [List.filter_append, hhead, ih]
    cases hc : onChars p c with
    | true =>
      rw [if_pos rfl, List.filter_cons_of_neg (by rw [hc]; decide)]
      rfl
    | false =>
      rw [if_neg Bool.false_ne_true, List.filter_cons_of_pos (by rw [hc]; rfl)]
      rfl

end Class

/-- A text is told from one of fewer characters by the length of its encoding. -/
theorem utf16_filter_eq {q : Char → Bool} {text : List Char} (h : utf16 (text.filter q) = utf16 text) :
    text.filter q = text := by
  have hle : ∀ text : List Char, (utf16 (text.filter q)).length ≤ (utf16 text).length := fun text =>
    (List.filter_sublist.flatMap utf16Char).length_le
  induction text with
  | nil => rfl
  | cons c text ih =>
    cases hc : q c with
    | true =>
      rw [List.filter_cons_of_pos hc] at h ⊢
      rw [ih (List.append_cancel_left h)]
    | false =>
      rw [List.filter_cons_of_neg (by rw [hc]; decide)] at h
      have hlength := congrArg List.length h
      change _ = (utf16Char c ++ utf16 text).length at hlength
      rw [List.length_append] at hlength
      have hpos := List.length_pos_iff.mpr (utf16Char_ne_nil c)
      have := hle text
      omega

end OpenDlssg.UnicodeText
