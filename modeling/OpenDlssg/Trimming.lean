import Mathlib.Data.List.DropRight

/-!
# Lists trimmed at both ends

A list is trimmed of a class of elements at its ends. A list that neither begins
nor ends with one is bare; it is what is left of itself among any padding.
-/

namespace OpenDlssg.Trimming

universe u

variable {α : Type u} {p : α → Bool}

/-- A list without the elements of a class at its ends. -/
def trim (p : α → Bool) (l : List α) : List α := (l.dropWhile p).rdropWhile p

/-- A list that neither begins nor ends with an element of a class. -/
structure Bare (p : α → Bool) (l : List α) : Prop where
  first : ∀ c ∈ l.head?, p c = false
  last : ∀ c ∈ l.getLast?, p c = false

instance (p : α → Bool) (l : List α) : Decidable (Bare p l) :=
  decidable_of_iff ((∀ c ∈ l.head?, p c = false) ∧ ∀ c ∈ l.getLast?, p c = false)
    ⟨fun h => ⟨h.1, h.2⟩, fun h => ⟨h.first, h.last⟩⟩

/-- A list of a class only. -/
def Padding (p : α → Bool) (l : List α) : Prop := ∀ c ∈ l, p c = true

instance (p : α → Bool) (l : List α) : Decidable (Padding p l) :=
  inferInstanceAs (Decidable (∀ c ∈ l, p c = true))

/-- Nothing is padding. -/
theorem padding_nil : Padding p [] := fun _ hc => absurd hc List.not_mem_nil

/-- Padding behind padding is padding. -/
theorem Padding.append {l l' : List α} (h : Padding p l) (h' : Padding p l') : Padding p (l ++ l') :=
  fun c hc => (List.mem_append.mp hc).elim (h c) (h' c)

/-- Nothing is left of padding. -/
theorem trim_padding {l : List α} (h : Padding p l) : trim p l = [] := by
  unfold trim
  rw [List.dropWhile_eq_nil_iff.mpr h]
  exact List.rdropWhile_nil _

/-- A bare list is left among padding. -/
theorem trim_padded {before l after : List α} (hbefore : Padding p before) (hl : Bare p l)
    (hafter : Padding p after) : trim p (before ++ l ++ after) = l := by
  unfold trim
  rw [List.append_assoc, List.dropWhile_append_of_pos hbefore]
  cases l with
  | nil =>
    rw [List.nil_append, List.dropWhile_eq_nil_iff.mpr hafter]
    exact List.rdropWhile_nil _
  | cons c l =>
    have hfirst : ¬p c = true := Bool.eq_false_iff.mp (hl.first c rfl)
    rw [List.cons_append, List.dropWhile_cons_of_neg hfirst, ← List.cons_append]
    have hdrop : (c :: l ++ after).rdropWhile p = (c :: l).rdropWhile p := by
      unfold List.rdropWhile
      rw [List.reverse_append, List.dropWhile_append_of_pos fun d hd => hafter d (List.mem_reverse.mp hd)]
    rw [hdrop, List.rdropWhile_eq_self_iff]
    exact fun hne => Bool.eq_false_iff.mp (hl.last _ (List.getLast?_eq_some_getLast hne))

/-- A list is trimmed up to the first element that is not of the class. -/
theorem trim_cons {c : α} (hc : p c = false) (l : List α) : ∃ rest, trim p (c :: l) = c :: rest := by
  have hne : trim p (c :: l) ≠ [] := by
    unfold trim
    rw [List.dropWhile_cons_of_neg (Bool.eq_false_iff.mp hc)]
    intro hnil
    exact Bool.eq_false_iff.mp hc (List.rdropWhile_eq_nil_iff.mp hnil c List.mem_cons_self)
  have hprefix : trim p (c :: l) <+: c :: l := by
    unfold trim
    rw [List.dropWhile_cons_of_neg (Bool.eq_false_iff.mp hc)]
    exact List.rdropWhile_prefix _ _
  obtain ⟨d, rest, hcons⟩ := List.exists_cons_of_ne_nil hne
  rw [hcons] at hprefix ⊢
  exact ⟨rest, by rw [(List.cons_prefix_cons.mp hprefix).1]⟩

end OpenDlssg.Trimming
