import OpenDlssg.ByteCodec

/-!
# Texts as lists of lines

A text is cut at its line feeds. Its lines hold none, so lines that are each
closed by one can be told apart again, and a text made of given lines has them.
-/

namespace OpenDlssg.TextLines

open ByteCodec

/-- The line feed. -/
def kNewline : UInt8 := 10

/-- The lines of a text; the last one need not be closed. -/
def lines (text : Bytes) : List Bytes := text.splitOn kNewline

/-- Lines, each closed by a line feed. -/
def closed (ls : List Bytes) : Bytes := ls.flatMap fun line => line ++ [kNewline]

/-- The text with the given lines. -/
def joined (ls : List Bytes) : Bytes := [kNewline].intercalate ls

/-- A line holds no line feed. -/
theorem notMem_of_mem_lines {text line : Bytes} (h : line ∈ lines text) : kNewline ∉ line := by
  induction text generalizing line with
  | nil =>
    have hline : line = [] := List.mem_singleton.mp h
    rw [hline]
    exact List.not_mem_nil
  | cons b text ih =>
    unfold lines at h ih
    rw [List.splitOn_cons_eq_if_modifyHead] at h
    split at h
    · rcases List.mem_cons.mp h with rfl | hrest
      · exact List.not_mem_nil
      · exact ih hrest
    · rename_i hb
      cases hsplit : text.splitOn kNewline with
      | nil => exact absurd hsplit (List.splitOn_ne_nil _ _)
      | cons first more =>
        rw [hsplit] at h ih
        rcases List.mem_cons.mp h with rfl | hrest
        · intro hmem
          rcases List.mem_cons.mp hmem with heq | hin
          · exact hb (beq_iff_eq.mpr heq.symm)
          · exact ih List.mem_cons_self hin
        · exact ih (List.mem_cons_of_mem _ hrest)

/-- Where one closed line ends is where its line feed stands. -/
theorem eq_of_append_newline {first second rest rest' : Bytes} (hfirst : kNewline ∉ first)
    (hsecond : kNewline ∉ second)
    (h : first ++ kNewline :: rest = second ++ kNewline :: rest') : first = second ∧ rest = rest' := by
  induction first generalizing second with
  | nil =>
    cases second with
    | nil => exact ⟨rfl, (List.cons.inj h).2⟩
    | cons c second =>
      have hc : kNewline = c := (List.cons.inj h).1
      exact absurd (by rw [hc]; exact List.mem_cons_self) hsecond
  | cons b first ih =>
    cases second with
    | nil =>
      have hb : b = kNewline := (List.cons.inj h).1
      exact absurd (by rw [hb]; exact List.mem_cons_self) hfirst
    | cons c second =>
      obtain ⟨hbc, htail⟩ := List.cons.inj h
      obtain ⟨hsame, hrest⟩ := ih (fun hmem => hfirst (List.mem_cons_of_mem _ hmem))
        (fun hmem => hsecond (List.mem_cons_of_mem _ hmem)) htail
      exact ⟨by rw [hbc, hsame], hrest⟩

/-- Closed lines can be told apart again. -/
theorem closed_injective {ls ms : List Bytes} (hls : ∀ line ∈ ls, kNewline ∉ line)
    (hms : ∀ line ∈ ms, kNewline ∉ line) (h : closed ls = closed ms) : ls = ms := by
  induction ls generalizing ms with
  | nil =>
    cases ms with
    | nil => rfl
    | cons m ms => simp [closed] at h
  | cons l ls ih =>
    cases ms with
    | nil => simp [closed] at h
    | cons m ms =>
      unfold closed at h
      rw [List.flatMap_cons, List.flatMap_cons, List.append_assoc, List.append_assoc] at h
      obtain ⟨hline, hrest⟩ := eq_of_append_newline (hls l List.mem_cons_self)
        (hms m List.mem_cons_self) h
      have hmore := ih (fun line hin => hls line (List.mem_cons_of_mem _ hin))
        (fun line hin => hms line (List.mem_cons_of_mem _ hin)) hrest
      rw [hline, hmore]

/-- The text with the given lines has those lines. -/
theorem lines_joined {ls : List Bytes} (hne : ls ≠ []) (hls : ∀ line ∈ ls, kNewline ∉ line) :
    lines (joined ls) = ls :=
  List.splitOn_intercalate kNewline hls hne

end OpenDlssg.TextLines
