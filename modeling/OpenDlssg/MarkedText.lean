import OpenDlssg.ByteSearch

/-!
# Texts cut at a marker

A marker whose first byte occurs nowhere else in it cannot overlap itself, so a
text is the part before its first marker and the parts behind each marker.
Replacing the run of bytes right behind every marker acts on those parts one by
one and makes no new marker.
-/

namespace OpenDlssg.MarkedText

open ByteCodec ByteSearch

/-- A marker and the class of bytes a run behind it is made of. -/
structure Marker where
  first : UInt8
  rest : Bytes
  isRun : UInt8 → Bool
  /-- The marker cannot overlap itself. -/
  fresh : first ∉ rest
  /-- A run never opens a marker. -/
  notRun : isRun first = false

/-- The bytes of a marker. -/
def Marker.text (marker : Marker) : Bytes := marker.first :: marker.rest

/-- A byte string of run bytes only. -/
abbrev Marker.Run (marker : Marker) : Type :=
  {run : Bytes // ∀ b ∈ run, marker.isRun b = true}

variable {marker : Marker}

/-- The parts behind markers, each with its marker. -/
def marked (marker : Marker) (tails : List Bytes) : Bytes :=
  tails.flatMap fun tail => marker.text ++ tail

/-- The first part behind a marker, and those behind the next ones. -/
theorem marked_cons (marker : Marker) (tail : Bytes) (tails : List Bytes) :
    marked marker (tail :: tails) = marker.text ++ (tail ++ marked marker tails) := by
  unfold marked
  rw [List.flatMap_cons, List.append_assoc]

/-- There are no more markers than bytes. -/
theorem length_marked_ge (marker : Marker) (tails : List Bytes) :
    tails.length ≤ (marked marker tails).length := by
  induction tails with
  | nil => exact le_rfl
  | cons tail tails ih =>
    have hpos : 0 < marker.text.length := Nat.succ_pos _
    rw [marked_cons, List.length_append, List.length_append, List.length_cons]
    omega

/-- A text cut at its markers. -/
structure Cut (marker : Marker) where
  /-- What stands before the first marker. -/
  head : Bytes
  /-- What stands behind each marker, up to the next. -/
  tails : List Bytes
  head_clean : ¬marker.text <:+: head
  tails_clean : ∀ tail ∈ tails, ¬marker.text <:+: tail

/-- The text that was cut. -/
def Cut.text (cut : Cut marker) : Bytes := cut.head ++ marked marker cut.tails

/-- Everything that follows an occurrence of the marker, for each occurrence in order. -/
def followings (marker : Marker) : Bytes → List Bytes
  | [] => []
  | b :: rest =>
    if marker.text.isPrefixOf (b :: rest) then
      (b :: rest).drop marker.text.length :: followings marker rest
    else followings marker rest

/-- What follows each marker of a list of parts. -/
def suffixes (marker : Marker) : List Bytes → List Bytes
  | [] => []
  | tail :: tails => (tail ++ marked marker tails) :: suffixes marker tails

/-- The run a part opens with, replaced by another when there is one. -/
def withRun (marker : Marker) (replacement : marker.Run) (tail : Bytes) : Bytes :=
  if tail.takeWhile marker.isRun = [] then tail
  else replacement.1 ++ tail.dropWhile marker.isRun

/-- A marker that starts in a byte string without its first byte starts behind it. -/
theorem infix_of_infix_append {bs rest : Bytes} (hbs : marker.first ∉ bs)
    (h : marker.text <:+: bs ++ rest) : marker.text <:+: rest := by
  induction bs with
  | nil => exact h
  | cons b bs ih =>
    rw [List.cons_append, List.infix_cons_iff] at h
    rcases h with hp | hrest
    · have hfirst : marker.first = b := (List.cons_prefix_cons.mp hp).1
      exact absurd (by rw [hfirst]; exact List.mem_cons_self) hbs
    · exact ih (fun hmem => hbs (List.mem_cons_of_mem _ hmem)) hrest

/-- A part without the marker's first byte holds no marker. -/
theorem clean_of_notMem {bs : Bytes} (hbs : marker.first ∉ bs) : ¬marker.text <:+: bs := fun h =>
  hbs (h.subset List.mem_cons_self)

/-- A run does not hold the marker's first byte. -/
theorem first_notMem_run (run : marker.Run) : marker.first ∉ run.1 := by
  intro hmem
  have hrun := run.2 _ hmem
  rw [marker.notRun] at hrun
  cases hrun

/-- Replacing a run makes no marker. -/
theorem withRun_clean {replacement : marker.Run} {tail : Bytes} (h : ¬marker.text <:+: tail) :
    ¬marker.text <:+: withRun marker replacement tail := by
  unfold withRun
  split
  · exact h
  · intro hinfix
    have hrest := infix_of_infix_append (first_notMem_run replacement) hinfix
    exact h (hrest.trans (List.dropWhile_suffix _).isInfix)

/-- Every run behind a marker replaced by one and the same. -/
def Cut.withRuns (cut : Cut marker) (replacement : marker.Run) : Cut marker where
  head := cut.head
  tails := cut.tails.map (withRun marker replacement)
  head_clean := cut.head_clean
  tails_clean := by
    intro tail hmem
    obtain ⟨before, hbefore, rfl⟩ := List.mem_map.mp hmem
    exact withRun_clean (cut.tails_clean before hbefore)

/-- No marker starts in a part without one, even where the next marker follows. -/
theorem not_prefix_append {b : UInt8} {bs rest : Bytes} (h : ¬marker.text <:+: b :: bs) :
    ¬marker.text <+: b :: (bs ++ (marker.text ++ rest)) := by
  intro hp
  have hpart : b :: bs <+: b :: (bs ++ (marker.text ++ rest)) :=
    ⟨marker.text ++ rest, by rw [List.cons_append]⟩
  rcases List.prefix_or_prefix_of_prefix hp hpart with hshort | hlong
  · exact h hshort.isInfix
  · obtain ⟨more, hmore⟩ := hlong
    cases more with
    | nil =>
      rw [List.append_nil] at hmore
      exact h (hmore ▸ List.infix_rfl)
    | cons c more =>
      -- the marker would run into the next one, whose first byte it does not hold
      have hnext : c :: more <+: marker.text ++ rest := by
        have hwhole : (b :: bs) ++ c :: more <+: (b :: bs) ++ (marker.text ++ rest) := by
          rw [hmore]
          exact hp
        exact (List.prefix_append_right_inj _).mp hwhole
      have hfirst : c = marker.first := (List.cons_prefix_cons.mp hnext).1
      have hrest : bs ++ c :: more = marker.rest := (List.cons.inj hmore).2
      exact marker.fresh (by rw [← hrest, ← hfirst]; simp)

/-- The first marker behind a part without one is the one that follows it. -/
theorem find_append {bs rest : Bytes} (h : ¬marker.text <:+: bs) :
    find marker.text (bs ++ (marker.text ++ rest)) = some bs.length := by
  induction bs with
  | nil =>
    have hat : marker.text.isPrefixOf (marker.first :: (marker.rest ++ rest)) = true :=
      List.isPrefixOf_iff_prefix.mpr ⟨rest, rfl⟩
    have hcons : [] ++ (marker.text ++ rest) = marker.first :: (marker.rest ++ rest) := rfl
    rw [hcons, find, if_pos hat]
    rfl
  | cons b bs ih =>
    have hclean : ¬marker.text <:+: bs := fun hi => h (List.infix_cons_iff.mpr (Or.inr hi))
    have hno : ¬marker.text.isPrefixOf (b :: (bs ++ (marker.text ++ rest))) = true := fun hp =>
      not_prefix_append h (List.isPrefixOf_iff_prefix.mp hp)
    rw [List.cons_append, find, if_neg hno, ih hclean]
    rfl

/-- A part without a marker has nothing to find. -/
theorem find_eq_none {bs : Bytes} (h : ¬marker.text <:+: bs) : find marker.text bs = none := by
  cases hfind : find marker.text bs with
  | none => rfl
  | some i =>
    obtain ⟨_, hat, _⟩ := find_eq_some.mp hfind
    exact absurd (hat.isInfix.trans (List.drop_suffix i bs).isInfix) h

/-- Parts behind markers open with the marker's first byte. -/
theorem eq_first_of_prefix_marked {c : UInt8} {more : Bytes} {tails : List Bytes}
    (h : c :: more <+: marked marker tails) : c = marker.first := by
  cases tails with
  | nil => exact absurd (List.prefix_nil.mp h) (List.cons_ne_nil _ _)
  | cons tail tails => exact (List.cons_prefix_cons.mp h).1

/-- The rest of a marker that runs into a cut text lies in its head. -/
theorem rest_prefix_head {head : Bytes} {tails : List Bytes}
    (h : marker.rest <+: head ++ marked marker tails) : marker.rest <+: head := by
  rcases List.prefix_or_prefix_of_prefix h (List.prefix_append _ _) with hshort | hlong
  · exact hshort
  · obtain ⟨more, hmore⟩ := hlong
    cases more with
    | nil => exact (by rw [← hmore, List.append_nil])
    | cons c more =>
      rw [← hmore, List.prefix_append_right_inj] at h
      have hfirst := eq_first_of_prefix_marked h
      exact absurd (by rw [← hmore, ← hfirst]; simp) marker.fresh

/-- Every text can be cut at its markers. -/
theorem exists_cut (marker : Marker) (text : Bytes) : ∃ cut : Cut marker, cut.text = text := by
  induction text with
  | nil =>
    have hclean : ¬marker.text <:+: [] := fun h => List.cons_ne_nil _ _ (List.infix_nil.mp h)
    exact ⟨⟨[], [], hclean, by simp⟩, rfl⟩
  | cons b rest ih =>
    obtain ⟨cut, rfl⟩ := ih
    by_cases hp : marker.text <+: b :: cut.text
    · obtain ⟨hfirst, hrest⟩ := List.cons_prefix_cons.mp hp
      obtain ⟨behind, hbehind⟩ := rest_prefix_head hrest
      have hclean : ¬marker.text <:+: behind := fun h =>
        cut.head_clean (hbehind ▸ h.trans (List.suffix_append _ _).isInfix)
      have hempty : ¬marker.text <:+: [] := fun h => List.cons_ne_nil _ _ (List.infix_nil.mp h)
      refine ⟨⟨[], behind :: cut.tails, hempty, ?_⟩, ?_⟩
      · intro tail hmem
        rcases List.mem_cons.mp hmem with rfl | hmem
        · exact hclean
        · exact cut.tails_clean tail hmem
      · simp only [Cut.text, marked, List.flatMap_cons, Marker.text, List.nil_append,
          List.cons_append, ← hbehind, List.append_assoc, hfirst]
    · have hclean : ¬marker.text <:+: b :: cut.head := by
        intro h
        rcases List.infix_cons_iff.mp h with hshort | hinner
        · exact hp (hshort.trans ⟨marked marker cut.tails, rfl⟩)
        · exact cut.head_clean hinner
      exact ⟨⟨b :: cut.head, cut.tails, hclean, cut.tails_clean⟩, rfl⟩

/-- Nothing follows a marker in a part without its first byte. -/
theorem followings_append_of_notMem {bs : Bytes} (h : marker.first ∉ bs) (rest : Bytes) :
    followings marker (bs ++ rest) = followings marker rest := by
  induction bs with
  | nil => rfl
  | cons b bs ih =>
    have hno : ¬marker.text.isPrefixOf (b :: (bs ++ rest)) = true := by
      intro hp
      have hfirst : marker.first = b :=
        (List.cons_prefix_cons.mp (List.isPrefixOf_iff_prefix.mp hp)).1
      exact h (by rw [hfirst]; exact List.mem_cons_self)
    rw [List.cons_append, followings, if_neg hno, ih fun hmem => h (List.mem_cons_of_mem _ hmem)]

/-- What follows a marker is what was put behind it. -/
theorem followings_marker (rest : Bytes) :
    followings marker (marker.text ++ rest) = rest :: followings marker rest := by
  have hat : marker.text.isPrefixOf (marker.first :: (marker.rest ++ rest)) = true :=
    List.isPrefixOf_iff_prefix.mpr ⟨rest, rfl⟩
  have hcons : marker.text ++ rest = marker.first :: (marker.rest ++ rest) := rfl
  rw [hcons, followings, if_pos hat, followings_append_of_notMem marker.fresh, ← hcons,
    List.drop_left]

/-- A part without a marker adds nothing to what follows the markers behind it. -/
theorem followings_append_marked {bs : Bytes} (h : ¬marker.text <:+: bs) (tails : List Bytes) :
    followings marker (bs ++ marked marker tails) = followings marker (marked marker tails) := by
  induction bs with
  | nil => rfl
  | cons b bs ih =>
    have hno : ¬marker.text.isPrefixOf (b :: (bs ++ marked marker tails)) = true := by
      intro hp
      have hprefix := List.isPrefixOf_iff_prefix.mp hp
      cases tails with
      | nil =>
        rw [marked, List.flatMap_nil, List.append_nil] at hprefix
        exact h hprefix.isInfix
      | cons tail tails =>
        rw [marked_cons] at hprefix
        exact not_prefix_append h hprefix
    rw [List.cons_append, followings, if_neg hno,
      ih fun hi => h (List.infix_cons_iff.mpr (Or.inr hi))]

/-- What follows the markers of a cut text are its parts, each to the end of the text. -/
theorem followings_text (cut : Cut marker) :
    followings marker cut.text = suffixes marker cut.tails := by
  have htails : ∀ tails : List Bytes, (∀ tail ∈ tails, ¬marker.text <:+: tail) →
      followings marker (marked marker tails) = suffixes marker tails := by
    intro tails hclean
    induction tails with
    | nil => rfl
    | cons tail tails ih =>
      have hrest := ih fun t ht => hclean t (List.mem_cons_of_mem _ ht)
      rw [marked_cons, followings_marker, followings_append_marked (hclean tail List.mem_cons_self), hrest,
        suffixes]
  rw [Cut.text, followings_append_marked cut.head_clean, htails cut.tails cut.tails_clean]

/-- Where a text holds the marker. -/
def occurrences (marker : Marker) (text : Bytes) : List ℕ :=
  (List.range text.length).filter fun i => marker.text.isPrefixOf (text.drop i)

/-- What follows the markers is the rest of the text behind each occurrence. -/
theorem followings_eq_map (marker : Marker) (text : Bytes) :
    followings marker text = (occurrences marker text).map fun i => text.drop (i + marker.text.length) := by
  induction text with
  | nil => rfl
  | cons b rest ih =>
    have hlater : ((List.range rest.length).map Nat.succ).filter
        (fun i => marker.text.isPrefixOf ((b :: rest).drop i)) = (occurrences marker rest).map Nat.succ := by
      rw [List.filter_map]
      rfl
    have hbehind : ((occurrences marker rest).map Nat.succ).map
        (fun i => (b :: rest).drop (i + marker.text.length)) = followings marker rest := by
      rw [ih, List.map_map]
      refine List.map_congr_left fun i _ => ?_
      rw [Function.comp_apply, Nat.succ_add, List.drop_succ_cons]
    rw [followings, occurrences, List.length_cons, List.range_succ_eq_map, List.filter_cons, hlater,
      List.drop_zero]
    split
    · rw [List.map_cons, hbehind, Nat.zero_add]
    · exact hbehind.symm

/-- A run of a class the marker's first byte is not in ends before the next marker. -/
theorem takeWhile_append_marked {p : UInt8 → Bool} (hp : p marker.first = false) (tail : Bytes)
    (tails : List Bytes) : (tail ++ marked marker tails).takeWhile p = tail.takeWhile p := by
  have hnone : (marked marker tails).takeWhile p = [] := by
    cases tails with
    | nil => rfl
    | cons next tails =>
      have hcons : marked marker (next :: tails) =
          marker.first :: (marker.rest ++ next ++ marked marker tails) := rfl
      rw [hcons, List.takeWhile_cons, hp]
      rfl
  rw [List.takeWhile_append, hnone, List.append_nil]
  split
  · rename_i hwhole
    exact ((List.takeWhile_prefix p).eq_of_length hwhole).symm
  · rfl

/-- What is left behind such a run goes on to the next marker. -/
theorem dropWhile_append_marked {p : UInt8 → Bool} (hp : p marker.first = false) (tail : Bytes)
    (tails : List Bytes) :
    (tail ++ marked marker tails).dropWhile p = tail.dropWhile p ++ marked marker tails := by
  have hsplit : (tail ++ marked marker tails).takeWhile p ++ (tail ++ marked marker tails).dropWhile p =
      tail.takeWhile p ++ (tail.dropWhile p ++ marked marker tails) := by
    rw [List.takeWhile_append_dropWhile, ← List.append_assoc, List.takeWhile_append_dropWhile]
  rw [takeWhile_append_marked hp] at hsplit
  exact List.append_cancel_left hsplit

/-- The run put behind a marker is the run the part opens with. -/
theorem takeWhile_withRun (replacement : marker.Run) {tail : Bytes}
    (h : tail.takeWhile marker.isRun ≠ []) :
    (withRun marker replacement tail).takeWhile marker.isRun = replacement.1 := by
  have hnone : (tail.dropWhile marker.isRun).takeWhile marker.isRun = [] := by
    rw [List.takeWhile_eq_nil_iff]
    exact fun hlen => List.dropWhile_get_zero_not _ _ hlen
  rw [withRun, if_neg h, List.takeWhile_append_of_pos replacement.2, hnone, List.append_nil]

/-- Behind its run a part is what it was. -/
theorem dropWhile_withRun (replacement : marker.Run) (tail : Bytes) :
    (withRun marker replacement tail).dropWhile marker.isRun = tail.dropWhile marker.isRun := by
  unfold withRun
  split
  · rfl
  · rw [List.dropWhile_append_of_pos replacement.2, List.dropWhile_idempotent]

/-- Of two runs put behind a marker the last one stays. -/
theorem withRun_withRun {first : marker.Run} (hfirst : first.1 ≠ []) (second : marker.Run)
    (tail : Bytes) :
    withRun marker second (withRun marker first tail) = withRun marker second tail := by
  by_cases h : tail.takeWhile marker.isRun = []
  · have hkept : withRun marker first tail = tail := if_pos h
    rw [hkept]
  · have hrun := takeWhile_withRun first h
    rw [withRun, hrun, if_neg hfirst, dropWhile_withRun, withRun, if_neg h]

/-- The last of two runs put behind every marker is the one that stays. -/
theorem Cut.withRuns_withRuns (cut : Cut marker) {first : marker.Run} (hfirst : first.1 ≠ [])
    (second : marker.Run) : (cut.withRuns first).withRuns second = cut.withRuns second := by
  have htails : (cut.tails.map (withRun marker first)).map (withRun marker second) =
      cut.tails.map (withRun marker second) := by
    rw [List.map_map]
    exact List.map_congr_left fun tail _ => withRun_withRun hfirst second tail
  simp only [Cut.withRuns, htails]

end OpenDlssg.MarkedText
