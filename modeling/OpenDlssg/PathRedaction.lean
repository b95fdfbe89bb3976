import OpenDlssg.ComponentSpelling
import OpenDlssg.LogFields

/-!
# Paths under the profile directory

A path lies in a directory when it begins with the directory's segments, in any
case, with either separator, whether the directory's own text ends in a separator
or not. The log looks for the directory's characters instead. The paths it leaves
as they are begin with another separator than the directory has, lie in one that
ends in a separator or in one that is too long for the buffer.
-/

namespace OpenDlssg.PathRedaction

open ByteCodec ByteSearch WidePaths ComponentSpelling LogFields

/-- The part of a path after a segment: nothing, or what begins with a separator. -/
def AfterSegment (rest : WString) : Prop := ∀ c ∈ rest.head?, isSeparator c = true

theorem afterSegment_cons {c : UInt16} (hc : isSeparator c = true) (rest : WString) :
    AfterSegment (c :: rest) := fun _ hd => Option.some.inj hd ▸ hc

/-- A directory without the separators at its end. -/
def trimmed (directory : WString) : WString := directory.rdropWhile isSeparator

/-- The part of a path below a directory. -/
def PartBelow (directory path rest : WString) : Prop :=
  ∃ start, path = start ++ rest ∧ AfterSegment rest ∧
    (Respelling directory start ∨ Respelling (trimmed directory) start)

/-- Whether a path lies in a directory. -/
def InDirectory (directory path : WString) : Prop :=
  directory ≠ [] ∧ path ≠ [] ∧ ∃ rest, PartBelow directory path rest

/-- The logged form of a path hides a directory: a path in it is the placeholder and the part
below, and so not in it any more; any other is unchanged. -/
structure Hides (directory path logged : WString) : Prop where
  inside : InDirectory directory path →
    (∃ rest, PartBelow directory path rest ∧ logged = kUserProfile ++ rest) ∧
      ¬InDirectory directory logged
  outside : ¬InDirectory directory path → logged = path

/-- Whether a path begins with the characters of a directory, in any case, as a whole segment. -/
def BeginsWith (directory path : WString) : Prop :=
  ∃ start rest, path = start ++ rest ∧ SameName start directory ∧ AfterSegment rest

/-- A directory the placeholder itself leads into, from the part of a path below it. -/
def LeadsBack (directory path : WString) : Prop :=
  InDirectory directory (kUserProfile ++ path.drop directory.length)

/-- An absolute directory: on a drive, or beginning with a separator. -/
def Absolute (directory : WString) : Prop :=
  directory[1]? = some 58 ∨ ∃ c ∈ directory.head?, isSeparator c = true

theorem isUnderDirectory_iff {path directory : WString} (hdirectory : 0 ∉ directory) :
    isUnderDirectory path directory = true ↔ directory ≠ [] ∧ BeginsWith directory path := by
  unfold isUnderDirectory
  constructor
  · intro h
    split_ifs at h with hshort hdiffer
    rw [not_or, not_lt] at hshort
    have hsame : SameName (path.take directory.length) directory := by
      rw [Bool.not_eq_true', Bool.not_eq_false] at hdiffer
      exact (wcsnicmp_iff hdirectory).mp hdiffer
    refine ⟨hshort.1, path.take directory.length, path.drop directory.length,
      (List.take_append_drop _ _).symm, hsame, ?_⟩
    intro c hc
    rw [List.head?_drop] at hc
    rw [Option.mem_def.mp hc] at h
    exact h
  · rintro ⟨hne, start, rest, rfl, hsame, hafter⟩
    have hlength := hsame.length_eq
    have htake : (start ++ rest).take directory.length = start := by
      rw [← hlength, List.take_left]
    have hcompare : wcsnicmp (start ++ rest) directory directory.length = true := by
      rw [wcsnicmp_iff hdirectory, htake]
      exact hsame
    rw [if_neg, if_neg]
    · rw [← hlength, List.getElem?_append_right le_rfl, Nat.sub_self, ← List.head?_eq_getElem?]
      cases hrest : rest.head? with
      | none => rfl
      | some c => exact hafter c hrest
    · rw [hcompare]
      decide
    · rw [not_or, not_lt, List.length_append]
      exact ⟨hne, by omega⟩

/-- What begins with a directory's characters lies in it. -/
theorem BeginsWith.partBelow {directory path : WString} (h : BeginsWith directory path) :
    PartBelow directory path (path.drop directory.length) := by
  obtain ⟨start, rest, rfl, hsame, hafter⟩ := h
  have hlength := hsame.length_eq
  rw [← hlength, List.drop_left]
  exact ⟨start, rfl, hafter, Or.inl hsame.respelling⟩

theorem BeginsWith.inDirectory {directory path : WString} (hne : directory ≠ [])
    (h : BeginsWith directory path) : InDirectory directory path := by
  refine ⟨hne, ?_, _, h.partBelow⟩
  rintro rfl
  obtain ⟨start, rest, hpath, hsame, -⟩ := h
  obtain ⟨rfl, -⟩ := List.append_eq_nil_iff.mp hpath.symm
  exact hne (List.map_eq_nil_iff.mp hsame.symm)

/-- A directory that fits is the profile directory; another is none. -/
theorem profileDirectory_eq (userProfile : WString) :
    profileDirectory userProfile =
      if (cString userProfile).length < kMaxPath then cString userProfile else [] := by
  unfold profileDirectory
  dsimp only
  cases cString userProfile with
  | nil => rfl
  | cons c rest =>
    have hpos : 0 < (c :: rest).length := Nat.zero_lt_succ _
    simp only [hpos, true_and]

/-- A path is put under the placeholder where it begins with the characters of a directory
that fits. -/
theorem isUnderDirectory_profile_iff (userProfile path : WString) :
    isUnderDirectory path (profileDirectory userProfile) = true ↔
      cString userProfile ≠ [] ∧ (cString userProfile).length < kMaxPath ∧
        BeginsWith (cString userProfile) path := by
  rw [profileDirectory_eq]
  split_ifs with hfits
  · rw [isUnderDirectory_iff (zero_notMem_cString userProfile)]
    exact and_congr_right fun _ => (and_iff_right hfits).symm
  · refine iff_of_false ?_ fun h => hfits h.2.1
    unfold isUnderDirectory
    rw [if_pos (Or.inl rfl)]
    decide

/-- A path is hidden exactly where it lies outside the directory, or the directory fits, begins
the path with its own characters and is none the placeholder leads back into. -/
theorem hides_iff (userProfile path : WString) :
    Hides (cString userProfile) path (redacted (profileDirectory userProfile) path) ↔
      (InDirectory (cString userProfile) path →
        (cString userProfile).length < kMaxPath ∧ BeginsWith (cString userProfile) path ∧
          ¬LeadsBack (cString userProfile) path) := by
  have hunder := isUnderDirectory_profile_iff userProfile path
  have hredacted : isUnderDirectory path (profileDirectory userProfile) = true →
      redacted (profileDirectory userProfile) path =
        kUserProfile ++ path.drop (cString userProfile).length := by
    intro h
    unfold redacted
    rw [if_pos h, profileDirectory_eq, if_pos (hunder.mp h).2.1]
  constructor
  · intro h hin
    obtain ⟨-, hleft⟩ := h.inside hin
    by_cases hreplaced : isUnderDirectory path (profileDirectory userProfile) = true
    · obtain ⟨-, hfits, hbegins⟩ := hunder.mp hreplaced
      rw [hredacted hreplaced] at hleft
      exact ⟨hfits, hbegins, hleft⟩
    · unfold redacted at hleft
      rw [if_neg hreplaced] at hleft
      exact absurd hin hleft
  · intro h
    constructor
    · intro hin
      obtain ⟨hfits, hbegins, hback⟩ := h hin
      rw [hredacted (hunder.mpr ⟨hin.1, hfits, hbegins⟩)]
      exact ⟨⟨_, hbegins.partBelow, rfl⟩, hback⟩
    · intro hout
      unfold redacted
      rw [if_neg]
      intro hreplaced
      obtain ⟨hne, -, hbegins⟩ := hunder.mp hreplaced
      exact hout (hbegins.inDirectory hne)

/-! ### Absolute directories -/

/-- Only separators are lost at the end of a directory. -/
theorem getElem?_trimmed {directory : WString} {i : ℕ} {c : UInt16} (h : directory[i]? = some c)
    (hc : isSeparator c = false) : (trimmed directory)[i]? = some c := by
  have hsplit : trimmed directory ++ directory.rtakeWhile isSeparator = directory :=
    List.rdropWhile_append_rtakeWhile
  rw [← hsplit] at h
  by_cases hi : i < (trimmed directory).length
  · rwa [List.getElem?_append_left hi] at h
  · rw [List.getElem?_append_right (Nat.le_of_not_lt hi)] at h
    have hseparator := List.mem_rtakeWhile_imp (List.mem_of_getElem? h)
    rw [hc] at hseparator
    cases hseparator

/-- A spelling has the same characters, up to their spelling. -/
theorem getElem?_respelling {path spelled : WString} (h : Respelling path spelled) (i : ℕ) :
    spelled[i]?.map canonical = path[i]?.map canonical := by
  rw [← List.getElem?_map, ← List.getElem?_map, h]

/-- The placeholder leads into no absolute directory. -/
theorem Absolute.not_leadsBack {directory : WString} (h : Absolute directory) (path : WString) :
    ¬LeadsBack directory path := by
  rintro ⟨-, -, rest, start, hsplit, hafter, hspelled⟩
  have hchar : ∀ i c, kUserProfile[i]? = some c → i < start.length → start[i]? = some c := by
    intro i c hc hi
    obtain ⟨hi', -⟩ := List.getElem?_eq_some_iff.mp hc
    rw [← List.getElem?_append_left hi, ← hsplit, List.getElem?_append_left hi', hc]
  rcases h with hdrive | ⟨c, hhead, hseparator⟩
  · have hcolon : start[1]?.map canonical = some (canonical 58) := by
      rcases hspelled with hspelled | hspelled
      · rw [getElem?_respelling hspelled 1, hdrive]
        rfl
      · rw [getElem?_respelling hspelled 1, getElem?_trimmed hdrive (by decide)]
        rfl
    obtain ⟨d, hd, hcanonical⟩ := Option.map_eq_some_iff.mp hcolon
    obtain ⟨hlength, -⟩ := List.getElem?_eq_some_iff.mp hd
    rw [hchar 1 85 (by decide) hlength] at hd
    rw [← Option.some.inj hd] at hcanonical
    exact absurd hcanonical (by decide)
  · cases start with
    | nil =>
      have hpercent : isSeparator 37 = true := by
        refine hafter 37 ?_
        rw [← List.nil_append rest, ← hsplit]
        rfl
      exact absurd hpercent (by decide)
    | cons d start =>
      have hd : d = 37 := Option.some.inj (hchar 0 37 (by decide) (Nat.zero_lt_succ _))
      have hfirst : ∀ named, named <+: directory → Respelling named (d :: start) →
          canonical d = canonical c := by
        rintro (- | ⟨e, named⟩) ⟨tail, rfl⟩ hnamed
        · cases hnamed
        · have he : e = c := Option.some.inj hhead
          rw [← he]
          exact (List.cons.inj hnamed).1
      have hcanonical : canonical d = canonical c := by
        rcases hspelled with hspelled | hspelled
        · exact hfirst directory (List.prefix_refl directory) hspelled
        · exact hfirst (trimmed directory) (List.rdropWhile_prefix _ _) hspelled
      have hpercent : isSeparator 37 = true := by
        rw [← hd, ← isSeparator_canonical, hcanonical, isSeparator_canonical, hseparator]
      exact absurd hpercent (by decide)

/-- What is logged for a path is its redacted form, which hides the profile directory exactly where
the path lies outside it, or the directory fits, begins the path with its own characters and is
none the placeholder leads back into. It leads into no absolute directory. -/
theorem path_hides_iff (toUtf8 : WString → Bytes) (key : Bytes) (userProfile value : WString) :
    let directory := cString userProfile
    let path := cString value
    let logged := redacted (profileDirectory userProfile) path
    Field.path toUtf8 userProfile key (some value) = ⟨key, quote (toUtf8 logged)⟩ ∧
      (Hides directory path logged ↔ (InDirectory directory path →
        directory.length < kMaxPath ∧ BeginsWith directory path ∧ ¬LeadsBack directory path)) ∧
      (Absolute directory → ¬LeadsBack directory path) := by
  intro directory path logged
  refine ⟨?_, hides_iff userProfile path, fun h => h.not_leadsBack path⟩
  have hnul : 0 ∉ logged := by
    change 0 ∉ redacted _ path
    unfold redacted
    split_ifs
    · rw [List.mem_append, not_or]
      exact ⟨by decide, fun h => zero_notMem_cString value (List.mem_of_mem_drop h)⟩
    · exact zero_notMem_cString value
  change (⟨key, quote (toUtf8 (cString logged))⟩ : Field) = _
  rw [cString_eq_self hnul]

/-- A profile directory. -/
def bob : WString := wide "C:\\Users\\bob"

/-- A runtime below it, with slashes, as a settings file may name it. -/
def slashedRuntime : WString := wide "C:/Users/bob/rt.dll"

/-- A file below it, spelled as the directory is. -/
def plainFile : WString := wide "C:\\Users\\bob\\a.log"

theorem slashedRuntime_logged :
    InDirectory bob slashedRuntime ∧
      redacted (profileDirectory bob) slashedRuntime = slashedRuntime ∧
      ¬Hides bob slashedRuntime (redacted (profileDirectory bob) slashedRuntime) ∧
      InDirectory (bob ++ [kBackslash]) plainFile ∧
      redacted (profileDirectory (bob ++ [kBackslash])) plainFile = plainFile := by
  have hin : InDirectory bob slashedRuntime := by
    exact ⟨by decide, by decide, 47 :: wide "rt.dll", wide "C:/Users/bob", by decide,
      afterSegment_cons (by decide) _, Or.inl (by decide)⟩
  have hfile : InDirectory (bob ++ [kBackslash]) plainFile := by
    exact ⟨by decide, by decide, kBackslash :: wide "a.log", bob, by decide,
      afterSegment_cons (by decide) _, Or.inr (by decide)⟩
  have hsame : redacted (profileDirectory bob) slashedRuntime = slashedRuntime := by decide +kernel
  refine ⟨hin, hsame, fun h => ?_, hfile, by decide +kernel⟩
  have hleft := (h.inside hin).2
  rw [hsame] at hleft
  exact hleft hin

end OpenDlssg.PathRedaction
