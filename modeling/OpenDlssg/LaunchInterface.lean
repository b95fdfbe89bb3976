import Mathlib.Data.Set.Basic
import OpenDlssg.PtxSelection
import OpenDlssg.PtxText

/-!
# What the launch declarations say of a module's entry points

The interface of a module is those of its lines that open with one of the
listed directives, each taken on its own. It tells the entry points of a text
whose lines each declare, where they stand, what they are listed for: not of
one that declares an entry point on a line of another kind, as with the linkage
`.weak`, or names it on the line after `.entry`, or has a declaration in a comment.
-/

namespace OpenDlssg.LaunchInterface

open ByteCodec FatbinContainer FatbinRetarget PtxSelection PtxText TextLines

/-- Whether a byte is a blank within a line. -/
def isBlank (c : UInt8) : Bool := c == 32 || c == 9

/-- A line without the blanks around it, and without its carriage return. -/
def trimmed (line : Bytes) : Bytes :=
  (line.dropWhile isBlank).rdropWhile fun c => isBlank c || c == 13

/-- Whether a line, its blanks aside, is a launch declaration. -/
def isLaunch (text : Bytes) : Bool := kDirectives.any fun directive => directive.isPrefixOf text

/-- The launch declarations among lines. -/
def launchLines (ls : List Bytes) : List Bytes := (ls.map trimmed).filter isLaunch

/-- The launch declarations of a text. -/
def launches (text : Bytes) : List Bytes := launchLines (lines text)

/-- The entry points a line is listed for: those it declares on its own, when it
is a launch declaration. -/
def listed (line : Bytes) : List Bytes :=
  if isLaunch (trimmed line) then lineEntries {} (trimmed line) else []

/-- Each of the lines declares, where it stands, what it is listed for. -/
def DeclaresAsListed : Place → List Bytes → Prop
  | _, [] => True
  | place, line :: ls =>
    lineEntries place line = listed line ∧ DeclaresAsListed (nextPlace place line) ls

instance decideDeclaresAsListed : ∀ place ls, Decidable (DeclaresAsListed place ls)
  | _, [] => isTrue trivial
  | place, line :: ls =>
    have := decideDeclaresAsListed (nextPlace place line) ls
    inferInstanceAs (Decidable (_ ∧ _))

/-- The launch declarations among lines, each read on its own. -/
def relisted (ls : List Bytes) : List Bytes :=
  ls.flatMap fun line => if isLaunch (trimmed line) then [trimmed line, kApart] else []

/-- A text that keeps its first lines, and of the others the launch
declarations, each read on its own. -/
def relistedBehind (before behind : List Bytes) : Bytes :=
  joined (before ++ kApart :: relisted behind)

/-- The interface is the launch declarations, each closed by a line feed. -/
theorem interface_eq (text : Bytes) : interface text = closed (launches text) := by
  have hlines : interface text = (lines text).flatMap fun line =>
      if isLaunch (trimmed line) then trimmed line ++ [kNewline] else [] := rfl
  rw [hlines, launches, launchLines]
  induction lines text with
  | nil => rfl
  | cons line ls ih =>
    rw [List.flatMap_cons, ih, List.map_cons, List.filter_cons]
    split
    · rw [closed, closed, List.flatMap_cons]
    · rw [List.nil_append]

/-- Trimming a line drops nothing but what it is trimmed of. -/
theorem notMem_trimmed {c : UInt8} {line : Bytes} (h : c ∉ line) : c ∉ trimmed line := fun hmem =>
  h ((List.dropWhile_suffix _).subset ((List.rdropWhile_prefix _ _).subset hmem))

/-- A trimmed line has nothing to be trimmed of. -/
theorem trimmed_trimmed (line : Bytes) : trimmed (trimmed line) = trimmed line := by
  have hfirst : (trimmed line).dropWhile isBlank = trimmed line := by
    rw [List.dropWhile_eq_self_iff]
    intro hpos
    have hopens : trimmed line <+: line.dropWhile isBlank := List.rdropWhile_prefix _ _
    rw [hopens.getElem hpos]
    have hbare := List.dropWhile_eq_self_iff.mp (List.dropWhile_idempotent isBlank line)
    exact hbare (Nat.lt_of_lt_of_le hpos hopens.length_le)
  rw [trimmed, hfirst]
  exact List.rdropWhile_idempotent _ _

/-- A launch declaration holds no line feed. -/
theorem notMem_of_mem_launches {text line : Bytes} (h : line ∈ launches text) : kNewline ∉ line := by
  obtain ⟨raw, hraw, rfl⟩ := List.mem_map.mp (List.mem_filter.mp h).1
  exact notMem_trimmed (notMem_of_mem_lines hraw)

/-- Two texts with one interface have the same launch declarations. -/
theorem launches_of_interface {first second : Bytes} (h : interface first = interface second) :
    launches first = launches second := by
  rw [interface_eq, interface_eq] at h
  exact closed_injective (fun _ => notMem_of_mem_launches) (fun _ => notMem_of_mem_launches) h

/-- The launch declarations of lines one after the other. -/
theorem launchLines_append (before behind : List Bytes) :
    launchLines (before ++ behind) = launchLines before ++ launchLines behind := by
  rw [launchLines, List.map_append, List.filter_append, launchLines, launchLines]

/-- A line and those behind it. -/
theorem launchLines_cons (line : Bytes) (ls : List Bytes) : launchLines (line :: ls) =
    if isLaunch (trimmed line) then trimmed line :: launchLines ls else launchLines ls := by
  rw [launchLines, List.map_cons, List.filter_cons, launchLines]

/-- Relisting lines leaves the launch declarations as they are. -/
theorem launchLines_relisted (ls : List Bytes) :
    launchLines (kApart :: relisted ls) = launchLines ls := by
  have hapart : isLaunch (trimmed kApart) = false := by decide
  rw [launchLines_cons, hapart, if_neg Bool.false_ne_true]
  induction ls with
  | nil => rfl
  | cons line ls ih =>
    rw [relisted, List.flatMap_cons, launchLines_append, ← relisted, ih, launchLines_cons line ls]
    split
    · rename_i hlaunch
      rw [launchLines_cons, trimmed_trimmed, if_pos hlaunch, launchLines_cons, hapart,
        if_neg Bool.false_ne_true]
      rfl
    · rfl

/-- The entry points lines are listed for are those their launch declarations name. -/
theorem flatMap_listed (ls : List Bytes) :
    ls.flatMap listed = (launchLines ls).flatMap (lineEntries {}) := by
  induction ls with
  | nil => rfl
  | cons line ls ih =>
    rw [List.flatMap_cons, ih, launchLines_cons, listed]
    split
    · rw [List.flatMap_cons]
    · rw [List.nil_append]

/-- Relisted lines declare what they are listed for. -/
theorem entriesFrom_relisted (place : Place) (ls : List Bytes) :
    entriesFrom place (kApart :: relisted ls) = ls.flatMap listed := by
  rw [entriesFrom, lineEntries_kApart, nextPlace_kApart, List.nil_append]
  induction ls with
  | nil => rfl
  | cons line ls ih =>
    rw [relisted, List.flatMap_cons, ← relisted, List.flatMap_cons, listed]
    split
    · rw [List.cons_append, List.cons_append, List.nil_append, entriesFrom, entriesFrom,
        lineEntries_kApart, nextPlace_kApart, List.nil_append, ih]
    · rw [List.nil_append, ih, List.nil_append]

/-- Lines declare as listed where the first of them do and the others do behind these. -/
theorem declaresAsListed_append {place : Place} {before behind : List Bytes} :
    DeclaresAsListed place (before ++ behind) ↔
      DeclaresAsListed place before ∧ DeclaresAsListed (before.foldl nextPlace place) behind := by
  induction before generalizing place with
  | nil => exact (iff_of_eq (true_and _)).symm
  | cons line ls ih =>
    rw [List.cons_append, DeclaresAsListed, DeclaresAsListed, ih, List.foldl_cons, and_assoc]

/-- Relisted lines declare as listed. -/
theorem declaresAsListed_relisted (place : Place) (ls : List Bytes) :
    DeclaresAsListed place (kApart :: relisted ls) := by
  have hapart : ∀ place', lineEntries place' kApart = listed kApart := fun place' => by
    rw [lineEntries_kApart]
    decide
  refine ⟨hapart place, ?_⟩
  rw [nextPlace_kApart]
  induction ls with
  | nil => trivial
  | cons line ls ih =>
    rw [relisted, List.flatMap_cons, ← relisted]
    split
    · rename_i hlaunch
      refine ⟨?_, hapart _, ?_⟩
      · rw [listed, trimmed_trimmed, if_pos hlaunch]
      · rw [nextPlace_kApart]
        exact ih
    · exact ih

/-- Lines that declare as listed declare what they are listed for. -/
theorem entriesFrom_of_declares {place : Place} {ls : List Bytes} (h : DeclaresAsListed place ls) :
    entriesFrom place ls = ls.flatMap listed := by
  induction ls generalizing place with
  | nil => rfl
  | cons line ls ih =>
    obtain ⟨hline, hrest⟩ := h
    rw [entriesFrom, hline, ih hrest, List.flatMap_cons]

/-- Lines declare as listed when each does behind those before it. -/
theorem declaresAsListed_of {place : Place} {ls : List Bytes}
    (h : ∀ before line behind, ls = before ++ line :: behind →
      lineEntries (before.foldl nextPlace place) line = listed line) : DeclaresAsListed place ls := by
  induction ls generalizing place with
  | nil => trivial
  | cons line ls ih =>
    refine ⟨h [] line ls rfl, ih fun before line' behind hsplit => ?_⟩
    exact h (line :: before) line' behind (by rw [hsplit, List.cons_append])

section Relisting

variable {text : Bytes} {before behind : List Bytes}

/-- The lines of a text that is relisted behind some of its lines. -/
theorem lines_relistedBehind (hlines : lines text = before ++ behind) :
    lines (relistedBehind before behind) = before ++ kApart :: relisted behind := by
  have hfree : ∀ line ∈ before ++ behind, kNewline ∉ line := fun line hline =>
    notMem_of_mem_lines (by rwa [hlines])
  have hapart : kNewline ∉ kApart := by decide
  refine lines_joined (List.append_ne_nil_of_right_ne_nil _ (List.cons_ne_nil _ _)) ?_
  intro line hline
  rcases List.mem_append.mp hline with hbefore | hbehind
  · exact hfree line (List.mem_append_left _ hbefore)
  rcases List.mem_cons.mp hbehind with rfl | hrelisted
  · exact hapart
  obtain ⟨raw, hraw, hmem⟩ := List.mem_flatMap.mp hrelisted
  split at hmem
  · rcases List.mem_cons.mp hmem with rfl | hmem
    · exact notMem_trimmed (hfree raw (List.mem_append_right _ hraw))
    · rwa [List.mem_singleton.mp hmem]
  · exact absurd hmem List.not_mem_nil

/-- Relisting a text behind some of its lines is not seen in the interface. -/
theorem interface_relistedBehind (hlines : lines text = before ++ behind) :
    interface (relistedBehind before behind) = interface text := by
  rw [interface_eq, interface_eq, launches, launches, lines_relistedBehind hlines, hlines,
    launchLines_append, launchLines_append, launchLines_relisted]

/-- What a text declares that is relisted behind some of its lines. -/
theorem entryPoints_relistedBehind (hlines : lines text = before ++ behind) :
    entryPoints (relistedBehind before behind) = entriesFrom {} before ++ behind.flatMap listed := by
  rw [entryPoints, lines_relistedBehind hlines, entriesFrom_append, entriesFrom_relisted]

/-- A line declares as listed when relisting a text before it and behind it
leaves the same entry points. -/
theorem lineEntries_eq_listed {line : Bytes} (hlines : lines text = before ++ line :: behind)
    (h : entryPoints (relistedBehind (before ++ [line]) behind) =
      entryPoints (relistedBehind before (line :: behind))) :
    lineEntries (before.foldl nextPlace {}) line = listed line := by
  have hlines' : lines text = before ++ [line] ++ behind := hlines.trans (List.append_cons _ _ _)
  rw [entryPoints_relistedBehind hlines, entryPoints_relistedBehind hlines', entriesFrom_append,
    List.append_assoc, List.append_cancel_left_eq, List.flatMap_cons,
    List.append_cancel_right_eq] at h
  rwa [entriesFrom, entriesFrom, List.append_nil] at h

end Relisting

/-- On a class of texts the interface tells what matters of the entry points. -/
structure TellsEntryPoints (texts : Set Bytes) : Prop where
  /-- Texts with one interface declare the same entry points in the same order. -/
  sameEntries : ∀ first ∈ texts, ∀ second ∈ texts, interface first = interface second →
    entryPoints first = entryPoints second
  /-- With the newest PTX preferred, a container whose modules are of the class
  is rebuilt around one that declares the closest one's entry points. -/
  newestKeeps : ∀ (lz4 : Bytes → ℕ → Option Bytes) (order : ArchSort) (container out : Bytes)
    (arch : UInt32) (report : Report) (images : List Image),
    (retarget lz4 order container arch .newest report).1 = some out →
    describe container = some images →
    (∀ image ∈ images, image.isPtx = true → ∀ module,
      payload lz4 container image = some module → module ∈ texts) →
    ∃ closest text source module, LowestPtx images closest ∧
      payload lz4 container closest = some text ∧ entryPoints module = entryPoints text ∧
      rebuild container source arch (padded (rewriteTargetDirective module arch).1) = some out

/-- Texts that declare as listed and have one interface declare the same entry points. -/
theorem entryPoints_of_interface {first second : Bytes} (hfirst : DeclaresAsListed {} (lines first))
    (hsecond : DeclaresAsListed {} (lines second)) (h : interface first = interface second) :
    entryPoints first = entryPoints second := by
  have hlaunches : launchLines (lines first) = launchLines (lines second) := launches_of_interface h
  rw [entryPoints, entryPoints, entriesFrom_of_declares hfirst, entriesFrom_of_declares hsecond,
    flatMap_listed, flatMap_listed, hlaunches]

/-- On a class of texts that stays the same when a text is relisted behind some
of its lines, the interface tells the entry points exactly where every line
declares, where it stands, what it is listed for. -/
theorem tellsEntryPoints_iff {texts : Set Bytes}
    (hclosed : ∀ text ∈ texts, ∀ before behind, lines text = before ++ behind →
      relistedBehind before behind ∈ texts) :
    TellsEntryPoints texts ↔ ∀ text ∈ texts, DeclaresAsListed {} (lines text) := by
  constructor
  · intro h text htext
    refine declaresAsListed_of fun before line behind hlines => lineEntries_eq_listed hlines ?_
    have hlines' : lines text = before ++ [line] ++ behind := hlines.trans (List.append_cons _ _ _)
    exact h.sameEntries _ (hclosed text htext _ _ hlines') _ (hclosed text htext _ _ hlines)
      (by rw [interface_relistedBehind hlines', interface_relistedBehind hlines])
  · intro h
    refine ⟨?_, ?_⟩
    · intro first hfirst second hsecond
      exact entryPoints_of_interface (h first hfirst) (h second hsecond)
    · intro lz4 order container out arch report images hout hdescribe hmodules
      obtain ⟨_, source, module, _, _, hsource, _, hrebuilt, _⟩ := retarget_some hout
      obtain ⟨images', hdescribe', _, _, _, hright⟩ := rightSource_of_retargetSource hsource
      have himages : images' = images := Option.some.inj (hdescribe'.symm.trans hdescribe)
      rw [himages] at hright
      obtain ⟨closest, text, hlowest, htext, hlike, _⟩ := hright.newest rfl
      have hmodule := hmodules source hlike.mem hlike.isPtx module hlike.decodes
      have hclosest := hmodules closest hlowest.mem hlowest.isPtx text htext
      exact ⟨closest, text, source, module, hlowest, htext,
        entryPoints_of_interface (h module hmodule) (h text hclosest) hlike.interface_eq, hrebuilt⟩

/-- Among texts that declare as listed the interface tells the entry points. -/
theorem tellsEntryPoints_listed : TellsEntryPoints {text | DeclaresAsListed {} (lines text)} := by
  refine (tellsEntryPoints_iff ?_).mpr fun _ htext => htext
  intro text htext before behind hlines
  have hbefore : DeclaresAsListed {} (before ++ behind) := by rwa [← hlines]
  change DeclaresAsListed {} (lines (relistedBehind before behind))
  rw [lines_relistedBehind hlines, declaresAsListed_append]
  exact ⟨(declaresAsListed_append.mp hbefore).1, declaresAsListed_relisted _ _⟩

example : DeclaresAsListed {} (lines (ascii
    ".version 8.3\r\n/* two */\n  .visible .entry a(\r\n  .param .u64 x)\n{ }\n.entry b() { }")) := by
  decide +kernel

/-- Two modules with one interface and different entry points: weak ones, ones
named on the line after `.entry`, and one that is commented out. -/
theorem weak_entries_hidden :
    (interface (ascii ".version 8.3\n.weak .entry a()\n") =
        interface (ascii ".version 8.3\n.weak .entry b()\n") ∧
      entryPoints (ascii ".version 8.3\n.weak .entry a()\n") = [ascii "a"] ∧
      entryPoints (ascii ".version 8.3\n.weak .entry b()\n") = [ascii "b"]) ∧
    (interface (ascii ".visible .entry\na()\n") = interface (ascii ".visible .entry\nb()\n") ∧
      entryPoints (ascii ".visible .entry\na()\n") = [ascii "a"] ∧
      entryPoints (ascii ".visible .entry\nb()\n") = [ascii "b"]) ∧
    interface (ascii ".visible .entry a()\n") = interface (ascii "/*\n.visible .entry a()\n*/\n") ∧
      entryPoints (ascii ".visible .entry a()\n") = [ascii "a"] ∧
      entryPoints (ascii "/*\n.visible .entry a()\n*/\n") = [] := by
  decide +kernel

end OpenDlssg.LaunchInterface
