import OpenDlssg.FatbinRetarget
import OpenDlssg.MarkedText

/-!
# What rewriting the target directive does to a module

The loop over `.target sm_` replaces the run of digits behind every occurrence
and nothing else. A target whose name goes on behind its digits, as those of
one architecture alone do, keeps the rest of its name.
-/

namespace OpenDlssg.TargetDirective

open ByteCodec ByteSearch MarkedText FatbinRetarget

/-- The target directive as a marker of runs of digits. -/
def targetMarker : Marker where
  first := 46
  rest := ascii "target sm_"
  isRun := isDigit
  fresh := by decide
  notRun := by decide

theorem text_targetMarker : targetMarker.text = kTargetDirective := by decide

/-- The decimal text of an architecture, as a run of digits. -/
def decimalRun (arch : UInt32) : targetMarker.Run :=
  ⟨toDecimal arch.toNat, fun _ h => isDigit_of_mem_toDecimal h⟩

/-- Whether a text opens with a digit. -/
def opensWithDigit (text : Bytes) : Bool := !(text.takeWhile isDigit).isEmpty

theorem opensWithDigit_iff {text : Bytes} :
    opensWithDigit text = true ↔ text.takeWhile isDigit ≠ [] := by
  unfold opensWithDigit
  rw [Bool.not_eq_true', List.isEmpty_eq_false_iff]

/-- A run of digits ends before the next directive. -/
theorem digitRun_tail (done tail : Bytes) (tails : List Bytes) :
    digitRun (done ++ (tail ++ marked targetMarker tails)) done.length = tail.takeWhile isDigit := by
  unfold digitRun
  rw [List.drop_left]
  exact takeWhile_append_marked targetMarker.notRun tail tails

/-- The loop finds the next directive behind a part without one. -/
theorem findFrom_directive (done : Bytes) {head : Bytes} (rest : Bytes)
    (hhead : ¬targetMarker.text <:+: head) :
    findFrom kTargetDirective (done ++ (head ++ (targetMarker.text ++ rest))) done.length =
      some (done ++ head).length := by
  rw [findFrom, if_neg (by rw [List.length_append]; omega), List.drop_left, ← text_targetMarker,
    find_append hhead, Option.map_some, List.length_append, Nat.add_comm]

/-- The loop finds nothing in a part without a directive. -/
theorem findFrom_none (done : Bytes) {head : Bytes} (hhead : ¬targetMarker.text <:+: head) :
    findFrom kTargetDirective (done ++ head) done.length = none := by
  rw [findFrom, if_neg (by rw [List.length_append]; omega), List.drop_left, ← text_targetMarker,
    find_eq_none hhead]
  rfl

/-- What is left of a part once the run it opens with has been replaced. -/
theorem replaceRun (done replacement tail rest : Bytes) :
    (done ++ (tail ++ rest)).take done.length ++ replacement ++
        (done ++ (tail ++ rest)).drop (done.length + (tail.takeWhile isDigit).length) =
      done ++ (replacement ++ tail.dropWhile isDigit ++ rest) := by
  have hparts : tail ++ rest = tail.takeWhile isDigit ++ (tail.dropWhile isDigit ++ rest) := by
    rw [← List.append_assoc, List.takeWhile_append_dropWhile]
  rw [List.take_left, ← List.drop_drop, List.drop_left, hparts, List.drop_left]
  simp only [List.append_assoc]

/-- The loop, entered behind `done`, replaces the run behind every directive
that is left and says whether there was one. -/
theorem rewriteFrom_marked (replacement : targetMarker.Run) (tails : List Bytes) {fuel : ℕ}
    (hfuel : tails.length < fuel) (done : Bytes) {head : Bytes} (rewritten : Bool)
    (hhead : ¬targetMarker.text <:+: head) (htails : ∀ tail ∈ tails, ¬targetMarker.text <:+: tail) :
    rewriteFrom replacement.1 fuel (done ++ (head ++ marked targetMarker tails)) done.length
        rewritten =
      (done ++ (head ++ marked targetMarker (tails.map (withRun targetMarker replacement))),
        rewritten || tails.any opensWithDigit) := by
  induction tails generalizing fuel done head rewritten with
  | nil =>
    obtain ⟨fuel, rfl⟩ : ∃ more, fuel = more + 1 := ⟨fuel - 1, by simp at hfuel; omega⟩
    have hnone := findFrom_none done hhead
    simp only [marked, List.flatMap_nil, List.append_nil, List.map_nil, List.any_nil, Bool.or_false]
    rw [rewriteFrom, hnone]
  | cons tail tails ih =>
    obtain ⟨fuel, rfl⟩ : ∃ more, fuel = more + 1 := ⟨fuel - 1, by simp at hfuel; omega⟩
    have hmore : tails.length < fuel := by simpa using hfuel
    have hclean := htails tail List.mem_cons_self
    have hrest : ∀ t ∈ tails, ¬targetMarker.text <:+: t := fun t ht =>
      htails t (List.mem_cons_of_mem _ ht)
    have hfound := findFrom_directive done (tail ++ marked targetMarker tails) hhead
    have hdigits : (done ++ head).length + kTargetDirective.length =
        (done ++ head ++ targetMarker.text).length := by
      rw [← text_targetMarker, ← List.length_append]
    have hsplit : done ++ (head ++ (targetMarker.text ++ (tail ++ marked targetMarker tails))) =
        done ++ head ++ targetMarker.text ++ (tail ++ marked targetMarker tails) := by
      simp only [List.append_assoc]
    rw [marked_cons, rewriteFrom, hfound]
    dsimp only
    rw [hdigits, hsplit, digitRun_tail, List.map_cons, marked_cons, List.any_cons]
    by_cases hrun : tail.takeWhile isDigit = []
    · have hcount : (tail.takeWhile isDigit).length = 0 := by rw [hrun, List.length_nil]
      have hkept : withRun targetMarker replacement tail = tail := if_pos hrun
      have hopens : opensWithDigit tail = false :=
        Bool.eq_false_iff.mpr fun h => opensWithDigit_iff.mp h hrun
      rw [if_pos hcount, ih hmore _ rewritten hclean hrest, hkept, hopens, Bool.false_or]
      simp only [List.append_assoc]
    · have hcount : (tail.takeWhile isDigit).length ≠ 0 := fun h =>
        hrun (List.length_eq_zero_iff.mp h)
      have hreplaced : withRun targetMarker replacement tail =
          replacement.1 ++ tail.dropWhile isDigit := if_neg hrun
      have hopens : opensWithDigit tail = true := opensWithDigit_iff.mpr hrun
      rw [if_neg hcount, replaceRun, ← hreplaced, ih hmore _ true (withRun_clean hclean) hrest,
        hopens, Bool.true_or, Bool.or_true]
      simp only [List.append_assoc]

/-- Rewriting a module replaces the run of digits behind every target directive
by the architecture's, and succeeds when there is such a run. -/
theorem rewriteTargetDirective_cut (cut : Cut targetMarker) (arch : UInt32) :
    rewriteTargetDirective cut.text arch =
      ((cut.withRuns (decimalRun arch)).text, cut.tails.any opensWithDigit) := by
  have hlen : cut.tails.length < cut.text.length + 1 := by
    have htails := length_marked_ge targetMarker cut.tails
    rw [Cut.text, List.length_append]
    omega
  have hloop := rewriteFrom_marked (decimalRun arch) cut.tails hlen [] false cut.head_clean
    cut.tails_clean
  exact hloop

/-- Whether a byte is an ASCII letter or a digit. -/
def isLetterOrDigit (b : UInt8) : Bool :=
  isDigit b || decide (65 ≤ b ∧ b ≤ 90) || decide (97 ≤ b ∧ b ≤ 122)

/-- The name of the architecture a text opens with, behind the `sm_` of a directive. -/
def architectureToken (text : Bytes) : Bytes := text.takeWhile isLetterOrDigit

/-- Every directive that carried a number carries exactly the architecture
after rewriting. -/
def NamesArchitecture (ptx : Bytes) (arch : UInt32) : Prop :=
  List.Forall₂
    (fun before after => opensWithDigit before → architectureToken after = toDecimal arch.toNat)
    (followings targetMarker ptx) (followings targetMarker (rewriteTargetDirective ptx arch).1)

/-- Digits are letters or digits. -/
theorem isLetterOrDigit_of_isDigit {b : UInt8} (h : isDigit b = true) : isLetterOrDigit b = true := by
  unfold isLetterOrDigit
  rw [h]
  rfl

/-- A name that opens with a run of digits goes on with whatever follows the run. -/
theorem architectureToken_append {run : Bytes} (hrun : ∀ b ∈ run, isDigit b = true) (rest : Bytes) :
    architectureToken (run ++ rest) = run ++ architectureToken rest :=
  List.takeWhile_append_of_pos fun b hb => isLetterOrDigit_of_isDigit (hrun b hb)

/-- A name is all digits exactly when nothing of it follows them. -/
theorem architectureToken_eq_digits (text : Bytes) :
    architectureToken text = text.takeWhile isDigit ↔
      architectureToken (text.dropWhile isDigit) = [] := by
  have hdigits : ∀ b ∈ text.takeWhile isDigit, isDigit b = true := fun b hb =>
    List.mem_takeWhile_imp hb
  have hsplit := architectureToken_append hdigits (text.dropWhile isDigit)
  rw [List.takeWhile_append_dropWhile] at hsplit
  rw [hsplit]
  exact List.append_right_eq_self

/-- What a directive names after rewriting is the architecture exactly when it
named digits alone before. -/
theorem token_withRun_iff (arch : UInt32) (tail : Bytes) (tails tails' : List Bytes)
    (hopens : opensWithDigit tail = true) :
    architectureToken (withRun targetMarker (decimalRun arch) tail ++ marked targetMarker tails') =
        toDecimal arch.toNat ↔
      architectureToken (tail ++ marked targetMarker tails) =
        (tail ++ marked targetMarker tails).takeWhile isDigit := by
  have hrun : tail.takeWhile isDigit ≠ [] := opensWithDigit_iff.mp hopens
  have hreplaced : withRun targetMarker (decimalRun arch) tail =
      toDecimal arch.toNat ++ tail.dropWhile isDigit := if_neg hrun
  have hletter : isLetterOrDigit targetMarker.first = false := by decide
  have hbefore : architectureToken (tail ++ marked targetMarker tails) = architectureToken tail :=
    takeWhile_append_marked hletter tail tails
  have hdigits : (tail ++ marked targetMarker tails).takeWhile isDigit = tail.takeWhile isDigit :=
    takeWhile_append_marked targetMarker.notRun tail tails
  have hafter : architectureToken (withRun targetMarker (decimalRun arch) tail ++
      marked targetMarker tails') =
        toDecimal arch.toNat ++ architectureToken (tail.dropWhile isDigit) := by
    have hcut := takeWhile_append_marked hletter (withRun targetMarker (decimalRun arch) tail) tails'
    rw [architectureToken, hcut, hreplaced]
    exact architectureToken_append (fun _ => isDigit_of_mem_toDecimal) _
  rw [hafter, hbefore, hdigits, architectureToken_eq_digits]
  exact List.append_right_eq_self

/-- The names behind the directives, part by part. -/
theorem forall₂_suffixes_iff (arch : UInt32) (tails : List Bytes) :
    List.Forall₂
        (fun before after => opensWithDigit before → architectureToken after = toDecimal arch.toNat)
        (suffixes targetMarker tails)
        (suffixes targetMarker (tails.map (withRun targetMarker (decimalRun arch)))) ↔
      ∀ tail ∈ suffixes targetMarker tails, opensWithDigit tail →
        architectureToken tail = tail.takeWhile isDigit := by
  induction tails with
  | nil => exact iff_of_true .nil (by simp [suffixes])
  | cons tail tails ih =>
    have hdigits : (tail ++ marked targetMarker tails).takeWhile isDigit = tail.takeWhile isDigit :=
      takeWhile_append_marked targetMarker.notRun tail tails
    have hopens : opensWithDigit (tail ++ marked targetMarker tails) = opensWithDigit tail := by
      unfold opensWithDigit
      rw [hdigits]
    rw [List.map_cons, suffixes, suffixes, List.forall₂_cons, ih, List.forall_mem_cons, hopens]
    refine and_congr_left fun _ => ?_
    exact forall_congr' fun h => token_withRun_iff arch tail tails _ h

/-- Every directive names the architecture after rewriting exactly where the
number in each directive was the whole name of its target. -/
theorem namesArchitecture_iff (ptx : Bytes) (arch : UInt32) :
    NamesArchitecture ptx arch ↔ ∀ tail ∈ followings targetMarker ptx, opensWithDigit tail →
      architectureToken tail = tail.takeWhile isDigit := by
  obtain ⟨cut, rfl⟩ := exists_cut targetMarker ptx
  unfold NamesArchitecture
  rw [rewriteTargetDirective_cut, followings_text, followings_text]
  exact forall₂_suffixes_iff arch cut.tails

/-- A target of one architecture alone keeps the letter that says so. -/
theorem suffixed_target_kept :
    rewriteTargetDirective (ascii ".version 8.3\n.target sm_90a\n") 86 =
        (ascii ".version 8.3\n.target sm_86a\n", true) ∧
      ¬NamesArchitecture (ascii ".version 8.3\n.target sm_90a\n") 86 := by
  have hrewritten : rewriteTargetDirective (ascii ".version 8.3\n.target sm_90a\n") 86 =
      (ascii ".version 8.3\n.target sm_86a\n", true) := by decide +kernel
  refine ⟨hrewritten, fun h => ?_⟩
  have hbefore : followings targetMarker (ascii ".version 8.3\n.target sm_90a\n") =
      [ascii "90a\n"] := by decide +kernel
  have hafter : followings targetMarker (ascii ".version 8.3\n.target sm_86a\n") =
      [ascii "86a\n"] := by decide +kernel
  rw [NamesArchitecture, hrewritten, hbefore, hafter, List.forall₂_cons] at h
  exact absurd (h.1 (by decide)) (by decide)

end OpenDlssg.TargetDirective
