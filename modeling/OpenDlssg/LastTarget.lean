import OpenDlssg.TargetDirective
import Mathlib.Logic.Relation

/-!
# The last target written is the one a module has

The loop that rewrites the target directive searches a text it changes as it goes.
It comes to an end, and it takes every directive exactly once: those that carry a
number are the same before and after it. So a module rewritten twice is the module
rewritten to the second target alone.
-/

namespace OpenDlssg.LastTarget

open ByteCodec ByteSearch MarkedText FatbinRetarget TargetDirective

/-- The state of the loop: the text, where its search resumes, and whether it has rewritten. -/
structure LoopState where
  text : Bytes
  position : ℕ
  rewritten : Bool

/-- One turn of the loop, absent where the search finds no directive. -/
def turn (replacement : Bytes) (s : LoopState) : Option LoopState :=
  (findFrom kTargetDirective s.text s.position).map fun start =>
    let digits := start + kTargetDirective.length
    let count := (digitRun s.text digits).length
    if count = 0 then ⟨s.text, digits, s.rewritten⟩
    else ⟨s.text.take digits ++ replacement ++ s.text.drop (digits + count), digits, true⟩

/-- The turns of the loop. -/
def Turns (replacement : Bytes) : LoopState → LoopState → Prop :=
  Relation.ReflTransGen fun s t => turn replacement s = some t

/-- Where a module has a directive with a number. -/
def numbered (ptx : Bytes) : List ℕ :=
  (List.range ptx.length).filter fun i =>
    kTargetDirective.isPrefixOf (ptx.drop i) && (ptx[i + kTargetDirective.length]?).any isDigit

/-- What stands behind the digits of a directive. -/
def behindDigits (ptx : Bytes) (i : ℕ) : Bytes :=
  (ptx.drop (i + kTargetDirective.length)).dropWhile isDigit

/-- A replacement of ten bytes at most is shorter than a directive, so every turn leaves less text to
search. -/
theorem turn_shorter {replacement : Bytes} (hrep : replacement.length ≤ 10) {s t : LoopState}
    (h : turn replacement s = some t) : t.text.length + s.position < s.text.length + t.position := by
  obtain ⟨start, hfind, rfl⟩ := Option.map_eq_some_iff.mp h
  have hroom := findFrom_room hfind
  have hlen := length_kTargetDirective
  dsimp only
  split
  · dsimp only
    omega
  · have hrun := digitRun_room s.text (start + kTargetDirective.length) (by omega)
    have hnew := length_replaced replacement hrun
    dsimp only
    omega

/-- The recursion on the fuel takes one turn of the loop at a time. -/
theorem rewriteFrom_turn {replacement : Bytes} {s t : LoopState} (h : turn replacement s = some t)
    (fuel : ℕ) : rewriteFrom replacement (fuel + 1) s.text s.position s.rewritten =
      rewriteFrom replacement fuel t.text t.position t.rewritten := by
  obtain ⟨start, hfind, rfl⟩ := Option.map_eq_some_iff.mp h
  rw [rewriteFrom, hfind]
  dsimp only
  split <;> rfl

/-- The loop comes to an end, with what the recursion on enough fuel has. -/
theorem exists_turns {replacement : Bytes} (hrep : replacement.length ≤ 10) {fuel : ℕ} (s : LoopState)
    (hfuel : s.text.length < fuel + s.position) :
    ∃ final, Turns replacement s final ∧ turn replacement final = none ∧
      rewriteFrom replacement fuel s.text s.position s.rewritten = (final.text, final.rewritten) := by
  induction fuel generalizing s with
  | zero =>
    have hend : findFrom kTargetDirective s.text s.position = none := by
      rw [findFrom, if_pos (by omega)]
    exact ⟨s, .refl, by rw [turn, hend]; rfl, rfl⟩
  | succ fuel ih =>
    cases hturn : turn replacement s with
    | none =>
      have hend : findFrom kTargetDirective s.text s.position = none := Option.map_eq_none_iff.mp hturn
      exact ⟨s, .refl, hturn, by rw [rewriteFrom, hend]⟩
    | some t =>
      have hshorter := turn_shorter hrep hturn
      obtain ⟨final, hturns, hend, heq⟩ := ih t (by omega)
      exact ⟨final, hturns.head hturn, hend, (rewriteFrom_turn hturn fuel).trans heq⟩

/-- A text opens with a digit when its first byte is one. -/
theorem opensWithDigit_eq (text : Bytes) : opensWithDigit text = text.head?.any isDigit := by
  cases text with
  | nil => rfl
  | cons c rest =>
    cases hc : isDigit c <;> simp [opensWithDigit, hc]

/-- The directives with a number, among all of them. -/
theorem numbered_eq (ptx : Bytes) :
    numbered ptx = (occurrences targetMarker ptx).filter fun i =>
      opensWithDigit (ptx.drop (i + kTargetDirective.length)) := by
  rw [numbered, occurrences, List.filter_filter, text_targetMarker]
  refine List.filter_congr fun i _ => ?_
  rw [opensWithDigit_eq, List.head?_drop, Bool.and_comm]

theorem decimalRun_ne_nil (arch : UInt32) : (decimalRun arch).1 ≠ [] := toDecimal_ne_nil arch.toNat

/-- Replacing a run keeps whether there is one. -/
theorem opensWithDigit_withRun (arch : UInt32) (tail : Bytes) :
    opensWithDigit (withRun targetMarker (decimalRun arch) tail) = opensWithDigit tail := by
  by_cases h : tail.takeWhile isDigit = []
  · have hkept : withRun targetMarker (decimalRun arch) tail = tail := if_pos h
    rw [hkept]
  · have hrun : (withRun targetMarker (decimalRun arch) tail).takeWhile isDigit = (decimalRun arch).1 :=
      takeWhile_withRun (decimalRun arch) h
    rw [opensWithDigit_iff.mpr h, opensWithDigit_iff.mpr (hrun ▸ decimalRun_ne_nil arch)]

/-- What is behind a part does not change how it opens. -/
theorem opensWithDigit_append_marked (tail : Bytes) (tails : List Bytes) :
    opensWithDigit (tail ++ marked targetMarker tails) = opensWithDigit tail := by
  have hrun : (tail ++ marked targetMarker tails).takeWhile isDigit = tail.takeWhile isDigit :=
    takeWhile_append_marked targetMarker.notRun tail tails
  unfold opensWithDigit
  rw [hrun]

theorem any_suffixes (tails : List Bytes) :
    (suffixes targetMarker tails).any opensWithDigit = tails.any opensWithDigit := by
  induction tails with
  | nil => rfl
  | cons tail tails ih => rw [suffixes, List.any_cons, List.any_cons, ih, opensWithDigit_append_marked]

/-- Rewriting succeeds when a directive has a number. -/
theorem rewritten_iff (ptx : Bytes) (arch : UInt32) :
    (rewriteTargetDirective ptx arch).2 = true ↔ ∃ i, i ∈ numbered ptx := by
  obtain ⟨cut, rfl⟩ := exists_cut targetMarker ptx
  have hany : cut.tails.any opensWithDigit = (occurrences targetMarker cut.text).any fun i =>
      opensWithDigit (cut.text.drop (i + kTargetDirective.length)) := by
    rw [← any_suffixes, ← followings_text, followings_eq_map, List.any_map, text_targetMarker]
    rfl
  rw [rewriteTargetDirective_cut, hany, List.any_eq_true, numbered_eq]
  simp only [List.mem_filter]

/-- What a directive is before and after the rewriting: it has a number in both or in neither, and
what is behind its digits has been rewritten. -/
def Kept (arch : UInt32) (before after : Bytes) : Prop :=
  opensWithDigit after = opensWithDigit before ∧
    after.dropWhile isDigit = (rewriteTargetDirective (before.dropWhile isDigit) arch).1

/-- Every directive is kept, in its place among the others. -/
theorem forall₂_kept (arch : UInt32) {tails : List Bytes}
    (hclean : ∀ tail ∈ tails, ¬targetMarker.text <:+: tail) :
    List.Forall₂ (Kept arch) (suffixes targetMarker tails)
      (suffixes targetMarker (tails.map (withRun targetMarker (decimalRun arch)))) := by
  induction tails with
  | nil => exact .nil
  | cons tail tails ih =>
    obtain ⟨htail, htails⟩ := List.forall_mem_cons.mp hclean
    rw [List.map_cons, suffixes, suffixes]
    refine .cons ⟨?_, ?_⟩ (ih htails)
    · rw [opensWithDigit_append_marked, opensWithDigit_append_marked, opensWithDigit_withRun]
    · have hbehind : ¬targetMarker.text <:+: tail.dropWhile isDigit := fun h =>
        htail (h.trans (List.dropWhile_suffix isDigit).isInfix)
      have hrewritten := rewriteTargetDirective_cut ⟨tail.dropWhile isDigit, tails, hbehind, htails⟩ arch
      have hbefore : (tail ++ marked targetMarker tails).dropWhile isDigit =
          tail.dropWhile isDigit ++ marked targetMarker tails :=
        dropWhile_append_marked targetMarker.notRun tail tails
      have hafter : (withRun targetMarker (decimalRun arch) tail ++
          marked targetMarker (tails.map (withRun targetMarker (decimalRun arch)))).dropWhile isDigit =
          (withRun targetMarker (decimalRun arch) tail).dropWhile isDigit ++
            marked targetMarker (tails.map (withRun targetMarker (decimalRun arch))) :=
        dropWhile_append_marked targetMarker.notRun _ _
      have hdigits : (withRun targetMarker (decimalRun arch) tail).dropWhile isDigit =
          tail.dropWhile isDigit := dropWhile_withRun (decimalRun arch) tail
      rw [hbefore, hafter, hdigits]
      exact (congrArg Prod.fst hrewritten).symm

/-- The directives with a number are the same, in the same order, before and after the rewriting. -/
theorem forall₂_numbered (ptx : Bytes) (arch : UInt32) :
    List.Forall₂
      (fun i j => behindDigits (rewriteTargetDirective ptx arch).1 j =
        (rewriteTargetDirective (behindDigits ptx i) arch).1)
      (numbered ptx) (numbered (rewriteTargetDirective ptx arch).1) := by
  obtain ⟨cut, rfl⟩ := exists_cut targetMarker ptx
  have hkept := forall₂_kept arch cut.tails_clean
  have hafter : suffixes targetMarker (cut.tails.map (withRun targetMarker (decimalRun arch))) =
      followings targetMarker (rewriteTargetDirective cut.text arch).1 := by
    rw [rewriteTargetDirective_cut, followings_text]
    rfl
  rw [hafter, ← followings_text, followings_eq_map, followings_eq_map, List.forall₂_map_left_iff,
    List.forall₂_map_right_iff, text_targetMarker] at hkept
  rw [numbered_eq, numbered_eq]
  refine (List.rel_filter (fun i j h => ?_) hkept).imp fun _ _ h => h.2
  dsimp only
  rw [h.1]

/-- **The last target written is the one a module has.** The loop comes to an end. It succeeds when a
directive has a number. As many directives have one after it, in the same order: what is behind the
digits of each is the rewriting of what was behind them. Rewriting to one target and then to another
is rewriting to the other. -/
theorem rewriteTargetDirective_last (ptx : Bytes) (first second : UInt32) :
    (∃ final, Turns (toDecimal first.toNat) ⟨ptx, 0, false⟩ final ∧
        turn (toDecimal first.toNat) final = none ∧
        rewriteTargetDirective ptx first = (final.text, final.rewritten)) ∧
      ((rewriteTargetDirective ptx first).2 = true ↔ ∃ i, i ∈ numbered ptx) ∧
      (numbered (rewriteTargetDirective ptx first).1).length = (numbered ptx).length ∧
      List.Forall₂
        (fun i j => behindDigits (rewriteTargetDirective ptx first).1 j =
          (rewriteTargetDirective (behindDigits ptx i) first).1)
        (numbered ptx) (numbered (rewriteTargetDirective ptx first).1) ∧
      rewriteTargetDirective (rewriteTargetDirective ptx first).1 second =
        rewriteTargetDirective ptx second := by
  have hsame := forall₂_numbered ptx first
  refine ⟨?_, rewritten_iff ptx first, hsame.length_eq.symm, hsame, ?_⟩
  · exact exists_turns (length_toDecimal_le first) ⟨ptx, 0, false⟩ (Nat.lt_succ_self ptx.length)
  · obtain ⟨cut, rfl⟩ := exists_cut targetMarker ptx
    have hany : (cut.withRuns (decimalRun first)).tails.any opensWithDigit =
        cut.tails.any opensWithDigit := by
      have hopens : opensWithDigit ∘ withRun targetMarker (decimalRun first) = opensWithDigit :=
        funext (opensWithDigit_withRun first)
      rw [Cut.withRuns, List.any_map, hopens]
    rw [rewriteTargetDirective_cut, rewriteTargetDirective_cut, rewriteTargetDirective_cut,
      Cut.withRuns_withRuns cut (decimalRun_ne_nil first), hany]

end OpenDlssg.LastTarget
