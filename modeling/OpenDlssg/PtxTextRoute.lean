import OpenDlssg.SubstituteSafety

/-!
# Plain PTX text, read through a window

A module given as text is classified by the digits of its target directive
that lie in the opening window. They are a prefix of the digits the directive
carries, so the number read is never too large: the answer is the right one
unless the window cuts a number above the target down to one below it.
-/

namespace OpenDlssg.PtxTextRoute

open ByteCodec ByteSearch PatternScan CubinImage FatbinContainer FatbinRetarget ProviderIndex Substitute
open SubstituteSafety

/-- The number the target directive at an offset carries. -/
def targetNumber (text : Bytes) (start : ℕ) : ℕ :=
  decimalValue (digitRun text (start + kTargetDirective.length))

/-- The number its digits within the opening window denote, 0 without any. -/
def visibleNumber (text : Bytes) (start : ℕ) : ℕ := targetNumber (text.take kHeaderWindow) start

/-- The window shows a prefix of the digits. -/
theorem visibleNumber_le (text : Bytes) (start : ℕ) : visibleNumber text start ≤ targetNumber text start := by
  unfold visibleNumber targetNumber
  rw [digitRun_take]
  exact decimalValue_take_le _ _

/-- A text none of whose digits is visible carries no visible number. -/
theorem digitRun_ne_nil {text : Bytes} {start : ℕ} (h : visibleNumber text start ≠ 0) :
    digitRun text (start + kTargetDirective.length) ≠ [] := by
  intro hnil
  unfold visibleNumber targetNumber at h
  rw [digitRun_take, hnil, List.take_nil] at h
  exact h rfl

/-- The architecture read from the window is the visible number. -/
theorem toNat_fromChars {text : Bytes} {start : ℕ} (h : visibleNumber text start < 2 ^ 32) :
    (fromChars ((text.take kHeaderWindow).drop (start + kTargetDirective.length))).toNat =
      visibleNumber text start := by
  have hrun : decimalValue (digitRun ((text.take kHeaderWindow).drop
      (start + kTargetDirective.length)) 0) = visibleNumber text start := by
    unfold visibleNumber targetNumber digitRun
    rw [List.drop_zero]
  unfold fromChars
  rw [hrun, if_pos h]
  exact UInt32.toNat_ofNat_of_lt' h

/-- PTX runs on its own architecture and newer ones. -/
theorem canRun_ptx {image device : UInt32} (himage : image ≠ 0) (hdevice : device ≠ 0) :
    canRun true image device = true ↔ image.toNat ≤ device.toNat := by
  unfold canRun
  rw [if_neg (not_or.mpr ⟨himage, hdevice⟩), if_pos rfl, decide_eq_true_eq]
  exact UInt32.le_iff_toNat_le

/-- Whether PTX text is rewritten is decided by the visible number alone. -/
theorem retargetPtxText_isSome {text : Bytes} {start : ℕ} {arch : UInt32} (report : Report)
    (harch : arch ≠ 0) (hversion : find kVersionDirective (text.take kHeaderWindow) ≠ none)
    (hdirective : find kTargetDirective text = some start)
    (hwindow : start + kTargetDirective.length ≤ kHeaderWindow)
    (hfit : visibleNumber text start < 2 ^ 32) :
    (retargetPtxText text arch report).1.isSome = true ↔ arch.toNat < visibleNumber text start := by
  obtain ⟨version, hfound⟩ := Option.ne_none_iff_exists'.mp hversion
  have hhead := find_take_of_find hdirective hwindow
  have hnumber := toNat_fromChars hfit
  unfold retargetPtxText
  dsimp only
  rw [hfound, hhead]
  dsimp only
  by_cases hzero : fromChars ((text.take kHeaderWindow).drop (start + kTargetDirective.length)) = 0
  · rw [hzero, UInt32.toNat_zero] at hnumber
    rw [if_pos hzero, ← hnumber]
    simp
  · have hcan := canRun_ptx hzero harch
    rw [hnumber] at hcan
    rw [if_neg hzero]
    by_cases hrun : visibleNumber text start ≤ arch.toNat
    · rw [if_pos (hcan.mpr hrun)]
      simp only [Option.isSome_none, Bool.false_eq_true, false_iff]
      omega
    · have hdigits : digitRun text (start + kTargetDirective.length) ≠ [] :=
        digitRun_ne_nil (by omega)
      rw [if_neg (fun h => hrun (hcan.mp h)),
        if_pos (rewriteTargetDirective_of_find hdirective hdigits)]
      simp only [Option.isSome_some, true_iff]
      omega

/-- A blob that is neither a cubin nor a container is decided by the text route. -/
theorem decideFrom_text (env : Environment) (s : State) (caller : Option HModule) {text : Bytes}
    (source : PtxSource) {target : UInt32} (htarget : target ≠ 0) (htext : text ≠ [])
    (hcubin : cubinArch text = 0) (hcontainer : containerSize text = 0) :
    (decideFrom env s caller (some text) source target).decision =
      if (retargetPtxText text target {}).1.isSome then .substituted else .unchanged := by
  have hblob : ¬(target = 0 ∨ text = []) := not_or.mpr ⟨htarget, htext⟩
  unfold decideFrom
  dsimp only
  rw [if_neg hblob, if_neg (not_not.mpr hcubin), if_neg (not_not.mpr hcontainer)]
  cases (retargetPtxText text target {}).1 with
  | none => rfl
  | some image => rfl

/-- With substitution enabled the text route's decision is the final one. -/
theorem decide_text (env : Environment) {s : State} (henabled : s.options.enabled = true)
    (detected : UInt32) (caller : Option HModule) {text : Bytes} (htarget : (targetSm detected s).1 ≠ 0)
    (htext : text ≠ []) (hcubin : cubinArch text = 0) (hcontainer : containerSize text = 0) :
    (Substitute.decide env detected caller (some text) s).1.decision =
      if (retargetPtxText text (targetSm detected s).1 {}).1.isSome then .substituted
      else .unchanged := by
  have hoptions : (targetSm detected s).2.options.enabled = true := by
    rw [← henabled, (targetSm_keeps detected s).1]
  have hroute := decideFrom_text env (targetSm detected s).2 caller
    (preferredSource (targetSm detected s).2.options) htarget htext hcubin hcontainer
  rw [← hroute]
  unfold Substitute.decide
  dsimp only
  rw [withheld_enabled hoptions]

/-- Text whose first target directive lies in the opening window is passed on
when its number is at most the target and rewritten when it is above, exactly
where the number is at most the target or the digits in the window already
denote one above it. -/
theorem text_classified_iff {env : Environment} {s : State} (henabled : s.options.enabled = true)
    (detected : UInt32) (htarget : (targetSm detected s).1 ≠ 0) (caller : Option HModule)
    {text : Bytes} {start : ℕ} (hcubin : cubinArch text = 0) (hcontainer : containerSize text = 0)
    (hversion : find kVersionDirective (text.take kHeaderWindow) ≠ none)
    (hdirective : find kTargetDirective text = some start)
    (hwindow : start + kTargetDirective.length ≤ kHeaderWindow)
    (hlow : 1 ≤ targetNumber text start) (hhigh : targetNumber text start < 2 ^ 32) :
    (((Substitute.decide env detected caller (some text) s).1.decision = .unchanged ↔
          targetNumber text start ≤ (targetSm detected s).1.toNat) ∧
        ((Substitute.decide env detected caller (some text) s).1.decision = .substituted ↔
          (targetSm detected s).1.toNat < targetNumber text start)) ↔
      targetNumber text start ≤ (targetSm detected s).1.toNat ∨
        (targetSm detected s).1.toNat < visibleNumber text start := by
  have hle := visibleNumber_le text start
  have htext : text ≠ [] := by
    intro hnil
    have hroom := find_room hdirective
    have hlen := length_kTargetDirective
    rw [hnil, List.length_nil] at hroom
    omega
  have hsome := retargetPtxText_isSome {} htarget hversion hdirective hwindow (by omega)
  rw [decide_text env henabled detected caller htarget htext hcubin hcontainer]
  by_cases hrewrite : (targetSm detected s).1.toNat < visibleNumber text start
  · rw [if_pos (hsome.mpr hrewrite)]
    simp only [reduceCtorEq, false_iff, true_iff, hrewrite, or_true, iff_true]
    omega
  · rw [if_neg fun h => hrewrite (hsome.mp h)]
    simp only [reduceCtorEq, false_iff, true_iff, hrewrite, or_false]
    omega

/-- A module for sm_89 whose directive opens it. -/
def openingText : Bytes := ascii ".version 7.8\n.target sm_89\n"

/-- The same module after so much white space that its digits straddle the end
of the window. -/
def straddlingText : Bytes := List.replicate 4071 32 ++ openingText

/-- An active engine for sm_86. -/
def ampereState : State := { options := { targetSm := 86 }, configured := true, activated := true }

/-- A module whose digits lie in the window is classified by its number. -/
theorem text_classified_opening :
    (((Substitute.decide (sampleEnvironment []) 0 none (some openingText) ampereState).1.decision =
            .unchanged ↔
          targetNumber openingText 13 ≤ (targetSm 0 ampereState).1.toNat) ∧
        ((Substitute.decide (sampleEnvironment []) 0 none (some openingText) ampereState).1.decision =
            .substituted ↔
          (targetSm 0 ampereState).1.toNat < targetNumber openingText 13)) ↔
      targetNumber openingText 13 ≤ (targetSm 0 ampereState).1.toNat ∨
        (targetSm 0 ampereState).1.toNat < visibleNumber openingText 13 :=
  text_classified_iff rfl 0 (by decide) none (by decide +kernel) (by decide +kernel)
    (by decide +kernel) (by decide +kernel) (by decide) (by decide +kernel) (by decide +kernel)

/-- The window ends between the two digits. -/
theorem straddlingText_window : straddlingText.take kHeaderWindow =
    List.replicate 4071 32 ++ openingText.take 25 := by
  unfold straddlingText kHeaderWindow
  rw [List.take_append, List.take_of_length_le (by rw [List.length_replicate]; decide),
    List.length_replicate]

/-- The directive of the straddling module stands just inside the window. -/
theorem straddlingText_directive : find kTargetDirective straddlingText = some 4084 := by
  have hne : (32 : UInt8) ≠ 46 := by decide
  have hopening : find kTargetDirective openingText = some 13 := by decide +kernel
  have hskip := find_replicate_append hne (ascii "target sm_") 4071 openingText
  have hneedle : (46 : UInt8) :: ascii "target sm_" = kTargetDirective := by decide
  rw [hneedle, hopening] at hskip
  exact hskip

/-- The directive carries 89, of which the window shows 8. -/
theorem straddlingText_numbers :
    targetNumber straddlingText 4084 = 89 ∧ visibleNumber straddlingText 4084 = 8 := by
  have hskip : ∀ rest : Bytes, (List.replicate 4071 (32 : UInt8) ++ rest).drop (4084 + 11) =
      rest.drop 24 := by
    intro rest
    rw [List.drop_append, List.drop_of_length_le (by rw [List.length_replicate]; decide),
      List.length_replicate, List.nil_append]
  have hopening : decimalValue ((openingText.drop 24).takeWhile isDigit) = 89 := by decide +kernel
  have hshown : decimalValue (((openingText.take 25).drop 24).takeWhile isDigit) = 8 := by
    decide +kernel
  unfold visibleNumber
  rw [straddlingText_window]
  unfold targetNumber digitRun straddlingText
  rw [length_kTargetDirective, hskip, hskip]
  exact ⟨hopening, hshown⟩

/-- A module for sm_89 is passed on to an sm_86 GPU when the window shows only
the first of its digits. -/
theorem straddlingText_misclassified :
    cubinArch straddlingText = 0 ∧ containerSize straddlingText = 0 ∧
      find kVersionDirective (straddlingText.take kHeaderWindow) ≠ none ∧
      find kTargetDirective straddlingText = some 4084 ∧ targetNumber straddlingText 4084 = 89 ∧
      (targetSm 0 ampereState).1 = 86 ∧
      ¬(((Substitute.decide (sampleEnvironment []) 0 none (some straddlingText)
              ampereState).1.decision = .unchanged ↔
            targetNumber straddlingText 4084 ≤ (targetSm 0 ampereState).1.toNat) ∧
          ((Substitute.decide (sampleEnvironment []) 0 none (some straddlingText)
              ampereState).1.decision = .substituted ↔
            (targetSm 0 ampereState).1.toNat < targetNumber straddlingText 4084)) := by
  obtain ⟨hnumber, hvisible⟩ := straddlingText_numbers
  have htarget : (targetSm 0 ampereState).1 = 86 := by decide
  have hne : (targetSm 0 ampereState).1 ≠ 0 := by decide
  have hopen : straddlingText.take 64 = List.replicate 64 32 := by
    unfold straddlingText
    rw [List.take_append_of_le_length (by rw [List.length_replicate]; decide), List.take_replicate]
    rfl
  have hcubin : cubinArch straddlingText = 0 := by
    rw [← cubinArch_take (n := 64) le_rfl, hopen]
    decide +kernel
  have hcontainer : containerSize straddlingText = 0 := by
    rw [← containerSize_take (n := 64) (by decide), hopen]
    decide +kernel
  have hversion : find kVersionDirective (straddlingText.take kHeaderWindow) ≠ none := by
    have hne : (32 : UInt8) ≠ 46 := by decide
    have hskip := find_replicate_append hne (ascii "version ") 4071 (openingText.take 25)
    have hneedle : (46 : UInt8) :: ascii "version " = kVersionDirective := by decide
    have hfound : find kVersionDirective (openingText.take 25) = some 0 := by decide +kernel
    rw [hneedle, hfound] at hskip
    rw [straddlingText_window, hskip]
    decide
  have htext : straddlingText ≠ [] := by
    intro hnil
    rw [hnil] at hversion
    exact hversion (by decide)
  have hkept := retargetPtxText_isSome {} hne hversion straddlingText_directive (by decide)
    (by rw [hvisible]; decide)
  rw [hvisible, htarget] at hkept
  have henabled : ampereState.options.enabled = true := rfl
  have hdecision := decide_text (sampleEnvironment []) henabled 0 none hne htext hcubin hcontainer
  rw [htarget, if_neg fun h => absurd (hkept.mp h) (by decide)] at hdecision
  refine ⟨hcubin, hcontainer, hversion, straddlingText_directive, hnumber, htarget, fun h => ?_⟩
  have hsmall := h.1.mp hdecision
  rw [hnumber, htarget] at hsmall
  exact absurd hsmall (by decide)

end OpenDlssg.PtxTextRoute
