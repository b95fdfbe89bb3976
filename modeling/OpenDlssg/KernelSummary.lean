import OpenDlssg.Substitute

/-!
# The summary of the kernels

A periodic scan writes the totals once two calls see the same one, and nothing
more until the total changes. Decisions and the driver's answers are counted on
other threads between any two accesses of a call. The driver's refusals are
written with the totals but are no part of the one that settles: a refusal that
is counted after the line for the current total is in no line.
-/

namespace OpenDlssg.KernelSummary

open Substitute TransitionRuns

/-- What a call of `ReportSummary` loads. -/
structure Totals where
  native : UInt32 := 0
  retargeted : UInt32 := 0
  refused : UInt32 := 0
  unchanged : UInt32 := 0
  deriving DecidableEq

/-- The total that settles. -/
def Totals.total (t : Totals) : UInt32 := t.native + t.retargeted + t.refused + t.unchanged

/-- The number of decisions. -/
def Totals.sum (t : Totals) : ℕ :=
  t.native.toNat + t.retargeted.toNat + t.refused.toNat + t.unchanged.toNat

/-- A `kernels_summary` line. -/
structure Line where
  seen : Totals
  driverRejected : UInt32
  deviceSm : UInt32
  deriving DecidableEq

/-- A call of `ReportSummary` that returned: what it saw, and the line it wrote. -/
structure Call where
  seen : Totals
  line : Option Line
  deriving DecidableEq

/-- The next access of the thread that reports. -/
inductive Phase
  | idle
  | loadRetargeted (native : UInt32)
  | loadRefused (native retargeted : UInt32)
  | loadUnchanged (native retargeted refused : UInt32)
  /-- `g_last_total` is exchanged -/
  | settle (seen : Totals)
  /-- `g_summarized` is exchanged -/
  | summarize (seen : Totals)
  | write (seen : Totals)
  deriving DecidableEq

/-- The counters, where the report is, and what happened so far. -/
structure State where
  engine : Substitute.State := {}
  driverRejections : UInt32 := 0
  lastTotal : UInt32 := 0
  summarized : UInt32 := 0
  phase : Phase := .idle
  /-- The calls that returned, the last one first. -/
  calls : List Call := []
  /-- Whether no counter has changed since the call under way began. -/
  fresh : Bool := false
  /-- How many calls began and returned since a counter last changed. -/
  quiet : ℕ := 0

/-- The counters of the decisions. -/
def State.counters (s : State) : Totals :=
  ⟨s.engine.native, s.engine.retargeted, s.engine.refusals, s.engine.unchanged⟩

/-- The lines written, the last one first. -/
def State.lines (s : State) : List Line := s.calls.filterMap Call.line

/-- `ReportSummary` returns. -/
def State.return (s : State) (seen : Totals) (line : Option Line) : State :=
  { s with
    phase := .idle
    calls := ⟨seen, line⟩ :: s.calls
    quiet := if s.fresh then s.quiet + 1 else s.quiet }

/-- The next access of `ReportSummary`. -/
def State.report (s : State) : State :=
  match s.phase with
  | .idle => { s with phase := .loadRetargeted s.engine.native, fresh := true }
  | .loadRetargeted native => { s with phase := .loadRefused native s.engine.retargeted }
  | .loadRefused native retargeted =>
    { s with phase := .loadUnchanged native retargeted s.engine.refusals }
  | .loadUnchanged native retargeted refused =>
    { s with phase := .settle ⟨native, retargeted, refused, s.engine.unchanged⟩ }
  | .settle seen =>
    if seen.total = 0 then s.return seen none
    else if s.lastTotal ≠ seen.total then { s with lastTotal := seen.total }.return seen none
    else { s with lastTotal := seen.total, phase := .summarize seen }
  | .summarize seen =>
    if s.summarized = seen.total then { s with summarized := seen.total }.return seen none
    else { s with summarized := seen.total, phase := .write seen }
  | .write seen => s.return seen (some ⟨seen, s.driverRejections, s.engine.target.getD 0⟩)

/-- A counter has changed. -/
def State.changed (s : State) : State := { s with fresh := false, quiet := 0 }

/-- `ReportDriverResult` counts an answer that is not a success. -/
def State.reportDriverResult (s : State) (status : UInt32) : State :=
  if status = 0 then s else { s with driverRejections := s.driverRejections + 1 }.changed

/-- What the threads do. -/
inductive Action
  /-- a decision is counted -/
  | decide (answer : Answer)
  /-- the target is resolved -/
  | resolve (detected : UInt32)
  /-- the driver answers -/
  | driverResult (status : UInt32)
  /-- the report makes its next access -/
  | report

/-- The engine over the steps of its threads, in any order. -/
def machine : System State Action where
  init s := s = {}
  step s action :=
    match action with
    | .decide answer => some { s with engine := logDecision answer s.engine }.changed
    | .resolve detected => some { s with engine := (resolveTarget detected s.engine).2 }
    | .driverResult status => some (s.reportDriverResult status)
    | .report => some s.report

/-- Every line was written by a call that saw the non-zero total the call before it saw. -/
def Settled : List Call → Prop
  | [] => True
  | call :: calls =>
    (∀ line, call.line = some line → line.seen = call.seen ∧ call.seen.total ≠ 0 ∧
      calls.head?.map (fun previous => previous.seen.total) = some call.seen.total) ∧ Settled calls

/-- What the summary promises: no total is written twice in a row, none before two calls
saw it, and after two calls without a change the last line carries every counter. -/
structure Told (s : State) : Prop where
  distinct : s.lines.IsChain fun newer older => newer.seen.total ≠ older.seen.total
  settled : Settled s.calls
  final : 2 ≤ s.quiet → (s.counters.total ≠ 0 → s.lines ≠ []) ∧
    ∀ line, s.lines.head? = some line →
      line.seen = s.counters ∧ line.driverRejected = s.driverRejections

/-- The decisions are fewer than `2 ^ 32`, and no refusal is counted once the last line has
the current total. -/
def Covered (s : State) : Action → Prop
  | .decide _ => s.counters.sum + 1 < 2 ^ 32
  | .resolve _ => True
  | .driverResult status =>
    status ≠ 0 → ∀ line, s.lines.head? = some line → line.seen.total ≠ s.counters.total
  | .report => True

/-! ### Totals -/

/-- Counters that have only grown. -/
structure Totals.Le (t t' : Totals) : Prop where
  native : t.native.toNat ≤ t'.native.toNat
  retargeted : t.retargeted.toNat ≤ t'.retargeted.toNat
  refused : t.refused.toNat ≤ t'.refused.toNat
  unchanged : t.unchanged.toNat ≤ t'.unchanged.toNat

namespace Totals

variable {t t' t'' : Totals}

theorem Le.refl (t : Totals) : t.Le t := ⟨Nat.le_refl _, Nat.le_refl _, Nat.le_refl _, Nat.le_refl _⟩

theorem Le.trans (h : t.Le t') (h' : t'.Le t'') : t.Le t'' :=
  ⟨h.native.trans h'.native, h.retargeted.trans h'.retargeted, h.refused.trans h'.refused,
    h.unchanged.trans h'.unchanged⟩

theorem Le.sum_le (h : t.Le t') : t.sum ≤ t'.sum := by
  obtain ⟨hnative, hretargeted, hrefused, hunchanged⟩ := h
  unfold sum
  omega

/-- Below `2 ^ 32` the total is the number of decisions. -/
theorem toNat_total (h : t.sum < 2 ^ 32) : t.total.toNat = t.sum := by
  unfold sum at h ⊢
  unfold total
  rw [UInt32.toNat_add, UInt32.toNat_add, UInt32.toNat_add]
  omega

theorem sum_eq_of_total (hsmall : t.sum < 2 ^ 32) (hsmall' : t'.sum < 2 ^ 32)
    (h : t.total = t'.total) : t.sum = t'.sum := by
  rw [← toNat_total hsmall, ← toNat_total hsmall', h]

/-- Counters that have grown without their total growing are the same. -/
theorem Le.eq_of_total (h : t.Le t') (hsmall : t'.sum < 2 ^ 32) (htotal : t.total = t'.total) :
    t = t' := by
  have hsum := sum_eq_of_total (h.sum_le.trans_lt hsmall) hsmall htotal
  obtain ⟨hnative, hretargeted, hrefused, hunchanged⟩ := h
  unfold sum at hsum
  have hsame : t.native = t'.native ∧ t.retargeted = t'.retargeted ∧ t.refused = t'.refused ∧
      t.unchanged = t'.unchanged := by
    refine ⟨?_, ?_, ?_, ?_⟩ <;> rw [← UInt32.toNat_inj] <;> omega
  cases t
  cases t'
  obtain ⟨rfl, rfl, rfl, rfl⟩ := hsame
  rfl

/-- Counters without a total are all zero. -/
theorem sum_eq_zero (hsmall : t.sum < 2 ^ 32) (h : t.total = 0) : t.sum = 0 := by
  rw [← toNat_total hsmall, h]
  rfl

end Totals

/-- A decision is counted once. -/
theorem counters_logDecision (answer : Answer) (s : State) (hsmall : s.counters.sum + 1 < 2 ^ 32) :
    s.counters.Le { s with engine := logDecision answer s.engine }.counters ∧
      { s with engine := logDecision answer s.engine }.counters.sum = s.counters.sum + 1 := by
  have hcount : ∀ n : UInt32, n.toNat ≤ s.counters.sum → (n + 1).toNat = n.toNat + 1 := by
    intro n hn
    rw [UInt32.toNat_add]
    change (n.toNat + 1) % 2 ^ 32 = n.toNat + 1
    omega
  unfold Totals.sum State.counters at hcount
  unfold logDecision Totals.sum State.counters
  cases answer.decision with
  | substituted =>
    dsimp only
    split
    · have hnative := hcount s.engine.native (by dsimp only; omega)
      refine ⟨⟨?_, le_rfl, le_rfl, le_rfl⟩, ?_⟩ <;> dsimp only <;> omega
    · have hretargeted := hcount s.engine.retargeted (by dsimp only; omega)
      refine ⟨⟨le_rfl, ?_, le_rfl, le_rfl⟩, ?_⟩ <;> dsimp only <;> omega
  | refused =>
    have hrefused := hcount s.engine.refusals (by dsimp only; omega)
    refine ⟨⟨le_rfl, le_rfl, ?_, le_rfl⟩, ?_⟩ <;> dsimp only <;> omega
  | unchanged =>
    have hunchanged := hcount s.engine.unchanged (by dsimp only; omega)
    refine ⟨⟨le_rfl, le_rfl, le_rfl, ?_⟩, ?_⟩ <;> dsimp only <;> omega

/-- Resolving the target counts nothing. -/
theorem counters_resolveTarget (detected : UInt32) (s : State) :
    { s with engine := (resolveTarget detected s.engine).2 }.counters = s.counters := by
  unfold resolveTarget State.counters
  cases s.engine.target with
  | none => rfl
  | some sm => rfl

/-! ### What holds in every state -/

/-- What the last call saw. -/
def State.last (s : State) : Totals := (s.calls.head?.map Call.seen).getD {}

/-- The total of the last line, 0 when there is none. -/
def State.written (s : State) : UInt32 := (s.lines.head?.map fun line => line.seen.total).getD 0

/-- What the call under way has loaded, over what the last one saw. -/
def Phase.floor (last : Totals) : Phase → Totals
  | .idle => last
  | .loadRetargeted native => { last with native := native }
  | .loadRefused native retargeted => { last with native := native, retargeted := retargeted }
  | .loadUnchanged native retargeted refused =>
    { last with native := native, retargeted := retargeted, refused := refused }
  | .settle seen => seen
  | .summarize seen => seen
  | .write seen => seen

/-- What `g_last_total` is: what the last call saw, or what this one did as well. -/
def LastOk (s : State) : Phase → Prop
  | .summarize seen => seen.total ≠ 0 ∧ s.lastTotal = seen.total ∧ s.last.total = seen.total
  | .write seen => seen.total ≠ 0 ∧ s.lastTotal = seen.total ∧ s.last.total = seen.total
  | _ => s.lastTotal = s.last.total

/-- What `g_summarized` is: the total of the last line, or that of the line to write. -/
def SummarizedOk (s : State) : Phase → Prop
  | .write seen => s.summarized = seen.total ∧ s.written ≠ seen.total
  | _ => s.summarized = s.written

/-- What holds in every state. -/
structure StateOk (s : State) : Prop where
  small : s.counters.sum < 2 ^ 32
  /-- Counters only grow: from the last call to this one, and from this one to now. -/
  low : s.last.Le (s.phase.floor s.last)
  high : (s.phase.floor s.last).Le s.counters
  lastTotal : LastOk s s.phase
  summarized : SummarizedOk s s.phase
  line : ∀ line, s.lines.head? = some line → line.seen.Le s.counters ∧
    (line.seen.total = s.counters.total → line.driverRejected = s.driverRejections)
  distinct : s.lines.IsChain fun newer older => newer.seen.total ≠ older.seen.total
  settled : Settled s.calls
  stale : s.fresh = false → s.quiet = 0
  current : s.fresh = true → s.phase.floor s.counters = s.counters
  /-- A call without a change saw the counters as they are. -/
  seen : 1 ≤ s.quiet → s.last = s.counters
  /-- Two calls without a change wrote the total as it is. -/
  told : 2 ≤ s.quiet → s.counters.total ≠ 0 → s.written = s.counters.total

/-- In every state the last line tells what the summary promises. -/
theorem StateOk.told_all {s : State} (hs : StateOk s) : Told s where
  distinct := hs.distinct
  settled := hs.settled
  final hquiet := by
    refine ⟨fun htotal hnone => ?_, fun line hline => ?_⟩
    · have hwritten := hs.told hquiet htotal
      rw [State.written, hnone] at hwritten
      exact htotal hwritten.symm
    · obtain ⟨hle, hrejected⟩ := hs.line line hline
      have htotal : line.seen.total = s.counters.total := by
        by_cases hzero : s.counters.total = 0
        · have hsum := Totals.sum_eq_zero hs.small hzero
          have hlow := hle.sum_le
          have hline : line.seen.sum = 0 := by omega
          rw [hzero, ← UInt32.toNat_inj, Totals.toNat_total (by omega), hline]
          rfl
        · have hwritten := hs.told hquiet hzero
          rw [State.written, hline] at hwritten
          exact hwritten
      exact ⟨hle.eq_of_total hs.small htotal, hrejected htotal⟩

/-- A call returns: without a line, or with one for a total it saw as the call before it
did and that the last line has not. -/
theorem StateOk.return {s : State} (hs : StateOk s) {seen : Totals}
    (hfloor : ∀ last, s.phase.floor last = seen) {lastTotal summarized : UInt32} {line : Option Line} (hlast : lastTotal = seen.total)
    (hsummarized : summarized = (line.map fun line => line.seen.total).getD s.written)
    (hline : ∀ l, line = some l → l.seen = seen ∧ l.driverRejected = s.driverRejections ∧
      seen.total ≠ 0 ∧ s.last.total = seen.total ∧ s.written ≠ seen.total)
    (htold : line = none → 1 ≤ s.quiet → s.last = s.counters → seen = s.counters →
      s.counters.total ≠ 0 → s.written = s.counters.total) :
    StateOk ({ s with lastTotal := lastTotal, summarized := summarized }.return seen line) := by
  have hseen : seen.Le s.counters := (hfloor s.last) ▸ hs.high
  have hfresh : s.fresh = true → seen = s.counters := fun h => (hfloor s.counters) ▸ hs.current h
  have hquiet : ∀ n, n + 1 ≤ (if s.fresh then s.quiet + 1 else s.quiet) →
      s.fresh = true ∧ n ≤ s.quiet := by
    intro n hn
    cases hcase : s.fresh with
    | false =>
      rw [hcase, hs.stale hcase] at hn
      exact absurd hn (by simp)
    | true =>
      rw [hcase] at hn
      exact ⟨rfl, Nat.le_of_succ_le_succ hn⟩
  have hstale : s.fresh = false → (if s.fresh then s.quiet + 1 else s.quiet) = 0 := by
    intro h
    rw [h]
    exact hs.stale h
  cases line with
  | none =>
    refine ⟨hs.small, Totals.Le.refl _, hseen, hlast, hsummarized, hs.line, hs.distinct,
      ⟨fun l hl => ?_, hs.settled⟩, hstale, fun _ => rfl, fun h => ?_, fun h htotal => ?_⟩
    · cases hl
    · exact hfresh (hquiet 0 h).1
    · obtain ⟨hcase, hone⟩ := hquiet 1 h
      exact htold rfl hone (hs.seen hone) (hfresh hcase) htotal
  | some l =>
    obtain ⟨hsame, hrejected, hzero, hprevious, hwritten⟩ := hline l rfl
    have hcalls : s.calls.head?.map (fun previous => previous.seen.total) = some seen.total := by
      unfold State.last at hprevious
      cases hhead : s.calls.head? with
      | none =>
        rw [hhead] at hprevious
        exact absurd hprevious.symm hzero
      | some call =>
        rw [hhead] at hprevious
        exact congrArg some hprevious
    refine ⟨hs.small, Totals.Le.refl _, hseen, hlast, hsummarized, ?_, ?_, ⟨?_, hs.settled⟩, hstale,
      fun _ => rfl, fun h => ?_, fun h _ => ?_⟩
    · intro l' hl'
      cases hl'
      exact ⟨hsame ▸ hseen, fun _ => hrejected⟩
    · change (l :: s.lines).IsChain _
      cases hlines : s.lines with
      | nil => exact List.isChain_singleton _
      | cons older lines =>
        have hdistinct := hs.distinct
        rw [hlines] at hdistinct
        rw [State.written, hlines] at hwritten
        refine List.isChain_cons_cons.mpr ⟨fun htotal => hwritten ?_, hdistinct⟩
        rw [← hsame, htotal]
        rfl
    · intro l' hl'
      cases hl'
      exact ⟨hsame, hzero, hcalls⟩
    · exact hfresh (hquiet 0 h).1
    · change l.seen.total = s.counters.total
      rw [hsame, hfresh (hquiet 1 h).1]

/-- The report makes an access that loads a counter. -/
theorem StateOk.load {s : State} (hs : StateOk s) (phase : Phase) (fresh : Bool)
    (hlow : s.last.Le (phase.floor s.last)) (hhigh : (phase.floor s.last).Le s.counters)
    (hlast : LastOk s phase) (hsummarized : SummarizedOk s phase)
    (hstale : fresh = false → s.fresh = false)
    (hcurrent : fresh = true → phase.floor s.counters = s.counters) :
    StateOk { s with phase := phase, fresh := fresh } :=
  ⟨hs.small, hlow, hhigh, hlast, hsummarized, hs.line, hs.distinct, hs.settled,
    fun h => hs.stale (hstale h), hcurrent, hs.seen, hs.told⟩

/-- An access of the report keeps what holds. -/
theorem report_ok {s : State} (hs : StateOk s) : StateOk s.report := by
  have hlow := hs.low
  have hhigh := hs.high
  have hlast := hs.lastTotal
  have hsummarized := hs.summarized
  have hcurrent := hs.current
  unfold State.report
  cases hphase : s.phase with
  | idle =>
    rw [hphase] at hlow hhigh hlast hsummarized
    exact hs.load (.loadRetargeted s.engine.native) true ⟨hhigh.native, le_rfl, le_rfl, le_rfl⟩
      ⟨le_rfl, hhigh.retargeted, hhigh.refused, hhigh.unchanged⟩ hlast hsummarized
      (fun h => Bool.noConfusion h) (fun _ => rfl)
  | loadRetargeted native =>
    rw [hphase] at hlow hhigh hlast hsummarized hcurrent
    refine hs.load (.loadRefused native s.engine.retargeted) s.fresh
      ⟨hlow.native, hhigh.retargeted, le_rfl, le_rfl⟩
      ⟨hhigh.native, le_rfl, hhigh.refused, hhigh.unchanged⟩ hlast hsummarized id fun h => ?_
    exact hcurrent h
  | loadRefused native retargeted =>
    rw [hphase] at hlow hhigh hlast hsummarized hcurrent
    refine hs.load (.loadUnchanged native retargeted s.engine.refusals) s.fresh
      ⟨hlow.native, hlow.retargeted, hhigh.refused, le_rfl⟩
      ⟨hhigh.native, hhigh.retargeted, le_rfl, hhigh.unchanged⟩ hlast hsummarized id fun h => ?_
    exact hcurrent h
  | loadUnchanged native retargeted refused =>
    rw [hphase] at hlow hhigh hlast hsummarized hcurrent
    refine hs.load (.settle ⟨native, retargeted, refused, s.engine.unchanged⟩) s.fresh
      ⟨hlow.native, hlow.retargeted, hlow.refused, hhigh.unchanged⟩
      ⟨hhigh.native, hhigh.retargeted, hhigh.refused, le_rfl⟩ hlast hsummarized id fun h => ?_
    exact hcurrent h
  | settle seen =>
    rw [hphase] at hlow hhigh hlast hsummarized hcurrent
    have hfloor : ∀ last, s.phase.floor last = seen := fun last => by rw [hphase]; rfl
    have hlast : s.lastTotal = s.last.total := hlast
    dsimp only
    split
    · rename_i hzero
      have hnone : s.last.total = 0 := by
        have hseen : seen.sum = 0 := Totals.sum_eq_zero (hhigh.sum_le.trans_lt hs.small) hzero
        have hle := hlow.sum_le
        change s.last.sum ≤ seen.sum at hle
        rw [← UInt32.toNat_inj, Totals.toNat_total (by omega)]
        change s.last.sum = 0
        omega
      change StateOk ({ s with lastTotal := s.lastTotal, summarized := s.summarized }.return seen none)
      refine hs.return hfloor (by rw [hlast, hnone, hzero]) hsummarized (fun l hl => by cases hl) ?_
      intro _ _ _ hsame htotal
      rw [← hsame, hzero] at htotal
      exact absurd rfl htotal
    · rename_i hsome
      split
      · rename_i hdiffers
        change StateOk ({ s with lastTotal := seen.total, summarized := s.summarized }.return seen none)
        refine hs.return hfloor rfl hsummarized (fun l hl => by cases hl) ?_
        intro _ _ hprevious hsame _
        rw [hlast, hprevious, ← hsame] at hdiffers
        exact absurd rfl hdiffers
      · rename_i hsettles
        have hsettles : s.lastTotal = seen.total := not_not.mp hsettles
        have hok : StateOk { s with phase := .summarize seen, lastTotal := seen.total } :=
          ⟨hs.small, hlow, hhigh, ⟨hsome, rfl, hlast.symm.trans hsettles⟩, hsummarized, hs.line,
            hs.distinct, hs.settled, hs.stale, hcurrent, hs.seen, hs.told⟩
        exact hok
  | summarize seen =>
    rw [hphase] at hlow hhigh hlast hsummarized hcurrent
    have hfloor : ∀ last, s.phase.floor last = seen := fun last => by rw [hphase]; rfl
    obtain ⟨hzero, hlast, hprevious⟩ := hlast
    have hsummarized : s.summarized = s.written := hsummarized
    dsimp only
    split
    · rename_i hwritten
      change StateOk ({ s with lastTotal := s.lastTotal, summarized := seen.total }.return seen none)
      refine hs.return hfloor hlast (hwritten.symm.trans hsummarized) (fun l hl => by cases hl) ?_
      intro _ _ _ hsame _
      rw [← hsummarized, hwritten, hsame]
    · rename_i hwritten
      rw [hsummarized] at hwritten
      have hok : StateOk { s with phase := .write seen, summarized := seen.total } :=
        ⟨hs.small, hlow, hhigh, ⟨hzero, hlast, hprevious⟩, ⟨rfl, hwritten⟩, hs.line,
          hs.distinct, hs.settled, hs.stale, hcurrent, hs.seen, hs.told⟩
      exact hok
  | write seen =>
    rw [hphase] at hlast hsummarized
    have hfloor : ∀ last, s.phase.floor last = seen := fun last => by rw [hphase]; rfl
    obtain ⟨hzero, hlast, hprevious⟩ := hlast
    obtain ⟨hsummarized, hwritten⟩ := hsummarized
    change StateOk ({ s with lastTotal := s.lastTotal, summarized := s.summarized }.return seen
      (some ⟨seen, s.driverRejections, s.engine.target.getD 0⟩))
    refine hs.return hfloor hlast hsummarized (fun l hl => ?_) (fun h => by cases h)
    cases hl
    exact ⟨rfl, rfl, hzero, hprevious, hwritten⟩

/-- A counter changes: the last line has not the total any more, or not yet. -/
theorem StateOk.changed {s : State} (hs : StateOk s) {engine : Substitute.State} {rejections : UInt32}
    (hle : s.counters.Le { s with engine := engine }.counters)
    (hsmall : { s with engine := engine }.counters.sum < 2 ^ 32)
    (hlate : ∀ line, s.lines.head? = some line →
      line.seen.total ≠ { s with engine := engine }.counters.total) :
    StateOk { s with engine := engine, driverRejections := rejections }.changed where
  small := hsmall
  low := hs.low
  high := hs.high.trans hle
  lastTotal := hs.lastTotal
  summarized := hs.summarized
  line line hline := ⟨(hs.line line hline).1.trans hle, fun htotal => absurd htotal (hlate line hline)⟩
  distinct := hs.distinct
  settled := hs.settled
  stale _ := rfl
  current h := Bool.noConfusion h
  seen h := absurd h (Nat.not_succ_le_zero 0)
  told h := absurd h (Nat.not_succ_le_zero 1)

/-- Every step that meets the condition keeps what holds. -/
theorem step_ok {s t : State} {action : Action} (hs : StateOk s) (hcovered : Covered s action)
    (h : machine.step s action = some t) : StateOk t := by
  cases action with
  | decide answer =>
    cases h
    obtain ⟨hle, hsum⟩ := counters_logDecision answer s hcovered
    refine hs.changed hle (hsum ▸ hcovered) fun line hline htotal => ?_
    have hseen := (hs.line line hline).1
    have hsame := Totals.sum_eq_of_total (hseen.sum_le.trans_lt hs.small) (hsum ▸ hcovered) htotal
    have hgrown := hseen.sum_le
    omega
  | resolve detected =>
    cases h
    have hcounters := counters_resolveTarget detected s
    exact ⟨hcounters ▸ hs.small, hs.low, hcounters ▸ hs.high, hs.lastTotal, hs.summarized,
      hcounters ▸ hs.line, hs.distinct, hs.settled, hs.stale, hcounters ▸ hs.current,
      hcounters ▸ hs.seen, hcounters ▸ hs.told⟩
  | driverResult status =>
    cases h
    unfold State.reportDriverResult
    split
    · exact hs
    · rename_i hstatus
      exact hs.changed (Totals.Le.refl _) hs.small (hcovered hstatus)
  | report =>
    cases h
    exact report_ok hs

theorem start_ok : StateOk {} where
  small := by decide
  low := Totals.Le.refl _
  high := Totals.Le.refl _
  lastTotal := rfl
  summarized := rfl
  line _ h := by cases h
  distinct := List.isChain_nil
  settled := trivial
  stale _ := rfl
  current h := Bool.noConfusion h
  seen h := absurd h (Nat.not_succ_le_zero 0)
  told h := absurd h (Nat.not_succ_le_zero 1)

/-- What holds in every state of a run whose steps meet the condition. -/
theorem ok_of_reachable {s : State} (hreach : machine.ReachableUnder Covered s) : StateOk s := by
  refine System.ReachableUnder.invariant StateOk ?_ (fun _ _ _ hs hcovered h => step_ok hs hcovered h)
    hreach
  rintro _ rfl
  exact start_ok

/-- In every run whose decisions are fewer than `2 ^ 32` and in which no refusal is counted
once the last line has the current total, the summary tells what it promises. -/
theorem told_of_covered {s : State} (hreach : machine.ReachableUnder Covered s) : Told s :=
  (ok_of_reachable hreach).told_all

instance (s : State) (action : Action) : Decidable (Covered s action) :=
  match action with
  | .decide _ => inferInstanceAs (Decidable (_ < _))
  | .resolve _ => .isTrue trivial
  | .driverResult status => inferInstanceAs (Decidable
      (status ≠ 0 → ∀ line ∈ s.lines.head?, line.seen.total ≠ s.counters.total))
  | .report => .isTrue trivial

/-- A decision on an image that is passed on. -/
def passedOn : Action := .decide ⟨.unchanged, none, {}, "runnable"⟩

/-- A decision, the driver's refusal, and two calls. -/
def refusedBefore : List Action := [passedOn, .driverResult 1] ++ List.replicate 12 .report

/-- A decision, two calls, the driver's refusal, and two more calls. -/
def refusedAfter : List Action :=
  [passedOn] ++ List.replicate 12 .report ++ [.driverResult 1] ++ List.replicate 12 .report

/-- A refusal counted before the line is in it. -/
theorem told_refusedBefore :
    ((machine.runUnder Covered {} refusedBefore).getD {}).lines = [⟨⟨0, 0, 0, 1⟩, 1, 0⟩] ∧
      Told ((machine.runUnder Covered {} refusedBefore).getD {}) :=
  ⟨by decide +kernel, told_of_covered
    (System.reachable_getD_runUnder (.start rfl) (by decide +kernel))⟩

/-- A refusal counted after it is in none, however often the report is called. -/
theorem refusedAfter_not_told :
    machine.Reachable ((machine.runUnder (fun _ _ => True) {} refusedAfter).getD {}) ∧
      ¬Told ((machine.runUnder (fun _ _ => True) {} refusedAfter).getD {}) := by
  refine ⟨System.reachable_getD_runUnder (.start rfl) (by decide +kernel), fun h => ?_⟩
  have hlines : ((machine.runUnder (fun _ _ => True) {} refusedAfter).getD {}).lines.head? =
      some ⟨⟨0, 0, 0, 1⟩, 0, 0⟩ := by decide +kernel
  have hrejections : ((machine.runUnder (fun _ _ => True) {} refusedAfter).getD {}).driverRejections =
      1 := by decide +kernel
  have hfinal := ((h.final (by decide +kernel)).2 _ hlines).2
  rw [hrejections] at hfinal
  exact absurd hfinal (by decide)

end OpenDlssg.KernelSummary
