import OpenDlssg.ChangeReports
import OpenDlssg.TransitionRuns
import Mathlib.Data.List.Nodup

/-!
# Which answers are worth a line

A game may ask on every frame, from any thread, whether a feature is supported
or loaded. A table of eight slots without a lock remembers the last answer given
for each feature: a thread looks for its feature's slot, claims the first empty
one it meets, and exchanges the answer there. However the threads interleave,
the table is a map from features to their last answers, and an answer is
reported when it differs from the one before it.
-/

namespace OpenDlssg.AnswerTable

open TransitionRuns ChangeReports

/-- The source's `kTrackedFeatures`. -/
def trackedFeatures : ℕ := 8

/-- The source's `kEmptySlot`: no feature's id reaches it. -/
def emptySlot : UInt64 := 0xFFFFFFFFFFFFFFFF

/-- What a slot holds before an answer is given. -/
def noAnswer : UInt32 := 0xFFFFFFFF

/-- Where a call of `AnswerChanged` is. -/
inductive Pc
  /-- before it loads the owner of a slot -/
  | load (slot : ℕ)
  /-- found the slot empty, and tries to claim it -/
  | claim (slot : ℕ)
  /-- found its feature's slot -/
  | exchange (slot : ℕ)
  | returned (changed : Bool)
  /-- passed every slot; the answer is not reported -/
  | untracked
  deriving DecidableEq

/-- A call, with the feature asked about and the answer given. -/
structure Call where
  feature : UInt32
  answer : UInt32
  pc : Pc := .load 0
  deriving DecidableEq

/-- An answer exchanged into the table by a call, and whether it was found
changed. -/
structure Entry where
  call : ℕ
  feature : UInt32
  answer : UInt32
  changed : Bool
  deriving DecidableEq

/-- The table, the calls made so far, and the answers in the order in which they
were exchanged. -/
structure State where
  owner : ℕ → UInt64 := fun _ => emptySlot
  result : ℕ → UInt32 := fun _ => noAnswer
  calls : ℕ → Option Call := fun _ => none
  history : List Entry := []

/-- A call is made, or takes a step. -/
inductive Action
  | make (i : ℕ) (feature answer : UInt32)
  | advance (i : ℕ)

/-- Where a call goes once it knows a slot's owner. -/
def Call.seen (call : Call) (slot : ℕ) (owner : UInt64) : Pc :=
  if owner = call.feature.toUInt64 then .exchange slot else .load (slot + 1)

/-- The next step of a call of `AnswerChanged`. -/
def callStep (s : State) (i : ℕ) (call : Call) : Option State :=
  let goes pc : State := { s with calls := Function.update s.calls i (some { call with pc := pc }) }
  match call.pc with
  | .load slot =>
    if trackedFeatures ≤ slot then some (goes .untracked)
    else if s.owner slot = emptySlot then some (goes (.claim slot))
    else some (goes (call.seen slot (s.owner slot)))
  | .claim slot =>
    if s.owner slot = emptySlot then
      some { goes (.exchange slot) with
        owner := Function.update s.owner slot call.feature.toUInt64 }
    -- another thread was first; it may have claimed the slot for the same feature
    else some (goes (call.seen slot (s.owner slot)))
  | .exchange slot =>
    let changed := decide (s.result slot ≠ call.answer)
    some { goes (.returned changed) with
      result := Function.update s.result slot call.answer
      history := s.history ++ [⟨i, call.feature, call.answer, changed⟩] }
  | .returned _ => none
  | .untracked => none

/-- The system of all calls on one table. -/
def system : System State Action where
  init s := s = {}
  step s action :=
    match action with
    | .make i feature answer =>
      if s.calls i = none then
        some { s with calls := Function.update s.calls i (some { feature, answer }) }
      else none
    | .advance i => (s.calls i).bind (callStep s i)

/-! ### What the table stands for -/

/-- The answers given for a feature. -/
def answers (history : List Entry) (feature : UInt32) : List UInt32 :=
  (history.filter fun entry => entry.feature = feature).map Entry.answer

/-- The answers for a feature that were found changed. -/
def changed (history : List Entry) (feature : UInt32) : List UInt32 :=
  answers (history.filter Entry.changed) feature

/-- The answer last given for a feature. -/
def lastAnswer (history : List Entry) (feature : UInt32) : UInt32 :=
  held noAnswer (answers history feature)

/-- Each answer is found changed when it differs from the one given before it
for its feature. -/
def Changes : List Entry → Prop :=
  Justified fun before entry => entry.changed = true ↔ lastAnswer before entry.feature ≠ entry.answer

theorem answers_concat (history : List Entry) (entry : Entry) (feature : UInt32) :
    answers (history ++ [entry]) feature =
      answers history feature ++ if entry.feature = feature then [entry.answer] else [] := by
  unfold answers
  by_cases h : entry.feature = feature
  · simp [List.filter_append, h]
  · simp [List.filter_append, h]

theorem lastAnswer_concat (history : List Entry) (entry : Entry) (feature : UInt32) :
    lastAnswer (history ++ [entry]) feature =
      if entry.feature = feature then entry.answer else lastAnswer history feature := by
  unfold lastAnswer
  rw [answers_concat]
  split
  · rw [held_concat]
  · rw [List.append_nil]

theorem lastAnswer_of_forall_ne {history : List Entry} {feature : UInt32}
    (h : ∀ entry ∈ history, entry.feature ≠ feature) : lastAnswer history feature = noAnswer := by
  have hnone : history.filter (fun entry => entry.feature = feature) = [] :=
    List.filter_eq_nil_iff.mpr fun entry hentry => by simpa using h entry hentry
  rw [lastAnswer, answers, hnone]
  rfl

/-- Judged each against the one before it, the answers found changed are what a
register reports. -/
theorem Changes.changed_eq {history : List Entry} (h : Changes history) (feature : UInt32) :
    changed history feature = reported noAnswer (answers history feature) := by
  induction history using List.reverseRecOn with
  | nil => rfl
  | append_singleton history entry ih =>
    have hbefore : Changes history := by
      intro before other after heq
      refine h before other (after ++ [entry]) ?_
      rw [heq, List.append_assoc, List.cons_append]
    have hentry : entry.changed = true ↔ lastAnswer history entry.feature ≠ entry.answer :=
      h history entry [] rfl
    rw [answers_concat]
    by_cases hfeature : entry.feature = feature
    · subst hfeature
      rw [if_pos rfl, reported_concat, ← ih hbefore]
      by_cases hchanged : entry.changed = true
      · have hne : held noAnswer (answers history entry.feature) ≠ entry.answer := hentry.mp hchanged
        rw [if_neg hne]
        simp [changed, answers, List.filter_append, hchanged]
      · have heq : held noAnswer (answers history entry.feature) = entry.answer :=
          not_not.mp (mt hentry.mpr hchanged)
        rw [if_pos heq]
        simp [changed, answers, List.filter_append, hchanged]
    · rw [if_neg hfeature, List.append_nil, ← ih hbefore]
      simp [changed, answers, List.filter_append, List.filter_cons, hfeature]

/-- A feature's id is not the empty marker. -/
theorem toUInt64_ne_emptySlot (feature : UInt32) : feature.toUInt64 ≠ emptySlot := by
  intro h
  have hnat := congrArg UInt64.toNat h
  rw [UInt32.toNat_toUInt64] at hnat
  have hlt := feature.toNat_lt
  have hempty : emptySlot.toNat = 2 ^ 64 - 1 := rfl
  omega

theorem toUInt64_inj {first second : UInt32} (h : first.toUInt64 = second.toUInt64) :
    first = second := by
  have hnat := congrArg UInt64.toNat h
  rw [UInt32.toNat_toUInt64, UInt32.toNat_toUInt64] at hnat
  exact UInt32.toNat_inj.mp hnat

/-! ### What holds throughout -/

/-- A slot another feature owns. -/
def Passed (owner : ℕ → UInt64) (feature : UInt32) (slot : ℕ) : Prop :=
  owner slot ≠ emptySlot ∧ owner slot ≠ feature.toUInt64

/-- What a call has seen of the slots. -/
def Call.Ok (owner : ℕ → UInt64) (call : Call) : Prop :=
  match call.pc with
  | .load slot => ∀ j < slot, Passed owner call.feature j
  | .claim slot => slot < trackedFeatures ∧ ∀ j < slot, Passed owner call.feature j
  | .exchange slot => owner slot = call.feature.toUInt64
  | .returned _ => True
  | .untracked => ∀ j < trackedFeatures, Passed owner call.feature j

/-- What holds in every state. -/
structure Invariant (s : State) : Prop where
  /-- the slots of the table are owned by features -/
  owned : ∀ k, s.owner k ≠ emptySlot → k < trackedFeatures ∧ ∃ feature : UInt32,
    s.owner k = feature.toUInt64
  /-- they are claimed from the front -/
  filled : ∀ j k, j ≤ k → s.owner k ≠ emptySlot → s.owner j ≠ emptySlot
  /-- a feature owns one slot -/
  sole : ∀ j k, s.owner j = s.owner k → s.owner j ≠ emptySlot → j = k
  last : ∀ k (feature : UInt32), s.owner k = feature.toUInt64 →
    s.result k = lastAnswer s.history feature
  fresh : ∀ k, s.owner k = emptySlot → s.result k = noAnswer
  asked : ∀ entry ∈ s.history, ∃ k, s.owner k = entry.feature.toUInt64
  calls : ∀ i call, s.calls i = some call → call.Ok s.owner
  /-- an answer in the history is its call's, which has returned -/
  kept : ∀ entry ∈ s.history, s.calls entry.call =
    some ⟨entry.feature, entry.answer, .returned entry.changed⟩
  /-- a call that returned an answer has exchanged it -/
  told : ∀ i feature answer changed, s.calls i = some ⟨feature, answer, .returned changed⟩ →
    ⟨i, feature, answer, changed⟩ ∈ s.history
  once : (s.history.map Entry.call).Nodup
  changes : Changes s.history

/-- Slots that are owned stay so. -/
theorem Call.Ok.mono {owner owner' : ℕ → UInt64} {call : Call} (h : call.Ok owner)
    (hkept : ∀ k, owner k ≠ emptySlot → owner' k = owner k) : call.Ok owner' := by
  have hpassed : ∀ {j}, Passed owner call.feature j → Passed owner' call.feature j := by
    intro j hj
    rw [Passed, hkept j hj.1]
    exact hj
  obtain ⟨feature, answer, pc⟩ := call
  cases pc with
  | load slot => exact fun j hj => hpassed (h j hj)
  | claim slot => exact ⟨h.1, fun j hj => hpassed (h.2 j hj)⟩
  | exchange slot =>
    have howner : owner slot = feature.toUInt64 := h
    have hsome : owner slot ≠ emptySlot := by
      rw [howner]
      exact toUInt64_ne_emptySlot feature
    exact (hkept slot hsome).trans howner
  | returned changed => trivial
  | untracked => exact fun j hj => hpassed (h j hj)

section Steps

variable {s s' : State} {i : ℕ} {call : Call} {pc : Pc}

/-- A call that has not returned. -/
def Open (s : State) (i : ℕ) : Prop :=
  ∀ feature answer changed, s.calls i ≠ some ⟨feature, answer, .returned changed⟩

/-- The history knows nothing of a call that has not returned. -/
theorem Invariant.ne_of_open (h : Invariant s) (hopen : Open s i) {entry : Entry}
    (hentry : entry ∈ s.history) : entry.call ≠ i := by
  rintro rfl
  exact hopen _ _ _ (h.kept entry hentry)

/-- The answers in the history are still those of their calls. -/
theorem Invariant.kept_update (h : Invariant s) (hopen : Open s i) (call : Call) :
    ∀ entry ∈ s.history, Function.update s.calls i (some call) entry.call =
      some ⟨entry.feature, entry.answer, .returned entry.changed⟩ := by
  intro entry hentry
  rw [Function.update_of_ne (h.ne_of_open hopen hentry)]
  exact h.kept entry hentry

/-- No other call has returned. -/
theorem Invariant.told_update (h : Invariant s) (hpc : ∀ changed, call.pc ≠ .returned changed) :
    ∀ j feature answer changed, Function.update s.calls i (some call) j =
      some ⟨feature, answer, .returned changed⟩ → ⟨j, feature, answer, changed⟩ ∈ s.history := by
  intro j feature answer changed hj
  by_cases hji : j = i
  · rw [hji, Function.update_self, Option.some.injEq] at hj
    refine absurd ?_ (hpc changed)
    rw [hj]
  · rw [Function.update_of_ne hji] at hj
    exact h.told j feature answer changed hj

/-- A call moves on over an unchanged table. -/
theorem Invariant.goes (h : Invariant s) (hopen : Open s i)
    (hpc : ∀ changed, call.pc ≠ .returned changed) (hok : call.Ok s.owner) :
    Invariant { s with calls := Function.update s.calls i (some call) } := by
  refine ⟨h.owned, h.filled, h.sole, h.last, h.fresh, h.asked, ?_, h.kept_update hopen call,
    h.told_update hpc, h.once, h.changes⟩
  intro j other hj
  dsimp only at hj
  by_cases hji : j = i
  · rw [hji, Function.update_self] at hj
    cases hj
    exact hok
  · rw [Function.update_of_ne hji] at hj
    exact h.calls j other hj

/-- To see a slot's owner is not to return. -/
theorem Call.seen_ne_returned (call : Call) (slot : ℕ) (owner : UInt64) (changed : Bool) :
    call.seen slot owner ≠ .returned changed := by
  unfold Call.seen
  split <;> nofun

/-- What a call may do about a slot that is owned. -/
theorem Call.ok_seen {owner : ℕ → UInt64} {slot : ℕ} (hsome : owner slot ≠ emptySlot)
    (hpassed : ∀ j < slot, Passed owner call.feature j) :
    Call.Ok owner { call with pc := call.seen slot (owner slot) } := by
  unfold Call.seen
  split
  · rename_i howner
    exact howner
  · rename_i hother
    intro j hj
    rcases Nat.lt_succ_iff_lt_or_eq.mp hj with hbefore | rfl
    · exact hpassed j hbefore
    · exact ⟨hsome, hother⟩

/-- The slot a call claims is the first empty one, and its feature has no
other. -/
theorem Invariant.claim (h : Invariant s) (hopen : Open s i) {slot : ℕ}
    (hpc : call.pc = .claim slot) (hok : call.Ok s.owner) (hempty : s.owner slot = emptySlot) :
    Invariant { s with
      owner := Function.update s.owner slot call.feature.toUInt64
      calls := Function.update s.calls i (some { call with pc := .exchange slot }) } := by
  rw [Call.Ok, hpc] at hok
  obtain ⟨hslot, hpassed⟩ := hok
  have hfeature := toUInt64_ne_emptySlot call.feature
  have hkept : ∀ k, s.owner k ≠ emptySlot →
      Function.update s.owner slot call.feature.toUInt64 k = s.owner k := by
    intro k hk
    refine Function.update_of_ne ?_ _ _
    rintro rfl
    exact hk hempty
  -- the slots behind an empty one are empty, so none is owned by the feature
  have hnone : ∀ k, s.owner k ≠ call.feature.toUInt64 := by
    intro k hk
    have hsome : s.owner k ≠ emptySlot := by
      rw [hk]
      exact hfeature
    rcases Nat.lt_or_ge k slot with hbefore | hafter
    · exact (hpassed k hbefore).2 hk
    · exact h.filled slot k hafter hsome hempty
  have hunasked : ∀ entry ∈ s.history, entry.feature ≠ call.feature := by
    intro entry hentry hsame
    obtain ⟨k, hk⟩ := h.asked entry hentry
    rw [hsame] at hk
    exact hnone k hk
  refine ⟨?_, ?_, ?_, ?_, ?_, ?_, ?_, h.kept_update hopen _, h.told_update (fun _ => nofun), h.once,
    h.changes⟩
  · intro k hk
    dsimp only at hk ⊢
    by_cases hks : k = slot
    · rw [hks, Function.update_self]
      exact ⟨hslot, call.feature, rfl⟩
    · rw [Function.update_of_ne hks] at hk ⊢
      exact h.owned k hk
  · intro j k hjk hk
    dsimp only at hk ⊢
    by_cases hjs : j = slot
    · rw [hjs, Function.update_self]
      exact hfeature
    · rw [Function.update_of_ne hjs]
      by_cases hks : k = slot
      · exact (hpassed j (by omega)).1
      · rw [Function.update_of_ne hks] at hk
        exact h.filled j k hjk hk
  · intro j k hjk hj
    dsimp only at hjk hj
    by_cases hjs : j = slot
    · by_cases hks : k = slot
      · exact hjs.trans hks.symm
      · rw [hjs, Function.update_self, Function.update_of_ne hks] at hjk
        exact absurd hjk.symm (hnone k)
    · rw [Function.update_of_ne hjs] at hjk hj
      by_cases hks : k = slot
      · rw [hks, Function.update_self] at hjk
        exact absurd hjk (hnone j)
      · rw [Function.update_of_ne hks] at hjk
        exact h.sole j k hjk hj
  · intro k feature hk
    dsimp only at hk ⊢
    by_cases hks : k = slot
    · rw [hks, Function.update_self] at hk
      rw [← toUInt64_inj hk, lastAnswer_of_forall_ne hunasked, hks]
      exact h.fresh slot hempty
    · rw [Function.update_of_ne hks] at hk
      exact h.last k feature hk
  · intro k hk
    dsimp only at hk ⊢
    by_cases hks : k = slot
    · rw [hks, Function.update_self] at hk
      exact absurd hk hfeature
    · rw [Function.update_of_ne hks] at hk
      exact h.fresh k hk
  · intro entry hentry
    obtain ⟨k, hk⟩ := h.asked entry hentry
    refine ⟨k, ?_⟩
    dsimp only
    rw [hkept k]
    · exact hk
    · rw [hk]
      exact toUInt64_ne_emptySlot _
  · intro j other hj
    dsimp only at hj ⊢
    by_cases hji : j = i
    · rw [hji, Function.update_self] at hj
      cases hj
      exact Function.update_self _ _ _
    · rw [Function.update_of_ne hji] at hj
      exact (h.calls j other hj).mono hkept

/-- An exchange gives the last answer back and leaves its own. -/
theorem Invariant.exchange (h : Invariant s) (hopen : Open s i) {slot : ℕ} (hpc : call.pc = .exchange slot)
    (hok : call.Ok s.owner) {changed : Bool}
    (hchanged : changed = decide (s.result slot ≠ call.answer)) :
    Invariant { s with
      result := Function.update s.result slot call.answer
      calls := Function.update s.calls i (some { call with pc := .returned changed })
      history := s.history ++ [⟨i, call.feature, call.answer, changed⟩] } := by
  rw [Call.Ok, hpc] at hok
  have howner : s.owner slot = call.feature.toUInt64 := hok
  have hlast := h.last slot call.feature howner
  refine ⟨h.owned, h.filled, h.sole, ?_, ?_, ?_, ?_, ?_, ?_, ?_, ?_⟩
  · intro k feature hk
    dsimp only at hk ⊢
    rw [lastAnswer_concat]
    dsimp only
    by_cases hks : k = slot
    · rw [hks] at hk
      rw [hks, Function.update_self, if_pos (toUInt64_inj (howner.symm.trans hk))]
    · have hfeature : call.feature ≠ feature := by
        rintro rfl
        refine hks (h.sole k slot (hk.trans howner.symm) ?_)
        rw [hk]
        exact toUInt64_ne_emptySlot _
      rw [Function.update_of_ne hks, if_neg hfeature]
      exact h.last k feature hk
  · intro k hk
    dsimp only
    rw [Function.update_of_ne]
    · exact h.fresh k hk
    · rintro rfl
      rw [howner] at hk
      exact toUInt64_ne_emptySlot _ hk
  · intro entry hentry
    rcases List.mem_append.mp hentry with hbefore | hnow
    · exact h.asked entry hbefore
    · rw [List.mem_singleton.mp hnow]
      exact ⟨slot, howner⟩
  · intro j other hj
    dsimp only at hj
    by_cases hji : j = i
    · rw [hji, Function.update_self] at hj
      cases hj
      trivial
    · rw [Function.update_of_ne hji] at hj
      exact h.calls j other hj
  · intro entry hentry
    rcases List.mem_append.mp hentry with hbefore | hnow
    · exact h.kept_update hopen _ entry hbefore
    · rw [List.mem_singleton.mp hnow]
      exact Function.update_self _ _ _
  · intro j feature answer told hj
    dsimp only at hj
    by_cases hji : j = i
    · rw [hji, Function.update_self] at hj
      cases hj
      rw [hji]
      exact List.mem_append_right _ List.mem_cons_self
    · rw [Function.update_of_ne hji] at hj
      exact List.mem_append_left _ (h.told j feature answer told hj)
  · rw [List.map_append, List.map_singleton]
    refine List.Nodup.append h.once (List.nodup_singleton i) ?_
    rw [List.disjoint_singleton]
    intro hin
    obtain ⟨entry, hentry, hsame⟩ := List.mem_map.mp hin
    exact h.ne_of_open hopen hentry hsame
  · refine Justified.concat h.changes ?_
    dsimp only
    rw [hchanged, decide_eq_true_iff, hlast]

/-- A step of a call keeps the invariant. -/
theorem Invariant.step (h : Invariant s) (hcall : s.calls i = some call)
    (hstep : callStep s i call = some s') : Invariant s' := by
  have hok := h.calls i call hcall
  have hopen : (∀ changed, call.pc ≠ .returned changed) → Open s i := by
    intro hpc feature answer changed hreturned
    rw [hcall, Option.some.injEq] at hreturned
    refine absurd ?_ (hpc changed)
    rw [hreturned]
  have hpassed : ∀ slot, call.pc = .load slot ∨ call.pc = .claim slot →
      ∀ j < slot, Passed s.owner call.feature j := by
    intro slot hpc
    rw [Call.Ok] at hok
    rcases hpc with hpc | hpc
    · rw [hpc] at hok
      exact hok
    · rw [hpc] at hok
      exact hok.2
  unfold callStep at hstep
  split at hstep
  · rename_i slot hpc
    split at hstep
    · rename_i hfull
      cases hstep
      refine h.goes (hopen fun _ => by rw [hpc]; nofun) (fun _ => nofun) ?_
      exact fun j hj => hpassed slot (.inl hpc) j (by omega)
    · rename_i hroom
      split at hstep
      · cases hstep
        exact h.goes (hopen fun _ => by rw [hpc]; nofun) (fun _ => nofun)
          ⟨Nat.lt_of_not_le hroom, hpassed slot (.inl hpc)⟩
      · rename_i hsome
        cases hstep
        exact h.goes (hopen fun _ => by rw [hpc]; nofun) (call.seen_ne_returned slot _)
          (Call.ok_seen hsome (hpassed slot (.inl hpc)))
  · rename_i slot hpc
    split at hstep
    · rename_i hempty
      cases hstep
      exact h.claim (hopen fun _ => by rw [hpc]; nofun) hpc hok hempty
    · rename_i hsome
      cases hstep
      exact h.goes (hopen fun _ => by rw [hpc]; nofun) (call.seen_ne_returned slot _)
        (Call.ok_seen hsome (hpassed slot (.inr hpc)))
  · rename_i slot hpc
    cases hstep
    exact h.exchange (hopen fun _ => by rw [hpc]; nofun) hpc hok rfl
  · cases hstep
  · cases hstep

end Steps

/-- The invariant holds in every state. -/
theorem invariant_of_reachable {s : State} (h : system.Reachable s) : Invariant s := by
  refine h.invariant Invariant ?_ ?_
  · intro s hs
    have hs : s = {} := hs
    rw [hs]
    refine ⟨fun _ hk => absurd rfl hk, fun _ _ _ hk => absurd rfl hk,
      fun _ _ _ hj => absurd rfl hj, ?_, fun _ _ => rfl, nofun, nofun, nofun, nofun,
      List.nodup_nil, Justified.nil⟩
    intro k feature hk
    exact absurd hk.symm (toUInt64_ne_emptySlot feature)
  · intro s action t hs _ ht
    cases action with
    | make i feature answer =>
      dsimp only [system] at ht
      split at ht
      · rename_i hfree
        cases ht
        refine hs.goes (fun _ _ _ hcall => ?_) (fun _ => nofun)
          fun j hj => absurd hj (Nat.not_lt_zero j)
        rw [hfree] at hcall
        cases hcall
      · cases ht
    | advance i =>
      obtain ⟨call, hcall, hstep⟩ := Option.bind_eq_some_iff.mp ht
      exact hs.step hcall hstep

/-- The features that own the slots, where none is empty. -/
def owners (s : State) : List UInt32 :=
  (List.range trackedFeatures).map fun k => (s.owner k).toUInt32

/-- In every interleaving the answers exchanged are those of the calls that
returned one, each once, and in the order of their exchanges those found changed
are, for each feature, its answers without repetitions. A call passes the whole
table only when none of the eight slots is empty and eight other features own them. -/
theorem answers_linearised {s : State} (h : system.Reachable s) :
    (∀ feature, changed s.history feature = reported noAnswer (answers s.history feature)) ∧
      (s.history.map Entry.call).Nodup ∧
      (∀ i feature answer changed, s.calls i = some ⟨feature, answer, .returned changed⟩ ↔
        ⟨i, feature, answer, changed⟩ ∈ s.history) ∧
      ∀ i feature answer, s.calls i = some ⟨feature, answer, .untracked⟩ →
        (∀ k < trackedFeatures, s.owner k ≠ emptySlot ∧ s.owner k = (s.owner k).toUInt32.toUInt64) ∧
          (owners s).Nodup ∧ (owners s).length = trackedFeatures ∧ feature ∉ owners s := by
  have hinvariant := invariant_of_reachable h
  refine ⟨hinvariant.changes.changed_eq, hinvariant.once, ?_, ?_⟩
  · intro i feature answer changed
    exact ⟨hinvariant.told i feature answer changed, fun hentry => hinvariant.kept _ hentry⟩
  · intro i feature answer hcall
    have hpassed : ∀ j < trackedFeatures, Passed s.owner feature j := hinvariant.calls i _ hcall
    have howned : ∀ j < trackedFeatures,
        s.owner j = (s.owner j).toUInt32.toUInt64 := by
      intro j hj
      obtain ⟨_, other, hother⟩ := hinvariant.owned j (hpassed j hj).1
      rw [hother, UInt32.toUInt32_toUInt64]
    refine ⟨fun k hk => ⟨(hpassed k hk).1, howned k hk⟩, List.Nodup.map_on ?_ List.nodup_range,
      by simp [owners], ?_⟩
    · intro j hj k hk hsame
      have hj := List.mem_range.mp hj
      refine hinvariant.sole j k ?_ (hpassed j hj).1
      rw [howned j hj, howned k (List.mem_range.mp hk), hsame]
    · intro hin
      obtain ⟨j, hj, hsame⟩ := List.mem_map.mp hin
      have hj := List.mem_range.mp hj
      refine (hpassed j hj).2 ?_
      rw [howned j hj, hsame]

/-- Two threads ask about feature 3 and both find the first slot empty; one
claims it and the other, refused the claim, finds it its own. A third asks
about feature 5. -/
def racingRun : List Action :=
  [.make 0 3 1, .make 1 3 1, .advance 0, .advance 1, .advance 1, .advance 0, .advance 1, .advance 0,
    .make 2 5 0, .advance 2, .advance 2, .advance 2, .advance 2]

/-- Where it ends. -/
def racingState : State := (system.runUnder (fun _ _ => True) {} racingRun).getD {}

theorem answers_linearised_racing :
    racingState.history = [⟨1, 3, 1, true⟩, ⟨0, 3, 1, false⟩, ⟨2, 5, 0, true⟩] ∧
      changed racingState.history 3 = reported noAnswer (answers racingState.history 3) :=
  ⟨by decide +kernel,
    (answers_linearised (System.reachable_getD_runUnder (.start rfl) (by decide +kernel))).1 3⟩

end OpenDlssg.AnswerTable
