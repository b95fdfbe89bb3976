import Mathlib.Data.List.Basic

/-!
# Functions whose calls are written down

A function with a state of its own answers each call as that state has it.
Recorded, it also keeps its arguments and answers, in order. The common
program over such a function tries one argument and, unless the answer is
accepted or there is nothing else to try, one more.
-/

namespace OpenDlssg.RecordedCalls

variable {α β σ : Type*}

/-- A function that writes down each of its calls beside its own state. -/
def recorded (f : α → σ → β × σ) (a : α) (s : σ × List (α × β)) : β × σ × List (α × β) :=
  ((f a s.1).1, (f a s.1).2, s.2 ++ [(a, (f a s.1).1)])

/-- Try one argument and, unless its answer is accepted, another. -/
def callTwice (f : α → σ → β × σ) (accepts : β → Bool) (first : α) (second : Option α) (s : σ) :
    β × σ :=
  let answer := f first s
  if accepts answer.1 then answer
  else
    match second with
    | none => answer
    | some a => f a answer.2

/-- The calls of one try, and what they come to: the second argument is tried
exactly where there is one and the first answer is not accepted. -/
inductive Tried (accepts : β → Bool) (first : α) (second : Option α) : List (α × β) → β → Prop
  | once (answer : β) (hlast : accepts answer = true ∨ second = none) :
      Tried accepts first second [(first, answer)] answer
  | twice (refusal answer : β) (a : α) (hrefusal : accepts refusal = false)
      (hsecond : second = some a) :
      Tried accepts first second [(first, refusal), (a, answer)] answer

variable {accepts : β → Bool} {first : α} {second : Option α}

/-- What a try comes to is the answer of its last call. -/
theorem Tried.getLast {calls : List (α × β)} {answer : β} (h : Tried accepts first second calls answer) :
    calls.getLast?.map (·.2) = some answer := by
  cases h with
  | once _ _ => rfl
  | twice _ _ _ _ _ => rfl

/-- The calls a try appends to those made before. -/
theorem tried_callTwice (accepts : β → Bool) (first : α) (second : Option α) (f : α → σ → β × σ)
    (s : σ) (log : List (α × β)) :
    ∃ calls, (callTwice (recorded f) accepts first second (s, log)).2.2 = log ++ calls ∧
      Tried accepts first second calls
        (callTwice (recorded f) accepts first second (s, log)).1 := by
  unfold callTwice
  by_cases hfirst : accepts (f first s).1 = true
  · simp only [recorded, hfirst, if_true]
    exact ⟨_, rfl, Tried.once _ (Or.inl hfirst)⟩
  · have hrefusal : accepts (f first s).1 = false := Bool.not_eq_true _ ▸ hfirst
    simp only [recorded, hrefusal, Bool.false_eq_true, if_false]
    cases second with
    | none => exact ⟨_, rfl, Tried.once _ (Or.inr rfl)⟩
    | some a =>
      simp only [List.append_assoc, List.singleton_append]
      exact ⟨_, rfl, Tried.twice _ _ a hrefusal rfl⟩

/-- The first call is the first argument's, answered as the state is at the start. -/
theorem head_callTwice (f : α → σ → β × σ) (s : σ) :
    (callTwice (recorded f) accepts first second (s, [])).2.2.head? =
      some (first, (f first s).1) := by
  unfold callTwice
  by_cases hfirst : accepts (f first s).1 = true
  · simp only [recorded, hfirst, if_true]
    rfl
  · simp only [recorded, hfirst]
    cases second with
    | none => rfl
    | some a => rfl

/-- Recording does not change an answer, nor the state it leaves. -/
theorem callTwice_recorded (f : α → σ → β × σ) (s : σ) (log : List (α × β)) :
    (callTwice (recorded f) accepts first second (s, log)).1 =
        (callTwice f accepts first second s).1 ∧
      (callTwice (recorded f) accepts first second (s, log)).2.1 =
        (callTwice f accepts first second s).2 := by
  unfold callTwice
  by_cases hfirst : accepts (f first s).1 = true
  · simp only [recorded, hfirst, if_true, and_self]
  · have hrefusal : accepts (f first s).1 = false := Bool.not_eq_true _ ▸ hfirst
    simp only [recorded, hrefusal, Bool.false_eq_true, if_false]
    cases second with
    | none => exact ⟨rfl, rfl⟩
    | some a => exact ⟨rfl, rfl⟩

end OpenDlssg.RecordedCalls
