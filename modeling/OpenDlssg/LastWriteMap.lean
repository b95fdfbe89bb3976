import Mathlib

/-!
# Maps built by folding writes

A map with one value a key, and what a lookup sees after a list of writes:
the last write that hits the key looked up. The rule is stated for any store
with a read and a write, so that a map of maps is one more instance of it.
-/

namespace OpenDlssg.LastWriteMap

universe u v w

/-- A finite map with one value for each key. -/
abbrev Map (K : Type u) (V : Type v) := AList fun _ : K => V

section Fold

variable {σ : Type u} {α : Type v} {V : Type w}

/-- After a list of writes a read returns the last one that hit it, and what
was there before when none did. -/
theorem foldl_last_write (put : σ → α → σ) (get : σ → Option V) (hit : α → Prop)
    [DecidablePred hit] (val : α → V)
    (hput : ∀ s x, get (put s x) = if hit x then some (val x) else get s) (l : List α) (s : σ) :
    get (l.foldl put s) = (((l.filter fun x => hit x).getLast?).map val).or (get s) := by
  induction l generalizing s with
  | nil => rfl
  | cons x l ih =>
    rw [List.foldl_cons, ih, hput, List.filter_cons]
    by_cases hx : hit x
    · rw [if_pos hx, if_pos (decide_eq_true hx), List.getLast?_cons]
      cases (l.filter fun x => hit x).getLast? with
      | none => rfl
      | some y => rfl
    · rw [if_neg hx, if_neg (by simpa using hx)]

/-- A read after a list of writes into an empty store. -/
theorem foldl_last_write_empty (put : σ → α → σ) (get : σ → Option V) (hit : α → Prop)
    [DecidablePred hit] (val : α → V)
    (hput : ∀ s x, get (put s x) = if hit x then some (val x) else get s) (l : List α) {s : σ}
    (hs : get s = none) : get (l.foldl put s) = ((l.filter fun x => hit x).getLast?).map val := by
  rw [foldl_last_write put get hit val hput, hs, Option.or_none]

/-- The last of a list, seen through a function that is constant on the list, is
the same for every order of it. -/
theorem map_getLast?_perm {α : Type u} {β : Type v} (see : α → β) {first second : List α}
    (hperm : first.Perm second)
    (hsame : ∀ x ∈ second, ∀ y ∈ second, see x = see y) :
    first.getLast?.map see = second.getLast?.map see := by
  cases hfirst : first.getLast? with
  | none =>
    have hnil := List.getLast?_eq_none_iff.mp hfirst
    rw [hnil] at hperm
    rw [hperm.nil_eq.symm]
    rfl
  | some x =>
    cases hsecond : second.getLast? with
    | none =>
      have hnil := List.getLast?_eq_none_iff.mp hsecond
      rw [hnil] at hperm
      rw [hperm.eq_nil] at hfirst
      cases hfirst
    | some y =>
      have hx : x ∈ second := hperm.mem_iff.mp (List.mem_of_getLast? hfirst)
      have hy : y ∈ second := List.mem_of_getLast? hsecond
      rw [Option.map_some, Option.map_some, hsame x hx y hy]

end Fold

section Nested

variable {K A V : Type u} [DecidableEq K] [DecidableEq A]

/-- The value under two keys of a map of maps. -/
def lookupNested (m : Map K (Map A V)) (k : K) (a : A) : Option V :=
  (m.lookup k).bind fun inner => inner.lookup a

/-- Assign the value under two keys of a map of maps, creating the inner map
when it is missing. -/
def insertNested (m : Map K (Map A V)) (k : K) (a : A) (v : V) : Map K (Map A V) :=
  m.insert k (((m.lookup k).getD ∅).insert a v)

/-- An assignment under two keys is seen under those keys only. -/
theorem lookupNested_insertNested (m : Map K (Map A V)) (k k' : K) (a a' : A) (v : V) :
    lookupNested (insertNested m k a v) k' a' =
      if k = k' ∧ a = a' then some v else lookupNested m k' a' := by
  unfold lookupNested insertNested
  by_cases hk : k = k'
  · cases hk
    rw [AList.lookup_insert, Option.bind_some]
    by_cases ha : a = a'
    · cases ha
      rw [if_pos ⟨rfl, rfl⟩, AList.lookup_insert]
    · rw [if_neg (fun h => ha h.2), AList.lookup_insert_ne (Ne.symm ha)]
      cases m.lookup k with
      | none => rfl
      | some inner => rfl
  · rw [if_neg (fun h => hk h.1), AList.lookup_insert_ne (Ne.symm hk)]

/-- No key is assigned in the empty map. -/
theorem lookupNested_empty (k : K) (a : A) : lookupNested (∅ : Map K (Map A V)) k a = none := rfl

end Nested

end OpenDlssg.LastWriteMap
