import OpenDlssg.LastWriteMap

/-!
# Keys that answer only where one owner claims them

Claims of a key are gathered in order. The first is kept; a later one by
another owner makes the key ambiguous, and ambiguous keys are dropped at the
end. What is left under a key is the value of its claims exactly where all of
them are one owner's, in whatever order and how often they were made.
-/

namespace OpenDlssg.SoleClaims

open LastWriteMap

universe u v w

variable {K : Type u} {V : Type v} {ι : Type w} [DecidableEq K] [DecidableEq ι]

/-- The claims gathered so far. -/
structure Claims (K : Type u) (V : Type v) where
  /-- The first claim of each key. -/
  claimed : Map K V
  /-- The keys more than one owner claims. -/
  ambiguous : List K

section Gather

variable (owner : V → ι)

/-- Gather one claim. -/
def claim (claims : Claims K V) (made : K × V) : Claims K V :=
  match claims.claimed.lookup made.1 with
  | none => { claims with claimed := claims.claimed.insert made.1 made.2 }
  | some value =>
    if owner value = owner made.2 then claims
    else { claims with ambiguous := claims.ambiguous.insert made.1 }

/-- What is left once the ambiguous keys are dropped. -/
def settle (claims : Claims K V) : Map K V :=
  claims.ambiguous.foldl (fun kept key => kept.erase key) claims.claimed

/-- The claims of a list, gathered in order. -/
def gather (made : List (K × V)) : Claims K V := made.foldl (claim owner) ⟨∅, []⟩

/-- The first claim of a key. -/
def firstClaim (made : List (K × V)) (key : K) : Option V :=
  (made.find? fun other => other.1 = key).map Prod.snd

/-- Dropped keys answer nothing; the others answer as before. -/
theorem lookup_foldl_erase (keys : List K) (kept : Map K V) (key : K) :
    (keys.foldl (fun kept key => kept.erase key) kept).lookup key =
      if key ∈ keys then none else kept.lookup key := by
  induction keys generalizing kept with
  | nil => exact (if_neg List.not_mem_nil).symm
  | cons first keys ih =>
    rw [List.foldl_cons, ih]
    by_cases hkeys : key ∈ keys
    · rw [if_pos hkeys, if_pos (List.mem_cons_of_mem _ hkeys)]
    · rw [if_neg hkeys]
      by_cases hfirst : key = first
      · rw [hfirst, AList.lookup_erase, if_pos List.mem_cons_self]
      · rw [AList.lookup_erase_ne hfirst, if_neg]
        exact fun hmem => (List.mem_cons.mp hmem).elim hfirst hkeys

/-- A claim is kept where it is the first of its key. -/
theorem lookup_claim (claims : Claims K V) (made : K × V) (key : K) :
    (claim owner claims made).claimed.lookup key =
      (claims.claimed.lookup key).or (if made.1 = key then some made.2 else none) := by
  unfold claim
  cases hheld : claims.claimed.lookup made.1 with
  | none =>
    dsimp only
    by_cases hkey : made.1 = key
    · rw [← hkey, AList.lookup_insert, hheld, if_pos rfl, Option.none_or]
    · rw [AList.lookup_insert_ne (Ne.symm hkey), if_neg hkey, Option.or_none]
  | some value =>
    have hsame : (claims.claimed.lookup key).or (if made.1 = key then some made.2 else none) =
        claims.claimed.lookup key := by
      by_cases hkey : made.1 = key
      · rw [← hkey, hheld, Option.some_or]
      · rw [if_neg hkey, Option.or_none]
    dsimp only
    split
    · exact hsame.symm
    · exact hsame.symm

/-- A claim makes its key ambiguous where another owner's is kept. -/
theorem mem_ambiguous_claim (claims : Claims K V) (made : K × V) (key : K) :
    key ∈ (claim owner claims made).ambiguous ↔ key ∈ claims.ambiguous ∨
      made.1 = key ∧ ∃ value, claims.claimed.lookup key = some value ∧ owner value ≠ owner made.2 := by
  unfold claim
  cases hheld : claims.claimed.lookup made.1 with
  | none =>
    refine ⟨Or.inl, fun h => h.resolve_right ?_⟩
    rintro ⟨rfl, value, hvalue, _⟩
    rw [hheld] at hvalue
    cases hvalue
  | some value =>
    dsimp only
    split
    · rename_i hsame
      refine ⟨Or.inl, fun h => h.resolve_right ?_⟩
      rintro ⟨rfl, other, hother, hdiffer⟩
      rw [hheld] at hother
      cases hother
      exact hdiffer hsame
    · rename_i hdiffer
      rw [List.mem_insert_iff]
      constructor
      · rintro (rfl | hmem)
        · exact Or.inr ⟨rfl, value, hheld, hdiffer⟩
        · exact Or.inl hmem
      · rintro (hmem | ⟨rfl, _⟩)
        · exact Or.inr hmem
        · exact Or.inl rfl

/-- The first claim of a longer list. -/
theorem firstClaim_append (made : List (K × V)) (last : K × V) (key : K) :
    firstClaim (made ++ [last]) key =
      (firstClaim made key).or (if last.1 = key then some last.2 else none) := by
  unfold firstClaim
  rw [List.find?_append, Option.map_or, List.find?_singleton]
  by_cases hkey : last.1 = key
  · simp only [hkey, decide_true, if_true, Option.map_some]
  · simp only [hkey, decide_false, Bool.false_eq_true, if_false, Option.map_none]

/-- What is kept of a list of claims is the first of each key, and a key is
ambiguous where a later one has another owner. -/
theorem gather_spec (made : List (K × V)) (key : K) :
    (gather owner made).claimed.lookup key = firstClaim made key ∧
      (key ∈ (gather owner made).ambiguous ↔ ∃ value, firstClaim made key = some value ∧
        ∃ other ∈ made, other.1 = key ∧ owner value ≠ owner other.2) := by
  induction made using List.reverseRecOn with
  | nil =>
    refine ⟨AList.lookup_empty key, fun h => absurd h List.not_mem_nil, ?_⟩
    rintro ⟨_, _, other, hmem, _⟩
    exact absurd hmem List.not_mem_nil
  | append_singleton made last ih =>
    obtain ⟨hkept, hambiguous⟩ := ih
    have hstep : gather owner (made ++ [last]) = claim owner (gather owner made) last := by
      unfold gather
      rw [List.foldl_append, List.foldl_cons, List.foldl_nil]
    rw [hstep, lookup_claim, mem_ambiguous_claim, hkept, hambiguous, firstClaim_append]
    refine ⟨rfl, ?_⟩
    constructor
    · rintro (⟨value, hfirst, other, hmem, hkey, hdiffer⟩ | ⟨hkey, value, hfirst, hdiffer⟩)
      · exact ⟨value, by rw [hfirst, Option.some_or], other, List.mem_append_left _ hmem, hkey, hdiffer⟩
      · exact ⟨value, by rw [hfirst, Option.some_or], last, by simp, hkey, hdiffer⟩
    · rintro ⟨value, hfirst, other, hmem, hkey, hdiffer⟩
      cases hearlier : firstClaim made key with
      | some earlier =>
        rw [hearlier, Option.some_or, Option.some.injEq] at hfirst
        rw [hfirst]
        rcases List.mem_append.mp hmem with hmem | hmem
        · exact Or.inl ⟨value, rfl, other, hmem, hkey, hdiffer⟩
        · rw [List.mem_singleton.mp hmem] at hkey hdiffer
          exact Or.inr ⟨hkey, value, rfl, hdiffer⟩
      | none =>
        -- then the last claim is the only one of its key
        have hnone : ∀ earlier ∈ made, ¬earlier.1 = key := by
          intro earlier hmade hsame
          have hmissing := List.find?_eq_none.mp (Option.map_eq_none_iff.mp hearlier) earlier hmade
          exact hmissing (decide_eq_true hsame)
        rcases List.mem_append.mp hmem with hmem | hmem
        · exact absurd hkey (hnone other hmem)
        · rw [List.mem_singleton.mp hmem] at hkey hdiffer
          rw [hearlier, Option.none_or, if_pos hkey, Option.some.injEq] at hfirst
          rw [hfirst] at hdiffer
          exact absurd rfl hdiffer

/-- Where an owner claims one value alone, a key answers a value exactly where
it is claimed with that value and no other. -/
theorem lookup_settle_iff {made : List (K × V)}
    (hvalue : ∀ first ∈ made, ∀ second ∈ made, owner first.2 = owner second.2 → first.2 = second.2)
    {key : K} {value : V} :
    (settle (gather owner made)).lookup key = some value ↔
      (key, value) ∈ made ∧ ∀ other ∈ made, other.1 = key → other.2 = value := by
  obtain ⟨hkept, hambiguous⟩ := gather_spec owner made key
  have hfirst : ∀ {found : V}, firstClaim made key = some found → (key, found) ∈ made := by
    intro found hfound
    obtain ⟨claimed, hfind, rfl⟩ := Option.map_eq_some_iff.mp hfound
    have hkey : claimed.1 = key := by simpa using List.find?_some hfind
    rw [← hkey]
    exact List.mem_of_find?_eq_some hfind
  unfold settle
  rw [lookup_foldl_erase, hkept]
  by_cases hmany : key ∈ (gather owner made).ambiguous
  · rw [if_pos hmany]
    refine ⟨fun h => (by cases h), fun ⟨_, hall⟩ => ?_⟩
    obtain ⟨found, hfound, other, hmem, hkey, hdiffer⟩ := hambiguous.mp hmany
    have hkeep : found = value := hall _ (hfirst hfound) rfl
    rw [hkeep, hall other hmem hkey] at hdiffer
    exact absurd rfl hdiffer
  · rw [if_neg hmany]
    constructor
    · intro hfound
      refine ⟨hfirst hfound, fun other hmem hkey => ?_⟩
      by_contra hdiffer
      refine hmany (hambiguous.mpr ⟨value, hfound, other, hmem, hkey, fun howner => hdiffer ?_⟩)
      exact (hvalue _ (hfirst hfound) _ hmem howner).symm
    · rintro ⟨hmem, hall⟩
      cases hfound : firstClaim made key with
      | none =>
        have hmissing := List.find?_eq_none.mp (Option.map_eq_none_iff.mp hfound) _ hmem
        exact absurd (decide_eq_true rfl) hmissing
      | some found =>
        have hsame : found = value := hall _ (hfirst hfound) rfl
        rw [hsame]

end Gather

end OpenDlssg.SoleClaims
