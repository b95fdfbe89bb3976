import Mathlib.Logic.Basic
import Mathlib.Data.List.Nodup

/-!
# Tables of keyed records

A table is a list searched for the first record of a key. Updating changes
that record in place, adding appends a record whose key is new, and removing
drops every record of a key. What a search returns after each is stated for
the key itself and for every other key.
-/

namespace OpenDlssg.RecordTable

universe u v

variable {κ : Type u} {ρ : Type v} [DecidableEq κ] (key : ρ → κ)

/-- The first record of a key. -/
def find (k : κ) (table : List ρ) : Option ρ := table.find? fun r => key r = k

/-- Change the first record of a key. -/
def update (k : κ) (change : ρ → ρ) : List ρ → List ρ
  | [] => []
  | r :: table => if key r = k then change r :: table else r :: update k change table

/-- Append a record unless its key has one. -/
def add (r : ρ) (table : List ρ) : List ρ :=
  if (find key (key r) table).isSome then table else table ++ [r]

/-- Change the first record of a record's key, or append it when there is none. -/
def put (r : ρ) (change : ρ → ρ) (table : List ρ) : List ρ :=
  if (find key (key r) table).isSome then update key (key r) change table else table ++ [r]

/-- Drop every record of a key. -/
def remove (k : κ) (table : List ρ) : List ρ := table.filter fun r => key r ≠ k

variable {key}

/-- A key has a record exactly when it is the key of one. -/
theorem isSome_find {k : κ} {table : List ρ} :
    (find key k table).isSome = true ↔ k ∈ table.map key := by
  rw [find, List.find?_isSome, List.mem_map]
  simp only [decide_eq_true_eq]

/-- A search finds a record of its key. -/
theorem key_of_find {k : κ} {table : List ρ} {r : ρ} (h : find key k table = some r) : key r = k :=
  of_decide_eq_true (List.find?_some (p := fun r' => decide (key r' = k)) h)

/-- Where keys are distinct, looking a record's key up finds that record. -/
theorem find_of_mem {table : List ρ} (hnodup : (table.map key).Nodup) {r : ρ} (hr : r ∈ table) :
    find key (key r) table = some r := by
  have hsome : (find key (key r) table).isSome = true :=
    isSome_find.mpr (List.mem_map.mpr ⟨r, hr, rfl⟩)
  obtain ⟨found, hfound⟩ := Option.isSome_iff_exists.mp hsome
  rw [hfound, List.inj_on_of_nodup_map hnodup (List.mem_of_find?_eq_some hfound) hr
    (key_of_find hfound)]

/-- An update is seen by a search for its key, and by no other. -/
theorem find_update (key : ρ → κ) (k k' : κ) (change : ρ → ρ)
    (hkey : ∀ r, key (change r) = key r) (table : List ρ) :
    find key k' (update key k change table) =
      if k' = k then (find key k' table).map change else find key k' table := by
  induction table with
  | nil => split <;> rfl
  | cons r table ih =>
    unfold find at ih ⊢
    rw [update]
    by_cases hr : key r = k
    · rw [if_pos hr, List.find?_cons, List.find?_cons, hkey, hr]
      by_cases hk : k' = k
      · simp [hk]
      · have hne : ¬k = k' := fun h => hk h.symm
        simp [hk, hne]
    · rw [if_neg hr, List.find?_cons, List.find?_cons]
      by_cases hk : key r = k'
      · have hne : ¬k' = k := fun h => hr (hk.trans h)
        simp [hk, hne]
      · simp only [hk, decide_false, ih]

/-- An added record is found unless the key had one before. -/
theorem find_add (key : ρ → κ) (k : κ) (r : ρ) (table : List ρ) :
    find key k (add key r table) =
      if k = key r then (find key k table).or (some r) else find key k table := by
  unfold add
  by_cases hk : k = key r
  · subst hk
    rw [if_pos rfl]
    cases hfind : find key (key r) table with
    | some found => simp [hfind]
    | none =>
      unfold find at hfind ⊢
      simp [hfind]
  · have hne : ¬key r = k := fun h => hk h.symm
    rw [if_neg hk]
    split
    · rfl
    · simp [find, hne]

/-- Where keys are distinct the records after an update are those of other keys
and the one that was changed. -/
theorem mem_update {k : κ} {change : ρ → ρ} {table : List ρ} (hnodup : (table.map key).Nodup)
    {r : ρ} (h : r ∈ update key k change table) :
    (r ∈ table ∧ key r ≠ k) ∨ ∃ before ∈ table, key before = k ∧ r = change before := by
  induction table with
  | nil => exact absurd h List.not_mem_nil
  | cons first table ih =>
    rw [List.map_cons, List.nodup_cons] at hnodup
    rw [update] at h
    split at h
    · rename_i hfirst
      rcases List.mem_cons.mp h with rfl | hrest
      · exact Or.inr ⟨first, List.mem_cons_self, hfirst, rfl⟩
      · refine Or.inl ⟨List.mem_cons_of_mem _ hrest, fun hr => hnodup.1 ?_⟩
        exact List.mem_map.mpr ⟨r, hrest, hr.trans hfirst.symm⟩
    · rename_i hfirst
      rcases List.mem_cons.mp h with rfl | hrest
      · exact Or.inl ⟨List.mem_cons_self, hfirst⟩
      · rcases ih hnodup.2 hrest with ⟨hmem, hne⟩ | ⟨before, hmem, hkey, hr⟩
        · exact Or.inl ⟨List.mem_cons_of_mem _ hmem, hne⟩
        · exact Or.inr ⟨before, List.mem_cons_of_mem _ hmem, hkey, hr⟩

/-- A record of a table outlasts an update, changed or not. -/
theorem mem_update_of_mem {k : κ} {change : ρ → ρ} {table : List ρ} {r : ρ} (h : r ∈ table) :
    r ∈ update key k change table ∨ change r ∈ update key k change table := by
  induction table with
  | nil => exact absurd h List.not_mem_nil
  | cons first table ih =>
    rw [update]
    rcases List.mem_cons.mp h with rfl | hrest
    · split
      · exact Or.inr List.mem_cons_self
      · exact Or.inl List.mem_cons_self
    · split
      · exact Or.inl (List.mem_cons_of_mem _ hrest)
      · exact (ih hrest).imp (List.mem_cons_of_mem _) (List.mem_cons_of_mem _)

/-- Every key keeps its record when one is added. -/
theorem find_add_of_some {k : κ} {r found : ρ} {table : List ρ}
    (h : find key k table = some found) : find key k (add key r table) = some found := by
  rw [find_add, h]
  split <;> rfl

/-- An update changes no key. -/
theorem map_update (key : ρ → κ) (k : κ) (change : ρ → ρ) (hkey : ∀ r, key (change r) = key r)
    (table : List ρ) : (update key k change table).map key = table.map key := by
  induction table with
  | nil => rfl
  | cons r table ih =>
    rw [update]
    split
    · rw [List.map_cons, List.map_cons, hkey]
    · rw [List.map_cons, List.map_cons, ih]

/-- The keys after an addition are those before and perhaps the new one. -/
theorem mem_map_add {k : κ} {r : ρ} {table : List ρ} (h : k ∈ (add key r table).map key) :
    k = key r ∨ k ∈ table.map key := by
  unfold add at h
  split at h
  · exact Or.inr h
  · rw [List.map_append, List.mem_append] at h
    exact h.symm.imp List.mem_singleton.mp id

/-- Keys that are distinct stay so. -/
theorem nodup_map_add {r : ρ} {table : List ρ} (h : (table.map key).Nodup) :
    ((add key r table).map key).Nodup := by
  unfold add
  split
  · exact h
  · rename_i hnone
    rw [isSome_find] at hnone
    rw [List.map_append, List.nodup_append]
    refine ⟨h, List.pairwise_singleton _ _, fun k hk k' hk' => ?_⟩
    rw [List.mem_singleton.mp hk']
    rintro rfl
    exact hnone hk

/-- A record that is put is found under its key, where the change makes it of the
one that was there, and every other key keeps its own. -/
theorem find_put (key : ρ → κ) (k : κ) (r : ρ) {change : ρ → ρ}
    (hkey : ∀ r', key (change r') = key r') (hchange : ∀ r', key r' = key r → change r' = r)
    (table : List ρ) :
    find key k (put key r change table) = if k = key r then some r else find key k table := by
  unfold put
  by_cases hk : k = key r
  · rw [if_pos hk, hk]
    split
    · rename_i hsome
      obtain ⟨found, hfound⟩ := Option.isSome_iff_exists.mp hsome
      have hsame : key found = key r :=
        of_decide_eq_true (List.find?_some (p := fun r' => decide (key r' = key r)) hfound)
      rw [find_update key _ _ change hkey, if_pos rfl, hfound, Option.map_some, hchange found hsame]
    · rename_i hnone
      have hfind : find key (key r) table = none := Option.not_isSome_iff_eq_none.mp hnone
      unfold find at hfind ⊢
      rw [List.find?_append, hfind]
      simp
  · have hne : ¬key r = k := fun h => hk h.symm
    rw [if_neg hk]
    split
    · rw [find_update key _ _ change hkey, if_neg hk]
    · simp [find, hne]

/-- Keys that are distinct stay so. -/
theorem nodup_map_put {r : ρ} {change : ρ → ρ} (hkey : ∀ r', key (change r') = key r')
    {table : List ρ} (h : (table.map key).Nodup) : ((put key r change table).map key).Nodup := by
  unfold put
  split
  · rw [map_update key _ _ hkey]
    exact h
  · rename_i hnone
    have hadded := nodup_map_add (r := r) h
    unfold add at hadded
    rwa [if_neg hnone] at hadded

/-- Where keys are distinct the last record of a key is the first. -/
theorem getLast?_filter (k : κ) {table : List ρ} (h : (table.map key).Nodup) :
    (table.filter fun r => key r = k).getLast? = find key k table := by
  induction table with
  | nil => rfl
  | cons r table ih =>
    rw [List.map_cons, List.nodup_cons] at h
    unfold find at ih ⊢
    rw [List.filter_cons, List.find?_cons]
    by_cases hr : key r = k
    · have hnone : table.filter (fun r => key r = k) = [] := by
        rw [List.filter_eq_nil_iff]
        intro r' hr' hk
        exact h.1 (List.mem_map.mpr ⟨r', hr', (of_decide_eq_true hk).trans hr.symm⟩)
      simp [hr, hnone]
    · simp only [hr, decide_false, Bool.false_eq_true, if_false]
      exact ih h.2

/-- A removed key has no record, and every other key keeps its own. -/
theorem find_remove (key : ρ → κ) (k k' : κ) (table : List ρ) :
    find key k' (remove key k table) = if k' = k then none else find key k' table := by
  induction table with
  | nil => split <;> rfl
  | cons r table ih =>
    unfold find remove at ih ⊢
    by_cases hr : key r = k
    · rw [List.filter_cons_of_neg (by simp [hr]), ih, List.find?_cons]
      by_cases hk : k' = k
      · rw [if_pos hk, if_pos hk]
      · have hne : ¬key r = k' := fun h => hk (h.symm.trans hr)
        simp [hk, hne]
    · rw [List.filter_cons_of_pos (by simp [hr]), List.find?_cons, List.find?_cons, ih]
      by_cases hk : k' = k
      · simp [hk, hr]
      · simp [hk]

end OpenDlssg.RecordTable
