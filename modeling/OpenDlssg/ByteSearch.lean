import OpenDlssg.ByteCodec

/-!
# First occurrences and decimal runs in byte strings

The searches a C++ string offers, over lists: the first occurrence of a text
at or after a position, the run of decimal digits at a position, and the
number such a run denotes. The occurrence lemmas say what a search excludes
as well as what it finds.
-/

namespace OpenDlssg.ByteSearch

open ByteCodec

/-- Offset of the first occurrence of a text, the source's `find`. -/
def find (needle : Bytes) : Bytes → Option ℕ
  | [] => if needle.isPrefixOf [] then some 0 else none
  | b :: rest =>
    if needle.isPrefixOf (b :: rest) then some 0 else (find needle rest).map (· + 1)

/-- Offset of the first occurrence at or after a position. A position past the
end finds nothing. -/
def findFrom (needle hay : Bytes) (position : ℕ) : Option ℕ :=
  if position > hay.length then none else (find needle (hay.drop position)).map (· + position)

/-- What a successful search says: the text is there and nowhere before. -/
theorem find_eq_some {needle hay : Bytes} {i : ℕ} :
    find needle hay = some i ↔
      i ≤ hay.length ∧ needle <+: hay.drop i ∧ ∀ j < i, ¬needle <+: hay.drop j := by
  induction hay generalizing i with
  | nil =>
    by_cases h : needle.isPrefixOf []
    · rw [find, if_pos h, Option.some.injEq]
      constructor
      · rintro rfl
        exact ⟨le_rfl, List.isPrefixOf_iff_prefix.mp h, fun j hj => absurd hj (Nat.not_lt_zero j)⟩
      · rintro ⟨hi, _⟩
        simp only [List.length_nil] at hi
        omega
    · rw [find, if_neg h]
      constructor
      · intro hn
        cases hn
      · rintro ⟨_, hp, _⟩
        rw [List.drop_nil] at hp
        exact absurd (List.isPrefixOf_iff_prefix.mpr hp) h
  | cons b rest ih =>
    by_cases h : needle.isPrefixOf (b :: rest)
    · rw [find, if_pos h, Option.some.injEq]
      have hp := List.isPrefixOf_iff_prefix.mp h
      constructor
      · rintro rfl
        exact ⟨Nat.zero_le _, hp, fun j hj => absurd hj (Nat.not_lt_zero j)⟩
      · rintro ⟨_, _, hfirst⟩
        by_contra hne
        exact hfirst 0 (by omega) hp
    · have hp : ¬needle <+: b :: rest := fun hp => h (List.isPrefixOf_iff_prefix.mpr hp)
      rw [find, if_neg h, Option.map_eq_some_iff]
      constructor
      · rintro ⟨k, hk, rfl⟩
        obtain ⟨hle, hat, hfirst⟩ := ih.mp hk
        refine ⟨by simp only [List.length_cons]; omega, hat, ?_⟩
        intro j hj
        cases j with
        | zero => exact hp
        | succ j => exact hfirst j (by omega)
      · rintro ⟨hle, hat, hfirst⟩
        cases i with
        | zero => exact absurd hat hp
        | succ i =>
          refine ⟨i, ih.mpr ⟨by simp only [List.length_cons] at hle; omega, hat, ?_⟩, rfl⟩
          intro j hj
          exact hfirst (j + 1) (by omega)

/-- An occurrence leaves room for the whole text. -/
theorem find_room {needle hay : Bytes} {i : ℕ} (h : find needle hay = some i) :
    i + needle.length ≤ hay.length := by
  obtain ⟨hle, hat, _⟩ := find_eq_some.mp h
  have hlen := hat.length_le
  rw [List.length_drop] at hlen
  omega

/-- A search from a position finds nothing before it and leaves room for the text. -/
theorem findFrom_room {needle hay : Bytes} {position i : ℕ}
    (h : findFrom needle hay position = some i) :
    position ≤ i ∧ i + needle.length ≤ hay.length := by
  unfold findFrom at h
  split at h
  · cases h
  · obtain ⟨k, hk, rfl⟩ := Option.map_eq_some_iff.mp h
    have hroom := find_room hk
    rw [List.length_drop] at hroom
    omega

/-- The search from the start is the plain search. -/
theorem findFrom_zero (needle hay : Bytes) : findFrom needle hay 0 = find needle hay := by
  simp [findFrom]

/-- The first occurrence overall is found in any opening that holds it whole. -/
theorem find_take_of_find {needle hay : Bytes} {n i : ℕ} (h : find needle hay = some i)
    (hroom : i + needle.length ≤ n) : find needle (hay.take n) = some i := by
  have hfit := find_room h
  obtain ⟨_, hat, hfirst⟩ := find_eq_some.mp h
  refine find_eq_some.mpr ⟨by rw [List.length_take]; omega, ?_, ?_⟩
  · rw [List.drop_take, List.prefix_take_iff]
    exact ⟨hat, by omega⟩
  · intro j hj hp
    rw [List.drop_take, List.prefix_take_iff] at hp
    exact hfirst j hj hp.1

/-- A search passes over bytes the text does not open with. -/
theorem find_replicate_append {b c : UInt8} (hne : b ≠ c) (needle : Bytes) (n : ℕ) (hay : Bytes) :
    find (c :: needle) (List.replicate n b ++ hay) = (find (c :: needle) hay).map (· + n) := by
  induction n with
  | zero => simp
  | succ n ih =>
    have hno : ¬(c :: needle).isPrefixOf (b :: (List.replicate n b ++ hay)) = true := by
      intro h
      exact hne (List.cons_prefix_cons.mp (List.isPrefixOf_iff_prefix.mp h)).1.symm
    rw [List.replicate_succ, List.cons_append, find, if_neg hno, ih, Option.map_map]
    rfl

/-- Whether a byte is an ASCII decimal digit. -/
def isDigit (b : UInt8) : Bool := decide (48 ≤ b.toNat) && decide (b.toNat ≤ 57)

/-- The maximal run of decimal digits at a position. -/
def digitRun (text : Bytes) (position : ℕ) : Bytes := (text.drop position).takeWhile isDigit

/-- The number a run of decimal digits denotes, 0 for an empty run. -/
def decimalValue (digits : Bytes) : ℕ := digits.foldl (fun n b => 10 * n + (b.toNat - 48)) 0

/-- More digits never denote less: the fold only grows from its start. -/
theorem foldl_decimal_ge (digits : Bytes) (n : ℕ) :
    n ≤ digits.foldl (fun n b => 10 * n + (b.toNat - 48)) n := by
  induction digits generalizing n with
  | nil => exact le_rfl
  | cons b digits ih =>
    rw [List.foldl_cons]
    have hnext := ih (10 * n + (b.toNat - 48))
    omega

/-- A truncated run denotes no more than the whole run. -/
theorem decimalValue_take_le (digits : Bytes) (k : ℕ) :
    decimalValue (digits.take k) ≤ decimalValue digits := by
  have hsplit : decimalValue digits =
      (digits.drop k).foldl (fun n b => 10 * n + (b.toNat - 48)) (decimalValue (digits.take k)) := by
    unfold decimalValue
    rw [← List.foldl_append, List.take_append_drop]
  rw [hsplit]
  exact foldl_decimal_ge _ _

/-- A run read from a truncated text is the truncated run. -/
theorem takeWhile_take (p : UInt8 → Bool) (text : Bytes) (k : ℕ) :
    (text.take k).takeWhile p = (text.takeWhile p).take k := by
  induction text generalizing k with
  | nil => simp
  | cons b text ih =>
    cases k with
    | zero => simp
    | succ k =>
      rw [List.take_succ_cons, List.takeWhile_cons, List.takeWhile_cons]
      split
      · rw [List.take_succ_cons, ih]
      · simp

/-- The digits visible in a window are the run cut at the window's edge. -/
theorem digitRun_take (text : Bytes) (position window : ℕ) :
    digitRun (text.take window) position = (digitRun text position).take (window - position) := by
  unfold digitRun
  rw [List.drop_take, takeWhile_take]

/-- The decimal text of a number, the source's `std::to_string`. -/
def toDecimal (n : ℕ) : Bytes := (Nat.toDigits 10 n).map fun c => UInt8.ofNat c.toNat

/-- A 32-bit number has at most ten digits. -/
theorem length_toDecimal_le (n : UInt32) : (toDecimal n.toNat).length ≤ 10 := by
  have hlt : n.toNat < 10 ^ 10 := n.toNat_lt.trans (by norm_num)
  rw [toDecimal, List.length_map]
  exact (Nat.length_toDigits_le_iff (by norm_num) (by norm_num)).mpr hlt

/-- The decimal text of a number holds nothing but digits. -/
theorem isDigit_of_mem_toDecimal {n : ℕ} {b : UInt8} (h : b ∈ toDecimal n) : isDigit b = true := by
  obtain ⟨c, hc, rfl⟩ := List.mem_map.mp h
  have hdigit : c.isDigit = true := Nat.isDigit_of_mem_toDigits (by decide) (by decide) hc
  simp only [Char.isDigit, Bool.and_eq_true, decide_eq_true_eq, ge_iff_le, UInt32.le_iff_toNat_le] at hdigit
  have hlow : 48 ≤ c.toNat := hdigit.1
  have hhigh : c.toNat ≤ 57 := hdigit.2
  have hbyte : (UInt8.ofNat c.toNat).toNat = c.toNat := by
    rw [UInt8.toNat_ofNat']
    omega
  unfold isDigit
  rw [hbyte, decide_eq_true hlow, decide_eq_true hhigh]
  rfl

/-- The decimal text of a number below 10 is its digit. -/
theorem toDecimal_of_lt {n : ℕ} (h : n < 10) : toDecimal n = [UInt8.ofNat (48 + n)] := by
  have hdigit : ∀ d < 10, UInt8.ofNat d.digitChar.toNat = UInt8.ofNat (48 + d) := by decide
  rw [toDecimal, Nat.toDigits_of_lt_base h, List.map_cons, List.map_nil, hdigit n h]

/-- The decimal text of a larger number ends in its last digit. -/
theorem toDecimal_of_le {n : ℕ} (h : 10 ≤ n) :
    toDecimal n = toDecimal (n / 10) ++ [UInt8.ofNat (48 + n % 10)] := by
  have hlast := toDecimal_of_lt (Nat.mod_lt n (by decide : 0 < 10))
  rw [toDecimal, Nat.toDigits_of_base_le (by decide) h, List.map_append, ← hlast, toDecimal, toDecimal,
    Nat.toDigits_of_lt_base (Nat.mod_lt n (by decide))]

theorem toNat_ofNat_digit {d : ℕ} (h : d < 10) : (UInt8.ofNat (48 + d)).toNat - 48 = d := by
  rw [UInt8.toNat_ofNat_of_lt' (by simp only [UInt8.size]; omega)]
  omega

/-- The decimal text of a number denotes it. -/
theorem decimalValue_toDecimal (n : ℕ) : decimalValue (toDecimal n) = n := by
  induction n using Nat.strongRecOn with
  | ind n ih =>
    by_cases h : n < 10
    · rw [toDecimal_of_lt h, decimalValue, List.foldl_cons, List.foldl_nil, toNat_ofNat_digit h]
      omega
    · have hquotient := ih (n / 10) (by omega)
      unfold decimalValue at hquotient ⊢
      rw [toDecimal_of_le (by omega), List.foldl_append, hquotient, List.foldl_cons, List.foldl_nil,
        toNat_ofNat_digit (Nat.mod_lt n (by decide))]
      omega

theorem toDecimal_ne_nil (n : ℕ) : toDecimal n ≠ [] := by
  by_cases h : n < 10
  · rw [toDecimal_of_lt h]
    exact List.cons_ne_nil _ _
  · rw [toDecimal_of_le (by omega)]
    exact List.append_ne_nil_of_right_ne_nil _ (List.cons_ne_nil _ _)

/-- The first digit is 0 for the number 0 only. -/
theorem head?_toDecimal {n : ℕ} (h : (toDecimal n).head? = some 48) : n = 0 := by
  induction n using Nat.strongRecOn with
  | ind n ih =>
    by_cases hn : n < 10
    · have hdigit : ∀ d < 10, UInt8.ofNat (48 + d) = 48 → d = 0 := by decide
      rw [toDecimal_of_lt hn] at h
      exact hdigit n hn (Option.some.inj h)
    · rw [toDecimal_of_le (by omega), List.head?_append_of_ne_nil _ (toDecimal_ne_nil _)] at h
      have hquotient := ih (n / 10) (by omega) h
      omega

end OpenDlssg.ByteSearch
