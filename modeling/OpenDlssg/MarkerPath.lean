import OpenDlssg.PluginAnalysis

/-!
# From the marker's reference to the fallback's store

The fallback's store is searched by decoding forward from a reference to the
marker. Unlike the search behind the model-version parameter, this one does not
stop at a return or an unconditional jump. Whether it has passed one is decided
by the code behind the first reference that has a boolean store.
-/

namespace OpenDlssg.MarkerPath

open ByteCodec ProcessMemory PatternScan X86Decode PluginAnalysis

/-- Up to the first element of one kind none is of the other kind exactly when
one of the first kind comes before every one of the second. -/
theorem any_takeWhile_iff {α : Type} {p q : α → Bool} (hpq : ∀ a, p a = true → q a = false)
    {l : List α} (hl : l.any p = true) :
    (l.takeWhile fun a => !q a).any p = true ↔ ∀ a ∈ l.takeWhile fun a => !p a, q a = false := by
  induction l with
  | nil => simp at hl
  | cons a l ih =>
    cases hp : p a with
    | true =>
      have hq : q a = false := hpq a hp
      simp [hp, hq]
    | false =>
      rw [List.any_cons, hp, Bool.false_or] at hl
      cases hq : q a with
      | true => simp [hp, hq]
      | false =>
        have htail := ih hl
        simpa [hp, hq] using htail

section Search

variable (hde : Hde64) (memory : Memory)

/-- The instructions decoded one behind the other, at most `fuel` of them. -/
def sweep : ℕ → ℕ → List Instruction
  | 0, _ => []
  | fuel + 1, cursor =>
    match decode hde memory cursor with
    | none => []
    | some instruction => instruction :: sweep fuel instruction.next

/-- The instructions the search behind a reference looks at. -/
def behind (reference : ℕ) : List Instruction := sweep hde memory instructionsAfterMarker reference

/-- Whether the instruction stores a boolean past what eight bits reach. -/
def isFlagStore (instruction : Instruction) : Bool :=
  (asByteStore hde memory instruction).any fun store => store.value ≤ 1 ∧ 127 < store.displacement

/-- The analysis derives the flag from an instruction behind a reference: the
first such store behind the first reference that has one. -/
structure DerivesFlag (scanner : Scanner) (forced : Int32) (image code : Span)
    (flip : FlipMetering) (reference : ℕ) (store : Instruction) : Prop where
  analysed : analyzeFlipMetering hde scanner memory forced image code = .ok flip
  first_reference : ∃ marker,
    scanner.findPattern (memory.view image) (literal flipMeteringMarker) = some marker ∧
      (findReferences scanner memory code (image.data + marker)).find?
        (fun r => (fallbackStore hde memory r).isSome) = some reference
  first_store : (behind hde memory reference).find? (isFlagStore hde memory) = some store
  to_flag : (asByteStore hde memory store).map ByteStore.displacement = some flip.flagOffset

/-- No instruction decoded from the reference up to the store leaves the path. -/
def FlagOnSamePath (scanner : Scanner) (forced : Int32) (image code : Span) : Prop :=
  ∀ flip reference store,
    DerivesFlag hde memory scanner forced image code flip reference store →
      ∀ instruction ∈
          ((behind hde memory reference).takeWhile fun i => !isFlagStore hde memory i) ++ [store],
        isReturnOrJump hde memory instruction = false

/-- Behind the first reference to the marker that has a boolean store at all, one
stands before the first return or unconditional jump. -/
def StoreBeforeBranch (scanner : Scanner) (image code : Span) : Prop :=
  ∀ marker reference,
    scanner.findPattern (memory.view image) (literal flipMeteringMarker) = some marker →
      (findReferences scanner memory code (image.data + marker)).find?
          (fun r => (behind hde memory r).any (isFlagStore hde memory)) = some reference →
        ((behind hde memory reference).takeWhile fun i =>
          !isReturnOrJump hde memory i).any (isFlagStore hde memory) = true

end Search

section Derivation

variable {hde : Hde64} {scanner : Scanner} {memory : Memory} {forced : Int32} {image code : Span}

/-- A flag store is no return and no jump. -/
theorem not_returnOrJump_of_isFlagStore {instruction : Instruction}
    (h : isFlagStore hde memory instruction = true) :
    isReturnOrJump hde memory instruction = false := by
  obtain ⟨store, hstore, _⟩ := (Option.any_eq_true _ _).mp h
  obtain ⟨fields, hfields, hread⟩ := Option.bind_eq_some_iff.mp hstore
  unfold isReturnOrJump
  rw [hfields]
  dsimp only
  rw [isReturnOrJumpFields, (shape_of_byteStoreOf hread).1]
  rfl

/-- The search returns the first flag store among the instructions it looks at. -/
theorem fallbackStoreFrom_eq (fuel cursor : ℕ) : fallbackStoreFrom hde memory fuel cursor =
    ((sweep hde memory fuel cursor).find? (isFlagStore hde memory)).bind
      (asByteStore hde memory) := by
  induction fuel generalizing cursor with
  | zero => rfl
  | succ fuel ih =>
    rw [fallbackStoreFrom, sweep]
    cases decode hde memory cursor with
    | none => rfl
    | some instruction =>
      dsimp only
      rw [List.find?_cons]
      cases hstore : asByteStore hde memory instruction with
      | none =>
        have hnot : isFlagStore hde memory instruction = false := by
          rw [isFlagStore, hstore]
          rfl
        rw [hnot]
        exact ih _
      | some store =>
        dsimp only
        have hflag : isFlagStore hde memory instruction =
            decide (store.value ≤ 1 ∧ 127 < store.displacement) := by
          rw [isFlagStore, hstore]
          rfl
        by_cases hboolean : store.value ≤ 1 ∧ 127 < store.displacement
        · rw [if_pos hboolean, hflag, decide_eq_true hboolean]
          exact hstore.symm
        · rw [if_neg hboolean, hflag, decide_eq_false hboolean]
          exact ih _

/-- A search with a result took it from the first flag store it saw. -/
theorem fallbackStore_eq_some {reference : ℕ} {store : ByteStore} :
    fallbackStore hde memory reference = some store ↔
      ∃ instruction,
        (behind hde memory reference).find? (isFlagStore hde memory) = some instruction ∧
          asByteStore hde memory instruction = some store := by
  rw [fallbackStore, fallbackStoreFrom_eq]
  exact Option.bind_eq_some_iff

/-- A reference has a fallback's store exactly when there is one to see. -/
theorem fallbackStore_isSome (reference : ℕ) : (fallbackStore hde memory reference).isSome =
    (behind hde memory reference).any (isFlagStore hde memory) := by
  rw [Bool.eq_iff_iff, Option.isSome_iff_exists, List.any_eq_true, ← List.find?_isSome,
    Option.isSome_iff_exists]
  constructor
  · rintro ⟨store, hstore⟩
    obtain ⟨instruction, hfind, _⟩ := fallbackStore_eq_some.mp hstore
    exact ⟨instruction, hfind⟩
  · rintro ⟨instruction, hfind⟩
    have hflag : isFlagStore hde memory instruction = true := List.find?_some hfind
    obtain ⟨store, hstore, _⟩ := (Option.any_eq_true _ _).mp hflag
    exact ⟨store, fallbackStore_eq_some.mpr ⟨instruction, hfind, hstore⟩⟩

/-- The first result of a search over a list belongs to the first element that
has one. -/
theorem findSome?_eq_some_iff_find? {α β : Type} {f : α → Option β} {l : List α} {b : β} :
    l.findSome? f = some b ↔ ∃ a, (l.find? fun a => (f a).isSome) = some a ∧ f a = some b := by
  induction l with
  | nil => simp
  | cons a l ih =>
    rw [List.findSome?_cons, List.find?_cons]
    cases h : f a with
    | none => simpa [h] using ih
    | some c => simp [h]

/-- Every analysis that finds the flag derives it from a store. -/
theorem derivesFlag_of_ok {flip : FlipMetering}
    (h : analyzeFlipMetering hde scanner memory forced image code = .ok flip) :
    ∃ reference store, DerivesFlag hde memory scanner forced image code flip reference store := by
  obtain ⟨marker, fallback, hmarker, hfallback, hflag, _, _⟩ := analyzeFlipMetering_eq_ok h
  obtain ⟨reference, hfirst, hstore⟩ := findSome?_eq_some_iff_find?.mp hfallback
  obtain ⟨instruction, hfind, hread⟩ := fallbackStore_eq_some.mp hstore
  refine ⟨reference, instruction, h, ⟨marker, hmarker, hfirst⟩, hfind, ?_⟩
  rw [hread, hflag]
  rfl

/-- A reference with a flag store behind it is enough for an analysis. -/
theorem analyzeFlipMetering_isOk {marker reference : ℕ}
    (hmarker : scanner.findPattern (memory.view image) (literal flipMeteringMarker) = some marker)
    (hfirst : (findReferences scanner memory code (image.data + marker)).find?
      (fun r => (fallbackStore hde memory r).isSome) = some reference) :
    ∃ flip, analyzeFlipMetering hde scanner memory forced image code = .ok flip := by
  have hsome := List.find?_some hfirst
  obtain ⟨fallback, hfallback⟩ := Option.isSome_iff_exists.mp hsome
  have hfound := findSome?_eq_some_iff_find?.mpr ⟨reference, hfirst, hfallback⟩
  unfold analyzeFlipMetering
  rw [hmarker]
  dsimp only
  split
  · rename_i hnone
    rw [hnone] at hfirst
    cases hfirst
  · rw [hfound]
    exact ⟨_, rfl⟩

/-- The flag is taken from the marker's own path exactly when, behind the first
reference that has a boolean store, one stands before the first return or
unconditional jump. -/
theorem flagOnSamePath_iff (hde : Hde64) (memory : Memory) (scanner : Scanner) (forced : Int32)
    (image code : Span) :
    FlagOnSamePath hde memory scanner forced image code ↔
      StoreBeforeBranch hde memory scanner image code := by
  have hsome : (fun r => (fallbackStore hde memory r).isSome) =
      fun r => (behind hde memory r).any (isFlagStore hde memory) :=
    funext fallbackStore_isSome
  have hpath : ∀ reference, (behind hde memory reference).any (isFlagStore hde memory) = true →
      (((behind hde memory reference).takeWhile fun i => !isReturnOrJump hde memory i).any
          (isFlagStore hde memory) = true ↔
        ∀ i ∈ (behind hde memory reference).takeWhile fun i => !isFlagStore hde memory i,
          isReturnOrJump hde memory i = false) := fun reference hany =>
    any_takeWhile_iff (fun _ => not_returnOrJump_of_isFlagStore) hany
  constructor
  · intro hsame marker reference hmarker hfirst
    have hany := List.find?_some hfirst
    rw [← hsome] at hfirst
    obtain ⟨flip, hflip⟩ : ∃ flip, analyzeFlipMetering hde scanner memory forced image code =
      .ok flip := analyzeFlipMetering_isOk hmarker hfirst
    obtain ⟨derived, store, hderives⟩ := derivesFlag_of_ok hflip
    -- the analysis looks behind the same reference
    obtain ⟨_, hmarker', hfirst'⟩ := hderives.first_reference
    rw [hmarker] at hmarker'
    cases hmarker'
    rw [hfirst] at hfirst'
    cases hfirst'
    refine (hpath reference hany).mpr fun instruction hpassed => ?_
    exact hsame flip reference store hderives instruction (List.mem_append_left _ hpassed)
  · intro hbranch flip reference store hderives instruction hinstruction
    obtain ⟨marker, hmarker, hfirst⟩ := hderives.first_reference
    rw [hsome] at hfirst
    have hany := List.find?_some hfirst
    rcases List.mem_append.mp hinstruction with hpassed | hstore
    · exact (hpath reference hany).mp (hbranch marker reference hmarker hfirst) instruction hpassed
    · rw [List.mem_singleton.mp hstore]
      exact not_returnOrJump_of_isFlagStore (List.find?_some hderives.first_store)

/-- A plugin whose function ends behind the marker's reference; the next one
writes an unrelated byte of its own objects. -/
def twoFunctionPlugin : Memory :=
  Memory.write { byte := fun _ => 0x90, readable := fun _ => true } 0x1000
    ([0x48, 0x8D, 0x0D, 0x10, 0x00, 0x00, 0x00] ++               -- lea rcx, marker
      [0xC3] ++                                                    -- ret
      [0xC6, 0x87, 0x90, 0x01, 0x00, 0x00, 0x00] ++               -- mov byte ptr [rdi+190h], 0
      [0xC6, 0x86, 0x90, 0x01, 0x00, 0x00, 0x01] ++               -- mov byte ptr [rsi+190h], 1
      [0xC3] ++ flipMeteringMarker)

def twoFunctionImage : Span := ⟨0x1000, 48⟩

def twoFunctionCode : Span := ⟨0x1000, 23⟩

/-- What the analysis makes of that plugin. -/
def twoFunctionFlip : FlipMetering := ⟨0x190, 0, [⟨0x1015, [0]⟩], .absent⟩

/-- Its flag is derived from the other function's store, behind a return. -/
theorem flagOnSamePath_twoFunctions :
    DerivesFlag Hde64.part twoFunctionPlugin Scanner.exhaustive (-1) twoFunctionImage
        twoFunctionCode twoFunctionFlip 0x1000 ⟨0x1008, 7⟩ ∧
      ¬FlagOnSamePath Hde64.part twoFunctionPlugin Scanner.exhaustive (-1) twoFunctionImage
        twoFunctionCode := by
  have hderives : DerivesFlag Hde64.part twoFunctionPlugin Scanner.exhaustive (-1)
      twoFunctionImage twoFunctionCode twoFunctionFlip 0x1000 ⟨0x1008, 7⟩ := by
    exact ⟨by decide +kernel, ⟨23, by decide +kernel, by decide +kernel⟩, by decide +kernel,
      by decide +kernel⟩
  have hreturn : isReturnOrJump Hde64.part twoFunctionPlugin ⟨0x1007, 1⟩ = true := by
    decide +kernel
  refine ⟨hderives, fun hsame => ?_⟩
  have hpassed := hsame _ _ _ hderives ⟨0x1007, 1⟩ (by decide +kernel)
  rw [hreturn] at hpassed
  cases hpassed

end Derivation

end OpenDlssg.MarkerPath
