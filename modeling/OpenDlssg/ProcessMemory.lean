import OpenDlssg.ByteCodec

/-!
# Process memory, spans and checked copies

Memory is a byte at every address together with which addresses are
committed readable. A span is a pointer and a length; viewing it gives its
bytes. Copies that would fault are refused.
-/

namespace OpenDlssg.ProcessMemory

open ByteCodec

/-- The bytes of a process and which of them can be read without faulting. -/
structure Memory where
  /-- The byte stored at an address. -/
  byte : ℕ → UInt8
  /-- Whether the address lies in committed readable memory. -/
  readable : ℕ → Bool

/-- A pointer and a length, the source's `std::span`. -/
structure Span where
  /-- Address of the first byte. -/
  data : ℕ
  /-- Number of bytes. -/
  size : ℕ
  deriving DecidableEq

/-- Whether an address lies in the span. -/
def Span.covers (span : Span) (address : ℕ) : Prop :=
  span.data ≤ address ∧ address < span.data + span.size

instance (span : Span) (address : ℕ) : Decidable (span.covers address) :=
  inferInstanceAs (Decidable (_ ∧ _))

namespace Memory

/-- The `size` bytes at an address. -/
def bytes (memory : Memory) (address size : ℕ) : Bytes :=
  (List.range size).map fun i => memory.byte (address + i)

/-- The bytes of a span. -/
def view (memory : Memory) (span : Span) : Bytes := memory.bytes span.data span.size

@[simp] theorem length_bytes (memory : Memory) (address size : ℕ) :
    (memory.bytes address size).length = size := by
  simp [bytes]

@[simp] theorem length_view (memory : Memory) (span : Span) :
    (memory.view span).length = span.size := length_bytes _ _ _

@[simp] theorem getElem_bytes (memory : Memory) (address size i : ℕ)
    (h : i < (memory.bytes address size).length) :
    (memory.bytes address size)[i] = memory.byte (address + i) := by
  simp [bytes]

@[simp] theorem getElem_view (memory : Memory) (span : Span) (i : ℕ)
    (h : i < (memory.view span).length) :
    (memory.view span)[i] = memory.byte (span.data + i) := getElem_bytes _ _ _ _ _

/-- Dropping bytes moves the pointer. -/
theorem drop_bytes (memory : Memory) (address size n : ℕ) :
    (memory.bytes address size).drop n = memory.bytes (address + n) (size - n) := by
  apply List.ext_getElem
  · simp
  · intro i h₁ h₂
    rw [List.getElem_drop, getElem_bytes, getElem_bytes, Nat.add_assoc]

/-- Taking bytes shortens the length. -/
theorem take_bytes (memory : Memory) (address size n : ℕ) :
    (memory.bytes address size).take n = memory.bytes address (min n size) := by
  apply List.ext_getElem
  · simp
  · intro i h₁ h₂
    rw [List.getElem_take, getElem_bytes, getElem_bytes]

/-- What stands at an offset of a span's view. -/
theorem prefix_drop_view {memory : Memory} {span : Span} {i : ℕ} {bs : Bytes} (hi : i ≤ span.size) :
    bs <+: (memory.view span).drop i ↔
      i + bs.length ≤ span.size ∧ memory.bytes (span.data + i) bs.length = bs := by
  rw [view, drop_bytes, List.prefix_iff_eq_take, take_bytes]
  constructor
  · intro h
    have hlength := congrArg List.length h
    rw [length_bytes] at hlength
    have hfits : bs.length ≤ span.size - i := by omega
    rw [min_eq_left hfits] at h
    exact ⟨by omega, h.symm⟩
  · rintro ⟨hfits, h⟩
    rw [min_eq_left (by omega)]
    exact h.symm

/-- The bytes of a range are those of its two parts. -/
theorem bytes_add (memory : Memory) (address m n : ℕ) :
    memory.bytes address (m + n) = memory.bytes address m ++ memory.bytes (address + m) n := by
  rw [← List.take_append_drop m (memory.bytes address (m + n)), take_bytes, drop_bytes,
    min_eq_left (Nat.le_add_right _ _), Nat.add_sub_cancel_left]

/-- A range is readable where its two parts are. -/
theorem readable_add_iff {memory : Memory} {address m n : ℕ} :
    (∀ i < m + n, memory.readable (address + i) = true) ↔
      (∀ i < m, memory.readable (address + i) = true) ∧
        ∀ i < n, memory.readable (address + m + i) = true := by
  constructor
  · intro h
    refine ⟨fun i hi => h i (by omega), fun i hi => ?_⟩
    rw [Nat.add_assoc]
    exact h (m + i) (by omega)
  · rintro ⟨hfirst, hsecond⟩ i hi
    by_cases hpart : i < m
    · exact hfirst i hpart
    · have hrest := hsecond (i - m) (by omega)
      rwa [Nat.add_assoc, Nat.add_sub_of_le (by omega)] at hrest

/-- Bytes read in two parts. -/
theorem bytes_append {memory : Memory} {address : ℕ} {xs ys : Bytes}
    (h : memory.bytes address (xs ++ ys).length = xs ++ ys) :
    memory.bytes address xs.length = xs ∧ memory.bytes (address + xs.length) ys.length = ys := by
  have htake := congrArg (List.take xs.length) h
  have hdrop := congrArg (List.drop xs.length) h
  rw [take_bytes, List.length_append, min_eq_left (Nat.le_add_right _ _),
    List.take_left] at htake
  rw [drop_bytes, List.length_append, Nat.add_sub_cancel_left, List.drop_left] at hdrop
  exact ⟨htake, hdrop⟩

/-- Two memories with the same bytes at an address. -/
theorem bytes_congr {first second : Memory} {address size : ℕ}
    (h : ∀ i < size, first.byte (address + i) = second.byte (address + i)) :
    first.bytes address size = second.bytes address size := by
  apply List.ext_getElem
  · simp
  · intro i h₁ _
    rw [getElem_bytes, getElem_bytes]
    exact h i (by simpa using h₁)

/-- The source's `SafeCopy`: the bytes at `source`, refused for a null pointer,
an empty copy, or a range that is not committed readable memory. -/
def safeCopy (memory : Memory) (source size : ℕ) : Option Bytes :=
  if source = 0 ∨ size = 0 then none
  else if (List.range size).all fun i => memory.readable (source + i) then
    some (memory.bytes source size)
  else none

/-- A copy that succeeds returns the bytes that are there, all of them readable. -/
theorem safeCopy_eq_some {memory : Memory} {source size : ℕ} {bs : Bytes} :
    memory.safeCopy source size = some bs ↔
      source ≠ 0 ∧ size ≠ 0 ∧ (∀ i < size, memory.readable (source + i) = true) ∧
        memory.bytes source size = bs := by
  unfold safeCopy
  by_cases hnull : source = 0 ∨ size = 0
  · rw [if_pos hnull]
    constructor
    · intro h
      cases h
    · intro h
      rcases hnull with hz | hz
      · exact absurd hz h.1
      · exact absurd hz h.2.1
  · rw [if_neg hnull]
    obtain ⟨hsource, hsize⟩ := not_or.mp hnull
    by_cases hall : (List.range size).all fun i => memory.readable (source + i)
    · rw [if_pos hall, Option.some.injEq]
      have hread : ∀ i < size, memory.readable (source + i) = true := fun i hi =>
        List.all_eq_true.mp hall i (List.mem_range.mpr hi)
      exact ⟨fun h => ⟨hsource, hsize, hread, h⟩, fun h => h.2.2.2⟩
    · rw [if_neg hall]
      constructor
      · intro h
        cases h
      · intro h
        refine absurd (List.all_eq_true.mpr ?_) hall
        intro i hi
        exact h.2.2.1 i (List.mem_range.mp hi)

/-- Overwrite the bytes at an address. -/
def write (memory : Memory) (address : ℕ) (bs : Bytes) : Memory :=
  { memory with
    byte := fun a =>
      if address ≤ a ∧ a < address + bs.length then bs.getD (a - address) 0 else memory.byte a }

/-- A write leaves every byte outside its range alone. -/
theorem byte_write_of_not_covered {memory : Memory} {address a : ℕ} {bs : Bytes}
    (h : a < address ∨ address + bs.length ≤ a) : (memory.write address bs).byte a = memory.byte a := by
  have hout : ¬(address ≤ a ∧ a < address + bs.length) := by omega
  simp only [write, if_neg hout]

/-- A write leaves what lies before or behind it alone. -/
theorem bytes_write_of_disjoint {memory : Memory} {address : ℕ} {bs : Bytes} {start size : ℕ}
    (h : start + size ≤ address ∨ address + bs.length ≤ start) :
    (memory.write address bs).bytes start size = memory.bytes start size := by
  apply bytes_congr
  intro i hi
  exact byte_write_of_not_covered (by omega)

/-- A write is read back whole. -/
theorem bytes_write_self (memory : Memory) (address : ℕ) (bs : Bytes) :
    (memory.write address bs).bytes address bs.length = bs := by
  apply List.ext_getElem
  · simp
  · intro i h₁ h₂
    have hin : address ≤ address + i ∧ address + i < address + bs.length := by omega
    rw [getElem_bytes]
    simp only [write, if_pos hin, Nat.add_sub_cancel_left]
    rw [List.getD_eq_getElem _ _ h₂]

end Memory

end OpenDlssg.ProcessMemory
