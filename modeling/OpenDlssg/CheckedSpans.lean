import OpenDlssg.ByteCodec

/-!
# Spans and sizes whose preconditions are checked

The operations a parser in C++ performs without a check, each with the
precondition it has there: a part of a span lies inside it, an optional that is
dereferenced holds a value, a size does not wrap 64 bits, a length narrowed to
`int` stays non-negative. A computation that breaks one fails with its name, so
that one that succeeds has kept them all.
-/

namespace OpenDlssg.CheckedSpans

open ByteCodec

/-- How a computation over spans fails. -/
inductive Failure where
  /-- A part of a span, a string or a vector reaches outside it. -/
  | outOfSpan
  /-- An optional without a value is dereferenced. -/
  | emptyOptional
  /-- A sum, a product or a difference of sizes wraps 64 bits. -/
  | wrapped
  /-- A length narrowed to `int` is negative. -/
  | negativeLength
  /-- A string longer than any may be, which the library itself refuses. -/
  | lengthError
  deriving DecidableEq

/-- A computation all of whose preconditions are checked. -/
abbrev Checked (α : Type) := Except Failure α

/-- The longest string there may be. -/
def kMaxStringSize : ℕ := 2 ^ 63 - 1

/-- The `size` bytes at an offset of a span. -/
def subspan (data : Bytes) (offset size : ℕ) : Checked Bytes :=
  if offset + size ≤ data.length then .ok ((data.drop offset).take size) else .error .outOfSpan

/-- The first bytes of a span. -/
def first (data : Bytes) (size : ℕ) : Checked Bytes :=
  if size ≤ data.length then .ok (data.take size) else .error .outOfSpan

/-- What follows a position of a text. -/
def suffix (text : Bytes) (position : ℕ) : Checked Bytes :=
  if position ≤ text.length then .ok (text.drop position) else .error .outOfSpan

/-- The element of a vector at an index. -/
def element {α : Type} (items : List α) (index : ℕ) : Checked α :=
  match items[index]? with
  | some item => .ok item
  | none => .error .outOfSpan

/-- The value of an optional. -/
def deref {α : Type} (value : Option α) : Checked α :=
  match value with
  | some a => .ok a
  | none => .error .emptyOptional

/-- A sum of sizes. -/
def sum (a b : ℕ) : Checked ℕ := if a + b < 2 ^ 64 then .ok (a + b) else .error .wrapped

/-- A product of sizes. -/
def product (a b : ℕ) : Checked ℕ := if a * b < 2 ^ 64 then .ok (a * b) else .error .wrapped

/-- A difference of sizes. -/
def difference (a b : ℕ) : Checked ℕ := if b ≤ a then .ok (a - b) else .error .wrapped

/-- A length as an `int`. -/
def toInt (n : ℕ) : Checked ℕ := if n < 2 ^ 31 then .ok n else .error .negativeLength

/-- A text with a part of it replaced. -/
def replaced (text : Bytes) (position count : ℕ) (replacement : Bytes) : Checked Bytes :=
  if position + count ≤ text.length then
    if (text.take position ++ replacement ++ text.drop (position + count)).length ≤ kMaxStringSize then
      .ok (text.take position ++ replacement ++ text.drop (position + count))
    else .error .lengthError
  else .error .outOfSpan

/-- Read a value at an offset. Absent when it does not fit inside the data. -/
def read {α : Type} (codec : Codec α) (data : Bytes) (offset : ℕ) : Checked (Option α) :=
  if offset > data.length then .ok none
  else do
    let room ← difference data.length offset
    if room < codec.size then .ok none
    else do
      let stored ← subspan data offset codec.size
      .ok (some (codec.decode stored))

/-- The `size` bytes at an offset. Absent when they do not fit inside the data. -/
def slice (data : Bytes) (offset size : ℕ) : Checked (Option Bytes) :=
  if offset > data.length then .ok none
  else do
    let room ← difference data.length offset
    if room < size then .ok none
    else do
      let part ← subspan data offset size
      .ok (some part)

/-- What a loop over indices collects. -/
def collected {α : Type} {β : Type} (step : α → Checked (Option β)) : List α → Checked (List β)
  | [] => .ok []
  | a :: rest => do
    let found ← step a
    let more ← collected step rest
    .ok (found.toList ++ more)

section Success

variable {α : Type} {β : Type}

/-- What follows a value goes on from it. -/
@[simp] theorem ok_bind (a : α) (next : α → Checked β) : (Except.ok a >>= next) = next a := rfl

/-- A part that lies in the bytes is that part. -/
theorem subspan_eq {data : Bytes} {offset size : ℕ} (h : offset + size ≤ data.length) :
    subspan data offset size = .ok ((data.drop offset).take size) := if_pos h

/-- So are the first of them, when there are as many. -/
theorem first_eq {data : Bytes} {size : ℕ} (h : size ≤ data.length) :
    first data size = .ok (data.take size) := if_pos h

/-- So is what follows a position. -/
theorem suffix_eq {text : Bytes} {position : ℕ} (h : position ≤ text.length) :
    suffix text position = .ok (text.drop position) := if_pos h

/-- An element there is, is that element. -/
theorem element_eq {items : List α} {index : ℕ} {item : α} (h : items[index]? = some item) :
    element items index = .ok item := by
  unfold element
  rw [h]

/-- A sum that fits is the sum. -/
theorem sum_eq {a b : ℕ} (h : a + b < 2 ^ 64) : sum a b = .ok (a + b) := if_pos h

/-- A product that fits is the product. -/
theorem product_eq {a b : ℕ} (h : a * b < 2 ^ 64) : product a b = .ok (a * b) := if_pos h

/-- A difference is one where it is not negative. -/
theorem difference_eq {a b : ℕ} (h : b ≤ a) : difference a b = .ok (a - b) := if_pos h

/-- A number narrowed to an `int` is itself where it fits. -/
theorem toInt_eq {n : ℕ} (h : n < 2 ^ 31) : toInt n = .ok n := if_pos h

example : subspan [1, 2, 3] 1 3 = .error .outOfSpan ∧ difference 8 16 = .error .wrapped := by decide

/-- An optional that holds a value gives it. -/
@[simp] theorem deref_some (a : α) : deref (some a) = .ok a := rfl

/-- A read checks all it needs, whatever the offset. -/
theorem read_eq {α : Type} (codec : Codec α) (data : Bytes) (offset : ℕ) :
    read codec data offset = .ok (ByteCodec.read codec data offset) := by
  unfold read ByteCodec.read
  by_cases hoff : offset > data.length
  · rw [if_pos hoff, if_pos (Or.inl hoff)]
  · rw [if_neg hoff, difference_eq (by omega), ok_bind]
    by_cases hroom : data.length - offset < codec.size
    · rw [if_pos hroom, if_pos (Or.inr hroom)]
    · have hvalue : codec.decode ((data.drop offset).take codec.size) =
          codec.decode (data.drop offset) :=
        codec.decode_take le_rfl (by rw [List.length_drop]; omega)
      rw [if_neg hroom, if_neg (not_or.mpr ⟨hoff, hroom⟩), subspan_eq (by omega), ok_bind, hvalue]

/-- A slice checks all it needs, whatever the offset and the size. -/
theorem slice_eq (data : Bytes) (offset size : ℕ) :
    slice data offset size = .ok (ByteCodec.slice data offset size) := by
  unfold slice ByteCodec.slice
  by_cases hoff : offset > data.length
  · rw [if_pos hoff, if_pos (Or.inl hoff)]
  · rw [if_neg hoff, difference_eq (by omega), ok_bind]
    by_cases hroom : data.length - offset < size
    · rw [if_pos hroom, if_pos (Or.inr hroom)]
    · rw [if_neg hroom, if_neg (not_or.mpr ⟨hoff, hroom⟩), subspan_eq (by omega), ok_bind]

/-- A loop whose every step succeeds collects what its steps find. -/
theorem collected_eq {step : α → Checked (Option β)} {value : α → Option β} {items : List α}
    (h : ∀ a ∈ items, step a = .ok (value a)) :
    collected step items = .ok (items.filterMap value) := by
  induction items with
  | nil => rfl
  | cons a rest ih =>
    have hrest := ih fun b hb => h b (List.mem_cons_of_mem _ hb)
    rw [collected, h a List.mem_cons_self, ok_bind, hrest, ok_bind, List.filterMap_cons]
    cases value a with
    | none => rfl
    | some b => rfl

end Success

/-! ### Computations that may ask for too long a string -/

/-- A computation that breaks no precondition: it returns the value, unless the
library refuses a string for its length. -/
def Safe {α : Type} (run : Checked α) (value : α) : Prop :=
  run = .ok value ∨ run = .error .lengthError

namespace Safe

variable {α : Type} {β : Type}

/-- A value is safe. -/
theorem ok (a : α) : Safe (.ok a) a := Or.inl rfl

/-- Two steps are safe when the first is, and the second where it is reached. -/
theorem bind {run : Checked α} {a : α} {next : α → Checked β} {b : β} (hrun : Safe run a)
    (hnext : Safe (next a) b) : Safe (run >>= next) b := by
  rcases hrun with rfl | rfl
  · exact hnext
  · exact Or.inr rfl

end Safe

end OpenDlssg.CheckedSpans
