import Mathlib

/-!
# Byte strings, bounds-checked reads and fixed-layout codecs

Little-endian words and the records built from them are one structure, a
codec, that carries its own round-trip laws: a record's codec is assembled
from its fields' codecs, so no record restates them. A read or a slice
outside its byte string is absent, never truncated.
-/

namespace OpenDlssg.ByteCodec

/-- A byte string: the contents of a span, a vector or a string of the source. -/
abbrev Bytes := List UInt8

/-- The bytes of a text constant; every constant modelled is ASCII. -/
def ascii (text : String) : Bytes := text.toList.map fun c => UInt8.ofNat c.toNat

/-- The `width` low bytes of a number, least significant first. -/
def leBytes : ℕ → ℕ → Bytes
  | 0, _ => []
  | width + 1, n => UInt8.ofNat (n % 256) :: leBytes width (n / 256)

/-- The number with the given little-endian bytes. -/
def leNat : Bytes → ℕ
  | [] => 0
  | b :: bs => b.toNat + 256 * leNat bs

@[simp] theorem length_leBytes (width n : ℕ) : (leBytes width n).length = width := by
  induction width generalizing n with
  | zero => rfl
  | succ width ih => simp only [leBytes, List.length_cons, ih]

/-- A little-endian number is bounded by the width of its byte string. -/
theorem leNat_lt (bs : Bytes) : leNat bs < 256 ^ bs.length := by
  induction bs with
  | nil => simp [leNat]
  | cons b bs ih =>
    have hb : b.toNat < 256 := b.toNat_lt
    rw [leNat, List.length_cons, pow_succ]
    omega

/-- Reading back the bytes of a number that fits returns the number. -/
theorem leNat_leBytes {width n : ℕ} (hn : n < 256 ^ width) : leNat (leBytes width n) = n := by
  induction width generalizing n with
  | zero =>
    rw [pow_zero] at hn
    simp only [leBytes, leNat]
    omega
  | succ width ih =>
    have hlow : (UInt8.ofNat (n % 256)).toNat = n % 256 := by
      rw [UInt8.toNat_ofNat']
      exact Nat.mod_eq_of_lt (Nat.mod_lt n (by decide))
    have hhigh : n / 256 < 256 ^ width := by
      rw [pow_succ] at hn
      omega
    rw [leBytes, leNat, hlow, ih hhigh]
    omega

/-- Writing the number read from a byte string returns the byte string. -/
theorem leBytes_leNat (bs : Bytes) : leBytes bs.length (leNat bs) = bs := by
  induction bs with
  | nil => rfl
  | cons b bs ih =>
    have hb : b.toNat < 256 := b.toNat_lt
    have hlow : (b.toNat + 256 * leNat bs) % 256 = b.toNat := by omega
    have hhigh : (b.toNat + 256 * leNat bs) / 256 = leNat bs := by omega
    rw [List.length_cons, leNat, leBytes, hlow, hhigh, ih, UInt8.ofNat_toNat]

/-- The number of two byte strings, one behind the other. -/
theorem leNat_append (low high : Bytes) :
    leNat (low ++ high) = leNat low + 256 ^ low.length * leNat high := by
  induction low with
  | nil => simp [leNat]
  | cons b low ih =>
    rw [List.cons_append, leNat, leNat, ih, List.length_cons, pow_succ]
    ring

/-- A value of fixed size in memory, copied in and out byte for byte. -/
structure Codec (α : Type) where
  /-- Size of the encoding, the source's `sizeof`. -/
  size : ℕ
  /-- The bytes of a value. -/
  encode : α → Bytes
  /-- The value at the start of a byte string, of which only `size` bytes count. -/
  decode : Bytes → α
  length_encode : ∀ a, (encode a).length = size
  decode_encode : ∀ a rest, decode (encode a ++ rest) = a
  encode_decode : ∀ bs, size ≤ bs.length → encode (decode bs) = bs.take size

namespace Codec

variable {α β : Type}

/-- Only the first `size` bytes of a byte string decide what is read from it. -/
theorem decode_take (codec : Codec α) {bs : Bytes} {n : ℕ} (hsize : codec.size ≤ n)
    (hbs : codec.size ≤ bs.length) : codec.decode (bs.take n) = codec.decode bs := by
  have hcopy : bs.take n = codec.encode (codec.decode bs) ++ (bs.take n).drop codec.size := by
    rw [codec.encode_decode bs hbs]
    have htake : bs.take codec.size = (bs.take n).take codec.size := by
      rw [List.take_take, min_eq_left hsize]
    rw [htake, List.take_append_drop]
  rw [hcopy, codec.decode_encode]

/-- A fixed-width word stored little-endian, given its bijection with the
numbers below `256 ^ width`. -/
def word (width : ℕ) (toNat : α → ℕ) (ofNat : ℕ → α) (hlt : ∀ a, toNat a < 256 ^ width)
    (hof : ∀ a, ofNat (toNat a) = a) (hto : ∀ n, n < 256 ^ width → toNat (ofNat n) = n) :
    Codec α where
  size := width
  encode a := leBytes width (toNat a)
  decode bs := ofNat (leNat (bs.take width))
  length_encode a := length_leBytes width (toNat a)
  decode_encode a rest := by
    rw [List.take_left' (length_leBytes width (toNat a)), leNat_leBytes (hlt a), hof]
  encode_decode bs hbs := by
    have hlen : (bs.take width).length = width := by rw [List.length_take, min_eq_left hbs]
    have hfit := leNat_lt (bs.take width)
    rw [hlen] at hfit
    have hcopy := leBytes_leNat (bs.take width)
    rw [hlen] at hcopy
    rw [hto _ hfit, hcopy]

/-- A word read is the number its bytes hold. -/
theorem toNat_decode_word {width : ℕ} {toNat : α → ℕ} {ofNat : ℕ → α}
    (hlt : ∀ a, toNat a < 256 ^ width) (hof : ∀ a, ofNat (toNat a) = a)
    (hto : ∀ n, n < 256 ^ width → toNat (ofNat n) = n) {bs : Bytes} (hbs : bs.length = width) :
    toNat ((word width toNat ofNat hlt hof hto).decode bs) = leNat bs := by
  have hfit := leNat_lt bs
  rw [hbs] at hfit
  have hread : (word width toNat ofNat hlt hof hto).decode bs = ofNat (leNat (bs.take width)) := rfl
  rw [hread, List.take_of_length_le hbs.le, hto _ hfit]

/-- The source's `uint16_t`. -/
def u16 : Codec UInt16 :=
  word 2 UInt16.toNat UInt16.ofNat (fun a => a.toNat_lt) (fun _ => UInt16.ofNat_toNat)
    fun n hn => by rw [UInt16.toNat_ofNat']; exact Nat.mod_eq_of_lt hn

/-- The source's `uint32_t`. -/
def u32 : Codec UInt32 :=
  word 4 UInt32.toNat UInt32.ofNat (fun a => a.toNat_lt) (fun _ => UInt32.ofNat_toNat)
    fun n hn => by rw [UInt32.toNat_ofNat']; exact Nat.mod_eq_of_lt hn

/-- The source's `uint64_t`. -/
def u64 : Codec UInt64 :=
  word 8 UInt64.toNat UInt64.ofNat (fun a => a.toNat_lt) (fun _ => UInt64.ofNat_toNat)
    fun n hn => by rw [UInt64.toNat_ofNat']; exact Nat.mod_eq_of_lt hn

/-- A field of `n` uninterpreted bytes. -/
def raw (n : ℕ) : Codec {bs : Bytes // bs.length = n} where
  size := n
  encode field := field.1
  decode bs := ⟨(bs.take n).rightpad n 0, by simp [List.rightpad]⟩
  length_encode field := field.2
  decode_encode field rest := by
    have htake : (field.1 ++ rest).take n = field.1 := List.take_left' field.2
    apply Subtype.ext
    simp only [htake, List.rightpad, field.2, Nat.sub_self, List.replicate_zero, List.append_nil]
  encode_decode bs hbs := by
    have hlen : (bs.take n).length = n := by rw [List.length_take, min_eq_left hbs]
    simp only [List.rightpad, hlen, Nat.sub_self, List.replicate_zero, List.append_nil]

/-- One field after another, with no padding between them. -/
def prod (first : Codec α) (second : Codec β) : Codec (α × β) where
  size := first.size + second.size
  encode pair := first.encode pair.1 ++ second.encode pair.2
  decode bs := (first.decode bs, second.decode (bs.drop first.size))
  length_encode pair := by
    rw [List.length_append, first.length_encode, second.length_encode]
  decode_encode pair rest := by
    have hdrop : (first.encode pair.1 ++ (second.encode pair.2 ++ rest)).drop first.size =
        second.encode pair.2 ++ rest := List.drop_left' (first.length_encode pair.1)
    rw [List.append_assoc, first.decode_encode, hdrop, second.decode_encode]
  encode_decode bs hbs := by
    have hfirst : first.size ≤ bs.length := by omega
    have hsecond : second.size ≤ (bs.drop first.size).length := by
      rw [List.length_drop]
      omega
    rw [first.encode_decode bs hfirst, second.encode_decode _ hsecond, List.take_add]

/-- A record read and written through the tuple of its fields. -/
def record (codec : Codec α) (fields : α ≃ β) : Codec β where
  size := codec.size
  encode b := codec.encode (fields.symm b)
  decode bs := fields (codec.decode bs)
  length_encode b := codec.length_encode _
  decode_encode b rest := by rw [codec.decode_encode, Equiv.apply_symm_apply]
  encode_decode bs hbs := by rw [Equiv.symm_apply_apply, codec.encode_decode bs hbs]

end Codec

/-- Read a value at an offset, which need not be aligned. Absent when it does
not fit inside the data. -/
def read {α : Type} (codec : Codec α) (data : Bytes) (offset : ℕ) : Option α :=
  if offset > data.length ∨ data.length - offset < codec.size then none
  else some (codec.decode (data.drop offset))

/-- The `size` bytes at an offset. Absent when they do not fit inside the data. -/
def slice (data : Bytes) (offset size : ℕ) : Option Bytes :=
  if offset > data.length ∨ data.length - offset < size then none
  else some ((data.drop offset).take size)

/-- A read succeeds exactly when the value lies inside the data. -/
theorem read_eq_some {α : Type} {codec : Codec α} {data : Bytes} {offset : ℕ} {a : α} :
    read codec data offset = some a ↔
      offset + codec.size ≤ data.length ∧ codec.decode (data.drop offset) = a := by
  unfold read
  by_cases h : offset > data.length ∨ data.length - offset < codec.size
  · rw [if_pos h]
    constructor
    · intro hn
      cases hn
    · rintro ⟨hfit, _⟩
      omega
  · rw [if_neg h, Option.some.injEq]
    constructor
    · intro ha
      exact ⟨by omega, ha⟩
    · exact fun ha => ha.2

/-- A slice succeeds exactly when its bytes lie inside the data. -/
theorem slice_eq_some {data : Bytes} {offset size : ℕ} {bs : Bytes} :
    slice data offset size = some bs ↔
      offset + size ≤ data.length ∧ (data.drop offset).take size = bs := by
  unfold slice
  by_cases h : offset > data.length ∨ data.length - offset < size
  · rw [if_pos h]
    constructor
    · intro hn
      cases hn
    · rintro ⟨hfit, _⟩
      omega
  · rw [if_neg h, Option.some.injEq]
    constructor
    · intro hb
      exact ⟨by omega, hb⟩
    · exact fun hb => hb.2

/-- A read that lies inside the first `n` bytes does not see what follows them. -/
theorem read_take {α : Type} {codec : Codec α} {data : Bytes} {offset n : ℕ}
    (hoff : offset + codec.size ≤ n) (hn : n ≤ data.length) :
    read codec (data.take n) offset = read codec data offset := by
  have hin : offset + codec.size ≤ (data.take n).length := by
    rw [List.length_take]
    omega
  have hlong : codec.size ≤ (data.drop offset).length := by
    rw [List.length_drop]
    omega
  have hvalue : codec.decode ((data.take n).drop offset) = codec.decode (data.drop offset) := by
    rw [List.drop_take, codec.decode_take (by omega) hlong]
  have hshort : read codec (data.take n) offset = some (codec.decode (data.drop offset)) :=
    read_eq_some.mpr ⟨hin, hvalue⟩
  have hwhole : read codec data offset = some (codec.decode (data.drop offset)) :=
    read_eq_some.mpr ⟨by omega, rfl⟩
  rw [hshort, hwhole]

end OpenDlssg.ByteCodec
