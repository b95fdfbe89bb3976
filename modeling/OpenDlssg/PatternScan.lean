import OpenDlssg.ProcessMemory

/-!
# Masked byte signatures and their scans

A signature is a list of masked bytes. The matches of a signature are all
offsets at which it matches, in order; a scanner is any search that returns
them, which is what the signature library documents of its own.
-/

namespace OpenDlssg.PatternScan

open ByteCodec ProcessMemory

/-- One byte of a signature: the bits that count and the value they must have. -/
structure SignatureByte where
  /-- Bits compared; zero matches any byte. -/
  mask : UInt8
  /-- Required value of the compared bits. -/
  value : UInt8

/-- A byte pattern, matched bit by bit under each byte's mask. -/
abbrev Signature := List SignatureByte

/-- Matches one byte exactly. -/
def exactly (b : UInt8) : SignatureByte := ⟨0xFF, b⟩

/-- Matches any byte. -/
def anyByte : SignatureByte := ⟨0, 0⟩

/-- Matches a text or a stored value byte for byte. -/
def literal (bs : Bytes) : Signature := bs.map exactly

/-- Whether a byte satisfies one byte of a signature. -/
def SignatureByte.accepts (s : SignatureByte) (b : UInt8) : Bool := b &&& s.mask == s.value

/-- Whether the signature matches at the start of the data. -/
def matchesAt : Signature → Bytes → Bool
  | [], _ => true
  | _ :: _, [] => false
  | s :: signature, b :: bs => s.accepts b && matchesAt signature bs

/-- Every offset at which the signature matches, counted from `start`, in order. -/
def matchesFrom (signature : Signature) : Bytes → ℕ → List ℕ
  | [], _ => []
  | b :: bs, start =>
    if matchesAt signature (b :: bs) then start :: matchesFrom signature bs (start + 1)
    else matchesFrom signature bs (start + 1)

/-- Every offset of the data at which the signature matches, in order. -/
def allMatches (signature : Signature) (data : Bytes) : List ℕ := matchesFrom signature data 0

/-- The matches are exactly the offsets where the signature matches. -/
theorem mem_matchesFrom {signature : Signature} {data : Bytes} {start i : ℕ} :
    i ∈ matchesFrom signature data start ↔
      start ≤ i ∧ i - start < data.length ∧ matchesAt signature (data.drop (i - start)) = true := by
  induction data generalizing start with
  | nil => simp [matchesFrom]
  | cons b bs ih =>
    have htail : i ∈ matchesFrom signature bs (start + 1) ↔ start + 1 ≤ i ∧
        i - start < (b :: bs).length ∧ matchesAt signature ((b :: bs).drop (i - start)) = true := by
      rw [ih]
      constructor
      · intro h
        have hs : i - start = (i - (start + 1)) + 1 := by omega
        rw [hs, List.length_cons, List.drop_succ_cons]
        exact ⟨h.1, by omega, h.2.2⟩
      · intro h
        have hs : i - start = (i - (start + 1)) + 1 := by omega
        rw [hs, List.length_cons, List.drop_succ_cons] at h
        exact ⟨h.1, by omega, h.2.2⟩
    rw [matchesFrom]
    by_cases hm : matchesAt signature (b :: bs) = true
    · rw [if_pos hm, List.mem_cons, htail]
      constructor
      · intro h
        rcases h with rfl | h
        · simp [hm]
        · exact ⟨by omega, h.2⟩
      · intro h
        by_cases hi : i = start
        · exact Or.inl hi
        · exact Or.inr ⟨by omega, h.2⟩
    · rw [if_neg hm, htail]
      constructor
      · intro h
        exact ⟨by omega, h.2⟩
      · intro h
        have hi : i ≠ start := by
          intro hi
          rw [hi, Nat.sub_self, List.drop_zero] at h
          exact hm h.2.2
        exact ⟨by omega, h.2⟩

/-- The matches in the data are exactly the offsets where the signature matches. -/
theorem mem_allMatches {signature : Signature} {data : Bytes} {i : ℕ} :
    i ∈ allMatches signature data ↔
      i < data.length ∧ matchesAt signature (data.drop i) = true := by
  rw [allMatches, mem_matchesFrom]
  simp

/-- A literal signature matches exactly where its bytes stand. -/
theorem matchesAt_literal {bs data : Bytes} : matchesAt (literal bs) data = true ↔ bs <+: data := by
  induction bs generalizing data with
  | nil => simp [literal, matchesAt]
  | cons b bs ih =>
    cases data with
    | nil => simp [literal, matchesAt]
    | cons d data =>
      have hfull : d &&& 0xFF = d := by
        apply UInt8.toBitVec_inj.mp
        simp only [UInt8.toBitVec_and, UInt8.toBitVec_ofNat]
        exact BitVec.and_allOnes
      have hstep : matchesAt (literal (b :: bs)) (d :: data) =
          ((exactly b).accepts d && matchesAt (literal bs) data) := rfl
      rw [hstep, Bool.and_eq_true, ih, List.cons_prefix_cons]
      simp only [SignatureByte.accepts, exactly, hfull, beq_iff_eq]
      exact and_congr_left fun _ => eq_comm

/-- A concatenated signature matches part by part. -/
theorem matchesAt_append {first second : Signature} {data : Bytes} :
    matchesAt (first ++ second) data = true ↔
      matchesAt first data = true ∧ matchesAt second (data.drop first.length) = true := by
  induction first generalizing data with
  | nil => simp [matchesAt]
  | cons s first ih =>
    cases data with
    | nil => simp [matchesAt]
    | cons d data =>
      rw [List.cons_append, matchesAt, matchesAt, Bool.and_eq_true, Bool.and_eq_true, ih,
        List.length_cons, List.drop_succ_cons, and_assoc]

/-- A signature of one byte, one masked byte and a literal rest. -/
theorem matchesAt_masked {first mask value : UInt8} {rest data : Bytes} :
    matchesAt (literal [first] ++ [⟨mask, value⟩] ++ literal rest) data = true ↔
      ∃ b, b &&& mask = value ∧ [first, b] ++ rest <+: data := by
  rw [List.append_assoc, matchesAt_append, matchesAt_literal]
  cases data with
  | nil => simp
  | cons head tail =>
    cases tail with
    | nil => simp [matchesAt, literal]
    | cons b tail =>
      have hlength : (literal [first]).length = 1 := rfl
      rw [hlength, List.drop_succ_cons, List.drop_zero, List.singleton_append, matchesAt,
        Bool.and_eq_true, matchesAt_literal]
      simp only [SignatureByte.accepts, beq_iff_eq, List.cons_append, List.nil_append,
        List.cons_prefix_cons, List.nil_prefix, and_true]
      constructor
      · rintro ⟨rfl, hmask, hrest⟩
        exact ⟨b, hmask, rfl, rfl, hrest⟩
      · rintro ⟨_, hmask, rfl, rfl, hrest⟩
        exact ⟨rfl, hmask, hrest⟩

/-- Where in a span a signature matches that accepts certain byte strings of
one length. -/
theorem mem_spanMatches (accepted : Bytes → Prop) {signature : Signature} {n : ℕ} (hn : 0 < n)
    (hlength : ∀ bs, accepted bs → bs.length = n)
    (hsignature : ∀ data, matchesAt signature data = true ↔ ∃ bs, accepted bs ∧ bs <+: data)
    {memory : Memory} {span : Span} {address : ℕ} :
    address ∈ (allMatches signature (memory.view span)).map (span.data + ·) ↔
      span.data ≤ address ∧ address + n ≤ span.data + span.size ∧
        accepted (memory.bytes address n) := by
  simp only [List.mem_map, mem_allMatches, hsignature, Memory.length_view]
  constructor
  · rintro ⟨offset, ⟨hoffset, bs, hbs, hprefix⟩, rfl⟩
    obtain ⟨hfits, hbytes⟩ := (Memory.prefix_drop_view hoffset.le).mp hprefix
    rw [hlength bs hbs] at hfits hbytes
    rw [hbytes]
    exact ⟨Nat.le_add_right _ _, by omega, hbs⟩
  · rintro ⟨hstart, hend, hbytes⟩
    have haddress : span.data + (address - span.data) = address := by omega
    have hfits : address - span.data + n ≤ span.size := by omega
    refine ⟨address - span.data, ⟨by omega, _, hbytes, ?_⟩, haddress⟩
    rw [Memory.prefix_drop_view (by omega), Memory.length_bytes, haddress]
    exact ⟨hfits, rfl⟩

/-- Where in a span a literal signature matches. -/
theorem mem_spanMatches_literal {bs : Bytes} (hbs : bs ≠ []) {memory : Memory} {span : Span}
    {address : ℕ} :
    address ∈ (allMatches (literal bs) (memory.view span)).map (span.data + ·) ↔
      span.data ≤ address ∧ address + bs.length ≤ span.data + span.size ∧
        memory.bytes address bs.length = bs := by
  apply mem_spanMatches (· = bs) (List.length_pos_iff.mpr hbs)
  · rintro _ rfl
    rfl
  · intro data
    rw [matchesAt_literal, exists_eq_left]

/-- Where in a span a signature with one masked byte matches. -/
theorem mem_spanMatches_masked {first mask value : UInt8} {rest : Bytes} {memory : Memory}
    {span : Span} {address : ℕ} :
    address ∈ (allMatches (literal [first] ++ [⟨mask, value⟩] ++ literal rest)
        (memory.view span)).map (span.data + ·) ↔
      span.data ≤ address ∧ address + (rest.length + 2) ≤ span.data + span.size ∧
        ∃ b, b &&& mask = value ∧ memory.bytes address (rest.length + 2) = [first, b] ++ rest := by
  apply mem_spanMatches (fun bs => ∃ b, b &&& mask = value ∧ bs = [first, b] ++ rest)
    (Nat.succ_pos _)
  · rintro _ ⟨b, _, rfl⟩
    rfl
  · intro data
    rw [matchesAt_masked]
    constructor
    · rintro ⟨b, hmask, hprefix⟩
      exact ⟨_, ⟨b, hmask, rfl⟩, hprefix⟩
    · rintro ⟨_, ⟨b, hmask, rfl⟩, hprefix⟩
      exact ⟨b, hmask, hprefix⟩

/-- A signature only matches where there is room for it. -/
theorem length_le_of_matchesAt {signature : Signature} {data : Bytes}
    (h : matchesAt signature data = true) : signature.length ≤ data.length := by
  induction signature generalizing data with
  | nil => exact Nat.zero_le _
  | cons s signature ih =>
    cases data with
    | nil => cases h
    | cons b data =>
      rw [matchesAt, Bool.and_eq_true] at h
      have hrest := ih h.2
      simp only [List.length_cons]
      omega

/-- What matches in a span lies in it. -/
theorem spanMatches_inside {signature : Signature} {memory : Memory} {span : Span} {address : ℕ}
    (h : address ∈ (allMatches signature (memory.view span)).map (span.data + ·)) :
    span.data ≤ address ∧ address + signature.length ≤ span.data + span.size := by
  obtain ⟨offset, hoffset, rfl⟩ := List.mem_map.mp h
  obtain ⟨hlt, hmatch⟩ := mem_allMatches.mp hoffset
  have hroom := length_le_of_matchesAt hmatch
  rw [List.length_drop, Memory.length_view] at hroom
  rw [Memory.length_view] at hlt
  omega

/-- A signature matches where each of its bytes accepts what stands there. -/
theorem matchesAt_iff_accepts {signature : Signature} {data : Bytes} :
    matchesAt signature data = true ↔ ∃ hlength : signature.length ≤ data.length,
      ∀ i (hi : i < signature.length), signature[i].accepts (data[i]) = true := by
  induction signature generalizing data with
  | nil => simp [matchesAt]
  | cons s signature ih =>
    cases data with
    | nil => simp [matchesAt]
    | cons b data =>
      rw [matchesAt, Bool.and_eq_true, ih]
      constructor
      · rintro ⟨hfirst, hlength, hrest⟩
        refine ⟨Nat.succ_le_succ hlength, fun i hi => ?_⟩
        cases i with
        | zero => exact hfirst
        | succ i => exact hrest i (Nat.lt_of_succ_lt_succ hi)
      · rintro ⟨hlength, hall⟩
        refine ⟨hall 0 (Nat.succ_pos _), Nat.le_of_succ_le_succ hlength, fun i hi => ?_⟩
        exact hall (i + 1) (Nat.succ_lt_succ hi)

/-- The matches of a signature in a span, byte by byte. -/
theorem mem_spanMatches_accepts {signature : Signature} (hne : signature ≠ []) {memory : Memory}
    {span : Span} {address : ℕ} :
    address ∈ (allMatches signature (memory.view span)).map (span.data + ·) ↔
      span.data ≤ address ∧ address + signature.length ≤ span.data + span.size ∧
        ∀ i (hi : i < signature.length),
          signature[i].accepts (memory.byte (address + i)) = true := by
  have hpositive : 0 < signature.length := List.length_pos_iff.mpr hne
  rw [List.mem_map]
  constructor
  · rintro ⟨offset, hoffset, rfl⟩
    obtain ⟨hlt, hmatch⟩ := mem_allMatches.mp hoffset
    obtain ⟨hlength, hall⟩ := matchesAt_iff_accepts.mp hmatch
    rw [List.length_drop, Memory.length_view] at hlength
    rw [Memory.length_view] at hlt
    refine ⟨Nat.le_add_right _ _, by omega, fun i hi => ?_⟩
    have haccepts := hall i hi
    rwa [List.getElem_drop, Memory.getElem_view, ← Nat.add_assoc] at haccepts
  · rintro ⟨hstart, hend, hall⟩
    refine ⟨address - span.data, mem_allMatches.mpr ⟨?_, ?_⟩, Nat.add_sub_of_le hstart⟩
    · rw [Memory.length_view]
      omega
    · refine matchesAt_iff_accepts.mpr ⟨?_, fun i hi => ?_⟩
      · rw [List.length_drop, Memory.length_view]
        omega
      · rw [List.getElem_drop, Memory.getElem_view, ← Nat.add_assoc, Nat.add_sub_of_le hstart]
        exact hall i hi

/-- A signature scanner: it reports every match, in address order. -/
structure Scanner where
  /-- All matches of a signature, the library's `find_all_pattern`. -/
  findAllPattern : Bytes → Signature → List ℕ
  /-- The first match of a signature, the library's `find_pattern`. -/
  findPattern : Bytes → Signature → Option ℕ
  findAllPattern_eq : ∀ data signature, signature ≠ [] →
    findAllPattern data signature = allMatches signature data
  findPattern_eq : ∀ data signature, signature ≠ [] →
    findPattern data signature = (allMatches signature data).head?

/-- The scanner that evaluates the definition of a match at every offset. -/
def Scanner.exhaustive : Scanner where
  findAllPattern data signature := allMatches signature data
  findPattern data signature := (allMatches signature data).head?
  findAllPattern_eq _ _ _ := rfl
  findPattern_eq _ _ _ := rfl

end OpenDlssg.PatternScan
