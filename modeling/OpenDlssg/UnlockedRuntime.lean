import OpenDlssg.MultiFrameGates
import OpenDlssg.ProviderIndex
import OpenDlssg.RunningCode

/-!
# The runtime's code once its gates are moved

Each gate that is moved has Ada's id written over Blackwell's, which changes the
low byte of one immediate. No two immediates share bytes, no byte written can
become part of another comparison, and so the comparisons against Blackwell's
id afterwards are those before less the ones moved.
-/

namespace OpenDlssg.UnlockedRuntime

open ByteCodec ProcessMemory PatternScan X86Decode MultiFrameGates ProviderIndex

/-! ### Comparisons byte by byte -/

/-- Blackwell's id stands at an address. -/
structure NamesBlackwell (memory : Memory) (immediate : ℕ) : Prop where
  low : memory.byte immediate = 0xB0
  second : memory.byte (immediate + 1) = 0x01
  third : memory.byte (immediate + 2) = 0x00
  high : memory.byte (immediate + 3) = 0x00

/-- The opcode of a comparison stands before an immediate, at an address. -/
inductive OpcodeAt (memory : Memory) (immediate address : ℕ) : Prop
  | eax (hbehind : address + 1 = immediate) (hopcode : memory.byte address = 0x3D)
  | reg (hbehind : address + 2 = immediate) (hopcode : memory.byte address = 0x81)
      (hmodrm : memory.byte (address + 1) &&& 0xF8 = 0xF8)

/-- A comparison against Blackwell's id is its opcode and the id, inside the
code. -/
theorem compares_iff {memory : Memory} {code : Span} {address next : ℕ} :
    Compares memory code address next ↔ ∃ immediate, next = immediate + 4 ∧ address ≠ 0 ∧
      code.data ≤ address ∧ immediate + 4 ≤ code.data + code.size ∧
      OpcodeAt memory immediate address ∧ NamesBlackwell memory immediate := by
  constructor
  · intro h
    cases h with
    | eax hnull hstart hend hbytes =>
      have hlist : memory.bytes address 5 =
          [memory.byte address, memory.byte (address + 1), memory.byte (address + 2),
            memory.byte (address + 3), memory.byte (address + 4)] := rfl
      have hword : Codec.u32.encode nvApiBlackwell = [0xB0, 0x01, 0x00, 0x00] := by decide
      rw [hlist, hword] at hbytes
      simp only [List.cons.injEq, and_true] at hbytes
      obtain ⟨hopcode, h₀, h₁, h₂, h₃⟩ := hbytes
      exact ⟨address + 1, rfl, hnull, hstart, hend, .eax rfl hopcode, h₀, h₁, h₂, h₃⟩
    | reg modrm hmodrm hnull hstart hend hbytes =>
      have hlist : memory.bytes address 6 =
          [memory.byte address, memory.byte (address + 1), memory.byte (address + 2),
            memory.byte (address + 3), memory.byte (address + 4), memory.byte (address + 5)] := rfl
      have hword : Codec.u32.encode nvApiBlackwell = [0xB0, 0x01, 0x00, 0x00] := by decide
      rw [hlist, hword] at hbytes
      simp only [List.cons_append, List.nil_append, List.cons.injEq, and_true] at hbytes
      obtain ⟨hopcode, hsecond, h₀, h₁, h₂, h₃⟩ := hbytes
      exact ⟨address + 2, rfl, hnull, hstart, hend,
        .reg rfl hopcode (by rw [hsecond]; exact hmodrm), h₀, h₁, h₂, h₃⟩
  · rintro ⟨immediate, rfl, hnull, hstart, hend, hopcode, h₀, h₁, h₂, h₃⟩
    have hword : Codec.u32.encode nvApiBlackwell = [0xB0, 0x01, 0x00, 0x00] := by decide
    cases hopcode with
    | eax hbehind hopcode =>
      subst hbehind
      refine .eax hnull hstart hend ?_
      have hlist : memory.bytes address 5 =
          [memory.byte address, memory.byte (address + 1), memory.byte (address + 1 + 1),
            memory.byte (address + 1 + 2), memory.byte (address + 1 + 3)] := rfl
      rw [hlist, hword, hopcode, h₀, h₁, h₂, h₃]
    | reg hbehind hopcode hmodrm =>
      subst hbehind
      refine .reg (memory.byte (address + 1)) hmodrm hnull hstart hend ?_
      have hlist : memory.bytes address 6 =
          [memory.byte address, memory.byte (address + 1), memory.byte (address + 2),
            memory.byte (address + 2 + 1), memory.byte (address + 2 + 2),
            memory.byte (address + 2 + 3)] := rfl
      rw [hlist, hword, hopcode, h₀, h₁, h₂, h₃]
      rfl

/-- Blackwell's id does not begin inside itself. -/
theorem NamesBlackwell.apart {memory : Memory} {first second : ℕ}
    (hfirst : NamesBlackwell memory first) (hsecond : NamesBlackwell memory second) :
    first + 1 ≠ second ∧ first + 2 ≠ second ∧ first + 3 ≠ second := by
  refine ⟨?_, ?_, ?_⟩
  · rintro rfl
    exact absurd (hfirst.second.symm.trans hsecond.low) (by decide)
  · rintro rfl
    exact absurd (hfirst.third.symm.trans hsecond.low) (by decide)
  · rintro rfl
    exact absurd (hfirst.high.symm.trans hsecond.low) (by decide)

/-! ### Moving gates -/

/-- Write Ada's id over the immediates. -/
def moveGates (memory : Memory) (immediates : List ℕ) : Memory :=
  immediates.foldl (fun memory immediate =>
    memory.write immediate (Codec.u32.encode nvApiAda)) memory

/-- Ada's id over Blackwell's changes the low byte. -/
theorem byte_write_ada {memory : Memory} {immediate : ℕ}
    (h₁ : memory.byte (immediate + 1) = 0x01) (h₂ : memory.byte (immediate + 2) = 0x00)
    (h₃ : memory.byte (immediate + 3) = 0x00) (a : ℕ) :
    (memory.write immediate (Codec.u32.encode nvApiAda)).byte a =
      if a = immediate then 0x90 else memory.byte a := by
  have hword : Codec.u32.encode nvApiAda = [0x90, 0x01, 0x00, 0x00] := by decide
  rw [hword]
  by_cases ha : a = immediate
  · subst ha
    simp [Memory.write]
  · rw [if_neg ha]
    by_cases ha₁ : a = immediate + 1
    · rw [ha₁, h₁]
      simp [Memory.write]
    · by_cases ha₂ : a = immediate + 2
      · rw [ha₂, h₂]
        simp [Memory.write]
      · by_cases ha₃ : a = immediate + 3
        · rw [ha₃, h₃]
          simp [Memory.write]
        · apply Memory.byte_write_of_not_covered
          have hlength : ([0x90, 0x01, 0x00, 0x00] : Bytes).length = 4 := rfl
          omega

/-- Moving gates changes the low byte of each immediate and nothing else. -/
theorem byte_moveGates {memory : Memory} {immediates : List ℕ}
    (hnames : ∀ immediate ∈ immediates, NamesBlackwell memory immediate) (a : ℕ) :
    (moveGates memory immediates).byte a = if a ∈ immediates then 0x90 else memory.byte a := by
  -- over the gates moved so far only the low bytes of immediates have changed
  have hgeneral : ∀ (rest : List ℕ) (current : Memory), (∀ immediate ∈ rest,
      current.byte (immediate + 1) = 0x01 ∧ current.byte (immediate + 2) = 0x00 ∧
        current.byte (immediate + 3) = 0x00) →
      (∀ first ∈ rest, ∀ second ∈ rest,
        first + 1 ≠ second ∧ first + 2 ≠ second ∧ first + 3 ≠ second) →
      (moveGates current rest).byte a = if a ∈ rest then 0x90 else current.byte a := by
    intro rest
    induction rest with
    | nil =>
      intro current _ _
      rfl
    | cons immediate rest ih =>
      intro current htail hapart
      obtain ⟨h₁, h₂, h₃⟩ := htail immediate List.mem_cons_self
      have hstep : moveGates current (immediate :: rest) =
          moveGates (current.write immediate (Codec.u32.encode nvApiAda)) rest := rfl
      rw [hstep, ih]
      · rw [byte_write_ada h₁ h₂ h₃]
        by_cases ha : a = immediate
        · simp [ha]
        · simp [ha]
      · intro other hother
        obtain ⟨k₁, k₂, k₃⟩ := htail other (List.mem_cons_of_mem _ hother)
        obtain ⟨n₁, n₂, n₃⟩ := hapart other (List.mem_cons_of_mem _ hother) immediate
          List.mem_cons_self
        rw [byte_write_ada h₁ h₂ h₃, byte_write_ada h₁ h₂ h₃, byte_write_ada h₁ h₂ h₃, if_neg n₁,
          if_neg n₂, if_neg n₃]
        exact ⟨k₁, k₂, k₃⟩
      · intro first hfirst second hsecond
        exact hapart first (List.mem_cons_of_mem _ hfirst) second (List.mem_cons_of_mem _ hsecond)
  refine hgeneral immediates memory ?_ ?_
  · intro immediate himmediate
    exact ⟨(hnames immediate himmediate).second, (hnames immediate himmediate).third,
      (hnames immediate himmediate).high⟩
  · intro first hfirst second hsecond
    exact (hnames first hfirst).apart (hnames second hsecond)

/-- No opcode or operand of a comparison is a byte that moving a gate writes or
overwrites. -/
theorem OpcodeAt.congr {first second : Memory} {immediate address : ℕ}
    (h : OpcodeAt first immediate address)
    (hsame : ∀ a, first.byte a ≠ 0xB0 → first.byte a ≠ 0x90 → second.byte a = first.byte a) :
    OpcodeAt second immediate address := by
  cases h with
  | eax hbehind hopcode =>
    refine .eax hbehind ((hsame address ?_ ?_).trans hopcode)
    · rw [hopcode]
      decide
    · rw [hopcode]
      decide
  | reg hbehind hopcode hmodrm =>
    have hno : ∀ b : UInt8, b &&& 0xF8 = 0xF8 → b ≠ 0xB0 ∧ b ≠ 0x90 := by decide +kernel
    obtain ⟨hnot, hnot'⟩ := hno _ hmodrm
    refine .reg hbehind ((hsame address ?_ ?_).trans hopcode) ?_
    · rw [hopcode]
      decide
    · rw [hopcode]
      decide
    · rw [hsame (address + 1) hnot hnot']
      exact hmodrm

/-- What stands before an immediate is as it was. -/
theorem opcodeAt_moveGates {memory : Memory} {immediates : List ℕ}
    (hnames : ∀ immediate ∈ immediates, NamesBlackwell memory immediate) {immediate address : ℕ} :
    OpcodeAt (moveGates memory immediates) immediate address ↔
      OpcodeAt memory immediate address := by
  constructor
  · intro h
    refine h.congr fun a _ hnot => ?_
    rw [byte_moveGates hnames] at hnot ⊢
    split at hnot
    · exact absurd rfl hnot
    · rename_i ha
      rw [if_neg ha]
  · intro h
    refine h.congr fun a hnot _ => ?_
    rw [byte_moveGates hnames]
    split
    · rename_i ha
      exact absurd (hnames a ha).low hnot
    · rfl

/-- Blackwell's id is left where no gate was moved, and nowhere else. -/
theorem namesBlackwell_moveGates {memory : Memory} {immediates : List ℕ}
    (hnames : ∀ immediate ∈ immediates, NamesBlackwell memory immediate) {immediate : ℕ} :
    NamesBlackwell (moveGates memory immediates) immediate ↔
      NamesBlackwell memory immediate ∧ immediate ∉ immediates := by
  have hbyte := byte_moveGates hnames
  have hback : ∀ (a : ℕ) (value : UInt8), value ≠ 0x90 →
      (moveGates memory immediates).byte a = value → memory.byte a = value ∧ a ∉ immediates := by
    intro a value hvalue ha
    rw [hbyte] at ha
    split at ha
    · exact absurd ha.symm hvalue
    · rename_i hout
      exact ⟨ha, hout⟩
  constructor
  · rintro ⟨h₀, h₁, h₂, h₃⟩
    obtain ⟨hlow, hout⟩ := hback _ _ (by decide) h₀
    exact ⟨⟨hlow, (hback _ _ (by decide) h₁).1, (hback _ _ (by decide) h₂).1,
      (hback _ _ (by decide) h₃).1⟩, hout⟩
  · rintro ⟨hname, hout⟩
    have hbehind : ∀ k, k = 1 ∨ k = 2 ∨ k = 3 → immediate + k ∉ immediates := by
      intro k hk hin
      obtain ⟨n₁, n₂, n₃⟩ := hname.apart (hnames _ hin)
      rcases hk with rfl | rfl | rfl
      · exact n₁ rfl
      · exact n₂ rfl
      · exact n₃ rfl
    refine ⟨?_, ?_, ?_, ?_⟩
    · rw [hbyte, if_neg hout]
      exact hname.low
    · rw [hbyte, if_neg (hbehind 1 (by simp))]
      exact hname.second
    · rw [hbyte, if_neg (hbehind 2 (by simp))]
      exact hname.third
    · rw [hbyte, if_neg (hbehind 3 (by simp))]
      exact hname.high

/-- The comparisons left are those whose immediates were not moved. -/
theorem compares_moveGates {memory : Memory} {immediates : List ℕ} {code : Span}
    (hnames : ∀ immediate ∈ immediates, NamesBlackwell memory immediate) {address next : ℕ} :
    Compares (moveGates memory immediates) code address next ↔
      Compares memory code address next ∧ ∀ immediate ∈ immediates, next ≠ immediate + 4 := by
  rw [compares_iff, compares_iff]
  constructor
  · rintro ⟨immediate, rfl, hnull, hstart, hend, hopcode, hname⟩
    obtain ⟨hbefore, hout⟩ := (namesBlackwell_moveGates hnames).mp hname
    refine ⟨⟨immediate, rfl, hnull, hstart, hend, (opcodeAt_moveGates hnames).mp hopcode,
      hbefore⟩, ?_⟩
    intro other hother hsame
    have heq : immediate = other := by omega
    exact hout (heq ▸ hother)
  · rintro ⟨⟨immediate, rfl, hnull, hstart, hend, hopcode, hname⟩, hkept⟩
    refine ⟨immediate, rfl, hnull, hstart, hend, (opcodeAt_moveGates hnames).mpr hopcode,
      (namesBlackwell_moveGates hnames).mpr ⟨hname, fun hin => hkept immediate hin rfl⟩⟩

/-! ### The whole of `UnlockMultiFrame` -/

/-- A line that moving a runtime's gates logs. -/
inductive UnlockLine
  /-- `multi_frame_gates_not_found` -/
  | gatesNotFound (found orderingGates : ℕ)
  /-- `multi_frame_gate_left` -/
  | gateLeft (publishes : Bytes) (condition : Condition)
  /-- `multi_frame_unlocked`, a warning unless every gate was patched -/
  | unlocked (warning : Bool) (gates patched : ℕ) (atLoad : Bool)
  deriving DecidableEq

/-- The gates that are rewritten, of those whose pages can be. -/
def movedGates (provider : Option HModule) (enabled : Bool) (protects : ℕ → Bool)
    (gates : List Gate) : List ℕ :=
  if provider = none ∨ enabled = false then []
  else if gates.countP (·.unlock) = 0 ∨ maxGates < gates.length then []
  else ((gates.filter (·.unlock)).map Gate.immediate).filter protects

/-- The loop over the gates: what it logs of those that are left, and how many
are patched. -/
def patchGates (protects : ℕ → Bool) (memory : Memory) :
    List Gate → List UnlockLine × ℕ × Memory
  | [] => ([], 0, memory)
  | gate :: gates =>
    if !gate.unlock then
      let rest := patchGates protects memory gates
      (.gateLeft gate.publishes gate.condition :: rest.1, rest.2)
    else
      match RunningCode.patchCode (protects gate.immediate) memory gate.immediate
          (Codec.u32.encode nvApiAda) with
      | some written =>
        let rest := patchGates protects written gates
        (rest.1, rest.2.1 + 1, rest.2.2)
      | none => patchGates protects memory gates

/-- The source's `UnlockMultiFrame` on the gates it finds, by what
`MultiFrameEnabled` says. -/
def unlockMultiFrame (provider : Option HModule) (enabled : Bool) (protects : ℕ → Bool)
    (atLoad : Bool) (gates : List Gate) (memory : Memory) : List UnlockLine × Memory :=
  if provider = none ∨ enabled = false then ([], memory)
  else
    let unlocked := gates.countP (·.unlock)
    if unlocked = 0 ∨ maxGates < gates.length then
      ([.gatesNotFound gates.length unlocked], memory)
    else
      let patched := patchGates protects memory gates
      (patched.1 ++ [.unlocked (patched.2.1 ≠ unlocked) unlocked patched.2.1 atLoad], patched.2.2)

section Unlock

variable {provider : Option HModule} {enabled : Bool} {protects : ℕ → Bool} {atLoad : Bool}
  {gates : List Gate} {memory : Memory}

/-- The loop writes the gates it moves. -/
theorem patchGates_eq (memory : Memory) :
    (patchGates protects memory gates).2 =
      ((((gates.filter (·.unlock)).map Gate.immediate).filter protects).length,
        moveGates memory (((gates.filter (·.unlock)).map Gate.immediate).filter protects)) := by
  induction gates generalizing memory with
  | nil => rfl
  | cons gate gates ih =>
    rw [patchGates]
    cases hunlock : gate.unlock with
    | false =>
      rw [List.filter_cons_of_neg (by simp [hunlock])]
      exact ih memory
    | true =>
      rw [List.filter_cons_of_pos (by simpa using hunlock), List.map_cons]
      cases hprotects : protects gate.immediate with
      | false =>
        rw [List.filter_cons_of_neg (by simp [hprotects])]
        exact ih memory
      | true =>
        rw [List.filter_cons_of_pos (by simpa using hprotects), List.length_cons]
        have hrest := ih (memory.write gate.immediate (Codec.u32.encode nvApiAda))
        simp only [RunningCode.patchCode, Bool.not_true, Bool.false_eq_true, if_false, if_true]
        rw [hrest]
        rfl

/-- What becomes of memory. -/
theorem unlockMultiFrame_memory :
    (unlockMultiFrame provider enabled protects atLoad gates memory).2 =
      moveGates memory (movedGates provider enabled protects gates) := by
  by_cases hoff : provider = none ∨ enabled = false
  · simp only [unlockMultiFrame, movedGates, if_pos hoff]
    rfl
  by_cases hunexpected : gates.countP (·.unlock) = 0 ∨ maxGates < gates.length
  · simp only [unlockMultiFrame, movedGates, if_neg hoff, if_pos hunexpected]
    rfl
  · simp only [unlockMultiFrame, movedGates, if_neg hoff, if_neg hunexpected]
    rw [patchGates_eq]

/-- The loop logs the gates that are left. -/
theorem mem_patchGates {line : UnlockLine} (h : line ∈ (patchGates protects memory gates).1) :
    ∃ publishes condition, line = .gateLeft publishes condition := by
  induction gates generalizing memory with
  | nil => cases h
  | cons gate gates ih =>
    rw [patchGates] at h
    split at h
    · rcases List.mem_cons.mp h with rfl | hrest
      · exact ⟨_, _, rfl⟩
      · exact ih hrest
    · split at h
      · exact ih h
      · exact ih h

/-- Without a warning every gate to move was moved. -/
theorem moved_of_no_warning {count patched : ℕ}
    (hline : .unlocked false count patched atLoad ∈
      (unlockMultiFrame provider enabled protects atLoad gates memory).1) {gate : Gate}
    (hgate : gate ∈ gates) (hunlock : gate.unlock = true) :
    gate.immediate ∈ movedGates provider enabled protects gates := by
  by_cases hoff : provider = none ∨ enabled = false
  · simp only [unlockMultiFrame, if_pos hoff] at hline
    cases hline
  by_cases hunexpected : gates.countP (·.unlock) = 0 ∨ maxGates < gates.length
  · simp only [unlockMultiFrame, if_neg hoff, if_pos hunexpected, List.mem_singleton] at hline
    cases hline
  · simp only [unlockMultiFrame, if_neg hoff, if_neg hunexpected, List.mem_append,
      List.mem_singleton] at hline
    rcases hline with hleft | hlast
    · obtain ⟨_, _, hleft⟩ := mem_patchGates hleft
      cases hleft
    · have hall := (UnlockLine.unlocked.inj hlast).1
      rw [patchGates_eq, eq_comm, decide_eq_false_iff_not, not_not, List.countP_eq_length_filter]
        at hall
      have hlength : (((gates.filter (·.unlock)).map Gate.immediate).filter protects).length =
          ((gates.filter (·.unlock)).map Gate.immediate).length := by
        rw [List.length_map]
        exact hall
      have hprotects := List.length_filter_eq_length_iff.mp hlength
      have hmem : gate.immediate ∈ (gates.filter (·.unlock)).map Gate.immediate :=
        List.mem_map_of_mem (List.mem_filter.mpr ⟨hgate, hunlock⟩)
      rw [movedGates, if_neg hoff, if_neg hunexpected]
      exact List.mem_filter.mpr ⟨hmem, hprotects _ hmem⟩

/-- Every gate that is found compares against Blackwell's id. -/
theorem namesBlackwell_of_gate {hde : Hde64} {scanner : Scanner} {image code : Span} {gate : Gate}
    (hgate : gate ∈ findMultiFrameGates hde scanner memory image code)
    (hunlock : gate.unlock = true) : NamesBlackwell memory gate.immediate := by
  obtain ⟨address, _, hcompare, _⟩ := (exists_unlocked_iff scanner).mp ⟨gate, hgate, hunlock, rfl⟩
  obtain ⟨immediate, hnext, _, _, _, _, hname⟩ := compares_iff.mp hcompare
  have hsame : gate.immediate = immediate := by omega
  rw [hsame]
  exact hname

/-- A gate that is moved was found. -/
theorem mem_movedGates {immediate : ℕ}
    (h : immediate ∈ movedGates provider enabled protects gates) :
    protects immediate = true ∧ ∃ gate ∈ gates, gate.unlock = true ∧ gate.immediate = immediate := by
  unfold movedGates at h
  split at h
  · cases h
  split at h
  · cases h
  · obtain ⟨hmem, hprotects⟩ := List.mem_filter.mp h
    obtain ⟨gate, hgate, rfl⟩ := List.mem_map.mp hmem
    obtain ⟨hgate, hunlock⟩ := List.mem_filter.mp hgate
    exact ⟨hprotects, gate, hgate, hunlock, rfl⟩

/-- Moving a runtime's gates changes one byte of each gate moved and no other
byte of the process. The comparisons against Blackwell's id that the code holds
afterwards are those it held before, less the ones moved. -/
theorem only_moved_gates_change {hde : Hde64} {scanner : Scanner} {image code : Span}
    (hgates : gates = findMultiFrameGates hde scanner memory image code) :
    let after := (unlockMultiFrame provider enabled protects atLoad gates memory).2
    (∀ a, after.byte a = if a ∈ movedGates provider enabled protects gates then 0x90
      else memory.byte a) ∧
      ∀ address next, Compares after code address next ↔
        Compares memory code address next ∧
          ∀ immediate ∈ movedGates provider enabled protects gates, next ≠ immediate + 4 := by
  have hnames : ∀ immediate ∈ movedGates provider enabled protects gates,
      NamesBlackwell memory immediate := by
    intro immediate himmediate
    obtain ⟨_, gate, hgate, hunlock, rfl⟩ := mem_movedGates himmediate
    rw [hgates] at hgate
    exact namesBlackwell_of_gate hgate hunlock
  dsimp only
  rw [unlockMultiFrame_memory]
  exact ⟨byte_moveGates hnames, fun address next => compares_moveGates hnames⟩

/-- Without a warning every floor has moved: where the code still compares
against Blackwell's id, that comparison was not read as one. -/
theorem no_floor_left {hde : Hde64} {scanner : Scanner} {image code : Span}
    (hgates : gates = findMultiFrameGates hde scanner memory image code) {count patched : ℕ}
    (hline : .unlocked false count patched atLoad ∈
      (unlockMultiFrame provider enabled protects atLoad gates memory).1) {address next : ℕ}
    {reader : Instruction} (hcompare : Compares
      (unlockMultiFrame provider enabled protects atLoad gates memory).2 code address next) :
    ¬ReadAsFloor hde memory image next reader := by
  intro hreader
  obtain ⟨hbefore, hkept⟩ := ((only_moved_gates_change hgates).2 address next).mp hcompare
  obtain ⟨gate, hgate, hunlock, rfl⟩ :=
    (exists_unlocked_iff scanner).mpr ⟨address, reader, hbefore, hreader⟩
  rw [← hgates] at hgate
  exact hkept gate.immediate (moved_of_no_warning hline hgate hunlock) rfl

/-- A runtime with two floors, read by `jae`, and a comparison for equality. -/
def gatedRuntime : Memory :=
  Memory.write { byte := fun _ => 0x90, readable := fun _ => true } 0x1000
    ([0x3D, 0xB0, 0x01, 0x00, 0x00, 0x73, 0x02] ++          -- cmp eax, 1B0h; jae
      [0x81, 0xFB, 0xB0, 0x01, 0x00, 0x00, 0x73, 0x02] ++   -- cmp ebx, 1B0h; jae
      [0x3D, 0xB0, 0x01, 0x00, 0x00, 0x74, 0x02, 0xC3])     -- cmp eax, 1B0h; je; ret

def gatedSpan : Span := ⟨0x1000, 32⟩

/-- What is found in it. -/
def gatedGates : List Gate :=
  findMultiFrameGates Hde64.part Scanner.exhaustive gatedRuntime gatedSpan gatedSpan

/-- Two bytes of it change, and the comparison for equality is left. -/
example : (gatedGates.map Gate.unlock = [true, false, true]) ∧
    movedGates (some 0x1000) true (fun _ => true) gatedGates = [0x1001, 0x1009] := by
  decide +kernel

theorem only_moved_gates_change_gated :
    let after := (unlockMultiFrame (some 0x1000) true (fun _ => true) true gatedGates gatedRuntime).2
    (∀ a, after.byte a = if a ∈ movedGates (some 0x1000) true (fun _ => true) gatedGates then 0x90
      else gatedRuntime.byte a) ∧
      ∀ address next, Compares after gatedSpan address next ↔
        Compares gatedRuntime gatedSpan address next ∧
          ∀ immediate ∈ movedGates (some 0x1000) true (fun _ => true) gatedGates,
            next ≠ immediate + 4 :=
  only_moved_gates_change rfl

/-- The comparison that is left is not read as a floor. -/
theorem no_floor_left_gated :
    ¬ReadAsFloor Hde64.part gatedRuntime gatedSpan (0x100F + 5) ⟨0x1014, 2⟩ := by
  have hline : .unlocked false 2 2 true ∈
      (unlockMultiFrame (some 0x1000) true (fun _ => true) true gatedGates gatedRuntime).1 := by
    decide +kernel
  have hbytes : (unlockMultiFrame (some 0x1000) true (fun _ => true) true gatedGates
      gatedRuntime).2.bytes 0x100F 5 = 0x3D :: Codec.u32.encode nvApiBlackwell := by
    decide +kernel
  have hcompare : Compares (unlockMultiFrame (some 0x1000) true (fun _ => true) true gatedGates
      gatedRuntime).2 gatedSpan 0x100F (0x100F + 5) :=
    .eax (by decide) (by decide) (by decide) hbytes
  exact no_floor_left rfl hline hcompare

end Unlock

end OpenDlssg.UnlockedRuntime
