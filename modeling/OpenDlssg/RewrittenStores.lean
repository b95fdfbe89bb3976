import OpenDlssg.MarkerPath
import OpenDlssg.RegisterStores

/-!
# The plugin's code after its rewrites

Constant stores to the flag are matched at any offset, so two matches, or a
match and the re-encoded register store, could share bytes. They never do:
within seven bytes of one store to a positive displacement no other begins.
Each rewrite therefore changes one store of the on value and no other bytes
that could become one, and after all of them no such store is left.
-/

namespace OpenDlssg.RewrittenStores

open ByteCodec ProcessMemory PatternScan X86Decode PluginAnalysis MarkerPath RegisterStores

/-! ### Stores to one field do not overlap -/

/-- The seven bytes at an address are a constant store without prefix or SIB
byte. -/
def HoldsStore (memory : Memory) (displacement : Int32) (value : UInt8) (address : ℕ) : Prop :=
  ∃ modrm, modrm &&& 0xF8 = 0x80 ∧ modrm ≠ 0x84 ∧
    memory.bytes address 7 = plainStore modrm displacement value

/-- A displacement past what eight bits reach has a clear sign bit. -/
theorem displacement_bytes {displacement : Int32} (h : 127 < displacement) :
    ∃ d₀ d₁ d₂ d₃ : UInt8,
      Codec.u32.encode displacement.toUInt32 = [d₀, d₁, d₂, d₃] ∧ d₃ < 0x80 := by
  have hword : displacement.toUInt32.toNat < 2 ^ 31 := by
    have hlower : (127 : Int32).toInt < displacement.toInt := Int32.lt_iff_toInt_lt.mp h
    have h127 : (127 : Int32).toInt = 127 := rfl
    have hcond : displacement.toInt = _ := BitVec.toInt_eq_toNat_cond displacement.toBitVec
    have hnat : displacement.toUInt32.toNat = displacement.toBitVec.toNat := rfl
    have hlt := displacement.toBitVec.isLt
    rw [hnat]
    split at hcond
    · omega
    · omega
  have h128 : (0x80 : UInt8).toNat = 128 := rfl
  refine ⟨_, _, _, _, rfl, ?_⟩
  rw [UInt8.lt_iff_toNat_lt, UInt8.toNat_ofNat', h128]
  omega

/-- The bytes of a store, one by one. -/
theorem HoldsStore.bytes_eq {memory : Memory} {displacement : Int32} {value d₀ d₁ d₂ d₃ : UInt8}
    {address : ℕ} (h : HoldsStore memory displacement value address)
    (hword : Codec.u32.encode displacement.toUInt32 = [d₀, d₁, d₂, d₃]) :
    memory.byte address = 0xC6 ∧ memory.byte (address + 1) &&& 0xF8 = 0x80 ∧
      memory.byte (address + 2) = d₀ ∧ memory.byte (address + 3) = d₁ ∧
      memory.byte (address + 4) = d₂ ∧ memory.byte (address + 5) = d₃ ∧
      memory.byte (address + 6) = value := by
  obtain ⟨modrm, hmodrm, _, hbytes⟩ := h
  have hlist : memory.bytes address 7 =
      [memory.byte address, memory.byte (address + 1), memory.byte (address + 2),
        memory.byte (address + 3), memory.byte (address + 4), memory.byte (address + 5),
        memory.byte (address + 6)] := rfl
  rw [hlist, plainStore, hword] at hbytes
  simp only [List.cons_append, List.nil_append, List.cons.injEq, and_true] at hbytes
  obtain ⟨hopcode, hsecond, h₀, h₁, h₂, h₃, hvalue⟩ := hbytes
  rw [hsecond]
  exact ⟨hopcode, hmodrm, h₀, h₁, h₂, h₃, hvalue⟩

/-- The opcode is no ModRM byte of a store, and neither is a byte below 80. -/
theorem not_modrm {b : UInt8} (h : b = 0xC6 ∨ b < 0x80) : b &&& 0xF8 ≠ 0x80 := by
  revert b
  decide +kernel

/-- No store begins inside another to the same positive displacement. -/
theorem HoldsStore.not_inside {memory : Memory} {displacement : Int32} {value other : UInt8}
    {address k : ℕ} (hpositive : 127 < displacement) (hvalue : value ≤ 1)
    (hfirst : HoldsStore memory displacement value address)
    (hsecond : HoldsStore memory displacement other (address + k)) : k = 0 ∨ 7 ≤ k := by
  obtain ⟨d₀, d₁, d₂, d₃, hword, hsign⟩ := displacement_bytes hpositive
  obtain ⟨_, hmodrm, h₀, h₁, h₂, h₃, h₆⟩ := hfirst.bytes_eq hword
  obtain ⟨hopcode', hmodrm', h₀', h₁', _, _, _⟩ := hsecond.bytes_eq hword
  have hone : (1 : UInt8) < 0x80 := by decide
  have hlow : value < 0x80 := UInt8.lt_of_le_of_lt hvalue hone
  by_contra hk
  push Not at hk
  obtain ⟨hne, hend⟩ := hk
  have hstart : 0 < k := Nat.pos_of_ne_zero hne
  interval_cases k
  · -- the second opcode is the ModRM byte of the first
    exact not_modrm (Or.inl hopcode') hmodrm
  · -- the second ModRM byte is `d₁`, and so is the sign byte of the first
    have hthird : d₃ = d₁ := h₃.symm.trans h₁'
    have hcover : d₁ &&& 0xF8 = 0x80 := by
      rw [← h₁]
      exact hmodrm'
    exact not_modrm (Or.inr (by rw [← hthird]; exact hsign)) hcover
  · -- the second opcode is `d₁`, and so is the value of the first
    have hlast : value = d₁ := h₆.symm.trans h₁'
    have hcover : d₁ = 0xC6 := h₁.symm.trans hopcode'
    rw [hlast, hcover] at hlow
    exact absurd hlow (by decide)
  · -- the second ModRM byte is the sign byte of the first
    have hcover : d₃ &&& 0xF8 = 0x80 := by
      rw [← h₃]
      exact hmodrm'
    exact not_modrm (Or.inr hsign) hcover
  · -- the second opcode is the sign byte of the first
    have hcover : d₃ = 0xC6 := h₃.symm.trans hopcode'
    rw [hcover] at hsign
    exact absurd hsign (by decide)
  · -- the second opcode is the value of the first
    have hcover : value = 0xC6 := h₆.symm.trans hopcode'
    rw [hcover] at hlow
    exact absurd hlow (by decide)

/-- Two stores of booleans to one positive displacement are the same or apart. -/
theorem HoldsStore.same_or_apart {memory : Memory} {displacement : Int32} {v w : UInt8}
    {first second : ℕ} (hpositive : 127 < displacement) (hv : v ≤ 1) (hw : w ≤ 1)
    (hfirst : HoldsStore memory displacement v first)
    (hsecond : HoldsStore memory displacement w second) :
    first = second ∨ first + 7 ≤ second ∨ second + 7 ≤ first := by
  rcases le_total first second with hle | hle
  · obtain ⟨k, rfl⟩ := Nat.exists_eq_add_of_le hle
    have hinside := hfirst.not_inside hpositive hv hsecond
    omega
  · obtain ⟨k, rfl⟩ := Nat.exists_eq_add_of_le hle
    have hinside := hsecond.not_inside hpositive hw hfirst
    omega

/-- What one address holds is a store of one value. -/
theorem HoldsStore.value_unique {memory : Memory} {displacement : Int32} {v w : UInt8}
    {address : ℕ} (hv : HoldsStore memory displacement v address)
    (hw : HoldsStore memory displacement w address) : v = w := by
  obtain ⟨_, _, _, hvbytes⟩ := hv
  obtain ⟨_, _, _, hwbytes⟩ := hw
  exact (streamAt_plainStore hvbytes).2.2.2.symm.trans (streamAt_plainStore hwbytes).2.2.2

/-- A store stays where its bytes do. -/
theorem HoldsStore.congr {first second : Memory} {displacement : Int32} {value : UInt8}
    {address : ℕ} (h : HoldsStore first displacement value address)
    (hsame : ∀ i < 7, first.byte (address + i) = second.byte (address + i)) :
    HoldsStore second displacement value address := by
  obtain ⟨modrm, hmodrm, hplain, hbytes⟩ := h
  exact ⟨modrm, hmodrm, hplain, (Memory.bytes_congr hsame).symm.trans hbytes⟩

/-! ### Writing the rewrites -/

/-- The rewrites written in list order. -/
def applyRewrites (memory : Memory) (rewrites : List Rewrite) : Memory :=
  rewrites.foldl (fun memory rewrite => memory.write rewrite.address rewrite.bytes) memory

/-- One byte after rewrites that all put the same single byte somewhere. -/
theorem byte_applyRewrites {rewrites : List Rewrite} {value : UInt8}
    (hbytes : ∀ r ∈ rewrites, r.bytes = [value]) (memory : Memory) (a : ℕ) :
    ((∃ r ∈ rewrites, r.address = a) → (applyRewrites memory rewrites).byte a = value) ∧
      ((∀ r ∈ rewrites, r.address ≠ a) → (applyRewrites memory rewrites).byte a = memory.byte a) := by
  induction rewrites generalizing memory with
  | nil => simp [applyRewrites]
  | cons rewrite rewrites ih =>
    have hhead : rewrite.bytes = [value] := hbytes rewrite List.mem_cons_self
    obtain ⟨hsome, hnone⟩ := ih (fun r hr => hbytes r (List.mem_cons_of_mem _ hr))
      (memory.write rewrite.address rewrite.bytes)
    have hstep : applyRewrites memory (rewrite :: rewrites) =
        applyRewrites (memory.write rewrite.address rewrite.bytes) rewrites := rfl
    rw [hstep]
    constructor
    · rintro ⟨r, hr, rfl⟩
      by_cases hlater : ∃ later ∈ rewrites, later.address = r.address
      · exact hsome hlater
      · push Not at hlater
        rw [hnone hlater]
        rcases List.mem_cons.mp hr with rfl | hr
        · simp [Memory.write, hhead]
        · exact absurd rfl (hlater r hr)
    · intro hother
      have hne : rewrite.address ≠ a := hother rewrite List.mem_cons_self
      rw [hnone fun r hr => hother r (List.mem_cons_of_mem _ hr)]
      apply Memory.byte_write_of_not_covered
      rw [hhead, List.length_singleton]
      omega

/-- The on value is a boolean other than the off value. -/
theorem onValue_spec (offValue : UInt8) : onValue offValue ≤ 1 ∧ onValue offValue ≠ offValue := by
  revert offValue
  decide +kernel

/-- A store is its field and, behind it, its value. -/
theorem bytes_plainStore_iff {memory : Memory} {address : ℕ} {modrm value : UInt8}
    {displacement : Int32} : memory.bytes address 7 = plainStore modrm displacement value ↔
      memory.bytes address 6 = [0xC6, modrm] ++ Codec.u32.encode displacement.toUInt32 ∧
        memory.byte (address + 6) = value := by
  have hword : (Codec.u32.encode displacement.toUInt32).length = 4 := Codec.u32.length_encode _
  have hlast : memory.bytes (address + 6) 1 = [memory.byte (address + 6)] := rfl
  rw [memory.bytes_add address 6 1, hlast, plainStore, ← List.append_assoc]
  constructor
  · intro h
    obtain ⟨hfield, hvalue⟩ := List.append_inj h (by
      rw [Memory.length_bytes, List.length_append, hword]
      rfl)
    exact ⟨hfield, List.singleton_inj.mp hvalue⟩
  · rintro ⟨hfield, hvalue⟩
    rw [hfield, hvalue]

section Matches

variable {hde : Hde64} {scanner : Scanner} {memory : Memory} {code : Span} {displacement : Int32}
  {offValue : UInt8}

/-- An address of the code that holds a store of the on value. -/
structure OnStoreAt (memory : Memory) (code : Span) (displacement : Int32) (offValue : UInt8)
    (address : ℕ) : Prop where
  not_null : address ≠ 0
  start_le : code.data ≤ address
  le_end : address + 7 ≤ code.data + code.size
  holds : HoldsStore memory displacement (onValue offValue) address

/-- The constant stores' rewrites are one for each of them. -/
theorem mem_storeRewrites_iff {rewrite : Rewrite} :
    rewrite ∈ storeRewrites hde scanner memory code displacement offValue ↔
      ∃ address, OnStoreAt memory code displacement offValue address ∧
        rewrite = ⟨address + 6, [offValue]⟩ := by
  rw [mem_storeRewrites]
  constructor
  · rintro ⟨address, modrm, hmodrm, hplain, hnull, hstart, hend, hbytes, rfl⟩
    exact ⟨address, ⟨hnull, hstart, hend, modrm, hmodrm, hplain, hbytes⟩, rfl⟩
  · rintro ⟨address, ⟨hnull, hstart, hend, modrm, hmodrm, hplain, hbytes⟩, rfl⟩
    exact ⟨address, modrm, hmodrm, hplain, hnull, hstart, hend, hbytes, rfl⟩

/-- One byte of memory after the constant stores' rewrites. -/
theorem byte_storeRewrites (hde : Hde64) (scanner : Scanner) (a : ℕ) :
    ((∃ start, OnStoreAt memory code displacement offValue start ∧ start + 6 = a) →
        (applyRewrites memory
          (storeRewrites hde scanner memory code displacement offValue)).byte a = offValue) ∧
      ((∀ start, OnStoreAt memory code displacement offValue start → start + 6 ≠ a) →
        (applyRewrites memory
          (storeRewrites hde scanner memory code displacement offValue)).byte a =
            memory.byte a) := by
  have hsingle : ∀ r ∈ storeRewrites hde scanner memory code displacement offValue,
      r.bytes = [offValue] := by
    intro r hr
    obtain ⟨_, _, rfl⟩ := mem_storeRewrites_iff.mp hr
    rfl
  obtain ⟨hsome, hnone⟩ := byte_applyRewrites hsingle memory a
  constructor
  · rintro ⟨start, hstart, rfl⟩
    exact hsome ⟨_, mem_storeRewrites_iff.mpr ⟨start, hstart, rfl⟩, rfl⟩
  · intro hother
    refine hnone fun r hr => ?_
    obtain ⟨start, hstart, rfl⟩ := mem_storeRewrites_iff.mp hr
    exact hother start hstart

/-- Each of the stores has become a store of the off value. -/
theorem OnStoreAt.rewritten (hde : Hde64) (scanner : Scanner) (hpositive : 127 < displacement)
    {address : ℕ} (h : OnStoreAt memory code displacement offValue address) :
    HoldsStore (applyRewrites memory
      (storeRewrites hde scanner memory code displacement offValue)) displacement offValue
        address := by
  have hon := (onValue_spec offValue).1
  obtain ⟨modrm, hmodrm, hplain, hbytes⟩ := h.holds
  obtain ⟨hfield, _⟩ := bytes_plainStore_iff.mp hbytes
  refine ⟨modrm, hmodrm, hplain, bytes_plainStore_iff.mpr ⟨?_, ?_⟩⟩
  · rw [← hfield]
    apply Memory.bytes_congr
    intro i hi
    -- no immediate of another match lies in this one's field
    refine (byte_storeRewrites hde scanner (address + i)).2 fun start hstart => ?_
    have hapart := hstart.holds.same_or_apart hpositive hon hon h.holds
    omega
  · exact (byte_storeRewrites hde scanner (address + 6)).1 ⟨address, h, rfl⟩

/-- Behind the constant stores' rewrites the code holds no store of the on value. -/
theorem no_onStore_rewritten (hde : Hde64) (scanner : Scanner) (hpositive : 127 < displacement)
    (hoff : offValue ≤ 1) (address : ℕ) :
    ¬OnStoreAt (applyRewrites memory
      (storeRewrites hde scanner memory code displacement offValue)) code displacement offValue
        address := by
  obtain ⟨hon, hne⟩ := onValue_spec offValue
  intro h
  -- it lies apart from every match, so it was there before and is a match itself
  have hbefore : OnStoreAt memory code displacement offValue address := by
    refine ⟨h.not_null, h.start_le, h.le_end, h.holds.congr fun i hi => ?_⟩
    refine (byte_storeRewrites hde scanner (address + i)).2 fun start hstart => ?_
    have hrewritten := hstart.rewritten hde scanner hpositive
    rcases hrewritten.same_or_apart hpositive hoff hon h.holds with rfl | hapart
    · exact absurd (hrewritten.value_unique h.holds).symm hne
    · omega
  exact hne (h.holds.value_unique (hbefore.rewritten hde scanner hpositive))

end Matches

/-! ### The whole analysis -/

/-- The fallback's store is a boolean's and lies past what eight bits reach. -/
theorem fallbackStore_spec {hde : Hde64} {memory : Memory} {reference : ℕ} {store : ByteStore}
    (h : fallbackStore hde memory reference = some store) :
    store.value ≤ 1 ∧ 127 < store.displacement := by
  obtain ⟨instruction, hfind, hread⟩ := fallbackStore_eq_some.mp h
  have hflag : isFlagStore hde memory instruction = true := List.find?_some hfind
  rw [isFlagStore, hread] at hflag
  exact of_decide_eq_true hflag

/-- The source's `ReadRange` on the value the settings file has: one outside the
range is rejected for the fallback. -/
def readRange (value fallback low high : Int32) : Int32 :=
  if low ≤ value ∧ value ≤ high then value else fallback

/-- `FlipMeteringValue` as the settings give it to `SetFlipMeteringValue`:
negative uses the plugin's own off value, 0 and 1 force it. -/
def flipMeteringValue (configured : Int32) : Int32 := readRange configured (-1) (-1) 1

/-- A forced off value is a boolean. -/
theorem flipMeteringValue_le (configured : Int32) : flipMeteringValue configured ≤ 1 := by
  unfold flipMeteringValue readRange
  split
  · rename_i hrange
    exact hrange.2
  · decide

/-- So is every off value. -/
theorem offValueOf_le {forced : Int32} (hforced : forced ≤ 1) {fallback : ByteStore}
    (hfallback : fallback.value ≤ 1) : offValueOf forced fallback ≤ 1 := by
  unfold offValueOf
  split
  · rename_i hnonnegative
    have hlower : (0 : Int32).toInt ≤ forced.toInt := Int32.le_iff_toInt_le.mp hnonnegative
    have hupper : forced.toInt ≤ (1 : Int32).toInt := Int32.le_iff_toInt_le.mp hforced
    have hboolean : forced.toInt = (0 : Int32).toInt ∨ forced.toInt = (1 : Int32).toInt := by
      have hzero : (0 : Int32).toInt = 0 := rfl
      have hone : (1 : Int32).toInt = 1 := rfl
      omega
    rcases hboolean with hzero | hone
    · rw [Int32.toInt_inj.mp hzero]
      decide
    · rw [Int32.toInt_inj.mp hone]
      decide
  · exact hfallback

/-- The re-encoded register store, written last, neither is a store of the on
value nor becomes part of one. -/
theorem no_onStore_registerStore {memory : Memory} {code : Span} {displacement : Int32}
    {offValue modrm : UInt8} {start address : ℕ} (hpositive : 127 < displacement)
    (hoff : offValue ≤ 1) (hmodrm : modrm &&& 0xF8 = 0x80) (hplain : modrm ≠ 0x84)
    (hnone : ¬OnStoreAt memory code displacement offValue address) :
    ¬OnStoreAt (memory.write start (plainStore modrm displacement offValue)) code displacement
      offValue address := by
  obtain ⟨hon, hne⟩ := onValue_spec offValue
  have hlength := length_plainStore modrm displacement offValue
  have hwritten := memory.bytes_write_self start (plainStore modrm displacement offValue)
  rw [hlength] at hwritten
  have hregister : HoldsStore (memory.write start (plainStore modrm displacement offValue))
      displacement offValue start := ⟨modrm, hmodrm, hplain, hwritten⟩
  intro h
  rcases hregister.same_or_apart hpositive hoff hon h.holds with rfl | hapart
  · exact hne (h.holds.value_unique hregister)
  · refine hnone ⟨h.not_null, h.start_le, h.le_end, h.holds.congr fun i hi => ?_⟩
    apply Memory.byte_write_of_not_covered
    omega

/-- Whatever the settings force: once all rewrites of an analysis are written, no
store of the on value to the flag is left in the code, and none was made. -/
theorem applyRewrites_no_onStore {hde : Hde64} (hlaw : DecodesRegisterStores hde)
    {scanner : Scanner} {memory : Memory} {configured : Int32} {image code : Span}
    {flip : FlipMetering}
    (hflip : analyzeFlipMetering hde scanner memory (flipMeteringValue configured) image code =
      .ok flip) (address : ℕ) :
    ¬OnStoreAt (applyRewrites memory flip.rewrites) code flip.flagOffset flip.offValue address := by
  obtain ⟨marker, fallback, _, hfallback, hflag, hoffValue, hrewrites⟩ :=
    analyzeFlipMetering_eq_ok hflip
  obtain ⟨reference, _, hstore⟩ := List.exists_of_findSome?_eq_some hfallback
  obtain ⟨hboolean, hdeep⟩ := fallbackStore_spec hstore
  have hpositive : 127 < flip.flagOffset := by rw [hflag]; exact hdeep
  have hoff : flip.offValue ≤ 1 := by
    rw [hoffValue]
    exact offValueOf_le (flipMeteringValue_le configured) hboolean
  have hstores : ¬OnStoreAt (applyRewrites memory
      (storeRewrites hde scanner memory code flip.flagOffset flip.offValue)) code flip.flagOffset
        flip.offValue address := no_onStore_rewritten hde scanner hpositive hoff address
  rcases analyzeModelVersionStore_rewrites hde scanner memory image code
      ⟨fallback.base, flip.flagOffset⟩ flip.offValue with
    hnone | ⟨_, instruction, bytes, hdecode, hregister, hbytes, hone⟩
  · rw [hrewrites, hnone, List.append_nil]
    exact hstores
  · obtain ⟨_, modrm, hmodrm, hplain, _, rfl⟩ :=
      plainStore_of_asImmediateByteStore hlaw hdecode hregister hbytes
    rw [hrewrites, hone, applyRewrites, List.foldl_append]
    exact no_onStore_registerStore hpositive hoff hmodrm hplain hstores

/-- A plugin that stores the on value once as a constant and once, behind the
model-version parameter, from a register. -/
def registerPlugin : Memory :=
  Memory.write { byte := fun _ => 0x90, readable := fun _ => true } 0x1000
    ([0x48, 0x8D, 0x0D, 0x1D, 0x00, 0x00, 0x00] ++               -- lea rcx, marker
      [0xC6, 0x83, 0xBC, 0x38, 0x00, 0x00, 0x00] ++               -- mov byte ptr [rbx+38BCh], 0
      [0xC6, 0x83, 0xBC, 0x38, 0x00, 0x00, 0x01] ++               -- mov byte ptr [rbx+38BCh], 1
      [0x48, 0x8D, 0x15, 0x21, 0x00, 0x00, 0x00] ++               -- lea rdx, parameter
      [0x40, 0x88, 0xBB, 0xBC, 0x38, 0x00, 0x00] ++               -- mov [rbx+38BCh], dil
      [0xC3] ++ flipMeteringMarker ++ modelVersionParameter)

def registerImage : Span := ⟨0x1000, 80⟩

def registerCode : Span := ⟨0x1000, 36⟩

/-- What the analysis makes of that plugin. -/
def registerFlip : FlipMetering where
  flagOffset := 0x38BC
  offValue := 0
  rewrites := [⟨0x1014, [0]⟩, ⟨0x101C, [0xC6, 0x83, 0xBC, 0x38, 0x00, 0x00, 0x00]⟩]
  modelVersionStore := .register

/-- It finds that flag, and both stores of the on value are gone. -/
theorem applyRewrites_no_onStore_register :
    analyzeFlipMetering Hde64.part Scanner.exhaustive registerPlugin (flipMeteringValue (-1))
        registerImage registerCode = .ok registerFlip ∧
      ∀ address, ¬OnStoreAt (applyRewrites registerPlugin registerFlip.rewrites) registerCode 0x38BC
        0 address := by
  have hfound : analyzeFlipMetering Hde64.part Scanner.exhaustive registerPlugin
      (flipMeteringValue (-1)) registerImage registerCode = .ok registerFlip := by
    decide +kernel
  exact ⟨hfound, applyRewrites_no_onStore decodesRegisterStores_part hfound⟩

end OpenDlssg.RewrittenStores
