import OpenDlssg.CheckedSpans
import OpenDlssg.CubinImage

/-!
# The cubin parser with its preconditions checked

The parser again, statement by statement, with every access and every sum it
makes checked. It never fails: what one function validates is what the next
one's unchecked accesses rely on, and what it returns is what the plain model
returns.
-/

namespace OpenDlssg.CheckedCubin

open ByteCodec CubinImage CheckedSpans

/-- The header of a cubin. Absent when the image is not one. -/
def cubinHeader (image : Bytes) : Checked (Option ElfHeader) := do
  let header ← read elfHeader image 0
  if header.isNone then .ok none
  else do
    let h ← deref header
    let magic ← first h.ident.1 kElfMagic.length
    let kind ← element h.ident.1 kElfClassIndex
    if magic != kElfMagic || kind != kElfClass64 || h.machine != kMachineCuda then .ok none
    else .ok header

/-- End of a header table. Absent when it does not fit in `limit` bytes. -/
def tableEnd (offset : UInt64) (entrySize count : UInt16) (limit : ℕ) : Checked (Option ℕ) := do
  let length ← product entrySize.toNat count.toNat
  if offset.toNat > limit then .ok none
  else do
    let room ← difference limit offset.toNat
    if length > room then .ok none
    else do
      let stop ← sum offset.toNat length
      .ok (some stop)

/-- SM number a cubin targets, 0 when the blob is not a cubin. -/
def cubinArch (blob : Bytes) : Checked UInt32 := do
  let header ← cubinHeader blob
  if header.isSome then do
    let h ← deref header
    .ok (h.flags &&& kFlagsSmMask)
  else .ok 0

/-- Length of the cubin at the start of the bytes, or 0 when it is not one that
fits in them. -/
def cubinSize (available : Bytes) : Checked ℕ := do
  let header ← cubinHeader available
  if header.isNone then .ok 0
  else do
    let h ← deref header
    let sections ← tableEnd h.sectionHeadersOffset h.sectionHeaderSize h.sectionHeaderCount
      available.length
    let programs ← tableEnd h.programHeadersOffset h.programHeaderSize h.programHeaderCount
      available.length
    if sections.isNone || programs.isNone then .ok 0
    else do
      let sectionsEnd ← deref sections
      let programsEnd ← deref programs
      let size := max sectionsEnd programsEnd
      .ok (if size > elfHeader.size then size else 0)

/-- The section header at an index of the section table. -/
def sectionHeaderAt (image : Bytes) (header : ElfHeader) (index : ℕ) :
    Checked (Option SectionHeader) := do
  let distance ← product index header.sectionHeaderSize.toNat
  let offset ← sum header.sectionHeadersOffset.toNat distance
  read sectionHeader image offset

/-- One section, absent when its data or its name fall outside the image. -/
def cubinSection (image : Bytes) (header : ElfHeader) (names : Bytes) (index : ℕ) :
    Checked (Option CubinSection) := do
  let entry ← sectionHeaderAt image header index
  if entry.isNone then .ok none
  else do
    let e ← deref entry
    if e.name.toNat ≥ names.length then .ok none
    else do
      let data ← slice image e.offset.toNat e.size.toNat
      if data.isNone then .ok none
      else do
        -- `strnlen` reads the table from the name on, and no further
        let longest ← difference names.length e.name.toNat
        let name ← subspan names e.name.toNat longest
        let contents ← deref data
        .ok (some ⟨name.takeWhile (· != 0), contents⟩)

/-- The section-name table. -/
def sectionNames (image : Bytes) (header : ElfHeader) : Checked (Option Bytes) := do
  let names ← sectionHeaderAt image header header.sectionNamesIndex.toNat
  if names.isNone then .ok none
  else do
    let n ← deref names
    slice image n.offset.toNat n.size.toNat

/-- Every section of a cubin, named. -/
def cubinSections (available : Bytes) : Checked (List CubinSection) := do
  let size ← cubinSize available
  let image ← first available size
  let header ← cubinHeader image
  if header.isNone then .ok []
  else do
    let h ← deref header
    if h.sectionHeaderSize.toNat < sectionHeader.size ∨ h.sectionNamesIndex ≥ h.sectionHeaderCount then
      .ok []
    else do
      let names ← sectionNames image h
      if names.isNone then .ok []
      else do
        let table ← deref names
        collected (cubinSection image h table) (List.range h.sectionHeaderCount.toNat)

/-- The header is read within its own bytes. -/
theorem cubinHeader_eq (image : Bytes) : cubinHeader image = .ok (CubinImage.cubinHeader image) := by
  unfold cubinHeader CubinImage.cubinHeader
  rw [read_eq, ok_bind]
  cases hread : ByteCodec.read elfHeader image 0 with
  | none => rfl
  | some header =>
    have hident : header.ident.1.length = 16 := header.ident.2
    have hclass : header.ident.1[kElfClassIndex]? = some (header.ident.1.getD kElfClassIndex 0) := by
      rw [List.getD_eq_getElem?_getD, List.getElem?_eq_getElem (by rw [hident]; decide)]
      rfl
    have hmagic : kElfMagic.length ≤ header.ident.1.length := by
      rw [hident]
      decide
    rw [if_neg (by simp), deref_some, ok_bind, first_eq hmagic, ok_bind, element_eq hclass, ok_bind,
      Option.filter_some]
    split
    · rename_i hbad
      rw [if_neg]
      simp only [Bool.or_eq_true, bne_iff_ne] at hbad
      simp only [Bool.and_eq_true, beq_iff_eq]
      tauto
    · rename_i hgood
      rw [if_pos]
      simp only [Bool.or_eq_true, bne_iff_ne, not_or, not_not] at hgood
      simp only [Bool.and_eq_true, beq_iff_eq]
      exact hgood

/-- Two 16-bit sizes multiply without wrapping. -/
theorem product_u16 (a b : UInt16) : product a.toNat b.toNat = .ok (a.toNat * b.toNat) := by
  have ha := a.toNat_lt
  have hb := b.toNat_lt
  have hle : a.toNat * b.toNat ≤ 2 ^ 16 * 2 ^ 16 := Nat.mul_le_mul ha.le hb.le
  exact product_eq (by omega)

/-- A table within a limit is measured without wrapping. -/
theorem tableEnd_eq (offset : UInt64) (entrySize count : UInt16) {limit : ℕ} (hlimit : limit < 2 ^ 64) :
    tableEnd offset entrySize count limit = .ok (CubinImage.tableEnd offset entrySize count limit) := by
  unfold tableEnd CubinImage.tableEnd
  rw [product_u16, ok_bind]
  dsimp only
  by_cases hoff : offset.toNat > limit
  · rw [if_pos hoff, if_pos (Or.inl hoff)]
  · rw [if_neg hoff, difference_eq (by omega), ok_bind]
    by_cases hroom : entrySize.toNat * count.toNat > limit - offset.toNat
    · rw [if_pos hroom, if_pos (Or.inr hroom)]
    · rw [if_neg hroom, if_neg (not_or.mpr ⟨hoff, hroom⟩), sum_eq (by omega), ok_bind]

theorem cubinArch_eq (blob : Bytes) : cubinArch blob = .ok (CubinImage.cubinArch blob) := by
  unfold cubinArch CubinImage.cubinArch
  rw [cubinHeader_eq, ok_bind]
  cases CubinImage.cubinHeader blob with
  | none => rfl
  | some header => rfl

theorem cubinSize_eq {available : Bytes} (hlen : available.length < 2 ^ 64) :
    cubinSize available = .ok (CubinImage.cubinSize available) := by
  unfold cubinSize CubinImage.cubinSize
  rw [cubinHeader_eq, ok_bind]
  cases CubinImage.cubinHeader available with
  | none => rfl
  | some header =>
    rw [if_neg (by simp), deref_some, ok_bind, tableEnd_eq _ _ _ hlen, ok_bind, tableEnd_eq _ _ _ hlen,
      ok_bind]
    dsimp only [ElfHeader.sectionsEnd, ElfHeader.programsEnd]
    cases CubinImage.tableEnd header.sectionHeadersOffset header.sectionHeaderSize
        header.sectionHeaderCount available.length with
    | none => rw [Option.isNone_none, Bool.true_or, if_pos rfl]
    | some sections =>
      cases CubinImage.tableEnd header.programHeadersOffset header.programHeaderSize
          header.programHeaderCount available.length with
      | none => rfl
      | some programs => rfl

section Sections

variable {available : Bytes} {header : ElfHeader}

/-- The section table a size was taken from ends inside the size. -/
theorem sectionTable_le (hheader : CubinImage.cubinHeader available = some header)
    (hsize : CubinImage.cubinSize available ≠ 0) :
    header.sectionHeadersOffset.toNat +
      header.sectionHeaderSize.toNat * header.sectionHeaderCount.toNat ≤
        CubinImage.cubinSize available := by
  obtain ⟨found, sections, programs, hfound, hs, _, hmax, _⟩ := (CubinImage.cubinSize_eq hsize).mp rfl
  rw [hheader] at hfound
  cases hfound
  have hend := (tableEnd_eq_some.mp hs).1
  omega

/-- A section header within the table is found without wrapping. -/
theorem sectionHeaderAt_eq (hlen : available.length < 2 ^ 64)
    (hheader : CubinImage.cubinHeader available = some header)
    (hsize : CubinImage.cubinSize available ≠ 0) (image : Bytes) {index : ℕ}
    (hindex : index < header.sectionHeaderCount.toNat) :
    sectionHeaderAt image header index = .ok (CubinImage.sectionHeaderAt image header index) := by
  have htable := sectionTable_le hheader hsize
  have hle := CubinImage.cubinSize_le available
  have hdistance : index * header.sectionHeaderSize.toNat ≤
      header.sectionHeaderSize.toNat * header.sectionHeaderCount.toNat := by
    rw [Nat.mul_comm]
    exact Nat.mul_le_mul_left _ hindex.le
  unfold sectionHeaderAt CubinImage.sectionHeaderAt
  rw [product_eq (by omega), ok_bind, sum_eq (by omega), ok_bind, read_eq]

/-- A section is named and sliced within the table and the image. -/
theorem cubinSection_eq (hlen : available.length < 2 ^ 64)
    (hheader : CubinImage.cubinHeader available = some header)
    (hsize : CubinImage.cubinSize available ≠ 0) (image names : Bytes) {index : ℕ}
    (hindex : index < header.sectionHeaderCount.toNat) :
    cubinSection image header names index = .ok (CubinImage.cubinSection image header names index) := by
  unfold cubinSection CubinImage.cubinSection
  rw [sectionHeaderAt_eq hlen hheader hsize image hindex, ok_bind]
  cases CubinImage.sectionHeaderAt image header index with
  | none => rfl
  | some entry =>
    rw [if_neg (by simp), deref_some, ok_bind, Option.bind_some]
    by_cases hname : entry.name.toNat ≥ names.length
    · rw [if_pos hname, if_pos hname]
    · rw [if_neg hname, if_neg hname, slice_eq, ok_bind]
      cases ByteCodec.slice image entry.offset.toNat entry.size.toNat with
      | none => rfl
      | some data =>
        have hall : (names.drop entry.name.toNat).take (names.length - entry.name.toNat) =
            names.drop entry.name.toNat := List.take_of_length_le (by rw [List.length_drop])
        rw [if_neg (by simp), difference_eq (by omega), ok_bind, subspan_eq (by omega), ok_bind, deref_some,
          ok_bind, hall, Option.map_some]

theorem sectionNames_eq (hlen : available.length < 2 ^ 64)
    (hheader : CubinImage.cubinHeader available = some header)
    (hsize : CubinImage.cubinSize available ≠ 0) (image : Bytes)
    (hindex : header.sectionNamesIndex.toNat < header.sectionHeaderCount.toNat) :
    sectionNames image header = .ok (CubinImage.sectionNames image header) := by
  unfold sectionNames CubinImage.sectionNames
  rw [sectionHeaderAt_eq hlen hheader hsize image hindex, ok_bind]
  cases CubinImage.sectionHeaderAt image header header.sectionNamesIndex.toNat with
  | none => rfl
  | some names => rw [if_neg (by simp), deref_some, ok_bind, slice_eq, Option.bind_some]

end Sections

/-- The sections are read within the image the size was taken from. -/
theorem cubinSections_eq {available : Bytes} (hlen : available.length < 2 ^ 64) :
    cubinSections available = .ok (CubinImage.cubinSections available) := by
  have hle := CubinImage.cubinSize_le available
  unfold cubinSections CubinImage.cubinSections imageSections
  rw [cubinSize_eq hlen, ok_bind, first_eq hle, ok_bind, cubinHeader_eq, ok_bind]
  cases hh : CubinImage.cubinHeader (available.take (CubinImage.cubinSize available)) with
  | none => rfl
  | some header =>
    have hsize : CubinImage.cubinSize available ≠ 0 := by
      intro hzero
      rw [hzero] at hh
      cases hh
    have hheader : CubinImage.cubinHeader available = some header := by
      rw [← hh, cubinHeader_take (CubinImage.cubinSize_gt hsize).le]
    rw [if_neg (by simp), deref_some, ok_bind]
    dsimp only
    split
    · rfl
    · rename_i hgood
      have hindex : header.sectionNamesIndex.toNat < header.sectionHeaderCount.toNat :=
        UInt16.lt_iff_toNat_lt.mp (UInt16.not_le.mp (not_or.mp hgood).2)
      rw [sectionNames_eq hlen hheader hsize _ hindex, ok_bind]
      cases CubinImage.sectionNames (available.take (CubinImage.cubinSize available)) header with
      | none => rfl
      | some names =>
        rw [if_neg (by simp), deref_some, ok_bind]
        exact collected_eq fun index hin =>
          cubinSection_eq hlen hheader hsize _ names (List.mem_range.mp hin)

/-- Where a section was found: the entry of the section table that describes it
places its data inside the image and its name inside the table of names. -/
structure Located (available : Bytes) (found : CubinSection) (names : Bytes) (entry : SectionHeader) :
    Prop where
  data_inside : entry.offset.toNat + entry.size.toNat ≤ CubinImage.cubinSize available
  data_eq : found.data = (available.drop entry.offset.toNat).take entry.size.toNat
  name_inside : entry.name.toNat + found.name.length ≤ names.length
  name_eq : found.name = (names.drop entry.name.toNat).take found.name.length

/-- Bytes of an image are bytes of what the image was cut from. -/
theorem slice_take {data part : Bytes} {size offset length : ℕ}
    (h : ByteCodec.slice (data.take size) offset length = some part) :
    offset + length ≤ size ∧ part = (data.drop offset).take length := by
  obtain ⟨hfit, hpart⟩ := slice_eq_some.mp h
  rw [List.length_take] at hfit
  refine ⟨by omega, ?_⟩
  rw [← hpart, List.drop_take, List.take_take, min_eq_left (by omega)]

/-- Every section returned lies inside the image, and its name inside the
table of names, which lies inside the image as well. -/
theorem located_of_mem {available : Bytes} {found : CubinSection}
    (h : found ∈ CubinImage.cubinSections available) :
    ∃ (header : ElfHeader) (table entry : SectionHeader) (names : Bytes),
      CubinImage.cubinHeader available = some header ∧
      CubinImage.sectionHeaderAt (available.take (CubinImage.cubinSize available)) header
        header.sectionNamesIndex.toNat = some table ∧
      table.offset.toNat + table.size.toNat ≤ CubinImage.cubinSize available ∧
      names = (available.drop table.offset.toNat).take table.size.toNat ∧
      (∃ index < header.sectionHeaderCount.toNat, CubinImage.sectionHeaderAt
        (available.take (CubinImage.cubinSize available)) header index = some entry) ∧
      Located available found names entry := by
  have hsize : CubinImage.cubinSize available ≠ 0 := by
    intro hzero
    rw [cubinSections_of_size_zero hzero] at h
    cases h
  unfold CubinImage.cubinSections imageSections at h
  cases hh : CubinImage.cubinHeader (available.take (CubinImage.cubinSize available)) with
  | none =>
    rw [hh] at h
    cases h
  | some header =>
    rw [hh] at h
    dsimp only at h
    split at h
    · cases h
    · cases hnames : CubinImage.sectionNames (available.take (CubinImage.cubinSize available)) header with
      | none =>
        rw [hnames] at h
        cases h
      | some names =>
        rw [hnames] at h
        obtain ⟨index, hindex, hfound⟩ := List.mem_filterMap.mp h
        obtain ⟨entry, hentry, hrest⟩ := Option.bind_eq_some_iff.mp hfound
        obtain ⟨table, htable, hslice⟩ := Option.bind_eq_some_iff.mp hnames
        obtain ⟨hinside, hwhole⟩ := slice_take hslice
        split at hrest
        · cases hrest
        · rename_i hname
          obtain ⟨data, hdata, rfl⟩ := Option.map_eq_some_iff.mp hrest
          obtain ⟨hdataInside, hdataEq⟩ := slice_take hdata
          have hprefix := List.takeWhile_prefix (fun b : UInt8 => b != 0) (l := names.drop entry.name.toNat)
          have hshort := hprefix.length_le
          rw [List.length_drop] at hshort
          refine ⟨header, table, entry, names, ?_, htable, hinside, hwhole,
            ⟨index, List.mem_range.mp hindex, hentry⟩, hdataInside, hdataEq, ?_, ?_⟩
          · rw [← hh, cubinHeader_take (CubinImage.cubinSize_gt hsize).le]
          · dsimp only
            omega
          · exact List.prefix_iff_eq_take.mp hprefix

end OpenDlssg.CheckedCubin
