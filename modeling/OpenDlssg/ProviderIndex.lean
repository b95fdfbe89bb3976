import OpenDlssg.ByteSearch
import OpenDlssg.ProcessMemory
import OpenDlssg.PatternScan
import OpenDlssg.LastWriteMap
import OpenDlssg.CubinImage
import OpenDlssg.FatbinContainer

/-!
# The index of a runtime's own images

A runtime is indexed by two scans over its readable sections: one for
containers, which remembers the container a stored cubin came from unless two
claim it, and one for the bare cubins outside them, kept under the hash of
their kernel and its code and under their architecture. Every scan is shown to
be a fold over the list of images it accepts.
-/

namespace OpenDlssg.ProviderIndex

open ByteCodec ByteSearch ProcessMemory PatternScan LastWriteMap CubinImage FatbinContainer

/-- A loaded module; its null handle is an absent one. -/
abbrev HModule := ℕ

/-- A process with its modules mapped. The images indexed are pinned, so their
sections and bytes are those of the whole run. -/
structure Process where
  memory : Memory
  /-- The sections of a module that are mapped readable. -/
  readableSections : HModule → List Span

/-- An image in memory, the source's `Blob`. -/
abbrev Blob := Span

/-- `FATBIN_MAGIC` as it appears in memory. -/
def kFatbinSignature : Signature := literal [0x50, 0xED, 0x55, 0xBA]

/-- The ELF magic as it appears in memory. -/
def kElfSignature : Signature := literal kElfMagic

/-- Offset basis of 64-bit FNV-1a. -/
def kFnvBasis : UInt64 := 1469598103934665603

/-- Prime of 64-bit FNV-1a. -/
def kFnvPrime : UInt64 := 1099511628211

/-- 64-bit FNV-1a continued from a hash. -/
def hashFrom (start : UInt64) (bytes : Bytes) : UInt64 :=
  bytes.foldl (fun hash byte => (hash ^^^ byte.toUInt64) * kFnvPrime) start

/-- 64-bit FNV-1a. -/
def hashBytes (bytes : Bytes) : UInt64 := hashFrom kFnvBasis bytes

/-- What a cubin is: its first kernel's name and a hash of that kernel's code,
with the architecture and length of the image. -/
structure Identity where
  name : Bytes
  code : UInt64
  arch : UInt32
  size : ℕ
  deriving DecidableEq

/-- One runtime's images. -/
structure Index where
  /-- The container of a cubin, under the hash of the whole cubin. -/
  containers : Map UInt64 Blob
  /-- The cubin of a kernel, under the kernel's key and the architecture. -/
  variants : Map UInt64 (Map UInt32 Blob)

/-- What a build reports. -/
structure IndexSummary where
  containers : ℕ
  /-- Outside any container. -/
  cubins : ℕ
  /-- With a cubin for more than one architecture. -/
  kernelsWithAlternatives : ℕ
  /-- In two containers, so answering nothing. -/
  ambiguousImages : ℕ

/-- The hash of a whole image, as long as its own headers state. -/
def fingerprint (available : Bytes) : Option UInt64 :=
  let size := cubinSize available
  if size = 0 then none else some (hashBytes (available.take size))

/-- The key of a kernel variant: its name's hash continued over its code's hash. -/
def variantKey (name : Bytes) (code : UInt64) : UInt64 :=
  hashFrom (hashBytes name) (leBytes 8 code.toNat)

/-- Whether a byte is an ASCII letter, a digit or an underscore. -/
def isIdentifierByte (c : UInt8) : Bool :=
  decide (48 ≤ c ∧ c ≤ 57) || decide (65 ≤ c ∧ c ≤ 90) || decide (97 ≤ c ∧ c ≤ 122) || c == 95

/-- Whether a text names a kernel. -/
def isIdentifier (text : Bytes) : Bool := !text.isEmpty && text.all isIdentifierByte

/-- Opening of the name of every section that holds a kernel's code. -/
def kText : Bytes := ascii ".text."

/-- Whether a section holds a kernel's code. -/
def isText (code : CubinSection) : Bool := kText.isPrefixOf code.name

/-- The name of the kernel a section holds the code of. -/
def kernelName (code : CubinSection) : Bytes := code.name.drop kText.length

/-- Read the kernel name and a hash of its code from the first section that
holds one, whatever sections follow it. -/
def identify (available : Bytes) : Option Identity :=
  let size := cubinSize available
  let image := available.take size
  ((cubinSections image).find? isText).bind fun code =>
    if isIdentifier (kernelName code) then
      some ⟨kernelName code, hashBytes code.data, cubinArch image, size⟩
    else none

section Scan

variable {σ α : Type}

/-- Visit the matches of a section that no image already taken covers. -/
def visitMatches (visit : ℕ → Bytes → σ → ℕ × σ) (base : ℕ) (bytes : Bytes) :
    List ℕ → ℕ → σ → σ
  | [], _, state => state
  | offset :: rest, resume, state =>
    if offset < resume then visitMatches visit base bytes rest resume state
    else
      let visited := visit (base + offset) (bytes.drop offset) state
      visitMatches visit base bytes rest (offset + visited.1) visited.2

/-- Call `visit` with the address and the bytes to the section's end at each
occurrence of a magic in a runtime's readable sections. It returns how many
bytes it consumed, so a match inside an image already taken is skipped. -/
def forEachMatch (process : Process) (scanner : Scanner) (provider : HModule) (magic : Signature)
    (visit : ℕ → Bytes → σ → ℕ × σ) (state : σ) : σ :=
  (process.readableSections provider).foldl
    (fun state code =>
      visitMatches visit code.data (process.memory.view code)
        (scanner.findAllPattern (process.memory.view code) magic) 0 state)
    state

/-- The images a section's matches yield, in the order they are met. -/
def takenFrom (accept : ℕ → Bytes → Option (ℕ × α)) (base : ℕ) (bytes : Bytes) :
    List ℕ → ℕ → List α
  | [], _ => []
  | offset :: rest, resume =>
    if offset < resume then takenFrom accept base bytes rest resume
    else
      match accept (base + offset) (bytes.drop offset) with
      | none => takenFrom accept base bytes rest offset
      | some (consumed, image) => image :: takenFrom accept base bytes rest (offset + consumed)

/-- The images a runtime's sections yield, in the order a scan meets them. -/
def taken (process : Process) (scanner : Scanner) (provider : HModule) (magic : Signature)
    (accept : ℕ → Bytes → Option (ℕ × α)) : List α :=
  (process.readableSections provider).flatMap fun code =>
    takenFrom accept code.data (process.memory.view code)
      (scanner.findAllPattern (process.memory.view code) magic) 0

/-- The visit that records what it accepts and otherwise consumes nothing. -/
def recording (accept : ℕ → Bytes → Option (ℕ × α)) (add : σ → α → σ) (address : ℕ)
    (available : Bytes) (state : σ) : ℕ × σ :=
  match accept address available with
  | none => (0, state)
  | some (consumed, image) => (consumed, add state image)

/-- Visiting a section's matches folds over the images they yield. -/
theorem visitMatches_recording (accept : ℕ → Bytes → Option (ℕ × α)) (add : σ → α → σ) (base : ℕ)
    (bytes : Bytes) (offsets : List ℕ) (resume : ℕ) (state : σ) :
    visitMatches (recording accept add) base bytes offsets resume state =
      (takenFrom accept base bytes offsets resume).foldl add state := by
  induction offsets generalizing resume state with
  | nil => rfl
  | cons offset rest ih =>
    rw [visitMatches, takenFrom]
    by_cases hskip : offset < resume
    · rw [if_pos hskip, if_pos hskip, ih]
    · rw [if_neg hskip, if_neg hskip]
      dsimp only [recording]
      cases haccept : accept (base + offset) (bytes.drop offset) with
      | none =>
        dsimp only
        rw [Nat.add_zero, ih]
      | some found =>
        dsimp only
        rw [List.foldl_cons, ih]

/-- A scan folds over the images it accepts, in the order it meets them. -/
theorem forEachMatch_recording (process : Process) (scanner : Scanner) (provider : HModule)
    (magic : Signature) (accept : ℕ → Bytes → Option (ℕ × α)) (add : σ → α → σ) (state : σ) :
    forEachMatch process scanner provider magic (recording accept add) state =
      (taken process scanner provider magic accept).foldl add state := by
  unfold forEachMatch taken
  induction process.readableSections provider generalizing state with
  | nil => rfl
  | cons code rest ih =>
    rw [List.foldl_cons, List.flatMap_cons, List.foldl_append, ih, visitMatches_recording]

/-- What a section yields was accepted at one of its matches. -/
theorem mem_takenFrom {accept : ℕ → Bytes → Option (ℕ × α)} {base : ℕ} {bytes : Bytes}
    {offsets : List ℕ} {resume : ℕ} {image : α}
    (h : image ∈ takenFrom accept base bytes offsets resume) :
    ∃ offset ∈ offsets, ∃ consumed,
      accept (base + offset) (bytes.drop offset) = some (consumed, image) := by
  induction offsets generalizing resume with
  | nil => cases h
  | cons offset rest ih =>
    rw [takenFrom] at h
    split at h
    · obtain ⟨later, hmem, hfound⟩ := ih h
      exact ⟨later, List.mem_cons_of_mem _ hmem, hfound⟩
    · cases haccept : accept (base + offset) (bytes.drop offset) with
      | none =>
        rw [haccept] at h
        obtain ⟨later, hmem, hfound⟩ := ih h
        exact ⟨later, List.mem_cons_of_mem _ hmem, hfound⟩
      | some found =>
        rw [haccept] at h
        rcases List.mem_cons.mp h with heq | hrest
        · exact ⟨offset, List.mem_cons_self, found.1, by rw [haccept, heq]⟩
        · obtain ⟨later, hmem, hfound⟩ := ih hrest
          exact ⟨later, List.mem_cons_of_mem _ hmem, hfound⟩

/-- What a scan yields was accepted somewhere in one of the runtime's sections. -/
theorem mem_taken {process : Process} {scanner : Scanner} {provider : HModule} {magic : Signature}
    {accept : ℕ → Bytes → Option (ℕ × α)} {image : α} (hmagic : magic ≠ [])
    (h : image ∈ taken process scanner provider magic accept) :
    ∃ code ∈ process.readableSections provider, ∃ offset < code.size, ∃ consumed,
      accept (code.data + offset)
        (process.memory.bytes (code.data + offset) (code.size - offset)) = some (consumed, image) := by
  obtain ⟨code, hcode, htaken⟩ := List.mem_flatMap.mp h
  obtain ⟨offset, hoffset, consumed, haccept⟩ := mem_takenFrom htaken
  rw [scanner.findAllPattern_eq _ _ hmagic, mem_allMatches, Memory.length_view] at hoffset
  rw [Memory.view, Memory.drop_bytes] at haccept
  exact ⟨code, hcode, offset, hoffset.1, consumed, haccept⟩

/-- A scan reads nothing but the runtime's own sections. -/
theorem taken_congr {first second : Process} {scanner : Scanner} {provider : HModule}
    {magic : Signature} (accept : ℕ → Bytes → Option (ℕ × α))
    (hsections : first.readableSections provider = second.readableSections provider)
    (hbytes : ∀ code ∈ first.readableSections provider,
      first.memory.view code = second.memory.view code) :
    taken first scanner provider magic accept = taken second scanner provider magic accept := by
  unfold taken
  rw [← hsections]
  refine List.flatMap_congr fun code hcode => ?_
  rw [hbytes code hcode]

end Scan

/-- A container the scan accepts, with the images it describes. -/
structure FoundContainer where
  blob : Blob
  bytes : Bytes
  images : List Image

/-- What the scan for containers has gathered. -/
structure ContainerScan where
  /-- Every container taken, in order. -/
  containers : List Blob
  /-- The container of each stored cubin, under the hash of the whole cubin. -/
  contained : Map UInt64 Blob
  /-- Hashes met in two containers: answering either would be a guess. -/
  ambiguous : List UInt64

/-- Accept a container that states a length it has room for and describes images. -/
def acceptContainer (address : ℕ) (available : Bytes) : Option (ℕ × FoundContainer) :=
  let total := containerSize available
  if total = 0 ∨ total > available.length then none
  else
    (describe (available.take total)).map fun images =>
      (total, ⟨⟨address, total⟩, available.take total, images⟩)

/-- Remember the container of one stored cubin, unless another one claims it. -/
def recordImage (found : FoundContainer) (scan : ContainerScan) (image : Image) : ContainerScan :=
  if image.isPtx || image.compressed then scan
  else
    match fingerprint ((found.bytes.drop image.payloadOffset).take image.payloadSize) with
    | none => scan
    | some key =>
      match scan.contained.lookup key with
      | none => { scan with contained := scan.contained.insert key found.blob }
      | some entry =>
        if entry.data = found.blob.data then scan
        else { scan with ambiguous := scan.ambiguous.insert key }

/-- Remember a container and the cubins stored in it. -/
def addContainer (scan : ContainerScan) (found : FoundContainer) : ContainerScan :=
  found.images.foldl (recordImage found)
    { scan with containers := scan.containers ++ [found.blob] }

/-- The first scan of a runtime: its containers, with ambiguous cubins dropped. -/
def scanContainers (process : Process) (scanner : Scanner) (provider : HModule) : ContainerScan :=
  let scan := forEachMatch process scanner provider kFatbinSignature
    (recording acceptContainer addContainer) ⟨[], ∅, []⟩
  let unambiguous := scan.ambiguous.foldl (fun contained key => contained.erase key) scan.contained
  { scan with contained := unambiguous }

/-- Whether an address lies inside one of the containers. -/
def insideContainer (containers : List Blob) (address : ℕ) : Bool :=
  containers.any fun span => decide (span.covers address)

/-- A bare cubin the second scan accepts. -/
structure IndexedCubin where
  /-- Address of the image. -/
  data : ℕ
  identity : Identity
  deriving DecidableEq

/-- Where the image lies. -/
def IndexedCubin.blob (cubin : IndexedCubin) : Blob := ⟨cubin.data, cubin.identity.size⟩

/-- The key the image is kept under. -/
def IndexedCubin.key (cubin : IndexedCubin) : UInt64 :=
  variantKey cubin.identity.name cubin.identity.code

/-- What the scan for bare cubins has gathered. -/
structure CubinScan where
  variants : Map UInt64 (Map UInt32 Blob)
  cubins : ℕ

/-- Accept a cubin outside every container whose first kernel can be named. -/
def acceptCubin (containers : List Blob) (address : ℕ) (available : Bytes) :
    Option (ℕ × IndexedCubin) :=
  if insideContainer containers address then none
  else (identify available).map fun identity => (identity.size, ⟨address, identity⟩)

/-- Keep a cubin under its kernel's key and its architecture, in place of
whatever was there. -/
def addCubin (scan : CubinScan) (cubin : IndexedCubin) : CubinScan where
  variants := insertNested scan.variants cubin.key cubin.identity.arch cubin.blob
  cubins := scan.cubins + 1

/-- The index of a runtime and what building it found. -/
def buildIndex (process : Process) (scanner : Scanner) (provider : HModule) :
    Index × IndexSummary :=
  let containers := scanContainers process scanner provider
  let cubins := forEachMatch process scanner provider kElfSignature
    (recording (acceptCubin containers.containers) addCubin) ⟨∅, 0⟩
  let paired := cubins.variants.entries.countP fun entry => decide (entry.2.entries.length > 1)
  (⟨containers.contained, cubins.variants⟩,
    ⟨containers.containers.length, cubins.cubins, paired, containers.ambiguous.length⟩)

/-- The indexes of the runtimes indexed so far. -/
abbrev Indexes := Map HModule Index

/-- Whether a runtime has been indexed. -/
def providerIndexed (indexes : Indexes) (provider : Option HModule) : Bool :=
  (provider.bind fun provider => indexes.lookup provider).isSome

/-- Index a runtime that has not been indexed. -/
def buildProviderIndex (process : Process) (scanner : Scanner) (indexes : Indexes)
    (provider : Option HModule) : Option IndexSummary × Indexes :=
  match provider with
  | none => (none, indexes)
  | some runtime =>
    if providerIndexed indexes provider then (none, indexes)
    else
      let built := buildIndex process scanner runtime
      (some built.2, indexes.insert runtime built.1)

/-- The one indexed runtime, when exactly one is indexed. -/
def soleIndexedProvider (indexes : Indexes) : Option HModule :=
  match indexes.entries with
  | [entry] => some entry.1
  | _ => none

/-- A runtime's own cubin for an architecture, matching the kernel the given
cubin belongs to. A null cubin is an empty one. -/
def findNativeCubin (indexes : Indexes) (provider : Option HModule) (cubin : Bytes)
    (arch : UInt32) : Option Blob :=
  provider.bind fun provider =>
    (identify cubin).bind fun identity =>
      (indexes.lookup provider).bind fun index =>
        lookupNested index.variants (variantKey identity.name identity.code) arch

/-- The container a cubin was taken from. A null cubin is an empty one. -/
def findContainerForCubin (indexes : Indexes) (provider : Option HModule) (cubin : Bytes) :
    Option Blob :=
  provider.bind fun provider =>
    if cubin.isEmpty then none
    else
      (fingerprint cubin).bind fun key =>
        (indexes.lookup provider).bind fun index => index.containers.lookup key

end OpenDlssg.ProviderIndex
