import OpenDlssg.RewrittenStores
import OpenDlssg.TransitionRuns

/-!
# Patching code that other threads are running

A patch of running code reads the aligned word it lies in, changes its bytes in
a copy and exchanges the word. Where the patch fits a word the result is that
of writing its bytes in place; elsewhere nothing is written. Several plugins
may be patched at once, each by one thread, and what any thread fetches from a
patched range is the old code or the new.
-/

namespace OpenDlssg.RunningCode

open ByteCodec ProcessMemory PluginAnalysis RewrittenStores TransitionRuns

/-! ### One patch -/

/-- The source's `kWordSize`. -/
def wordSize : ℕ := 8

/-- The aligned word an address lies in. -/
def wordStart (address : ℕ) : ℕ := address - address % wordSize

/-- The bytes lie in one aligned word. -/
def FitsWord (address size : ℕ) : Prop :=
  size ≠ 0 ∧ address + size ≤ wordStart address + wordSize

instance (address size : ℕ) : Decidable (FitsWord address size) :=
  inferInstanceAs (Decidable (_ ∧ _))

/-- A word with some of its bytes replaced. -/
def spliced (word : UInt64) (offset : ℕ) (bs : Bytes) : UInt64 :=
  let raw := Codec.u64.encode word
  Codec.u64.decode (raw.take offset ++ bs ++ raw.drop (offset + bs.length))

/-- The word at an address. -/
def wordAt (memory : Memory) (address : ℕ) : UInt64 :=
  Codec.u64.decode (memory.bytes address wordSize)

/-- Store a word in one access. -/
def exchange (memory : Memory) (address : ℕ) (word : UInt64) : Memory :=
  memory.write address (Codec.u64.encode word)

/-- The source's `PatchCode`, by whether the page may be written. -/
def patchCode (protects : Bool) (memory : Memory) (address : ℕ) (bs : Bytes) : Option Memory :=
  if protects then some (memory.write address bs) else none

/-- The source's `PatchRunningCode`, with no other thread writing the word
between its read and its exchange. -/
def patchRunningCode (protects : Bool) (memory : Memory) (address : ℕ) (bs : Bytes) :
    Option Memory :=
  if ¬FitsWord address bs.length then none
  else if !protects then none
  else
    let start := wordStart address
    some (exchange memory start (spliced (wordAt memory start) (address - start) bs))

/-- A word begins no later than what lies in it. -/
theorem wordStart_le (address : ℕ) : wordStart address ≤ address := Nat.sub_le _ _

/-- An address lies in its word. -/
theorem lt_wordStart_add (address : ℕ) : address < wordStart address + wordSize := by
  have hmod := Nat.mod_lt address (show 0 < wordSize by decide)
  have hle := Nat.mod_le address wordSize
  unfold wordStart
  omega

/-- The bytes of a word are those at its address. -/
theorem encode_wordAt (memory : Memory) (address : ℕ) :
    Codec.u64.encode (wordAt memory address) = memory.bytes address wordSize := by
  have hlength : (memory.bytes address wordSize).length = wordSize := Memory.length_bytes _ _ _
  rw [wordAt, Codec.u64.encode_decode _ (by rw [hlength]; exact le_refl _)]
  exact List.take_of_length_le (by rw [hlength]; exact le_refl _)

/-- A word whose bytes are replaced holds the bytes before them, the new ones
and the bytes behind them. -/
theorem encode_spliced {memory : Memory} {start offset : ℕ} {bs : Bytes}
    (hfits : offset + bs.length ≤ wordSize) :
    Codec.u64.encode (spliced (wordAt memory start) offset bs) =
      memory.bytes start offset ++ bs ++
        memory.bytes (start + (offset + bs.length)) (wordSize - (offset + bs.length)) := by
  have hraw : (memory.bytes start wordSize).take offset ++ bs ++
      (memory.bytes start wordSize).drop (offset + bs.length) =
        memory.bytes start offset ++ bs ++
          memory.bytes (start + (offset + bs.length)) (wordSize - (offset + bs.length)) := by
    rw [Memory.take_bytes, Memory.drop_bytes, min_eq_left (by omega)]
  have hlength : (memory.bytes start offset ++ bs ++
      memory.bytes (start + (offset + bs.length)) (wordSize - (offset + bs.length))).length =
        wordSize := by
    simp only [List.length_append, Memory.length_bytes]
    omega
  simp only [spliced, encode_wordAt]
  rw [hraw, Codec.u64.encode_decode _ (by rw [hlength]; exact le_refl _)]
  exact List.take_of_length_le (by rw [hlength]; exact le_refl _)

/-- Writing what is there already, on both sides of some bytes, writes only
those. -/
theorem write_within (memory : Memory) (start m n : ℕ) (bs : Bytes) :
    memory.write start (memory.bytes start m ++ bs ++ memory.bytes (start + (m + bs.length)) n) =
      memory.write (start + m) bs := by
  have hbyte : ∀ a, (memory.write start
      (memory.bytes start m ++ bs ++ memory.bytes (start + (m + bs.length)) n)).byte a =
        (memory.write (start + m) bs).byte a := by
    intro a
    simp only [Memory.write, List.length_append, Memory.length_bytes]
    by_cases hbefore : a < start + m
    · rw [if_neg (show ¬(start + m ≤ a ∧ a < start + m + bs.length) by omega)]
      split
      · rename_i hin
        have hi : a - start < (memory.bytes start m).length := by
          rw [Memory.length_bytes]
          omega
        rw [List.append_assoc, List.getD_append _ _ _ _ hi, List.getD_eq_getElem _ _ hi,
          Memory.getElem_bytes, Nat.add_sub_of_le hin.1]
      · rfl
    · by_cases hafter : a < start + m + bs.length
      · rw [if_pos (show start ≤ a ∧ a < start + (m + bs.length + n) by omega),
          if_pos (show start + m ≤ a ∧ a < start + m + bs.length by omega)]
        have hleft : (memory.bytes start m).length ≤ a - start := by
          rw [Memory.length_bytes]
          omega
        have hi : a - start - (memory.bytes start m).length < bs.length := by
          rw [Memory.length_bytes]
          omega
        rw [List.append_assoc, List.getD_append_right _ _ _ _ hleft, List.getD_append _ _ _ _ hi,
          Memory.length_bytes, Nat.sub_sub]
      · rw [if_neg (show ¬(start + m ≤ a ∧ a < start + m + bs.length) by omega)]
        split
        · rename_i hin
          have hleft : (memory.bytes start m ++ bs).length ≤ a - start := by
            rw [List.length_append, Memory.length_bytes]
            omega
          have hi : a - start - (memory.bytes start m ++ bs).length <
              (memory.bytes (start + (m + bs.length)) n).length := by
            rw [List.length_append, Memory.length_bytes, Memory.length_bytes]
            omega
          rw [List.getD_append_right _ _ _ _ hleft, List.getD_eq_getElem _ _ hi,
            Memory.getElem_bytes]
          congr 1
          rw [List.length_append, Memory.length_bytes]
          omega
        · rfl
  have hbytes : (memory.write start
      (memory.bytes start m ++ bs ++ memory.bytes (start + (m + bs.length)) n)).byte =
        (memory.write (start + m) bs).byte := funext hbyte
  exact congrArg (fun byte => { memory with byte := byte }) hbytes

/-- Exchanging the word of a patch that fits it writes the patch and nothing
else. -/
theorem exchange_spliced {memory : Memory} {address : ℕ} {bs : Bytes}
    (hfits : FitsWord address bs.length) :
    exchange memory (wordStart address)
      (spliced (wordAt memory (wordStart address)) (address - wordStart address) bs) =
        memory.write address bs := by
  have hle := wordStart_le address
  have hend := hfits.2
  rw [exchange, encode_spliced (by omega), write_within, Nat.add_sub_of_le hle]

/-- Where a patch of running code writes at all it is the plain one. -/
theorem patchRunningCode_eq (protects : Bool) (memory : Memory) (address : ℕ) (bs : Bytes) :
    patchRunningCode protects memory address bs =
      if FitsWord address bs.length then patchCode protects memory address bs else none := by
  unfold patchRunningCode patchCode
  by_cases hfits : FitsWord address bs.length
  · rw [if_neg (not_not.mpr hfits), if_pos hfits]
    cases protects with
    | true => exact congrArg some (exchange_spliced hfits)
    | false => rfl
  · rw [if_pos hfits, if_neg hfits]

/-! ### Several plugins at once -/

/-- Where the patching of one plugin is. -/
inductive JobPc
  /-- these patches are still to be written -/
  | next (todo : List Rewrite)
  /-- the page may be written, and the word is read next -/
  | read (rewrite : Rewrite) (todo : List Rewrite)
  /-- the word read goes back with the patch in it -/
  | exchange (rewrite : Rewrite) (word : UInt64) (todo : List Rewrite)
  deriving DecidableEq

/-- The patching of a mapped plugin: the patches asked for, and those tried so
far with whether each was written. -/
structure Job where
  image : Span
  asked : List Rewrite
  pc : JobPc
  tried : List (Rewrite × Bool) := []
  deriving DecidableEq

/-- The patches not tried yet. -/
def JobPc.pending : JobPc → List Rewrite
  | .next todo => todo
  | .read rewrite todo => rewrite :: todo
  | .exchange rewrite _ todo => rewrite :: todo

/-- The patches a job has written. -/
def Job.written (job : Job) : List Rewrite := (job.tried.filter Prod.snd).map Prod.fst

/-- The memory all threads share, the jobs under way and finished, and every
patch written, in the order of the exchanges. -/
structure State where
  memory : Memory
  jobs : ℕ → Option Job := fun _ => none
  written : List Rewrite := []

/-- A plugin's patching begins, or takes a step in which its page may or may not
be written. -/
inductive Action
  | start (i : ℕ) (image : Span) (rewrites : List Rewrite)
  | advance (i : ℕ) (protects : Bool)

/-- The next step of a job. -/
def jobStep (memory : Memory) (protects : Bool) (job : Job) :
    Option (Job × Memory × List Rewrite) :=
  match job.pc with
  | .next [] => none
  | .next (rewrite :: todo) =>
    if FitsWord rewrite.address rewrite.bytes.length ∧ protects = true then
      some ({ job with pc := .read rewrite todo }, memory, [])
    else
      some ({ job with pc := .next todo, tried := job.tried ++ [(rewrite, false)] }, memory, [])
  | .read rewrite todo =>
    let word := wordAt memory (wordStart rewrite.address)
    some ({ job with pc := .exchange rewrite word todo }, memory, [])
  | .exchange rewrite word todo =>
    let start := wordStart rewrite.address
    let replaced := spliced word (rewrite.address - start) rewrite.bytes
    some ({ job with pc := .next todo, tried := job.tried ++ [(rewrite, true)] },
      RunningCode.exchange memory start replaced, [rewrite])

/-- The system of all jobs over a process. -/
def system (initial : Memory) : System State Action where
  init s := s = { memory := initial }
  step s action :=
    match action with
    | .start i image rewrites =>
      if s.jobs i = none then
        some { s with
          jobs := Function.update s.jobs i (some { image, asked := rewrites, pc := .next rewrites }) }
      else none
    | .advance i protects =>
      (s.jobs i).bind fun job =>
        (jobStep s.memory protects job).map fun next =>
          { memory := next.2.1
            jobs := Function.update s.jobs i (some next.1)
            written := s.written ++ next.2.2 }

/-- Two images have no address in common. -/
def Apart (first second : Span) : Prop :=
  first.data + first.size ≤ second.data ∨ second.data + second.size ≤ first.data

instance (first second : Span) : Decidable (Apart first second) :=
  inferInstanceAs (Decidable (_ ∨ _))

/-- Images are mapped in whole pages. -/
def Aligned (image : Span) : Prop := image.data % wordSize = 0 ∧ image.size % wordSize = 0

instance (image : Span) : Decidable (Aligned image) := inferInstanceAs (Decidable (_ ∧ _))

/-- A patch lies in an image. -/
def Inside (image : Span) (rewrite : Rewrite) : Prop :=
  image.data ≤ rewrite.address ∧
    rewrite.address + rewrite.bytes.length ≤ image.data + image.size

instance (image : Span) (rewrite : Rewrite) : Decidable (Inside image rewrite) :=
  inferInstanceAs (Decidable (_ ∧ _))

/-- Each job patches an image of its own. -/
def OwnImage (s : State) : Action → Prop
  | .start _ image rewrites =>
    Aligned image ∧ (∀ rewrite ∈ rewrites, Inside image rewrite) ∧
      ∀ j job, s.jobs j = some job → Apart image job.image
  | .advance _ _ => True

/-- A step of a job leaves its image and what was asked of it as they are. -/
theorem jobStep_kept {memory memory' : Memory} {protects : Bool} {job job' : Job}
    {now : List Rewrite} (h : jobStep memory protects job = some (job', memory', now)) :
    job'.image = job.image ∧ job'.asked = job.asked := by
  unfold jobStep at h
  split at h
  · cases h
  · split at h <;> cases h <;> exact ⟨rfl, rfl⟩
  · cases h
    exact ⟨rfl, rfl⟩
  · cases h
    exact ⟨rfl, rfl⟩

/-! ### What is known of a job -/

/-- What a job may rely on, given the process's memory. -/
structure Job.Ok (initial memory : Memory) (job : Job) : Prop where
  aligned : Aligned job.image
  asked : job.asked = job.tried.map Prod.fst ++ job.pc.pending
  inside : ∀ rewrite ∈ job.asked, Inside job.image rewrite
  fits : ∀ rewrite todo, job.pc = .read rewrite todo →
    FitsWord rewrite.address rewrite.bytes.length
  current : ∀ rewrite word todo, job.pc = .exchange rewrite word todo →
    FitsWord rewrite.address rewrite.bytes.length ∧
      word = wordAt memory (wordStart rewrite.address)
  content : ∀ a, job.image.covers a → memory.byte a = (applyRewrites initial job.written).byte a

/-- The last patch is written over what the others leave. -/
theorem applyRewrites_concat (memory : Memory) (rewrites : List Rewrite) (rewrite : Rewrite) :
    applyRewrites memory (rewrites ++ [rewrite]) =
      (applyRewrites memory rewrites).write rewrite.address rewrite.bytes := by
  simp [applyRewrites]

/-- A write does the same to equal bytes. -/
theorem byte_write_congr {first second : Memory} {a : ℕ} (address : ℕ) (bs : Bytes)
    (h : first.byte a = second.byte a) :
    (first.write address bs).byte a = (second.write address bs).byte a := by
  simp only [Memory.write]
  split
  · rfl
  · exact h

/-- The word of a patch lies in the patch's image. -/
theorem word_inside {image : Span} (haligned : Aligned image) {rewrite : Rewrite}
    (hinside : Inside image rewrite)
    (hfits : FitsWord rewrite.address rewrite.bytes.length) :
    image.data ≤ wordStart rewrite.address ∧
      wordStart rewrite.address + wordSize ≤ image.data + image.size := by
  obtain ⟨hdata, hsize⟩ := haligned
  obtain ⟨hlow, hhigh⟩ := hinside
  have hsome : 0 < rewrite.bytes.length := Nat.pos_of_ne_zero hfits.1
  simp only [wordStart, wordSize] at hdata hsize ⊢
  omega

/-- What a write outside an image leaves of a job. -/
theorem Job.Ok.of_apart {initial memory : Memory} {job : Job} (h : job.Ok initial memory)
    {rewrite : Rewrite} {image : Span} (hinside : Inside image rewrite)
    (hapart : Apart image job.image) :
    job.Ok initial (memory.write rewrite.address rewrite.bytes) := by
  have hout : ∀ a, job.image.covers a → a < rewrite.address ∨
      rewrite.address + rewrite.bytes.length ≤ a := by
    intro a ha
    obtain ⟨hlow, hhigh⟩ := hinside
    obtain ⟨hfirst, hlast⟩ := ha
    rcases hapart with hbefore | hafter
    · exact .inr (by omega)
    · exact .inl (by omega)
  refine ⟨h.aligned, h.asked, h.inside, h.fits, ?_, ?_⟩
  · intro other word todo hpc
    obtain ⟨hfits, hword⟩ := h.current other word todo hpc
    refine ⟨hfits, ?_⟩
    have hother : other ∈ job.asked := by
      rw [h.asked, hpc]
      exact List.mem_append_right _ List.mem_cons_self
    obtain ⟨hlow, hhigh⟩ := word_inside h.aligned (h.inside other hother) hfits
    have hsame : memory.bytes (wordStart other.address) wordSize =
        (memory.write rewrite.address rewrite.bytes).bytes (wordStart other.address) wordSize := by
      apply Memory.bytes_congr
      intro i hi
      refine (Memory.byte_write_of_not_covered (hout _ ⟨?_, ?_⟩)).symm
      · omega
      · omega
    rw [hword, wordAt, wordAt, hsame]
  · intro a ha
    rw [Memory.byte_write_of_not_covered (hout a ha)]
    exact h.content a ha

/-- A job steps on, over the memory it leaves. -/
theorem Job.Ok.step {initial memory memory' : Memory} {protects : Bool} {job job' : Job}
    {now : List Rewrite} (h : job.Ok initial memory)
    (hstep : jobStep memory protects job = some (job', memory', now)) :
    job'.Ok initial memory' ∧
      ((memory' = memory ∧ now = []) ∨
        ∃ rewrite, now = [rewrite] ∧ Inside job.image rewrite ∧
          memory' = memory.write rewrite.address rewrite.bytes) := by
  have hasked := h.asked
  unfold jobStep at hstep
  split at hstep
  · cases hstep
  · rename_i rewrite todo hpc
    rw [hpc, JobPc.pending] at hasked
    split at hstep
    · rename_i hfits
      cases hstep
      refine ⟨⟨h.aligned, hasked, h.inside, ?_, nofun, h.content⟩, .inl ⟨rfl, rfl⟩⟩
      intro other rest heq
      cases heq
      exact hfits.1
    · cases hstep
      refine ⟨⟨h.aligned, ?_, h.inside, nofun, nofun, ?_⟩, .inl ⟨rfl, rfl⟩⟩
      · simpa [JobPc.pending] using hasked
      · simpa [Job.written] using h.content
  · rename_i rewrite todo hpc
    rw [hpc, JobPc.pending] at hasked
    cases hstep
    refine ⟨⟨h.aligned, hasked, h.inside, nofun, ?_, h.content⟩, .inl ⟨rfl, rfl⟩⟩
    intro other word rest heq
    cases heq
    exact ⟨h.fits rewrite todo hpc, rfl⟩
  · rename_i rewrite word todo hpc
    rw [hpc, JobPc.pending] at hasked
    obtain ⟨hfits, hword⟩ := h.current rewrite word todo hpc
    have hinside : Inside job.image rewrite := h.inside rewrite (by
      rw [hasked]
      exact List.mem_append_right _ List.mem_cons_self)
    -- the word read is still the one in memory, so no other patch is undone
    have hmemory : RunningCode.exchange memory (wordStart rewrite.address)
        (spliced word (rewrite.address - wordStart rewrite.address) rewrite.bytes) =
          memory.write rewrite.address rewrite.bytes := by
      rw [hword]
      exact exchange_spliced hfits
    dsimp only at hstep
    rw [hmemory] at hstep
    cases hstep
    refine ⟨⟨h.aligned, ?_, h.inside, nofun, nofun, ?_⟩, .inr ⟨rewrite, rfl, hinside, rfl⟩⟩
    · simpa [JobPc.pending] using hasked
    · intro a ha
      have hwritten : Job.written { job with
          pc := .next todo, tried := job.tried ++ [(rewrite, true)] } =
            job.written ++ [rewrite] := by
        simp [Job.written]
      rw [hwritten, applyRewrites_concat]
      exact byte_write_congr _ _ (h.content a ha)

/-! ### Every run -/

/-- What holds in every state. -/
structure Invariant (initial : Memory) (s : State) : Prop where
  memory : s.memory = applyRewrites initial s.written
  ok : ∀ i job, s.jobs i = some job → job.Ok initial s.memory
  apart : ∀ i j job other, i ≠ j → s.jobs i = some job → s.jobs j = some other →
    Apart job.image other.image
  outside : ∀ a, (∀ i job, s.jobs i = some job → ¬job.image.covers a) →
    s.memory.byte a = initial.byte a

/-- Images lie apart from each other. -/
theorem Apart.symm {first second : Span} (h : Apart first second) : Apart second first := Or.symm h

section Steps

variable {initial : Memory} {s : State} {i : ℕ}

/-- The image of a job that begins is that of the process, no patch having been
written there. -/
theorem Invariant.start (h : Invariant initial s) {image : Span} {rewrites : List Rewrite}
    (hfree : s.jobs i = none) (hown : OwnImage s (.start i image rewrites)) :
    Invariant initial { s with
      jobs := Function.update s.jobs i (some { image, asked := rewrites, pc := .next rewrites }) } := by
  obtain ⟨haligned, hinside, hapart⟩ := hown
  refine ⟨h.memory, ?_, ?_, ?_⟩
  · intro j job hj
    dsimp only at hj ⊢
    by_cases hji : j = i
    · rw [hji, Function.update_self] at hj
      cases hj
      refine ⟨haligned, rfl, hinside, nofun, nofun, ?_⟩
      intro a ha
      refine h.outside a ?_
      intro k other hk hcovers
      rcases hapart k other hk with hbefore | hafter
      · exact absurd (lt_of_lt_of_le ha.2 hbefore) (not_lt.mpr hcovers.1)
      · exact absurd (lt_of_lt_of_le hcovers.2 hafter) (not_lt.mpr ha.1)
    · rw [Function.update_of_ne hji] at hj
      exact h.ok j job hj
  · intro j k job other hjk hj hk
    dsimp only at hj hk
    by_cases hji : j = i
    · rw [hji, Function.update_self] at hj
      cases hj
      rw [Function.update_of_ne (by rintro rfl; exact hjk hji)] at hk
      exact hapart k other hk
    · rw [Function.update_of_ne hji] at hj
      by_cases hki : k = i
      · rw [hki, Function.update_self] at hk
        cases hk
        exact (hapart j job hj).symm
      · rw [Function.update_of_ne hki] at hk
        exact h.apart j k job other hjk hj hk
  · intro a ha
    refine h.outside a fun j job hj => ha j job ?_
    dsimp only
    rw [Function.update_of_ne]
    · exact hj
    · rintro rfl
      rw [hfree] at hj
      cases hj

/-- A step of one job leaves the others what they rely on. -/
theorem Invariant.advance (h : Invariant initial s) {protects : Bool} {job job' : Job}
    {memory' : Memory} {now : List Rewrite} (hjob : s.jobs i = some job)
    (hstep : jobStep s.memory protects job = some (job', memory', now)) :
    Invariant initial ⟨memory', Function.update s.jobs i (some job'), s.written ++ now⟩ := by
  obtain ⟨hok, hwrote⟩ := (h.ok i job hjob).step hstep
  obtain ⟨himage, _⟩ := jobStep_kept hstep
  have himages : ∀ j other, Function.update s.jobs i (some job') j = some other →
      ∃ before, s.jobs j = some before ∧ before.image = other.image := by
    intro j other hj
    by_cases hji : j = i
    · rw [hji, Function.update_self] at hj
      cases hj
      exact ⟨job, by rw [hji]; exact hjob, himage.symm⟩
    · rw [Function.update_of_ne hji] at hj
      exact ⟨other, hj, rfl⟩
  refine ⟨?_, ?_, ?_, ?_⟩
  · dsimp only
    rcases hwrote with ⟨hmemory, hnow⟩ | ⟨rewrite, hnow, _, hmemory⟩
    · rw [hmemory, hnow, List.append_nil]
      exact h.memory
    · rw [hmemory, hnow, applyRewrites_concat, h.memory]
  · intro j other hj
    dsimp only at hj ⊢
    by_cases hji : j = i
    · rw [hji, Function.update_self] at hj
      cases hj
      exact hok
    · rw [Function.update_of_ne hji] at hj
      have hother := h.ok j other hj
      rcases hwrote with ⟨hmemory, _⟩ | ⟨rewrite, _, hinside, hmemory⟩
      · rw [hmemory]
        exact hother
      · rw [hmemory]
        exact hother.of_apart hinside (h.apart i j job other (Ne.symm hji) hjob hj)
  · intro j k first second hjk hj hk
    obtain ⟨first', hfirst, hsame⟩ := himages j first hj
    obtain ⟨second', hsecond, hsame'⟩ := himages k second hk
    rw [← hsame, ← hsame']
    exact h.apart j k first' second' hjk hfirst hsecond
  · intro a ha
    have hbefore : ∀ j other, s.jobs j = some other → ¬other.image.covers a := by
      intro j other hj
      by_cases hji : j = i
      · rw [hji, hjob] at hj
        cases hj
        rw [← himage]
        exact ha i job' (Function.update_self _ _ _)
      · refine ha j other ?_
        dsimp only
        rw [Function.update_of_ne hji]
        exact hj
    dsimp only
    rcases hwrote with ⟨hmemory, _⟩ | ⟨rewrite, _, hinside, hmemory⟩
    · rw [hmemory]
      exact h.outside a hbefore
    · have hout : a < rewrite.address ∨ rewrite.address + rewrite.bytes.length ≤ a := by
        have hnot := hbefore i job hjob
        obtain ⟨hlow, hhigh⟩ := hinside
        by_contra hin
        push Not at hin
        exact hnot ⟨by omega, by omega⟩
      rw [hmemory, Memory.byte_write_of_not_covered hout]
      exact h.outside a hbefore

end Steps

/-- The invariant holds in every state of a run whose jobs patch images of their
own. -/
theorem invariant_of_reachable {initial : Memory} {s : State}
    (h : (system initial).ReachableUnder OwnImage s) : Invariant initial s := by
  refine h.invariant (Invariant initial) ?_ ?_
  · intro s hs
    have hs : s = { memory := initial } := hs
    rw [hs]
    exact ⟨rfl, nofun, nofun, fun _ _ => rfl⟩
  · intro s action t hs hown ht
    cases action with
    | start i image rewrites =>
      dsimp only [system] at ht
      split at ht
      · rename_i hfree
        cases ht
        exact hs.start hfree hown
      · cases ht
    | advance i protects =>
      obtain ⟨job, hjob, hnext⟩ := Option.bind_eq_some_iff.mp ht
      obtain ⟨⟨job', memory', now⟩, hstep, rfl⟩ := Option.map_eq_some_iff.mp hnext
      exact hs.advance hjob hstep

/-- No patch is lost: at any moment memory is what the patches exchanged so far
leave when their bytes are written one after another, and the image of a job is
what that job's own patches leave. -/
theorem patches_serialised {initial : Memory} {s : State}
    (h : (system initial).ReachableUnder OwnImage s) :
    s.memory = applyRewrites initial s.written ∧
      (∀ i job, s.jobs i = some job → ∀ a, job.image.covers a →
        s.memory.byte a = (applyRewrites initial job.written).byte a) ∧
      ∀ a, (∀ i job, s.jobs i = some job → ¬job.image.covers a) →
        s.memory.byte a = initial.byte a := by
  have hinvariant := invariant_of_reachable h
  exact ⟨hinvariant.memory, fun i job hjob => (hinvariant.ok i job hjob).content,
    hinvariant.outside⟩

/-! ### What a thread fetches -/

/-- Two patches have no byte in common. -/
def Disjoint (first second : Rewrite) : Prop :=
  first.address + first.bytes.length ≤ second.address ∨
    second.address + second.bytes.length ≤ first.address

/-- So do patches. -/
theorem Disjoint.symm {first second : Rewrite} (h : Disjoint first second) :
    Disjoint second first := Or.symm h

instance : Std.Symm Disjoint := ⟨fun _ _ => Disjoint.symm⟩

instance (first second : Rewrite) : Decidable (Disjoint first second) :=
  inferInstanceAs (Decidable (_ ∨ _))

/-- Patches elsewhere leave a range alone. -/
theorem bytes_applyRewrites_of_disjoint {rewrites : List Rewrite} {rewrite : Rewrite}
    (hdisjoint : ∀ other ∈ rewrites, Disjoint other rewrite) (memory : Memory) :
    (applyRewrites memory rewrites).bytes rewrite.address rewrite.bytes.length =
      memory.bytes rewrite.address rewrite.bytes.length := by
  induction rewrites generalizing memory with
  | nil => rfl
  | cons other rewrites ih =>
    have hother : Disjoint other rewrite := hdisjoint other List.mem_cons_self
    have hstep : applyRewrites memory (other :: rewrites) =
        applyRewrites (memory.write other.address other.bytes) rewrites := rfl
    rw [hstep, ih (fun later hlater => hdisjoint later (List.mem_cons_of_mem _ hlater)),
      Memory.bytes_write_of_disjoint (Or.symm hother)]

/-- A patch among disjoint ones is there in the end. -/
theorem bytes_applyRewrites_of_mem {rewrites : List Rewrite} (hdisjoint : rewrites.Pairwise Disjoint)
    {rewrite : Rewrite} (hmem : rewrite ∈ rewrites) (memory : Memory) :
    (applyRewrites memory rewrites).bytes rewrite.address rewrite.bytes.length =
      rewrite.bytes := by
  induction rewrites generalizing memory with
  | nil => cases hmem
  | cons other rewrites ih =>
    obtain ⟨hother, hrest⟩ := List.pairwise_cons.mp hdisjoint
    have hstep : applyRewrites memory (other :: rewrites) =
        applyRewrites (memory.write other.address other.bytes) rewrites := rfl
    rw [hstep]
    rcases List.mem_cons.mp hmem with rfl | hmem
    · rw [bytes_applyRewrites_of_disjoint fun later hlater => (hother later hlater).symm,
        Memory.bytes_write_self]
    · exact ih hrest hmem _

/-- A patch is written where it was tried and succeeded. -/
theorem mem_written {job : Job} {rewrite : Rewrite} :
    rewrite ∈ job.written ↔ (rewrite, true) ∈ job.tried := by
  simp [Job.written]

/-- The patches written are among those tried, in their order. -/
theorem written_sublist (job : Job) : job.written.Sublist (job.tried.map Prod.fst) :=
  List.Sublist.map _ List.filter_sublist

/-- Whenever a thread reads the range of a patch it finds the patch whole, once
its exchange is done, and until then the code as it was mapped, where the patches
of a job do not overlap. -/
theorem never_torn {initial : Memory} {s : State}
    (h : (system initial).ReachableUnder OwnImage s) {i : ℕ} {job : Job}
    (hjob : s.jobs i = some job) (hdisjoint : job.asked.Pairwise Disjoint) {rewrite : Rewrite}
    (hasked : rewrite ∈ job.asked) :
    s.memory.bytes rewrite.address rewrite.bytes.length =
      if (rewrite, true) ∈ job.tried then rewrite.bytes
      else initial.bytes rewrite.address rewrite.bytes.length := by
  have hok := (invariant_of_reachable h).ok i job hjob
  have htried : (job.tried.map Prod.fst).Sublist job.asked := by
    rw [hok.asked]
    exact List.sublist_append_left _ _
  have hwritten : job.written.Sublist job.asked := (written_sublist job).trans htried
  have hcontent : s.memory.bytes rewrite.address rewrite.bytes.length =
      (applyRewrites initial job.written).bytes rewrite.address rewrite.bytes.length := by
    apply Memory.bytes_congr
    intro k hk
    obtain ⟨hlow, hhigh⟩ := hok.inside rewrite hasked
    exact hok.content _ ⟨by omega, by omega⟩
  rw [hcontent]
  split
  · rename_i hdone
    exact bytes_applyRewrites_of_mem (hdisjoint.sublist hwritten) (mem_written.mpr hdone) initial
  · rename_i hdone
    refine bytes_applyRewrites_of_disjoint ?_ initial
    intro other hother
    refine hdisjoint.forall (hwritten.subset hother) hasked ?_
    rintro rfl
    exact hdone (mem_written.mp hother)

/-! ### Two plugins patched at once -/

/-- A process of no-operations. -/
def nops : Memory := { byte := fun _ => 0x90, readable := fun _ => true }

/-- An image of four words. -/
def firstImage : Span := ⟨0x1000, 32⟩

/-- An image of two. -/
def secondImage : Span := ⟨0x2000, 16⟩

/-- The second of these spans two words. -/
def firstPatches : List Rewrite := [⟨0x1001, [1, 2, 3]⟩, ⟨0x1006, [4, 5, 6]⟩, ⟨0x1010, [7]⟩]

/-- A patch of the second image. -/
def secondPatches : List Rewrite := [⟨0x2004, [8, 9]⟩]

/-- The job that patches the first image. -/
def firstJob : Job := { image := firstImage, asked := firstPatches, pc := .next firstPatches }

/-- And the one that patches the second. -/
def secondJob : Job := { image := secondImage, asked := secondPatches, pc := .next secondPatches }

/-- Both jobs have begun. -/
def begun : State where
  memory := nops
  jobs := Function.update (Function.update (fun _ => none) 0 (some firstJob)) 1 (some secondJob)

/-- Both jobs begin on images of their own. -/
theorem begun_reachable : (system nops).ReachableUnder OwnImage begun := by
  have hfirst : OwnImage { memory := nops } (.start 0 firstImage firstPatches) :=
    ⟨by decide, by decide, nofun⟩
  have hreach : (system nops).ReachableUnder OwnImage
      { memory := nops, jobs := Function.update (fun _ => none) 0 (some firstJob) } :=
    .next (.start rfl) hfirst rfl
  refine .next (a := .start 1 secondImage secondPatches) hreach ⟨by decide, by decide, ?_⟩ rfl
  intro j job hj
  dsimp only at hj
  by_cases hj0 : j = 0
  · rw [hj0, Function.update_self] at hj
    cases hj
    decide
  · rw [Function.update_of_ne hj0] at hj
    cases hj

/-- Each job reads its word before the other writes, and the page of the third
patch is refused. -/
def bothRun : List Action :=
  [.advance 0 true, .advance 1 true, .advance 0 true, .advance 1 true, .advance 0 true,
    .advance 1 true, .advance 0 true, .advance 0 false]

/-- Where it ends. -/
def bothState : State := ((system nops).runUnder (fun _ _ => True) begun bothRun).getD begun

/-- Their interleaving is a run. -/
theorem bothState_reachable : (system nops).ReachableUnder OwnImage bothState := by
  have hsome : ((system nops).runUnder (fun _ _ => True) begun bothRun).isSome = true := by
    decide +kernel
  obtain ⟨t, ht⟩ := Option.isSome_iff_exists.mp hsome
  rw [bothState, ht, Option.getD_some]
  refine System.reachable_of_always ?_ begun_reachable ht
  intro action haction s
  have hadvance : ∀ action ∈ bothRun, ∃ i protects, action = .advance i protects := by
    simp [bothRun]
  obtain ⟨i, protects, rfl⟩ := hadvance action haction
  trivial

/-- Both patches that fit a word are there, and nothing of the other two. -/
example : (bothState.jobs 0).map Job.tried =
      some [(⟨0x1001, [1, 2, 3]⟩, true), (⟨0x1006, [4, 5, 6]⟩, false), (⟨0x1010, [7]⟩, false)] ∧
    bothState.memory.bytes 0x1000 8 = [0x90, 1, 2, 3, 0x90, 0x90, 0x90, 0x90] := by
  decide +kernel

/-- Its memory is what the patches written leave. -/
theorem patches_serialised_both : bothState.memory = applyRewrites nops bothState.written :=
  (patches_serialised bothState_reachable).1

/-- The patch that fits no word has left its range as it was mapped. -/
theorem never_torn_both : bothState.memory.bytes 0x1006 3 = nops.bytes 0x1006 3 := by
  have hjob : bothState.jobs 0 = some { firstJob with
      pc := .next []
      tried := [(⟨0x1001, [1, 2, 3]⟩, true), (⟨0x1006, [4, 5, 6]⟩, false),
        (⟨0x1010, [7]⟩, false)] } := by
    decide +kernel
  have hrange := never_torn bothState_reachable hjob (by decide)
    (List.mem_cons_of_mem _ List.mem_cons_self)
  exact hrange.trans (if_neg (by decide))

end OpenDlssg.RunningCode
