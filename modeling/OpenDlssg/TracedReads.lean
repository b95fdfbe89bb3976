import OpenDlssg.ProcessMemory

/-!
# Computations over memory and what they read

A computation over memory comes with the spans it reads, and depends on nothing
else: a memory that agrees on them gives the same result and the same spans. The
rules say when a sequence of computations reads inside a span only.
-/

namespace OpenDlssg.TracedReads

open ByteCodec ProcessMemory

/-- A span lies inside another. -/
structure Within (part whole : Span) : Prop where
  start : whole.data ≤ part.data
  stop : part.data + part.size ≤ whole.data + whole.size

/-- A part of a span covers no more than the span. -/
theorem Within.covers {part whole : Span} (h : Within part whole) {address : ℕ}
    (hcovered : part.covers address) : whole.covers address :=
  ⟨h.start.trans hcovered.1, hcovered.2.trans_le h.stop⟩

/-- Two memories hold the same bytes in some spans, and have the same pages readable. -/
def Agree (spans : List Span) (first second : Memory) : Prop :=
  second.readable = first.readable ∧
    ∀ span ∈ spans, ∀ address, span.covers address → second.byte address = first.byte address

/-- Memories that agree on more agree on less. -/
theorem Agree.mono {spans more : List Span} {first second : Memory} (h : Agree more first second)
    (hsub : ∀ span ∈ spans, span ∈ more) : Agree spans first second :=
  ⟨h.1, fun span hspan => h.2 span (hsub span hspan)⟩

/-- Memories that agree on a span have the same bytes there. -/
theorem Agree.view_eq {span : Span} {spans : List Span} {first second : Memory}
    (h : Agree spans first second) (hspan : span ∈ spans) : second.view span = first.view span :=
  Memory.bytes_congr fun i hi => h.2 span hspan (span.data + i) ⟨Nat.le_add_right _ _, by omega⟩

/-- A computation over memory, with the spans it reads. -/
structure Reading (α : Type) where
  run : Memory → α × List Span
  /-- What it reads is all it depends on. -/
  depends : ∀ first second, Agree (run first).2 first second → run second = run first

namespace Reading

variable {α β γ : Type}

/-- The result of a computation. -/
def value (m : Reading α) (memory : Memory) : α := (m.run memory).1

/-- The spans a computation reads. -/
def reads (m : Reading α) (memory : Memory) : List Span := (m.run memory).2

/-- A result that takes no reading. -/
protected def pure (a : α) : Reading α where
  run _ := (a, [])
  depends _ _ _ := rfl

/-- One computation and then another that goes on from its result. -/
protected def bind (m : Reading α) (f : α → Reading β) : Reading β where
  run memory := ((f (m.value memory)).value memory, m.reads memory ++ (f (m.value memory)).reads memory)
  depends first second h := by
    have hm : m.run second = m.run first :=
      m.depends first second (h.mono fun _ => List.mem_append_left _)
    have hf : (f (m.value first)).run second = (f (m.value first)).run first :=
      (f (m.value first)).depends first second (h.mono fun _ => List.mem_append_right _)
    have hvalue : m.value second = m.value first := congrArg Prod.fst hm
    have hreads : m.reads second = m.reads first := congrArg Prod.snd hm
    have hafter : (f (m.value first)).reads second = (f (m.value first)).reads first :=
      congrArg Prod.snd hf
    have hresult : (f (m.value first)).value second = (f (m.value first)).value first :=
      congrArg Prod.fst hf
    rw [hvalue, hreads, hafter, hresult]

instance : Monad Reading where
  pure := Reading.pure
  bind := Reading.bind

/-- A value is read without memory. -/
@[simp] theorem value_pure (a : α) (memory : Memory) : (pure a : Reading α).value memory = a := rfl

/-- It reads nothing. -/
@[simp] theorem reads_pure (a : α) (memory : Memory) : (pure a : Reading α).reads memory = [] := rfl

/-- A reading goes on from what it has read. -/
@[simp] theorem value_bind (m : Reading α) (f : α → Reading β) (memory : Memory) :
    (m >>= f).value memory = (f (m.value memory)).value memory := rfl

/-- It reads what both of its halves read. -/
@[simp] theorem reads_bind (m : Reading α) (f : α → Reading β) (memory : Memory) :
    (m >>= f).reads memory = m.reads memory ++ (f (m.value memory)).reads memory := rfl

/-- The bytes of a span. -/
def view (span : Span) : Reading Bytes where
  run memory := (memory.view span, [span])
  depends _ _ h := by rw [h.view_eq List.mem_cons_self]

/-- A view is what memory holds there. -/
@[simp] theorem value_view (span : Span) (memory : Memory) :
    (view span).value memory = memory.view span := rfl

/-- It reads the span it views. -/
@[simp] theorem reads_view (span : Span) (memory : Memory) : (view span).reads memory = [span] := rfl

/-- A checked copy, which reads nothing when it is refused. -/
def safeCopy (source size : ℕ) : Reading (Option Bytes) where
  run memory := (memory.safeCopy source size,
    if (memory.safeCopy source size).isSome then [⟨source, size⟩] else [])
  depends first second h := by
    have hcopy : second.safeCopy source size = first.safeCopy source size := by
      cases hfirst : first.safeCopy source size with
      | none =>
        unfold Memory.safeCopy at hfirst ⊢
        rw [h.1]
        split_ifs at hfirst ⊢ with hnull hread
        · rfl
        · rfl
      | some bs =>
        obtain ⟨hsource, hsize, hread, hbytes⟩ := Memory.safeCopy_eq_some.mp hfirst
        have hspan : second.view ⟨source, size⟩ = first.view ⟨source, size⟩ :=
          h.view_eq (by simp [hfirst])
        refine Memory.safeCopy_eq_some.mpr ⟨hsource, hsize, ?_, hspan.trans hbytes⟩
        rw [h.1]
        exact hread
    rw [hcopy]

/-- A guarded copy is what it is in memory. -/
@[simp] theorem value_safeCopy (source size : ℕ) (memory : Memory) :
    (safeCopy source size).value memory = memory.safeCopy source size := rfl

/-- It reads the range only where that can be read. -/
theorem reads_safeCopy (source size : ℕ) (memory : Memory) : (safeCopy source size).reads memory =
    if (memory.safeCopy source size).isSome then [⟨source, size⟩] else [] := rfl

/-! ### Searches over a list -/

/-- The first result along a list. -/
def findSome (f : α → Reading (Option β)) : List α → Reading (Option β)
  | [] => pure none
  | a :: rest => do
    match ← f a with
    | some b => return some b
    | none => findSome f rest

/-- The results along a list. -/
def filterMap (f : α → Reading (Option β)) : List α → Reading (List β)
  | [] => pure []
  | a :: rest => do
    let result ← f a
    let results ← filterMap f rest
    return result.toList ++ results

/-- A search finds what it finds in memory. -/
@[simp] theorem value_findSome (f : α → Reading (Option β)) (list : List α) (memory : Memory) :
    (findSome f list).value memory = list.findSome? fun a => (f a).value memory := by
  induction list with
  | nil => rfl
  | cons a rest ih =>
    rw [findSome, value_bind, List.findSome?_cons]
    cases (f a).value memory with
    | none => exact ih
    | some b => rfl

/-- A selection keeps what it keeps in memory. -/
@[simp] theorem value_filterMap (f : α → Reading (Option β)) (list : List α) (memory : Memory) :
    (filterMap f list).value memory = list.filterMap fun a => (f a).value memory := by
  induction list with
  | nil => rfl
  | cons a rest ih =>
    rw [filterMap, value_bind, value_bind, value_pure, ih, List.filterMap_cons]
    cases (f a).value memory <;> rfl

/-! ### Readings inside a span -/

/-- A computation reads inside a span only. -/
def ReadsOnly (span : Span) (memory : Memory) (m : Reading α) : Prop :=
  ∀ read ∈ m.reads memory, ∀ address, read.covers address → span.covers address

variable {span : Span} {memory : Memory}

/-- A value reads only what it may. -/
theorem readsOnly_pure (a : α) : ReadsOnly span memory (pure a : Reading α) := fun _ h => by
  rw [reads_pure] at h
  cases h

/-- A reading stays in a span where both of its halves do. -/
theorem readsOnly_bind {m : Reading α} {f : α → Reading β} :
    ReadsOnly span memory (m >>= f) ↔
      ReadsOnly span memory m ∧ ReadsOnly span memory (f (m.value memory)) := by
  unfold ReadsOnly
  rw [reads_bind, List.forall_mem_append]

/-- A view of a part stays in the whole. -/
theorem readsOnly_view {part : Span} (h : Within part span) : ReadsOnly span memory (view part) :=
  fun read hread => by
    rw [reads_view, List.mem_singleton] at hread
    rw [hread]
    exact fun _ => h.covers

/-- So does a guarded copy of one. -/
theorem readsOnly_safeCopy {source size : ℕ} (h : Within ⟨source, size⟩ span) :
    ReadsOnly span memory (safeCopy source size) := fun read hread => by
  rw [reads_safeCopy] at hread
  split at hread
  · rw [List.mem_singleton.mp hread]
    exact fun _ => h.covers
  · cases hread

/-- A selection stays in a span where each of its tests does. -/
theorem readsOnly_filterMap {f : α → Reading (Option β)} {list : List α} :
    ReadsOnly span memory (filterMap f list) ↔ ∀ a ∈ list, ReadsOnly span memory (f a) := by
  induction list with
  | nil => exact iff_of_true (readsOnly_pure _) (by simp)
  | cons a rest ih =>
    rw [filterMap, readsOnly_bind, readsOnly_bind, ih, List.forall_mem_cons]
    exact and_congr_right fun _ => and_iff_left (readsOnly_pure _)

/-- What reads inside a span only depends on the bytes of that span only. -/
theorem ReadsOnly.run_eq {m : Reading α} (h : ReadsOnly span memory m) {other : Memory}
    (hagree : Agree [span] memory other) : m.run other = m.run memory :=
  m.depends memory other ⟨hagree.1, fun read hread address hcovered =>
    hagree.2 span List.mem_cons_self address (h read hread address hcovered)⟩

/-- A list up to the first element of a kind, and with it. -/
def throughFirst (found : α → Bool) : List α → List α
  | [] => []
  | a :: rest => a :: if found a then [] else throughFirst found rest

/-- A search reads what it looks at, up to its first result. -/
theorem readsOnly_findSome {f : α → Reading (Option β)} {list : List α} :
    ReadsOnly span memory (findSome f list) ↔
      ∀ a ∈ throughFirst (fun a => ((f a).value memory).isSome) list, ReadsOnly span memory (f a) := by
  induction list with
  | nil => exact iff_of_true (readsOnly_pure _) (by simp [throughFirst])
  | cons a rest ih =>
    rw [findSome, readsOnly_bind, throughFirst, List.forall_mem_cons]
    refine and_congr_right fun _ => ?_
    cases (f a).value memory with
    | none => exact ih
    | some b => exact iff_of_true (readsOnly_pure _) (by simp)

/-- What is visited is of the list. -/
theorem mem_of_mem_throughFirst {found : α → Bool} {list : List α} {a : α}
    (h : a ∈ throughFirst found list) : a ∈ list := by
  induction list with
  | nil => cases h
  | cons b rest ih =>
    rw [throughFirst, List.mem_cons] at h
    rcases h with rfl | h
    · exact List.mem_cons_self
    · split at h
      · cases h
      · exact List.mem_cons_of_mem _ (ih h)

end Reading

end OpenDlssg.TracedReads
