import OpenDlssg.IniSettings

/-!
# Every setting in range, every bad value reported

The reports of a run are those of its single readers in turn, and no report for a
key reads as one for another. A key with a value therefore either sets its field,
or leaves the default there and accounts for one report.
-/

namespace OpenDlssg.SettingReports

open ByteCodec ByteSearch WidePaths IniFile SpoofCallers IniSettings

/-- The keys that are switches. -/
inductive SwitchKey
  | enabled
  | spoofArchToGame
  | patchFlipMetering
  | patchFrameClamp
  | stubScgPriority
  | multiFrame
  | retargetKernels
  | vulkanHooks
  | streamlineDiagnostics
  | dumpKernels
  deriving DecidableEq

/-- The keys that are whole numbers. -/
inductive IntKey
  | flipMeteringValue
  | forceMultiplier
  | targetSm
  | logLevel
  deriving DecidableEq

namespace SwitchKey

/-- The section and the name of a key. -/
def label : SwitchKey → Bytes × Bytes
  | .enabled => (ascii "General", ascii "Enabled")
  | .spoofArchToGame => (ascii "Compatibility", ascii "SpoofArchToGame")
  | .patchFlipMetering => (ascii "Compatibility", ascii "PatchFlipMetering")
  | .patchFrameClamp => (ascii "Compatibility", ascii "PatchFrameClamp")
  | .stubScgPriority => (ascii "Compatibility", ascii "StubScgPriority")
  | .multiFrame => (ascii "FrameGeneration", ascii "MultiFrame")
  | .retargetKernels => (ascii "Kernels", ascii "Retarget")
  | .vulkanHooks => (ascii "Kernels", ascii "VulkanHooks")
  | .streamlineDiagnostics => (ascii "Debug", ascii "StreamlineDiagnostics")
  | .dumpKernels => (ascii "Debug", ascii "DumpKernels")

/-- The field a key sets. -/
def field (s : Settings) : SwitchKey → Bool
  | .enabled => s.enabled
  | .spoofArchToGame => s.spoofArchToGame
  | .patchFlipMetering => s.patchFlipMetering
  | .patchFrameClamp => s.patchFrameClamp
  | .stubScgPriority => s.stubScgPriority
  | .multiFrame => s.multiFrame
  | .retargetKernels => s.retargetKernels
  | .vulkanHooks => s.vulkanHooks
  | .streamlineDiagnostics => s.streamlineDiagnostics
  | .dumpKernels => s.dumpKernels

end SwitchKey

namespace IntKey

/-- The section and the name of a key. -/
def label : IntKey → Bytes × Bytes
  | .flipMeteringValue => (ascii "Compatibility", ascii "FlipMeteringValue")
  | .forceMultiplier => (ascii "FrameGeneration", ascii "ForceMultiplier")
  | .targetSm => (ascii "Kernels", ascii "TargetSM")
  | .logLevel => (ascii "Logging", ascii "Level")

/-- The default of a key. -/
def fallback : IntKey → ℤ
  | .flipMeteringValue => -1
  | .forceMultiplier => 0
  | .targetSm => 0
  | .logLevel => 1

/-- The numbers a key accepts. -/
def accepts : IntKey → ℤ → Bool
  | .flipMeteringValue => fun n => -1 ≤ n ∧ n ≤ 1
  | .forceMultiplier => fun n => n = 0 ∨ 2 ≤ n ∧ n ≤ 6
  | .targetSm => fun n => n = 0 ∨ 50 ≤ n ∧ n ≤ 200
  | .logLevel => fun n => 0 ≤ n ∧ n ≤ 3

/-- Whether the field of a key holds a number: the log level holds the level it stands for. -/
def Holds (s : Settings) : IntKey → ℤ → Prop
  | .flipMeteringValue => fun n => s.flipMeteringValue = n
  | .forceMultiplier => fun n => s.forceMultiplier = n
  | .targetSm => fun n => s.targetSm = n
  | .logLevel => fun n => s.logLevel = levelFromSetting n

end IntKey

/-- Every default is accepted, and is what the settings hold without a file. -/
theorem IntKey.fallback_accepted (key : IntKey) :
    key.accepts key.fallback = true ∧ IntKey.Holds {} key key.fallback := by
  cases key <;> exact ⟨by decide, rfl⟩

/-- The keys of a file that can be rejected. -/
inductive Key
  | switch (key : SwitchKey)
  | int (key : IntKey)
  | mode
  deriving DecidableEq

/-- The section and the name of a key. -/
def Key.label : Key → Bytes × Bytes
  | .switch key => key.label
  | .int key => key.label
  | .mode => (ascii "Runtime", ascii "Mode")

/-- How a report for a key begins. -/
def Key.heading (key : Key) : Bytes := rejection key.label.1 key.label.2 []

/-- The reports for a key. -/
def Key.reports (key : Key) (rejected : List Bytes) : List Bytes :=
  rejected.filter fun e => key.heading.isPrefixOf e

/-- The keys in the order they are read. -/
def order : List Key :=
  [.switch .enabled, .switch .spoofArchToGame, .switch .patchFlipMetering, .int .flipMeteringValue,
    .switch .patchFrameClamp, .switch .stubScgPriority, .int .forceMultiplier, .switch .multiFrame,
    .switch .retargetKernels, .int .targetSm, .switch .vulkanHooks, .mode, .switch .streamlineDiagnostics,
    .switch .dumpKernels, .int .logLevel]

/-- Every key is read. -/
theorem mem_order (key : Key) : key ∈ order := by
  cases key with
  | switch key => cases key <;> decide
  | int key => cases key <;> decide
  | mode => decide

/-- Neither of two headings begins like the other. -/
def Apart (key other : Key) : Prop :=
  key.heading.isPrefixOf other.heading = false ∧ other.heading.isPrefixOf key.heading = false

instance (key other : Key) : Decidable (Apart key other) := inferInstanceAs (Decidable (_ ∧ _))

instance : Std.Symm Apart where
  symm _ _ h := ⟨h.2, h.1⟩

/-- No two of them have one label. -/
theorem order_apart : order.Pairwise Apart := by decide +kernel

/-- No report for a key begins like one for another. -/
theorem apart {key other : Key} (h : key ≠ other) : Apart key other :=
  order_apart.forall (mem_order key) (mem_order other) h

/-- A report begins with the heading of its key. -/
theorem rejection_eq (key : Key) (reason : Bytes) :
    rejection key.label.1 key.label.2 reason = key.heading ++ reason := by
  unfold Key.heading rejection
  rw [List.append_nil]

/-- Of reports made key by key those for a key are its own. -/
theorem reports_flatMap {own : Key → List Bytes}
    (hown : ∀ key, ∀ e ∈ own key, ∃ reason, e = rejection key.label.1 key.label.2 reason) (key : Key) :
    key.reports (order.flatMap own) = own key := by
  have hself : key.reports (own key) = own key := by
    refine List.filter_eq_self.mpr fun e he => ?_
    obtain ⟨reason, rfl⟩ := hown key e he
    rw [rejection_eq]
    exact List.isPrefixOf_iff_prefix.mpr (List.prefix_append _ _)
  have hother : ∀ other, other ≠ key → key.reports (own other) = [] := by
    intro other hne
    refine List.filter_eq_nil_iff.mpr fun e he hprefix => ?_
    obtain ⟨reason, rfl⟩ := hown other e he
    rw [rejection_eq] at hprefix
    obtain ⟨hfirst, hsecond⟩ := apart hne.symm
    rcases List.prefix_or_prefix_of_prefix (List.isPrefixOf_iff_prefix.mp hprefix)
      (List.prefix_append other.heading reason) with h | h
    · rw [List.isPrefixOf_iff_prefix.mpr h] at hfirst
      cases hfirst
    · rw [List.isPrefixOf_iff_prefix.mpr h] at hsecond
      cases hsecond
  obtain ⟨before, after, horder⟩ := List.append_of_mem (mem_order key)
  have hnodup : (before ++ key :: after).Nodup := horder ▸ (by decide : order.Nodup)
  rw [List.nodup_append] at hnodup
  obtain ⟨-, hafter, hbefore⟩ := hnodup
  unfold Key.reports at hself hother ⊢
  rw [horder, List.filter_flatMap, List.flatMap_append, List.flatMap_cons, hself,
    List.flatMap_eq_nil_iff.mpr fun other hin => hother other (hbefore other hin key List.mem_cons_self),
    List.flatMap_eq_nil_iff.mpr fun other hin => hother other ?_, List.nil_append, List.append_nil]
  rintro rfl
  exact (List.nodup_cons.mp hafter).1 hin

/-! ### Settings -/

/-- The reader of a switch. -/
def SwitchKey.read (key : SwitchKey) : StateM Ini Bool :=
  getBool key.label.1 key.label.2 (key.field {})

/-- The reader of a whole number. -/
def IntKey.read : IntKey → StateM Ini ℤ
  | .flipMeteringValue => readRange (ascii "Compatibility") (ascii "FlipMeteringValue") (-1) (-1) 1
  | .forceMultiplier => readOptionalRange (ascii "FrameGeneration") (ascii "ForceMultiplier") 2 6
  | .targetSm => readOptionalRange (ascii "Kernels") (ascii "TargetSM") 50 200
  | .logLevel => readRange (ascii "Logging") (ascii "Level") 1 0 3

/-- A switch is read with one of its outcomes. -/
theorem SwitchKey.reads (ini : Ini) (key : SwitchKey) :
    Reads ini key.read (valueOf key.read ini) (ownOf key.read ini) ∧
      SwitchOutcome ini key.label.1 key.label.2 (key.field {}) (valueOf key.read ini)
        (ownOf key.read ini) := by
  obtain ⟨value, own, hreads, houtcome⟩ := reads_getBool ini key.label.1 key.label.2 (key.field {})
  refine ⟨hreads.canonical, ?_⟩
  rw [SwitchKey.read, hreads.valueOf_eq, hreads.ownOf_eq]
  exact houtcome

/-- So is a number that is checked. -/
theorem IntKey.reads (ini : Ini) (key : IntKey) :
    Reads ini key.read (valueOf key.read ini) (ownOf key.read ini) ∧
      CheckedOutcome ini key.label.1 key.label.2 key.fallback key.accepts (valueOf key.read ini)
        (ownOf key.read ini) := by
  have hchecked : ∀ complaint, key.read =
      readChecked key.label.1 key.label.2 key.fallback key.accepts complaint →
      Reads ini key.read (valueOf key.read ini) (ownOf key.read ini) ∧
        CheckedOutcome ini key.label.1 key.label.2 key.fallback key.accepts (valueOf key.read ini)
          (ownOf key.read ini) := by
    intro complaint hread
    obtain ⟨value, own, hreads, houtcome⟩ := reads_readChecked ini key.label.1 key.label.2
      key.fallback_accepted.1 complaint
    rw [hread, hreads.valueOf_eq, hreads.ownOf_eq]
    exact ⟨hreads, houtcome⟩
  cases key with
  | flipMeteringValue => exact hchecked _ rfl
  | forceMultiplier => exact hchecked _ rfl
  | targetSm => exact hchecked _ rfl
  | logLevel => exact hchecked _ rfl

/-- What a key reports. -/
def Key.own (ini : Ini) : Key → List Bytes
  | .switch key => ownOf key.read ini
  | .int key => ownOf key.read ini
  | .mode => ownOf readMode ini

/-- A key reports of itself only. -/
theorem Key.own_reports (ini : Ini) (key : Key) :
    ∀ e ∈ key.own ini, ∃ reason, e = rejection key.label.1 key.label.2 reason := by
  cases key with
  | switch key => exact (key.reads ini).2.reports
  | int key => exact (key.reads ini).2.reports
  | mode =>
    obtain ⟨value, own, hreads, hown⟩ := reads_readMode ini
    intro e he
    rw [Key.own, hreads.ownOf_eq] at he
    exact hown e he

/-- The settings, setting by setting. -/
def settingsOf (fromUtf8 : Bytes → WString) (ini : Ini) : Settings where
  enabled := valueOf (SwitchKey.read .enabled) ini
  spoofArchToGame := valueOf (SwitchKey.read .spoofArchToGame) ini
  spoofCallers :=
    let callers := ini.getString (ascii "Compatibility") (ascii "SpoofCallers") []
    if callers ≠ [] then splitModules fromUtf8 callers else Settings.spoofCallers {}
  patchFlipMetering := valueOf (SwitchKey.read .patchFlipMetering) ini
  flipMeteringValue := valueOf (IntKey.read .flipMeteringValue) ini
  patchFrameClamp := valueOf (SwitchKey.read .patchFrameClamp) ini
  stubScgPriority := valueOf (SwitchKey.read .stubScgPriority) ini
  forceMultiplier := valueOf (IntKey.read .forceMultiplier) ini
  multiFrame := valueOf (SwitchKey.read .multiFrame) ini
  retargetKernels := valueOf (SwitchKey.read .retargetKernels) ini
  targetSm := valueOf (IntKey.read .targetSm) ini
  vulkanHooks := valueOf (SwitchKey.read .vulkanHooks) ini
  redirectRuntime := valueOf readMode ini == ascii "bundled"
  runtimeFile :=
    let file := ini.getString (ascii "Runtime") (ascii "RuntimeFile") []
    if file ≠ [] then fromUtf8 file else Settings.runtimeFile {}
  streamlineDiagnostics := valueOf (SwitchKey.read .streamlineDiagnostics) ini
  dumpKernels := valueOf (SwitchKey.read .dumpKernels) ini
  logLevel := levelFromSetting (valueOf (IntKey.read .logLevel) ini)
  logDirectory :=
    let directory := ini.getString (ascii "Logging") (ascii "Directory") []
    if directory ≠ [] then fromUtf8 directory else Settings.logDirectory {}

/-- The settings are those of the single readers, the reports theirs in turn. -/
theorem reads_fromIni (fromUtf8 : Bytes → WString) (ini : Ini) :
    Reads ini (fromIni fromUtf8) (settingsOf fromUtf8 ini) (order.flatMap (Key.own ini)) := by
  have hswitch := fun key => (SwitchKey.reads ini key).1
  have hint := fun key => (IntKey.reads ini key).1
  have hmode : Reads ini readMode (valueOf readMode ini) (ownOf readMode ini) := by
    obtain ⟨value, own, hreads, -⟩ := reads_readMode ini
    exact hreads.canonical
  have hruntime := reads_getString ini (ascii "Runtime") (ascii "RuntimeFile") []
  have hcallers := reads_getString ini (ascii "Compatibility") (ascii "SpoofCallers") []
  have hdirectory := reads_getString ini (ascii "Logging") (ascii "Directory") []
  have hown : order.flatMap (Key.own ini) = Key.own ini (.switch .enabled) ++
      (Key.own ini (.switch .spoofArchToGame) ++ ([] ++ (Key.own ini (.switch .patchFlipMetering) ++
      (Key.own ini (.int .flipMeteringValue) ++ (Key.own ini (.switch .patchFrameClamp) ++
      (Key.own ini (.switch .stubScgPriority) ++ (Key.own ini (.int .forceMultiplier) ++
      (Key.own ini (.switch .multiFrame) ++ (Key.own ini (.switch .retargetKernels) ++
      (Key.own ini (.int .targetSm) ++ (Key.own ini (.switch .vulkanHooks) ++ (Key.own ini .mode ++
      ([] ++ (Key.own ini (.switch .streamlineDiagnostics) ++ (Key.own ini (.switch .dumpKernels) ++
      (Key.own ini (.int .logLevel) ++ ([] ++ []))))))))))))))))) := by
    simp [order]
  rw [hown]
  refine (hswitch .enabled).bind ?_
  refine (hswitch .spoofArchToGame).bind ?_
  refine hcallers.bind ?_
  refine (hswitch .patchFlipMetering).bind ?_
  refine (hint .flipMeteringValue).bind ?_
  refine (hswitch .patchFrameClamp).bind ?_
  refine (hswitch .stubScgPriority).bind ?_
  refine (hint .forceMultiplier).bind ?_
  refine (hswitch .multiFrame).bind ?_
  refine (hswitch .retargetKernels).bind ?_
  refine (hint .targetSm).bind ?_
  refine (hswitch .vulkanHooks).bind ?_
  refine hmode.bind ?_
  refine hruntime.bind ?_
  refine (hswitch .streamlineDiagnostics).bind ?_
  refine (hswitch .dumpKernels).bind ?_
  refine (hint .logLevel).bind ?_
  exact hdirectory.bind (Reads.pure ini _)

/-! ### Outcomes -/

/-- Settings in the ranges of their keys. -/
structure InRange (s : Settings) : Prop where
  forceMultiplier : s.forceMultiplier = 0 ∨ 2 ≤ s.forceMultiplier ∧ s.forceMultiplier ≤ 6
  targetSm : s.targetSm = 0 ∨ 50 ≤ s.targetSm ∧ s.targetSm ≤ 200
  flipMeteringValue : s.flipMeteringValue ∈ ({-1, 0, 1} : Set ℤ)
  logLevel : s.logLevel ∈ [LogLevel.off, .warning, .info, .trace]

/-- The switch of a text is in its field, or the default is and one report names the key. -/
def SwitchKey.Settled (text : Bytes) (s : Settings) (rejected : List Bytes) (key : SwitchKey) : Prop :=
  SwitchSpelling text (key.field s) ∧ (Key.switch key).reports rejected = [] ∨
    (∀ on, ¬SwitchSpelling text on) ∧ key.field s = key.field {} ∧
      ((Key.switch key).reports rejected).length = 1

/-- The number of a text is in its field, or the default is and one report names the key. -/
def IntKey.Settled (text : Bytes) (s : Settings) (rejected : List Bytes) (key : IntKey) : Prop :=
  (∃ n, WholeNumber text n ∧ key.accepts n = true ∧ key.Holds s n ∧
      (Key.int key).reports rejected = []) ∨
    (∀ n, WholeNumber text n → key.accepts n = false) ∧ key.Holds s key.fallback ∧
      ((Key.int key).reports rejected).length = 1

/-- A switch is set to what was read. -/
theorem SwitchKey.field_settingsOf (fromUtf8 : Bytes → WString) (ini : Ini) (key : SwitchKey) :
    key.field (settingsOf fromUtf8 ini) = valueOf key.read ini := by
  cases key <;> rfl

/-- A number is set to what was read. -/
theorem IntKey.holds_settingsOf (fromUtf8 : Bytes → WString) (ini : Ini) (key : IntKey) :
    key.Holds (settingsOf fromUtf8 ini) (valueOf key.read ini) := by
  cases key <;> rfl

/-- The settings are in range whatever the file says. -/
theorem settingsOf_inRange (fromUtf8 : Bytes → WString) (ini : Ini) :
    InRange (settingsOf fromUtf8 ini) := by
  have haccepted : ∀ key : IntKey, key.accepts (valueOf key.read ini) = true :=
    fun key => (key.reads ini).2.accepted
  constructor
  · exact of_decide_eq_true (haccepted .forceMultiplier)
  · exact of_decide_eq_true (haccepted .targetSm)
  · obtain ⟨hlow, hhigh⟩ := of_decide_eq_true (haccepted .flipMeteringValue)
    change valueOf (IntKey.read .flipMeteringValue) ini ∈ ({-1, 0, 1} : Set ℤ)
    simp only [Set.mem_insert_iff, Set.mem_singleton_iff]
    omega
  · change levelFromSetting (valueOf (IntKey.read .logLevel) ini) ∈ _
    unfold levelFromSetting
    split_ifs <;> decide

/-- A switch with a value is taken or reported. -/
theorem switch_settled (fromUtf8 : Bytes → WString) (ini : Ini) {key : SwitchKey} {text : Bytes}
    (hfind : ini.find key.label.1 key.label.2 = some text) (hne : text ≠ []) :
    key.Settled text (settingsOf fromUtf8 ini) (order.flatMap (Key.own ini)) := by
  have hreports := reports_flatMap (Key.own_reports ini) (.switch key)
  unfold SwitchKey.Settled
  rw [hreports, key.field_settingsOf]
  exact (key.reads ini).2.present text hfind hne

/-- A whole number with a value is taken or reported. -/
theorem int_settled (fromUtf8 : Bytes → WString) (ini : Ini) {key : IntKey} {text : Bytes}
    (hfind : ini.find key.label.1 key.label.2 = some text) (hne : text ≠ []) :
    key.Settled text (settingsOf fromUtf8 ini) (order.flatMap (Key.own ini)) := by
  have hreports := reports_flatMap (Key.own_reports ini) (.int key)
  have hholds := key.holds_settingsOf fromUtf8 ini
  have houtcome := (key.reads ini).2
  unfold IntKey.Settled
  rw [hreports]
  rcases houtcome.present text hfind hne with ⟨hnumber, hown⟩ | ⟨hnone, hvalue, hown⟩
  · exact Or.inl ⟨_, hnumber, houtcome.accepted, hholds, hown⟩
  · rw [hvalue] at hholds
    exact Or.inr ⟨hnone, hholds, hown⟩

/-- Whatever a file holds, the settings are in range and each key with a value sets its
field, or leaves the default and is reported once. -/
theorem settings_settled (fromUtf8 : Bytes → WString) (file : Option Bytes) :
    let ini := (load file).2
    let result := fromIni fromUtf8 ini
    ini.rejected = [] ∧ InRange result.1 ∧
      (∀ (key : SwitchKey) (text : Bytes), ini.find key.label.1 key.label.2 = some text → text ≠ [] →
        key.Settled text result.1 result.2.rejected) ∧
      ∀ (key : IntKey) (text : Bytes), ini.find key.label.1 key.label.2 = some text → text ≠ [] →
        key.Settled text result.1 result.2.rejected := by
  intro ini result
  have hnothing : ini.rejected = [] := by
    cases file with
    | none => rfl
    | some content => rfl
  have hini : ini = ⟨ini.sections, []⟩ := by rw [← hnothing]
  have hresult : result =
      (settingsOf fromUtf8 ini, ⟨ini.sections, order.flatMap (Key.own ini)⟩) := by
    change fromIni fromUtf8 ini = _
    nth_rewrite 1 [hini]
    exact (reads_fromIni fromUtf8 ini).run []
  rw [hresult]
  exact ⟨hnothing, settingsOf_inRange fromUtf8 ini,
    fun key text => switch_settled fromUtf8 ini, fun key text => int_settled fromUtf8 ini⟩

end OpenDlssg.SettingReports
