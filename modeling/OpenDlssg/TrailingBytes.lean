import OpenDlssg.ProviderAnswers
import OpenDlssg.Substitute

/-!
# Bytes behind an image

A cubin states its own length, so what stands behind it is no part of it: its
length, its sections, its identity and its hash are those of the image alone,
and whatever is looked up by them is found for a length that was rounded up as
for the exact one.
-/

namespace OpenDlssg.TrailingBytes

open ByteCodec CubinImage FatbinContainer FatbinRetarget ProviderIndex Substitute

variable {image : Bytes}

/-- The headers of an image stand at its start. -/
theorem cubinHeader_append (hlen : 64 ≤ image.length) (pad : Bytes) :
    cubinHeader (image ++ pad) = cubinHeader image := by
  have hopening : (image ++ pad).take 64 = image.take 64 := List.take_append_of_le_length hlen
  rw [← cubinHeader_take (n := 64) le_rfl, hopening, cubinHeader_take le_rfl]

/-- A table that ends within the image ends there in any longer view of it. -/
theorem tableEnd_mono {offset : UInt64} {entrySize count : UInt16} {limit limit' stop : ℕ}
    (hle : limit ≤ limit') (h : tableEnd offset entrySize count limit = some stop) :
    tableEnd offset entrySize count limit' = some stop := by
  obtain ⟨hstop, hfit⟩ := tableEnd_eq_some.mp h
  exact tableEnd_eq_some.mpr ⟨hstop, hfit.trans hle⟩

/-- An image is at least as long as its header. -/
theorem length_of_cubinSize (hsize : cubinSize image ≠ 0) : 64 ≤ image.length := by
  have hgt := cubinSize_gt hsize
  have hle := cubinSize_le image
  omega

/-- The length of an image does not change with what stands behind it. -/
theorem cubinSize_append (hsize : cubinSize image ≠ 0) (pad : Bytes) :
    cubinSize (image ++ pad) = cubinSize image := by
  obtain ⟨header, sections, programs, hheader, hsections, hprograms, hmax, hgt⟩ :=
    (cubinSize_eq hsize).mp rfl
  have hlonger : image.length ≤ (image ++ pad).length := by
    rw [List.length_append]
    omega
  refine (cubinSize_eq hsize).mpr ⟨header, sections, programs, ?_, ?_, ?_, hmax, hgt⟩
  · rw [cubinHeader_append (length_of_cubinSize hsize), hheader]
  · exact tableEnd_mono hlonger hsections
  · exact tableEnd_mono hlonger hprograms

/-- The bytes of an image are its own. -/
theorem take_cubinSize_append (hsize : cubinSize image ≠ 0) (pad : Bytes) :
    (image ++ pad).take (cubinSize (image ++ pad)) = image.take (cubinSize image) := by
  rw [cubinSize_append hsize, List.take_append_of_le_length (cubinSize_le image)]

/-- The sections are those of the image alone. -/
theorem cubinSections_append (hsize : cubinSize image ≠ 0) (pad : Bytes) :
    cubinSections (image ++ pad) = cubinSections (image.take (cubinSize image)) := by
  rw [cubinSections_take hsize le_rfl, cubinSections, cubinSections, take_cubinSize_append hsize]

/-- The hash is that of the image alone. -/
theorem fingerprint_append (hsize : cubinSize image ≠ 0) (pad : Bytes) :
    fingerprint (image ++ pad) = fingerprint image := by
  unfold fingerprint
  dsimp only
  rw [take_cubinSize_append hsize, cubinSize_append hsize]

/-- The identity is that of the image alone. -/
theorem identify_append (hsize : cubinSize image ≠ 0) (pad : Bytes) :
    identify (image ++ pad) = identify image := by
  unfold identify
  dsimp only
  rw [take_cubinSize_append hsize, cubinSize_append hsize]

/-- The answers for a native twin are those for the image alone. -/
theorem findNativeCubin_append (hsize : cubinSize image ≠ 0) (pad : Bytes) (indexes : Indexes)
    (provider : Option HModule) (arch : UInt32) :
    findNativeCubin indexes provider (image ++ pad) arch = findNativeCubin indexes provider image arch := by
  unfold findNativeCubin
  rw [identify_append hsize]

/-- The answers for a container are those for the image alone. -/
theorem findContainerForCubin_append (hsize : cubinSize image ≠ 0) (pad : Bytes) (indexes : Indexes)
    (provider : Option HModule) :
    findContainerForCubin indexes provider (image ++ pad) =
      findContainerForCubin indexes provider image := by
  have hlen := length_of_cubinSize hsize
  have hsome : image.isEmpty = false := by
    rw [List.isEmpty_eq_false_iff]
    exact List.ne_nil_of_length_pos (by omega)
  have hsome' : (image ++ pad).isEmpty = false := by
    rw [List.isEmpty_eq_false_iff]
    exact List.append_ne_nil_of_left_ne_nil (List.isEmpty_eq_false_iff.mp hsome) pad
  unfold findContainerForCubin
  rw [fingerprint_append hsize, hsome, hsome']

/-- What is decided for a cubin is decided by the image alone. -/
theorem decideCubin_append (hsize : cubinSize image ≠ 0) (pad : Bytes) (env : Environment)
    (indexes : Indexes) (caller : Option HModule) (arch target : UInt32) (source : PtxSource) :
    decideCubin env indexes caller (image ++ pad) arch target source =
      decideCubin env indexes caller image arch target source := by
  unfold decideCubin
  simp only [findNativeCubin_append hsize, findContainerForCubin_append hsize]

/-- The bytes behind an image are not seen: everything that identifies it, what
is looked up by it and what is decided for it are those of the image alone. -/
structure PaddingUnseen (image pad : Bytes) : Prop where
  size : cubinSize (image ++ pad) = cubinSize image
  arch : cubinArch (image ++ pad) = cubinArch image
  sections : cubinSections (image ++ pad) = cubinSections (image.take (cubinSize image))
  native : ∀ (indexes : Indexes) (provider : Option HModule) (arch : UInt32),
    findNativeCubin indexes provider (image ++ pad) arch = findNativeCubin indexes provider image arch
  container : ∀ (indexes : Indexes) (provider : Option HModule),
    findContainerForCubin indexes provider (image ++ pad) = findContainerForCubin indexes provider image
  decision : ∀ (env : Environment) (indexes : Indexes) (caller : Option HModule) (arch target : UInt32)
    (source : PtxSource), decideCubin env indexes caller (image ++ pad) arch target source =
      decideCubin env indexes caller image arch target source

/-- A runtime that rounds up the length it passes still gets its own kernel. -/
theorem padding_unseen (hsize : 0 < cubinSize image) (pad : Bytes) : PaddingUnseen image pad where
  size := cubinSize_append hsize.ne' pad
  arch := by
    have hlen := length_of_cubinSize hsize.ne'
    unfold cubinArch
    rw [cubinHeader_append hlen]
  sections := cubinSections_append hsize.ne' pad
  native := findNativeCubin_append hsize.ne' pad
  container := findContainerForCubin_append hsize.ne' pad
  decision := decideCubin_append hsize.ne' pad

/-- A build of a kernel passed with its length rounded up. -/
theorem padding_unseen_rounded :
    0 < cubinSize (ProviderAnswers.sampleCubin 0 86 [(ascii "k", [1, 2])]) ∧
      PaddingUnseen (ProviderAnswers.sampleCubin 0 86 [(ascii "k", [1, 2])]) (List.replicate 6 0) :=
  have hsize : 0 < cubinSize (ProviderAnswers.sampleCubin 0 86 [(ascii "k", [1, 2])]) := by
    decide +kernel
  ⟨hsize, padding_unseen hsize _⟩

end OpenDlssg.TrailingBytes
