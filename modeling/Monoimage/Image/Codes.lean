import Monoimage.Image.Header

/-! `include/monoimage.h`, the header that the programs were meant to share, and what its
two one-byte members make of the codes that `makeimage.pl` writes. -/
namespace Monoimage.Image

open Clib

def includeHeader : Struct HeaderField :=
  [⟨.magic, .uint8, 4⟩,
   ⟨.version, .uint16, 1⟩,
   ⟨.runfrom, .uint8, 1⟩,
   ⟨.fstype, .uint8, 1⟩,
   ⟨.kernelOffset, .uint16, 1⟩,
   ⟨.ramdiskOffset, .uint32, 1⟩,
   ⟨.rootfsOffset, .uint32, 1⟩]

def miRunfrom : List (String × Nat) :=
  [("loop", 0), ("cloop", 1), ("tmpfs", 2), ("nfs", 3)]

def miFstype : List (String × Nat) :=
  [("ext2", 0), ("squashfs", 1), ("tar", 2), ("targz", 3), ("cpio", 4), ("cpiogz", 5),
   ("jffs", 6), ("cramfs", 7)]

/-- The constant that a table has for a name, and its first one, 0, for any other. -/
def codeOf (table : List (String × Nat)) (name : Option String) : Nat :=
  ((table.find? fun entry => name = some entry.1).map (·.2)).getD 0

/-- Both members hold the header's own constants for the names that were given. -/
def CodesReadBack (opt : Options) (image : Bytes) : Prop :=
  includeHeader.readFrom .fstype image = some (codeOf miFstype opt.f) ∧
    includeHeader.readFrom .runfrom image = some (codeOf miRunfrom opt.d)

instance (opt : Options) (image : Bytes) : Decidable (CodesReadBack opt image) :=
  inferInstanceAs (Decidable (_ ∧ _))

/-- The pairs of names whose codes are the same number, so that it does not matter that
the writer has the two bytes in the other order. -/
def CodesCoincide (f d : Option String) : Prop :=
  (f = some "squashfs" ∧ d = some "cloop") ∨ (f = some "tar" ∧ d = some "tmpfs") ∨
    (f = some "targz" ∧ d = some "nfs") ∨
    ((∀ name ∈ ["squashfs", "tar", "targz", "cpio", "cpiogz", "jffs", "cramfs"], f ≠ some name) ∧
      ∀ name ∈ ["cloop", "tmpfs", "nfs"], d ≠ some name)

theorem runfrom_cases (d : Option String) :
    (d = some "cloop" ∧ runfrom d = 1) ∨ (d = some "tmpfs" ∧ runfrom d = 2) ∨
      (d = some "nfs" ∧ runfrom d = 3) ∨
      ((∀ name ∈ ["cloop", "tmpfs", "nfs"], d ≠ some name) ∧ runfrom d = 0) := by
  unfold runfrom
  split <;> simp_all

theorem codeOf_miRunfrom (d : Option String) : codeOf miRunfrom d = runfrom d := by
  unfold runfrom
  split
  · decide
  · decide
  · decide
  · decide
  · simp_all [codeOf, miRunfrom]

/-- The writer's code and the header's: they differ for jffs, which the writer does not know,
and for cramfs, which comes behind it in the header. -/
theorem format_cases (f : Option String) :
    (f = some "squashfs" ∧ format f = 1 ∧ codeOf miFstype f = 1) ∨
      (f = some "tar" ∧ format f = 2 ∧ codeOf miFstype f = 2) ∨
      (f = some "targz" ∧ format f = 3 ∧ codeOf miFstype f = 3) ∨
      (f = some "cpio" ∧ format f = 4 ∧ codeOf miFstype f = 4) ∨
      (f = some "cpiogz" ∧ format f = 5 ∧ codeOf miFstype f = 5) ∨
      (f = some "jffs" ∧ format f = 0 ∧ codeOf miFstype f = 6) ∨
      (f = some "cramfs" ∧ format f = 6 ∧ codeOf miFstype f = 7) ∨
      ((∀ name ∈ ["squashfs", "tar", "targz", "cpio", "cpiogz", "jffs", "cramfs"],
        f ≠ some name) ∧ format f = 0 ∧ codeOf miFstype f = 0) := by
  by_cases hjffs : f = some "jffs"
  · subst hjffs
    decide
  · unfold format
    split
    · decide
    · decide
    · decide
    · decide
    · decide
    · decide
    · decide
    · simp_all [codeOf, miFstype]

theorem codesCoincide_iff (f d : Option String) :
    CodesCoincide f d ↔ runfrom d = codeOf miFstype f ∧ format f = runfrom d := by
  have hcases := format_cases f
  rcases runfrom_cases d with ⟨rfl, hrun⟩ | ⟨rfl, hrun⟩ | ⟨rfl, hrun⟩ | ⟨hd, hrun⟩
  · have hname : CodesCoincide f (some "cloop") ↔ f = some "squashfs" := by simp [CodesCoincide]
    rw [hname, hrun]
    rcases hcases with ⟨rfl, h⟩ | ⟨rfl, h⟩ | ⟨rfl, h⟩ | ⟨rfl, h⟩ | ⟨rfl, h⟩ | ⟨rfl, h⟩ |
      ⟨rfl, h⟩ | ⟨hf, h⟩ <;> simp [h]
    exact hf _ (by simp)
  · have hname : CodesCoincide f (some "tmpfs") ↔ f = some "tar" := by simp [CodesCoincide]
    rw [hname, hrun]
    rcases hcases with ⟨rfl, h⟩ | ⟨rfl, h⟩ | ⟨rfl, h⟩ | ⟨rfl, h⟩ | ⟨rfl, h⟩ | ⟨rfl, h⟩ |
      ⟨rfl, h⟩ | ⟨hf, h⟩ <;> simp [h]
    exact hf _ (by simp)
  · have hname : CodesCoincide f (some "nfs") ↔ f = some "targz" := by simp [CodesCoincide]
    rw [hname, hrun]
    rcases hcases with ⟨rfl, h⟩ | ⟨rfl, h⟩ | ⟨rfl, h⟩ | ⟨rfl, h⟩ | ⟨rfl, h⟩ | ⟨rfl, h⟩ |
      ⟨rfl, h⟩ | ⟨hf, h⟩ <;> simp [h]
    exact hf _ (by simp)
  · have hother : CodesCoincide f d ↔ ∀ name ∈
        ["squashfs", "tar", "targz", "cpio", "cpiogz", "jffs", "cramfs"], f ≠ some name := by
      have hd' : d ≠ some "cloop" ∧ d ≠ some "tmpfs" ∧ d ≠ some "nfs" := by simpa using hd
      simp only [CodesCoincide, hd', and_false, false_or]
      exact and_iff_left hd
    rw [hother, hrun]
    rcases hcases with ⟨rfl, h⟩ | ⟨rfl, h⟩ | ⟨rfl, h⟩ | ⟨rfl, h⟩ | ⟨rfl, h⟩ | ⟨rfl, h⟩ |
      ⟨rfl, h⟩ | ⟨hf, h⟩ <;> simp [h]
    simpa using hf

section Reading

variable {opt : Options} {files : String → Option Bytes} {image : Bytes}

/-- Each of the two members holds the byte that was meant for the other. -/
theorem readFrom_fstype (p : Payloads opt files) (himage : makeimage opt files = .ok image) :
    includeHeader.readFrom .fstype image = some (runfrom opt.d) := by
  have hcode : runfrom opt.d < 256 ^ 1 := by
    rcases runfrom_cases opt.d with h | h | h | h <;> omega
  have hread : includeHeader.read .fstype p.header = some (getLE (putLE 1 (runfrom opt.d))) := rfl
  rw [Struct.readFrom, p.fread_makeimage (by decide) himage, Option.bind_eq_bind,
    Option.bind_some, hread, getLE_putLE_of_lt hcode]

theorem readFrom_runfrom (p : Payloads opt files) (himage : makeimage opt files = .ok image) :
    includeHeader.readFrom .runfrom image = some (format opt.f) := by
  have hcode : format opt.f < 256 ^ 1 := by
    rcases format_cases opt.f with h | h | h | h | h | h | h | h <;> omega
  have hread : includeHeader.read .runfrom p.header = some (getLE (putLE 1 (format opt.f))) := rfl
  rw [Struct.readFrom, p.fread_makeimage (by decide) himage, Option.bind_eq_bind,
    Option.bind_some, hread, getLE_putLE_of_lt hcode]

/-- The codes of an image read back exactly for the pairs of names that share a number. -/
theorem codesReadBack_iff (p : Payloads opt files) (himage : makeimage opt files = .ok image) :
    CodesReadBack opt image ↔ CodesCoincide opt.f opt.d := by
  rw [codesCoincide_iff, CodesReadBack, readFrom_fstype p himage, readFrom_runfrom p himage,
    codeOf_miRunfrom, Option.some.injEq, Option.some.injEq]

end Reading

def cloopOptions : Options := { sampleOptions with d := some "cloop" }

def cloopPayloads : Payloads cloopOptions (sampleFiles [5]) where
  kernel := [1, 2]
  ramdisk := [5]
  rootfs := [7, 8, 9]
  kernel_eq := rfl
  ramdisk_eq := rfl
  rootfs_eq := rfl

/-- Squashfs from a compressed loop device: both codes are 1. -/
theorem codesReadBack_squashfs_cloop :
    ∃ image, makeimage cloopOptions (sampleFiles [5]) = .ok image ∧
      CodesReadBack cloopOptions image := by
  refine ⟨_, cloopPayloads.makeimage_eq, ?_⟩
  apply (codesReadBack_iff cloopPayloads cloopPayloads.makeimage_eq).mpr
  left
  exact ⟨rfl, rfl⟩

/-- Squashfs with the default run mode reads back as an ext2 file system on a compressed
loop device. -/
theorem not_codesReadBack_squashfs :
    ∃ image, makeimage sampleOptions (sampleFiles [5]) = .ok image ∧
      includeHeader.readFrom .fstype image = some 0 ∧ codeOf miFstype sampleOptions.f = 1 ∧
      includeHeader.readFrom .runfrom image = some 1 ∧ codeOf miRunfrom sampleOptions.d = 0 ∧
      ¬ CodesReadBack sampleOptions image :=
  ⟨_, (samplePayloads [5]).makeimage_eq, by decide, by decide, by decide, by decide, by decide⟩

end Monoimage.Image
