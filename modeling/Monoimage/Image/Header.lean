import Monoimage.Clib.Struct

/-! The monoimage file format, `[header][kernel][initrd][rootfs]`: `makeimage.pl`
writes it with Perl's `pack`, and the C programs lay a structure over its first
bytes. -/
namespace Monoimage.Image

open Clib

/-- The members of `struct monoimage_header`, whichever file declares it. -/
inductive HeaderField where
  | magic
  | version
  | runfrom
  | fstype
  | kernelOffset
  | ramdiskOffset
  | rootfsOffset
  deriving DecidableEq, Repr

/-- `linuxrc/monoimage.h`, which the quoted include of `linuxrc.c` finds first. -/
def linuxrcHeader : Struct HeaderField :=
  [⟨.magic, .uint8, 2⟩,
   ⟨.version, .uint16, 1⟩,
   ⟨.kernelOffset, .uint32, 1⟩,
   ⟨.ramdiskOffset, .uint32, 1⟩,
   ⟨.rootfsOffset, .uint32, 1⟩]

/-- The header as `linuxrc`'s `main` reads it from the start of the image file. -/
def readRootfsOffset (file : Bytes) : Option Nat := do
  let biHeader ← linuxrcHeader.fread file
  linuxrcHeader.read .rootfsOffset biHeader

theorem linuxrcHeader_rootfsOffset :
    linuxrcHeader.member .rootfsOffset = some (⟨.rootfsOffset, .uint32, 1⟩, 12) := by
  decide

theorem readRootfsOffset_lt {file : Bytes} {offset : Nat}
    (h : readRootfsOffset file = some offset) : offset < 2 ^ 32 := by
  obtain ⟨biHeader, -, hread⟩ := Option.bind_eq_some_iff.mp h
  exact Struct.read_lt linuxrcHeader_rootfsOffset hread

/-! `makeimage.pl` -/

def bootimageHeaderSize : Nat := 20

/-- `MI_MAGIC`, the bytes of `MIMG`. -/
def miMagic : Bytes := [0x4d, 0x49, 0x4d, 0x47]

/-- The `-f` names and their `MI_FSTYPE_` codes; an unknown name, or none, is ext2. -/
def format (f : Option String) : Nat :=
  match f with
  | some "ext2" => 0
  | some "squashfs" => 1
  | some "tar" => 2
  | some "targz" => 3
  | some "cpio" => 4
  | some "cpiogz" => 5
  | some "cramfs" => 6
  | _ => 0

/-- The `-d` names and their `MI_RUNFROM_` codes; an unknown name, or none, is loop. -/
def runfrom (d : Option String) : Nat :=
  match d with
  | some "loop" => 0
  | some "cloop" => 1
  | some "tmpfs" => 2
  | some "nfs" => 3
  | _ => 0

structure Options where
  k : Option String
  i : Option String
  r : Option String
  f : Option String
  d : Option String
  deriving DecidableEq, Repr

inductive MakeError where
  | usage
  | kernel
  | ramdisk
  | rootfs
  deriving DecidableEq, Repr

/-- `pack("SCCIII", ...)` on a little-endian machine: no padding between fields. -/
def packHeader (version format runfrom kernel ramdisk rootfs : Nat) : Bytes :=
  putLE 2 version ++ (putLE 1 format ++ (putLE 1 runfrom ++
    (putLE 4 kernel ++ (putLE 4 ramdisk ++ putLE 4 rootfs))))

def makeimage (opt : Options) (files : String → Option Bytes) : Except MakeError Bytes :=
  match opt.k, opt.r, opt.i with
  | some kernelPath, some rootfsPath, some ramdiskPath =>
    match files kernelPath, files ramdiskPath, files rootfsPath with
    | none, _, _ => .error .kernel
    | some _, none, _ => .error .ramdisk
    | some _, some _, none => .error .rootfs
    | some kernel, some ramdisk, some rootfs =>
      .ok (miMagic ++ (packHeader 1 (format opt.f) (runfrom opt.d)
          bootimageHeaderSize
          (bootimageHeaderSize + kernel.length)
          (bootimageHeaderSize + kernel.length + ramdisk.length) ++
        (kernel ++ (ramdisk ++ rootfs))))
  | _, _, _ => .error .usage

/-- The three payloads that an option set names. -/
structure Payloads (opt : Options) (files : String → Option Bytes) where
  kernel : Bytes
  ramdisk : Bytes
  rootfs : Bytes
  kernel_eq : opt.k.bind files = some kernel
  ramdisk_eq : opt.i.bind files = some ramdisk
  rootfs_eq : opt.r.bind files = some rootfs

namespace Payloads

variable {opt : Options} {files : String → Option Bytes}

def rootfsStart (p : Payloads opt files) : Nat :=
  bootimageHeaderSize + p.kernel.length + p.ramdisk.length

def body (p : Payloads opt files) : Bytes :=
  p.kernel ++ (p.ramdisk ++ p.rootfs)

/-- The image as the twelve bytes before the second offset, that offset, and the rest. -/
theorem makeimage_eq (p : Payloads opt files) :
    makeimage opt files = .ok
      ((miMagic ++ (putLE 2 1 ++ (putLE 1 (format opt.f) ++ (putLE 1 (runfrom opt.d) ++
          putLE 4 bootimageHeaderSize)))) ++
        (putLE 4 (bootimageHeaderSize + p.kernel.length) ++
          (putLE 4 p.rootfsStart ++ p.body))) := by
  obtain ⟨kernelPath, hk, hkernel⟩ := Option.bind_eq_some_iff.mp p.kernel_eq
  obtain ⟨ramdiskPath, hi, hramdisk⟩ := Option.bind_eq_some_iff.mp p.ramdisk_eq
  obtain ⟨rootfsPath, hr, hrootfs⟩ := Option.bind_eq_some_iff.mp p.rootfs_eq
  simp only [makeimage, hk, hi, hr, hkernel, hramdisk, hrootfs, packHeader, body,
    rootfsStart, List.append_assoc]

/-- The twenty bytes before the payloads. -/
def header (p : Payloads opt files) : Bytes :=
  miMagic ++ packHeader 1 (format opt.f) (runfrom opt.d) bootimageHeaderSize
    (bootimageHeaderSize + p.kernel.length) p.rootfsStart

theorem length_header (p : Payloads opt files) : p.header.length = bootimageHeaderSize := by
  simp [header, packHeader, miMagic, bootimageHeaderSize]

theorem makeimage_eq_header (p : Payloads opt files) :
    makeimage opt files = .ok (p.header ++ p.body) := by
  rw [p.makeimage_eq]
  simp only [header, packHeader, List.append_assoc]

theorem fread_makeimage (p : Payloads opt files) {s : Struct HeaderField} {image : Bytes}
    (hsizeof : s.sizeof = bootimageHeaderSize) (himage : makeimage opt files = .ok image) :
    s.fread image = some p.header := by
  rw [p.makeimage_eq_header] at himage
  cases himage
  have hlong : s.sizeof ≤ (p.header ++ p.body).length := by
    rw [hsizeof, List.length_append, p.length_header]
    omega
  rw [Struct.fread, if_pos hlong, hsizeof, List.take_left' p.length_header]

theorem makeimage_drop_rootfsStart (p : Payloads opt files) {image : Bytes}
    (himage : makeimage opt files = .ok image) : image.drop p.rootfsStart = p.rootfs := by
  rw [p.makeimage_eq] at himage
  cases himage
  simp only [body, ← List.append_assoc]
  apply List.drop_left'
  simp only [List.length_append, length_putLE, miMagic, rootfsStart, bootimageHeaderSize,
    List.length_cons, List.length_nil]

/-- `linuxrc` reads the second of the three offsets: its header has two magic bytes
where the file has four, and lacks the two bytes for the run mode and file system. -/
theorem readRootfsOffset_makeimage (p : Payloads opt files) {image : Bytes}
    (hsize : p.rootfsStart < 2 ^ 31) (himage : makeimage opt files = .ok image) :
    readRootfsOffset image = some (bootimageHeaderSize + p.kernel.length) := by
  rw [p.makeimage_eq] at himage
  cases himage
  have hvalue : bootimageHeaderSize + p.kernel.length < 256 ^ 4 := by
    have : bootimageHeaderSize + p.kernel.length ≤ p.rootfsStart := Nat.le_add_right _ _
    omega
  have hsizeof : linuxrcHeader.sizeof = 16 := by decide
  have hinside : 12 + Member.size (⟨.rootfsOffset, .uint32, 1⟩ : Member HeaderField) ≤
      linuxrcHeader.sizeof := by
    decide
  apply Struct.readFrom_append linuxrcHeader_rootfsOffset hinside _ hvalue
  · rw [hsizeof]
    simp [miMagic, bootimageHeaderSize, Member.size, CType.size]
    omega
  · simp [miMagic]

def LocatesRootfs (p : Payloads opt files) (image : Bytes) : Prop :=
  readRootfsOffset image = some p.rootfsStart ∧ image.drop p.rootfsStart = p.rootfs

instance (p : Payloads opt files) (image : Bytes) : Decidable (p.LocatesRootfs image) :=
  inferInstanceAs (Decidable (_ ∧ _))

/-- `linuxrc` finds the rootfs of exactly the images without a ramdisk. -/
theorem locatesRootfs_iff (p : Payloads opt files) {image : Bytes}
    (hsize : p.rootfsStart < 2 ^ 31) (himage : makeimage opt files = .ok image) :
    p.LocatesRootfs image ↔ p.ramdisk = [] := by
  unfold LocatesRootfs
  rw [p.readRootfsOffset_makeimage hsize himage, p.makeimage_drop_rootfsStart himage]
  simp only [and_true, Option.some.injEq, rootfsStart]
  rw [← List.length_eq_zero_iff]
  omega

end Payloads

/-! Three small files, and with an empty ramdisk in place of the one byte. -/

def sampleOptions : Options := ⟨some "k", some "i", some "r", some "squashfs", none⟩

def sampleFiles (ramdisk : Bytes) (path : String) : Option Bytes :=
  if path = "k" then some [1, 2] else if path = "i" then some ramdisk else some [7, 8, 9]

def samplePayloads (ramdisk : Bytes) : Payloads sampleOptions (sampleFiles ramdisk) where
  kernel := [1, 2]
  ramdisk := ramdisk
  rootfs := [7, 8, 9]
  kernel_eq := rfl
  ramdisk_eq := rfl
  rootfs_eq := rfl

theorem locatesRootfs_without_ramdisk :
    ∃ image, makeimage sampleOptions (sampleFiles []) = .ok image ∧
      (samplePayloads []).LocatesRootfs image := by
  refine ⟨_, (samplePayloads []).makeimage_eq, ?_⟩
  exact ((samplePayloads []).locatesRootfs_iff (by decide)
    (samplePayloads []).makeimage_eq).mpr rfl

/-- A one-byte ramdisk is enough: `linuxrc` takes the ramdisk for the rootfs. -/
theorem not_locatesRootfs_with_ramdisk :
    ∃ image, makeimage sampleOptions (sampleFiles [5]) = .ok image ∧
      (samplePayloads [5]).rootfsStart < 2 ^ 31 ∧
      readRootfsOffset image = some 22 ∧ (samplePayloads [5]).rootfsStart = 23 ∧
      ¬ (samplePayloads [5]).LocatesRootfs image :=
  ⟨_, (samplePayloads [5]).makeimage_eq, by decide, by decide, by decide, by decide⟩

end Monoimage.Image
