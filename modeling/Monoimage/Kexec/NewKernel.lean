import Monoimage.Kexec.Handover
import Monoimage.Kexec.Monoimage

/-! `kexec -l`, from the file to the memory that the new kernel finds. -/
namespace Monoimage.Kexec

open Clib Image

/-- `my_load` with a monoimage. -/
def loadMonoimage (env : LoadEnv) (machine : BzImageEnv) (load : LoadCall) (argv : List Text)
    (buf : Bytes) : Except Death (Option KexecLoad) :=
  match (monoimageLoad env argv buf).finish with
  | .returned _ => .ok none
  | .fault f => .error (.fault f)
  | .bzImage call =>
    loadBzImage machine load call.kernel (cmdlineBytes call.commandLine) (some call.initrd)
      call.realModeEntry call.debug

/-- The purgatory enters the kernel with the registers it was given, and these lead the kernel
to its parameters. -/
structure Starts (ehdr : Ehdr) (memory : Memory) (kernel cmdline : Bytes) (initrd : Option Bytes)
    (eip : Nat → Prop) (rhdr : Ehdr) (setupBase : Nat) (regs32 : Bytes) : Prop where
  moved : ehdr.Moved rhdr
  found : FoundAt memory rhdr (asciiBytes "entry32_regs") regs32
  enters : Enters regs32 setupBase eip
  kernel : KernelFound memory setupBase kernel cmdline initrd

section Whole

variable {env : BzImageEnv} {ehdr : Ehdr} (henv : env.Proper ehdr) {load : LoadCall}
  {kernel cmdline : Bytes} {initrd : Option Bytes} (hkernel : BootKernel kernel cmdline initrd)
  {realModeEntry debug : Bool} {kexec : KexecLoad}

theorem loadBzImage_run
    (h : loadBzImage env load kernel cmdline initrd realModeEntry debug = .ok (some kexec)) :
    ∃ image, doBzImageLoad env kernel cmdline initrd realModeEntry debug = .ok (some image) ∧
      handOver env.layout load image = .ok (some kexec) := by
  obtain ⟨_ | image, hload, h⟩ := bind_eq_ok_iff.mp h
  · cases h
  · exact ⟨image, hload, h⟩

include henv hkernel

/-- The kernel finds its command line and its ramdisk, whatever was in memory before. -/
theorem starts_of_load
    (h : loadBzImage env load kernel cmdline initrd realModeEntry debug = .ok (some kexec))
    (memory : Memory) :
    ∃ rhdr setupBase regs32, Starts ehdr (copySegments memory kexec.segments) kernel cmdline initrd
      (fun eip => realModeEntry = false → debug = false → eip = kern32Base) rhdr setupBase
      regs32 := by
  obtain ⟨image, hload, hhandOver⟩ := loadBzImage_run h
  obtain ⟨run⟩ := doBzImageLoad_run hload
  obtain ⟨handed⟩ := handOver_run henv run hhandOver
  refine ⟨handed.rhdr, run.setupBase, handed.regs32, handed.moved henv, ?_, handed.enters,
    handed.kernelFound henv hkernel memory⟩
  exact handed.foundAt henv hkernel memory _ handed.mem_regs32

end Whole

/-! A machine with 64 megabytes, and a kernel of 32 kilobytes. -/

def exampleRam : Layout where
  ranges := [⟨0x100, 0x9f000, .ram⟩, ⟨0x9f000, 0xa0000, .reserved⟩, ⟨0xf0000, 0x100000, .reserved⟩,
    ⟨0x100000, 0x4000000, .ram⟩]

def exampleBz : BzImageEnv where
  layout := exampleRam
  purgatoryFresh := fun _ => 0xaa
  realModeFresh := fun _ => 0x55
  purgatory := some examplePurgatory
  memory := some exampleRam.ranges

def exampleCall : LoadCall where
  machine := some "i686".toList
  arch := {}
  ctx := stackContext
  flags := 0

/-- Two sectors of setup code, protocol 2.03. -/
def exampleKernel : Bytes :=
  List.replicate 0x1f1 0 ++ [2] ++ List.replicate 20 0 ++ putLE 2 0x203 ++ List.replicate 36 0 ++
    putLE 4 0x37ffffff ++ List.replicate 32208 0x90

def exampleCmdline : Bytes := cmdlineBytes exampleLoading.commandLine

theorem length_exampleKernel : exampleKernel.length = 32768 := by
  simp only [exampleKernel, List.length_append, List.length_replicate, length_putLE,
    List.length_singleton]

theorem fread_exampleKernel : linuxHeader.fread exampleKernel = some exampleKernel := by
  have hsize : linuxHeader.sizeof = 32768 := by decide +kernel
  rw [Struct.fread, hsize, if_pos (Nat.le_of_eq length_exampleKernel.symm),
    List.take_of_length_le (Nat.le_of_eq length_exampleKernel)]

theorem realModeSize_exampleKernel : realModeSize exampleKernel = 1536 := by
  rw [realModeSize, Struct.readFrom, fread_exampleKernel]
  decide +kernel

theorem bootKernel_example : BootKernel exampleKernel exampleCmdline (some [5]) where
  version := by decide +kernel
  setup := by
    rw [realModeSize_exampleKernel]
    decide
  nonempty := by decide
  size := by
    rw [length_exampleKernel]
    decide
  initrd := by decide

theorem proper_exampleBz : exampleBz.Proper examplePurgatory where
  layout := ⟨by decide, by decide, by decide⟩
  other := by decide
  memMin := by decide
  purgatory := rfl
  object := by
    constructor
    · have hfile : examplePurgatory.file.length = 578 := by decide +kernel
      rw [hfile]
      unfold examplePurgatory
      simp [Shdr.copied]
    · unfold examplePurgatory
      simp only [List.forall_mem_cons, Bool.false_eq_true, false_imp_iff, true_and]
      exact ⟨fun _ => ⟨2, by decide, rfl⟩, fun _ => ⟨4, by decide, rfl⟩, by simp⟩
    · decide
    · unfold examplePurgatory
      simp
  tables := tables_examplePurgatory
  symbols := by
    constructor
    · decide +kernel
    · decide +kernel
  size := by decide
  request := ⟨⟨.inr ⟨4, by decide, by decide⟩, by decide, by decide, by decide, by decide⟩,
    by decide⟩

theorem exists_of_isSome {α ε : Type} {x : Except ε (Option α)}
    (h : x.toOption.join.isSome = true) : ∃ a, x = .ok (some a) := by
  cases x with
  | error e => cases h
  | ok found =>
    cases found with
    | none => cases h
    | some a => exact ⟨a, rfl⟩

theorem loadBzImage_example :
    ∃ kexec, loadBzImage exampleBz exampleCall exampleKernel exampleCmdline (some [5]) false
      false = .ok (some kexec) := by
  have hsize : kern16Size ((linuxHeader.read .setupSects exampleKernel).getD 0) = 1536 := by
    decide +kernel
  have hcode : (exampleKernel.drop 1536).length = 31232 := by
    rw [List.length_drop, length_exampleKernel]
  apply exists_of_isSome
  unfold loadBzImage doBzImageLoad
  rw [fread_exampleKernel]
  dsimp only
  rw [hsize, length_exampleKernel, hcode, if_neg (by decide)]
  decide +kernel

/-- The architectures that `arch_compat_trampoline` knows. -/
def machines : List Text := ["i386", "i486", "i586", "i686", "x86_64"].map String.toList

theorem archCompatTrampoline_none {machine : Option Text} {rhdr : Ehdr} {entry flags : Nat}
    (h : archCompatTrampoline machine rhdr entry flags = .ok none) (hshdrs : rhdr.shdrs ≠ []) :
    ∀ name ∈ machine, name ∉ machines := by
  unfold archCompatTrampoline at h
  split at h
  · simp
  · split at h
    · cases h
    · rename_i name hi386
      split at h
      · obtain ⟨_, -, h⟩ := bind_eq_ok_iff.mp h
        obtain ⟨_, -, h⟩ := bind_eq_ok_iff.mp h
        cases h
      · rename_i hx86
        rintro _ ⟨⟩ hmem
        rcases List.mem_append.mp (show name ∈ ["i386", "i486", "i586", "i686"].map
          String.toList ++ ["x86_64".toList] from hmem) with hmem | hmem
        · exact hi386 hmem
        · exact hx86 (List.mem_singleton.mp hmem)

section Refused

variable {env : BzImageEnv} {ehdr : Ehdr} (henv : env.Proper ehdr) {load : LoadCall}
  {kernel cmdline : Bytes} {initrd : Option Bytes} (hkernel : BootKernel kernel cmdline initrd)
  {realModeEntry debug : Bool}

theorem doBzImageLoad_none
    (h : doBzImageLoad env kernel cmdline initrd realModeEntry debug = .ok none) :
    kernel.length < linuxHeader.sizeof ∨ kernel.length < realModeSize kernel := by
  by_cases hheader : kernel.length < linuxHeader.sizeof
  · exact .inl hheader
  · right
    have hfread : linuxHeader.fread kernel = some (kernel.take linuxHeader.sizeof) :=
      if_pos (Nat.le_of_not_lt hheader)
    unfold doBzImageLoad at h
    rw [hfread] at h
    dsimp only at h
    split at h
    · rename_i hshort
      rwa [realModeSize, Struct.readFrom, hfread]
    · obtain ⟨⟨_, _⟩, -, h⟩ := bind_eq_ok_iff.mp h
      obtain ⟨⟨_, _⟩, -, h⟩ := bind_eq_ok_iff.mp h
      dsimp only at h
      split at h
      · cases h
      · obtain ⟨_, -, h⟩ := bind_eq_ok_iff.mp h
        obtain ⟨⟨_, _⟩, -, h⟩ := bind_eq_ok_iff.mp h
        obtain ⟨⟨_, _⟩, -, h⟩ := bind_eq_ok_iff.mp h
        obtain ⟨_, -, h⟩ := bind_eq_ok_iff.mp h
        cases h

include henv hkernel

/-- A kernel is only refused for its length or for the machine: what the loader has placed
passes every check of `my_load`. -/
theorem loadBzImage_refused
    (h : loadBzImage env load kernel cmdline initrd realModeEntry debug = .ok none) :
    kernel.length < linuxHeader.sizeof ∨ kernel.length < realModeSize kernel ∨
      ∀ machine ∈ load.machine, machine ∉ machines := by
  obtain ⟨found, hload, h⟩ := bind_eq_ok_iff.mp h
  cases found with
  | none => exact (doBzImageLoad_none hload).imp_right .inl
  | some image =>
    obtain ⟨run⟩ := doBzImageLoad_run hload
    obtain ⟨hsound, -⟩ := run.initrd_placed henv hkernel
    obtain ⟨found, htrampoline, h⟩ := bind_eq_ok_iff.mp h
    cases found with
    | none =>
      have htables := (run.moved henv).symbolTables henv.tables
      obtain ⟨-, _, _, hset, -⟩ := setRegisters_spec run.registers
      obtain ⟨_, _, -, -, hrhdr⟩ := (setSymbols_eq_ok_iff htables).mp hset
      obtain ⟨shdr, hshdr, -⟩ := henv.size
      refine .inr (.inr (archCompatTrampoline_none htrampoline fun hnil => ?_))
      rw [hrhdr] at hnil
      have hlength := (run.moved henv).shdrs.length_eq
      rw [show run.placed.shdrs = [] from hnil, List.length_nil] at hlength
      rw [List.length_eq_zero_iff.mp hlength] at hshdr
      cases hshdr
    | some found =>
      dsimp only at h
      rw [(hsound.kept.verified henv.layout).1] at h
      obtain ⟨_, -, h⟩ := bind_eq_ok_iff.mp h
      cases h

end Refused

/-- The kernel without its last bytes. -/
theorem loadBzImage_refused_short :
    (exampleKernel.take 20000).length < linuxHeader.sizeof ∨
      (exampleKernel.take 20000).length < realModeSize (exampleKernel.take 20000) ∨
      ∀ machine ∈ exampleCall.machine, machine ∉ machines := by
  have hlength : (exampleKernel.take 20000).length = 20000 := by
    rw [List.length_take, length_exampleKernel]
    rfl
  have hsize : linuxHeader.sizeof = 32768 := by decide +kernel
  have hfread : linuxHeader.fread (exampleKernel.take 20000) = none := by
    rw [Struct.fread, hsize, hlength]
    rfl
  have hrealMode : realModeSize (exampleKernel.take 20000) = 2560 := by
    rw [realModeSize, Struct.readFrom, hfread]
    rfl
  have hkernel : BootKernel (exampleKernel.take 20000) exampleCmdline none := by
    constructor
    · decide +kernel
    · rw [hrealMode]
      decide
    · decide
    · rw [hlength]
      decide
    · decide
  refine @loadBzImage_refused exampleBz _ proper_exampleBz exampleCall _ _ _ hkernel false false ?_
  unfold loadBzImage doBzImageLoad
  rw [hfread]
  rfl

section Verified

variable {env : BzImageEnv} {ehdr : Ehdr} (henv : env.Proper ehdr) {load : LoadCall}
  {kernel cmdline : Bytes} {initrd : Option Bytes} (hkernel : BootKernel kernel cmdline initrd)
  {realModeEntry debug : Bool} {kexec : KexecLoad}

include henv hkernel

end Verified

section Makeimage

variable {opt : Options} {files : String → Option Bytes} {image : Bytes} (p : Payloads opt files)
  (hsize : p.rootfsStart < 2 ^ 31) (himage : makeimage opt files = .ok image)

include hsize himage

theorem loadImage_makeimage (loading : Loading) :
    (loadImage loading image).finish = .bzImage ⟨p.kernel, loading.commandLine, p.ramdisk,
      loading.options.realModeEntry, loading.options.debug⟩ := by
  have hoffsets := readOffsets_makeimage p hsize himage
  rw [p.makeimage_eq_header] at himage
  cases himage
  have hlength := p.length_header
  have hstart : p.rootfsStart = bootimageHeaderSize + p.kernel.length + p.ramdisk.length := rfl
  have hramdisk : memcpy (p.header ++ p.body) (.between
      ((bootimageHeaderSize + p.kernel.length : Nat) : Int) (p.rootfsStart : Int)) =
        .ok p.ramdisk := by
    rw [Payloads.body, ← List.append_assoc]
    refine memcpy_between ?_ ?_ (by omega)
    · rw [List.length_append, hlength]
    · rw [List.length_append, hlength, hstart]
      omega
  have hkernel : memcpy (p.header ++ p.body) (.between (bootimageHeaderSize : Int)
      ((bootimageHeaderSize + p.kernel.length : Nat) : Int)) = .ok p.kernel := by
    refine memcpy_between ?_ ?_ (by omega)
    · rw [hlength]
    · rw [hlength]
      omega
  rw [loadImage, hoffsets]
  dsimp only
  rw [Offsets.ramdiskRange, hramdisk]
  dsimp only
  rw [Offsets.kernelRange, hkernel]

variable {env : BzImageEnv} {ehdr : Ehdr} (henv : env.Proper ehdr) {load : LoadCall}
  {loadEnv : LoadEnv} {argv : List Text} {loading : Loading}
  (hprepare : prepare loadEnv argv = .ok loading)
  (hkernel : BootKernel p.kernel (cmdlineBytes loading.commandLine) (some p.ramdisk))

include hprepare

theorem loadMonoimage_makeimage : loadMonoimage loadEnv env load argv image =
    loadBzImage env load p.kernel (cmdlineBytes loading.commandLine) (some p.ramdisk)
      loading.options.realModeEntry loading.options.debug := by
  rw [loadMonoimage, monoimageLoad_of_prepare hprepare, loadImage_makeimage p hsize himage]

include henv hkernel

end Makeimage

def exampleFiles (path : String) : Option Bytes :=
  if path = "k" then some exampleKernel else if path = "i" then some [5] else some [7, 8, 9]

def examplePayloads : Payloads sampleOptions exampleFiles where
  kernel := exampleKernel
  ramdisk := [5]
  rootfs := [7, 8, 9]
  kernel_eq := rfl
  ramdisk_eq := rfl
  rootfs_eq := rfl

theorem rootfsStart_examplePayloads : examplePayloads.rootfsStart < 2 ^ 31 := by
  have hlength : examplePayloads.kernel.length = 32768 := length_exampleKernel
  rw [Payloads.rootfsStart, hlength]
  decide

end Monoimage.Kexec
