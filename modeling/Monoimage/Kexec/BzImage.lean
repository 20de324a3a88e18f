import Monoimage.Kexec.FileType
import Monoimage.Kexec.Parameters
import Monoimage.Kexec.Purgatory
import Monoimage.Kexec.Symbols

/-! `do_bzImage_load`: the segments of a Linux kernel, and what it finds in memory. -/
namespace Monoimage.Kexec

open Clib

/-- The buffers that the segments point to. -/
inductive BufferName where
  | purgatory
  | realMode
  | kernel
  | initrd
  deriving DecidableEq, Repr

inductive Reg32 where
  | eax | ebx | ecx | edx | esi | edi | esp | ebp | eip
  deriving DecidableEq, Repr

def entry32Regs : Struct Reg32 :=
  [⟨.eax, .uint32, 1⟩, ⟨.ebx, .uint32, 1⟩, ⟨.ecx, .uint32, 1⟩, ⟨.edx, .uint32, 1⟩,
   ⟨.esi, .uint32, 1⟩, ⟨.edi, .uint32, 1⟩, ⟨.esp, .uint32, 1⟩, ⟨.ebp, .uint32, 1⟩,
   ⟨.eip, .uint32, 1⟩]

inductive Reg16 where
  | eax | ebx | ecx | edx | esi | edi | esp | ebp | ds | es | ss | fs | gs | ip | cs | pad
  deriving DecidableEq, Repr

def entry16Regs : Struct Reg16 :=
  [⟨.eax, .uint32, 1⟩, ⟨.ebx, .uint32, 1⟩, ⟨.ecx, .uint32, 1⟩, ⟨.edx, .uint32, 1⟩,
   ⟨.esi, .uint32, 1⟩, ⟨.edi, .uint32, 1⟩, ⟨.esp, .uint32, 1⟩, ⟨.ebp, .uint32, 1⟩,
   ⟨.ds, .uint16, 1⟩, ⟨.es, .uint16, 1⟩, ⟨.ss, .uint16, 1⟩, ⟨.fs, .uint16, 1⟩,
   ⟨.gs, .uint16, 1⟩, ⟨.ip, .uint16, 1⟩, ⟨.cs, .uint16, 1⟩, ⟨.pad, .uint16, 1⟩]

/-- What the loader meets: the memory layout, what `malloc` leaves in the two buffers, the
purgatory as `build_elf_rel_info` reads it, and the ranges that are read for the new kernel. -/
structure BzImageEnv where
  layout : Layout
  purgatoryFresh : Nat → UInt8
  realModeFresh : Nat → UInt8
  purgatory : Option Ehdr
  memory : Option (List MemoryRange)

/-- `info` and the buffers behind it. -/
structure BzImage where
  segments : List (Segment BufferName)
  rhdr : Ehdr
  realMode : Bytes
  kernel : Bytes
  initrd : Option Bytes
  deriving DecidableEq, Repr

def lowMax : Nat := 640 * 1024

def setupBaseOld : Nat := 0x90000

def kern32Base : Nat := 0x100000

/-- `elf_rel_build_load`. -/
def elfRelBuildLoad (env : BzImageEnv) (min max : Nat) (holeEnd : Int) :
    Except Death (Ehdr × List (Segment BufferName)) :=
  match env.purgatory with
  | none => .error (.rel .parseFailed)
  | some ehdr =>
    elfRelLoad env.purgatoryFresh env.layout [] .purgatory ehdr min max holeEnd

/-- `kern16_size`. -/
def kern16Size (setupSects : Nat) : Nat := ((if setupSects = 0 then 4 else setupSects) + 1) * 512

/-- The real mode code and its command line get memory from 0x3000 on, or at 0x90000 in the
protocol without a version. -/
def placeRealMode (layout : Layout) (segments : List (Segment BufferName)) (version size : Nat) :
    Except Death (Nat × List (Segment BufferName)) :=
  if 0x0200 ≤ version then
    addBuffer layout segments ⟨.realMode, size, ⟨size, 16, 0x3000, lowMax, -1⟩⟩
  else do
    let segments ← addSegment layout segments .realMode size setupBaseOld size
    pure (setupBaseOld, segments)

/-- The kernel's entry, or the way to it through real mode. -/
def kernelEip (rhdr : Ehdr) (realModeEntry : Bool) : Except Death Nat :=
  if realModeEntry then elfRelGetAddr rhdr (asciiBytes "entry16") else pure kern32Base

/-- With `--debug` the hooks of the kernel are set and the entry is that of the hooks. -/
def hookKernel (debug : Bool) (eip : Nat) (rhdr : Ehdr) (realMode : Bytes) :
    Except Death (Nat × Ehdr × Bytes) :=
  if ¬ debug then pure (eip, rhdr, realMode)
  else do
    let entry16Debug ← elfRelGetAddr rhdr (asciiBytes "entry16_debug")
    let pre32 ← elfRelGetAddr rhdr (asciiBytes "entry16_debug_pre32")
    let first32 ← elfRelGetAddr rhdr (asciiBytes "entry16_debug_first32")
    let oldFirst32 := readParam .kernelStart realMode
    let realMode ← pokeAll (linuxParam.assign [(.rmodeSwitchCs, entry16Debug / 16),
      (.rmodeSwitchIp, ulongSub pre32 entry16Debug), (.kernelStart, first32)]) realMode
    let rhdr ← elfRelSetSymbol rhdr (asciiBytes "entry16_debug_old_first32")
      (putLE 4 oldFirst32)
    pure (entry16Debug, rhdr, realMode)

/-- The registers for both ways into the kernel, and the object with them. -/
def setRegisters (rhdr : Ehdr) (realMode : Bytes) (setupBase : Nat) (realModeEntry debug : Bool) :
    Except Death (Ehdr × Bytes) := do
  let regs16 ← elfRelGetSymbol rhdr (asciiBytes "entry16_regs") entry16Regs.sizeof
  let regs32 ← elfRelGetSymbol rhdr (asciiBytes "entry32_regs") entry32Regs.sizeof
  let stackEnd ← elfRelGetAddr rhdr (asciiBytes "stack_end")
  let regs16 ← pokeAll (entry16Regs.assign [(.cs, setupBase + 0x20), (.ip, 0),
    (.ss, ulongSub stackEnd (64 * 1024) / 16), (.esp, 0xFFFC)]) regs16
  let eip ← kernelEip rhdr realModeEntry
  let (eip, rhdr, realMode) ← hookKernel debug eip rhdr realMode
  let regs32 ← pokeAll (entry32Regs.assign [(.eax, 0), (.ebx, 0), (.ecx, 0), (.edx, 0),
    (.esi, setupBase), (.edi, 0), (.esp, stackEnd), (.ebp, 0), (.eip, eip)]) regs32
  let rhdr ← elfRelSetSymbol rhdr (asciiBytes "entry16_regs") regs16
  let rhdr ← elfRelSetSymbol rhdr (asciiBytes "entry16_debug_regs") regs16
  let rhdr ← elfRelSetSymbol rhdr (asciiBytes "entry32_regs") regs32
  pure (rhdr, realMode)

/-- What the BIOS would have told a kernel that starts in real mode. -/
def fillSystem (env : BzImageEnv) (realModeEntry : Bool) (realMode : Bytes) :
    Except Death Bytes :=
  if realModeEntry then pure realMode else setupLinuxSystemParameters env.memory realMode

/-- The bytes of a command line, with its NUL. -/
def cmdlineBytes (commandLine : Text) : Bytes :=
  commandLine.map (fun c => UInt8.ofNat c.toNat) ++ [0]

/-- Nothing where -1 is returned. -/
def doBzImageLoad (env : BzImageEnv) (kernel cmdline : Bytes) (initrd : Option Bytes)
    (realModeEntry debug : Bool) : Except Death (Option BzImage) := do
  match linuxHeader.fread kernel with
  | none => pure none
  | some setupHeader =>
    let kern16 := kern16Size ((linuxHeader.read .setupSects setupHeader).getD 0)
    if kernel.length < kern16 then pure none
    else
      -- the trampoline comes first: it has to lie above the parameters
      let (rhdr, segments) ← elfRelBuildLoad env 0x3000 lowMax (-1)
      let setupSize := kern16 + cmdline.length
      let realMode := kernel.take kern16 ++ malloc env.realModeFresh cmdline.length
      let version := readParam .protocolVersion realMode
      let (setupBase, segments) ← placeRealMode env.layout segments version setupSize
      if rhdr.relAddr < setupBase then .error .setupCode
      else
        let code := kernel.drop kern16
        let segments ← addSegment env.layout segments .kernel code.length kern32Base code.length
        let (realMode, segments) ← setupLinuxBootloaderParameters env.layout segments .initrd
          realMode setupBase kern16 cmdline initrd
        let (rhdr, realMode) ← setRegisters rhdr realMode setupBase realModeEntry debug
        let realMode ← fillSystem env realModeEntry realMode
        pure (some ⟨segments, rhdr, realMode, code, initrd⟩)

/-! ## What the purgatory is told -/

/-- The symbols that are set, in the order in which that is done. -/
def purgatorySymbols : List Bytes :=
  ["entry16_debug_old_first32", "entry16_regs", "entry16_debug_regs", "entry32_regs",
   "compat_x86_64_entry32", "reset_vga", "serial_base", "serial_baud", "console_vga",
   "console_serial", "sha256_regions", "sha256_digest"].map asciiBytes

theorem nodup_purgatorySymbols : purgatorySymbols.Nodup := by decide +kernel

theorem hookKernel_spec {debug : Bool} {eip eip' : Nat} {rhdr rhdr' : Ehdr}
    {realMode hooked : Bytes}
    (h : hookKernel debug eip rhdr realMode = .ok (eip', rhdr', hooked)) :
    LateOnly realMode hooked ∧ (debug = false → eip' = eip) ∧
      ∃ assignments, setSymbols assignments rhdr = .ok rhdr' ∧
        (assignments.map Prod.fst).Sublist [asciiBytes "entry16_debug_old_first32"] := by
  unfold hookKernel at h
  split at h
  · cases h
    exact ⟨lateOnly_refl _, fun _ => rfl, [], rfl, List.nil_sublist _⟩
  · rename_i hdebug
    obtain ⟨entry16Debug, -, h⟩ := bind_eq_ok_iff.mp h
    obtain ⟨pre32, -, h⟩ := bind_eq_ok_iff.mp h
    obtain ⟨first32, -, h⟩ := bind_eq_ok_iff.mp h
    obtain ⟨hooked, hpokes, h⟩ := bind_eq_ok_iff.mp h
    obtain ⟨rhdr', hset, h⟩ := bind_eq_ok_iff.mp h
    cases h
    refine ⟨⟨_, pokeAll_eq_ok_iff.mp hpokes, late_assign ?_⟩, ?_, _,
      (setSymbols_singleton _ _ _).trans hset, List.Sublist.refl _⟩
    · have hnames : ∀ name ∈ [ParamField.rmodeSwitchCs, .rmodeSwitchIp, .kernelStart],
          name.stop ≤ 0x218 := by
        decide +kernel
      exact hnames
    · rintro rfl
      exact absurd (not_not.mp hdebug) Bool.false_ne_true

/-- The registers of `entry32_regs`: the parameters in `%esi`, and the entry. -/
structure Enters (regs32 : Bytes) (setupBase : Nat) (eip : Nat → Prop) : Prop where
  length : regs32.length = entry32Regs.sizeof
  esi : entry32Regs.read .esi regs32 = some (ulong setupBase)
  eip : ∃ entry, entry32Regs.read .eip regs32 = some (ulong entry) ∧ eip entry

theorem setRegisters_spec {rhdr rhdr' : Ehdr} {realMode hooked : Bytes} {setupBase : Nat}
    {realModeEntry debug : Bool}
    (h : setRegisters rhdr realMode setupBase realModeEntry debug = .ok (rhdr', hooked)) :
    LateOnly realMode hooked ∧
      ∃ assignments regs32, setSymbols assignments rhdr = .ok rhdr' ∧
        (assignments.map Prod.fst).Sublist (purgatorySymbols.take 4) ∧
        (asciiBytes "entry32_regs", regs32) ∈ assignments ∧
        Enters regs32 setupBase fun eip =>
          realModeEntry = false → debug = false → eip = kern32Base := by
  obtain ⟨regs16, -, h⟩ := bind_eq_ok_iff.mp h
  obtain ⟨regs32, hregs32, h⟩ := bind_eq_ok_iff.mp h
  obtain ⟨stackEnd, -, h⟩ := bind_eq_ok_iff.mp h
  obtain ⟨regs16', -, h⟩ := bind_eq_ok_iff.mp h
  obtain ⟨eip, heip, h⟩ := bind_eq_ok_iff.mp h
  obtain ⟨⟨eip', rhdr1, hooked'⟩, hhook, h⟩ := bind_eq_ok_iff.mp h
  obtain ⟨regs32', hregs32', h⟩ := bind_eq_ok_iff.mp h
  obtain ⟨rhdr2, hset16, h⟩ := bind_eq_ok_iff.mp h
  obtain ⟨rhdr3, hset16Debug, h⟩ := bind_eq_ok_iff.mp h
  obtain ⟨rhdr4, hset32, h⟩ := bind_eq_ok_iff.mp h
  cases h
  obtain ⟨hlate, hkeeps, assignments, hassignments, hnames⟩ := hookKernel_spec hhook
  rw [pokeAll_eq_ok_iff] at hregs32'
  refine ⟨hlate, assignments ++ [(asciiBytes "entry16_regs", regs16'),
    (asciiBytes "entry16_debug_regs", regs16'), (asciiBytes "entry32_regs", regs32')], regs32',
    ?_, ?_, ?_, ?_⟩
  · rw [setSymbols_append_iff]
    refine ⟨rhdr1, hassignments, ?_⟩
    simp only [setSymbols, bind_eq_ok_iff]
    exact ⟨rhdr2, hset16, rhdr3, hset16Debug, _, hset32, rfl⟩
  · rw [List.map_append]
    exact hnames.append (List.Sublist.refl _)
  · simp
  · obtain ⟨data, -, hsize, rfl⟩ := getSymbol_eq_ok_iff.mp hregs32
    have hread (reg : Reg32) {m : Member Reg32} {start value : Nat}
        (hmember : entry32Regs.member reg = some (m, start))
        (hmem : (reg, value) ∈ [(Reg32.eax, 0), (.ebx, 0), (.ecx, 0), (.edx, 0),
          (.esi, setupBase), (.edi, 0), (.esp, stackEnd), (.ebp, 0), (.eip, eip')]) :
        entry32Regs.read reg regs32' = some (value % 256 ^ m.size) := by
      have hnodup : [Reg32.eax, .ebx, .ecx, .edx, .esi, .edi, .esp, .ebp, .eip].Nodup := by
        decide
      rw [← List.append_nil (entry32Regs.assign _)] at hregs32'
      exact Struct.read_assign hmember hregs32' hmem hnodup (by simp)
    constructor
    · rw [length_applyPokes hregs32', List.length_take_of_le hsize]
    · exact @hread .esi ⟨.esi, .uint32, 1⟩ 16 _ rfl (by simp)
    · refine ⟨eip', @hread .eip ⟨.eip, .uint32, 1⟩ 32 _ rfl (by simp), ?_⟩
      rintro rfl hdebug
      rw [hkeeps hdebug]
      exact (Except.ok.inj heip).symm

/-! ## A load that goes through -/

/-- The size of a kernel's real mode code, as its own header has it. -/
def realModeSize (kernel : Bytes) : Nat :=
  kern16Size ((linuxHeader.readFrom .setupSects kernel).getD 0)

/-- The real mode code and room for the command line, before any parameter is set. -/
def realModeBuffer (env : BzImageEnv) (kernel cmdline : Bytes) : Bytes :=
  kernel.take (realModeSize kernel) ++ malloc env.realModeFresh cmdline.length

/-- The stations of a load. -/
structure BzImageRun (env : BzImageEnv) (kernel cmdline : Bytes) (initrd : Option Bytes)
    (realModeEntry debug : Bool) (image : BzImage) where
  placed : Ehdr
  setupBase : Nat
  purgatorySegments : List (Segment BufferName)
  realModeSegments : List (Segment BufferName)
  kernelSegments : List (Segment BufferName)
  bootParameters : Bytes
  hooked : Bytes
  long : realModeSize kernel ≤ kernel.length
  header : linuxHeader.sizeof ≤ kernel.length
  purgatory : elfRelBuildLoad env 0x3000 lowMax (-1) = .ok (placed, purgatorySegments)
  realMode : placeRealMode env.layout purgatorySegments
    (readParam .protocolVersion (realModeBuffer env kernel cmdline))
    (realModeSize kernel + cmdline.length) = .ok (setupBase, realModeSegments)
  above : setupBase ≤ placed.relAddr
  kernelPlaced : addSegment env.layout realModeSegments .kernel
    (kernel.drop (realModeSize kernel)).length kern32Base
    (kernel.drop (realModeSize kernel)).length = .ok kernelSegments
  bootloader : setupLinuxBootloaderParameters env.layout kernelSegments .initrd
    (realModeBuffer env kernel cmdline) setupBase (realModeSize kernel) cmdline initrd =
      .ok (bootParameters, image.segments)
  registers : setRegisters placed bootParameters setupBase realModeEntry debug =
    .ok (image.rhdr, hooked)
  system : fillSystem env realModeEntry hooked = .ok image.realMode
  kernel_eq : image.kernel = kernel.drop (realModeSize kernel)
  initrd_eq : image.initrd = initrd

section Run

variable {env : BzImageEnv} {kernel cmdline : Bytes} {initrd : Option Bytes}
  {realModeEntry debug : Bool} {image : BzImage}

theorem doBzImageLoad_run
    (h : doBzImageLoad env kernel cmdline initrd realModeEntry debug = .ok (some image)) :
    Nonempty (BzImageRun env kernel cmdline initrd realModeEntry debug image) := by
  unfold doBzImageLoad at h
  cases hfread : linuxHeader.fread kernel with
  | none =>
    rw [hfread] at h
    cases h
  | some setupHeader =>
    have hheader : linuxHeader.sizeof ≤ kernel.length := by
      unfold Struct.fread at hfread
      split at hfread
      · assumption
      · cases hfread
    have hsize : kern16Size ((linuxHeader.read .setupSects setupHeader).getD 0) =
        realModeSize kernel := by
      rw [realModeSize, Struct.readFrom, hfread]
      rfl
    rw [hfread] at h
    dsimp only at h
    rw [hsize] at h
    split at h
    · cases h
    · rename_i hlong
      obtain ⟨⟨placed, low⟩, hpurgatory, h⟩ := bind_eq_ok_iff.mp h
      obtain ⟨⟨setupBase, lower⟩, hrealMode, h⟩ := bind_eq_ok_iff.mp h
      dsimp only at h
      split at h
      · cases h
      · rename_i habove
        obtain ⟨high, hkernel, h⟩ := bind_eq_ok_iff.mp h
        obtain ⟨⟨parameters, all⟩, hbootloader, h⟩ := bind_eq_ok_iff.mp h
        obtain ⟨⟨rhdr, hooked⟩, hregisters, h⟩ := bind_eq_ok_iff.mp h
        obtain ⟨realMode, hsystem, h⟩ := bind_eq_ok_iff.mp h
        cases h
        exact ⟨⟨placed, setupBase, low, lower, high, parameters, hooked,
          Nat.le_of_not_lt hlong, hheader, hpurgatory, hrealMode, Nat.le_of_not_lt habove,
          hkernel, hbootloader, hregisters, hsystem, rfl, rfl⟩⟩

end Run

/-! ## The segments -/

/-- A query for whole pages, with addresses that do not wrap. -/
theorem pageQuery_proper {layout : Layout} (hlayout : layout.Proper)
    (hmemMin : layout.memMin + pageSize ≤ 2 ^ 32) {size align min max : Nat} {holeEnd : Int}
    (halign : PowerOfTwo align) (hle : align ≤ pageSize) (hmin : min + pageSize ≤ 2 ^ 32)
    (hend : holeEnd ≠ 0) : HoleQuery.Proper ⟨size, align, min, max, holeEnd⟩ layout := by
  have hsane : HoleQuery.saneAlign ⟨size, align, min, max, holeEnd⟩ = pageSize := by
    rw [HoleQuery.saneAlign_eq]
    dsimp only
    split
    · rfl
    · omega
  constructor
  · exact .inr halign
  · rwa [hsane]
  · rwa [hsane]
  · rw [hsane]
    exact hlayout.below
  · exact hend

/-- The machine that runs kexec, and a purgatory that its own checks let through. -/
structure BzImageEnv.Proper (env : BzImageEnv) (ehdr : Ehdr) : Prop where
  layout : env.layout.Proper
  other : ∃ range ∈ env.layout.ranges, range.type ≠ .ram
  memMin : env.layout.memMin + pageSize ≤ 2 ^ 32
  purgatory : env.purgatory = some ehdr
  object : ehdr.Proper
  tables : ehdr.SymbolTables
  symbols : ehdr.SymbolsApart purgatorySymbols
  size : ∃ shdr ∈ ehdr.shdrs, shdr.alloc ∧ 0 < shdr.size
  request : (relRequest ehdr.shdrs BufferName.purgatory 0x3000 lowMax (-1)).Proper env.layout

/-- A kernel that takes its parameters from wherever they are, and what it is started with. -/
structure BootKernel (kernel cmdline : Bytes) (initrd : Option Bytes) : Prop where
  version : 0x0202 ≤ readParam .protocolVersion kernel
  setup : 0x550 ≤ realModeSize kernel
  nonempty : cmdline ≠ []
  size : kernel.length + cmdline.length < 2 ^ 31
  initrd : (initrd.getD []).length < 2 ^ 31

/-- A buffer that a segment points to has the bytes, and only the purgatory is at its place. -/
structure Owned (length : BufferName → Nat) (relAddr : Nat) (segment : Segment BufferName) :
    Prop where
  bufsz : segment.bufsz = length segment.buf
  mem : segment.buf = .purgatory → segment.mem = relAddr

theorem version_realModeBuffer {env : BzImageEnv} {kernel cmdline : Bytes}
    {initrd : Option Bytes} (hkernel : BootKernel kernel cmdline initrd)
    (hlong : realModeSize kernel ≤ kernel.length) :
    readParam .protocolVersion (realModeBuffer env kernel cmdline) =
      readParam .protocolVersion kernel := by
  have hsetup := hkernel.setup
  have htake : (kernel.take (realModeSize kernel)).length = realModeSize kernel :=
    List.length_take_of_le hlong
  have hsize : Member.size ⟨ParamField.protocolVersion, .uint16, 1⟩ = 2 := rfl
  unfold readParam realModeBuffer
  rw [Struct.read_eq_slice member_protocolVersion, Struct.read_eq_slice member_protocolVersion,
    hsize, slice_append (by omega), slice_take (by omega)]

/-- The ramdisk has memory of its own, if there is one. -/
theorem loadInitrd_carries {β : Type} {layout : Layout} (hlayout : layout.Proper)
    (hother : ∃ range ∈ layout.ranges, range.type ≠ .ram)
    (hmemMin : layout.memMin + pageSize ≤ 2 ^ 32) {segments segments' : List (Segment β)}
    (hkept : Kept layout segments) {name : β} {initrd : Option Bytes}
    (hsize : (initrd.getD []).length < 2 ^ 31) {addrMax base : Nat}
    (h : loadInitrd layout segments name initrd addrMax = .ok (base, segments')) :
    Kept layout segments' ∧ segments ⊆ segments' ∧
      Carries segments' name base (initrd.getD []).length ∧
      ∀ segment ∈ segments', segment ∈ segments ∨
        (segment.buf = name ∧ segment.bufsz = (initrd.getD []).length) := by
  unfold loadInitrd at h
  cases initrd with
  | none =>
    cases h
    exact ⟨hkept, List.Subset.refl _, .inl rfl, fun segment hsegment => .inl hsegment⟩
  | some bytes =>
    rw [Option.getD_some] at *
    have hrequest : (initrdRequest name bytes.length addrMax).Proper layout := by
      refine ⟨pageQuery_proper hlayout hmemMin powerOfTwo_pageSize (by decide) (by decide)
        (by decide), ?_⟩
      unfold pageSize initrdRequest
      dsimp only
      omega
    obtain ⟨hkept', hsub, hcarries, heach⟩ :=
      addBuffer_carries hlayout hother hrequest hkept rfl h
    refine ⟨hkept', hsub, hcarries, ?_⟩
    intro segment hsegment
    exact (heach segment hsegment).imp_right fun hnew => ⟨hnew.1, hnew.2.1⟩

section Segments

variable {env : BzImageEnv} {ehdr : Ehdr} (henv : env.Proper ehdr) {kernel cmdline : Bytes}
  {initrd : Option Bytes} {realModeEntry debug : Bool} {image : BzImage}
  (run : BzImageRun env kernel cmdline initrd realModeEntry debug image)

/-- The sizes of the buffers. -/
def BzImageRun.bufferLength : BufferName → Nat
  | .purgatory => run.placed.buffer.length
  | .realMode => realModeSize kernel + cmdline.length
  | .kernel => (kernel.drop (realModeSize kernel)).length
  | .initrd => (initrd.getD []).length

/-- What holds of the segments from one station to the next. -/
structure BzImageRun.Sound (segments : List (Segment BufferName)) : Prop where
  kept : Kept env.layout segments
  owned : ∀ segment ∈ segments, Owned run.bufferLength run.placed.relAddr segment

include henv

theorem BzImageRun.purgatory_loaded :
    elfRelLoad env.purgatoryFresh env.layout [] .purgatory ehdr 0x3000 lowMax (-1) =
      .ok (run.placed, run.purgatorySegments) := by
  have hload := run.purgatory
  unfold elfRelBuildLoad at hload
  rwa [henv.purgatory] at hload

theorem BzImageRun.moved : ehdr.Moved run.placed :=
  elfRelLoad_moved henv.layout henv.other (kept_nil _) henv.object henv.size henv.request
    (run.purgatory_loaded henv)

theorem BzImageRun.purgatory_placed :
    run.placed.InPlace ∧ run.Sound run.purgatorySegments ∧
      Carries run.purgatorySegments .purgatory run.placed.relAddr run.placed.buffer.length ∧
      run.placed.relAddr + run.placed.relSize ≤ lowMax ∧
      ∀ segment ∈ run.purgatorySegments, segment.mem + segment.memsz ≤ lowMax := by
  obtain ⟨hinPlace, hkept, hfits, hsize, hsegments⟩ := elfRelLoad_segment henv.layout henv.other
    (kept_nil _) henv.object henv.size henv.request (run.purgatory_loaded henv)
  have hbelow := hfits.below.2
  rw [hsize] at hbelow
  have hbufsz := Nat.min_eq_left hinPlace.buffer
  have hround : run.placed.relSize ≤ roundUp run.placed.relSize pageSize :=
    le_roundUp (by decide) _
  have hmem : Segment.paged BufferName.purgatory run.placed.buffer.length run.placed.relAddr
      run.placed.relSize ∈ run.purgatorySegments := by
    rw [hsegments]
    exact List.mem_append_right _ (List.mem_singleton_self _)
  have heach : ∀ segment ∈ run.purgatorySegments, segment = Segment.paged .purgatory
      run.placed.buffer.length run.placed.relAddr run.placed.relSize := by
    rw [hsegments]
    exact fun segment h => List.mem_singleton.mp h
  refine ⟨hinPlace, ⟨hkept, ?_⟩, .inr ⟨_, hmem, rfl, rfl, hbufsz, ?_⟩, hbelow, ?_⟩
  · intro segment hsegment
    rw [heach segment hsegment]
    exact ⟨hbufsz, fun _ => rfl⟩
  · exact hinPlace.buffer.trans hround
  · intro segment hsegment
    rw [heach segment hsegment]
    exact add_roundUp_le (by decide) ((powerOfTwo_pageSize.dvd henv.request.query.powerOfTwo
      (pageSize_le_saneAlign _)).trans hfits.aligned) (by decide) hbelow

variable (hkernel : BootKernel kernel cmdline initrd)

include hkernel

/-- The real mode code lies below the video memory. -/
theorem BzImageRun.realMode_placed :
    run.Sound run.realModeSegments ∧ run.purgatorySegments ⊆ run.realModeSegments ∧
      Carries run.realModeSegments .realMode run.setupBase
        (realModeSize kernel + cmdline.length) ∧
      ∀ segment ∈ run.realModeSegments, segment.mem + segment.memsz ≤ lowMax := by
  obtain ⟨-, hsound, -, -, hlow⟩ := run.purgatory_placed henv
  have hplace := run.realMode
  have hlong := run.long
  have hlength := hkernel.size
  have hversion := hkernel.version
  rw [version_realModeBuffer hkernel hlong, placeRealMode, if_pos (by omega)] at hplace
  have hrequest : Request.Proper (⟨.realMode, realModeSize kernel + cmdline.length,
      ⟨realModeSize kernel + cmdline.length, 16, 0x3000, lowMax, -1⟩⟩ : Request BufferName)
      env.layout := by
    refine ⟨pageQuery_proper henv.layout henv.memMin ⟨4, by decide, rfl⟩ (by decide) (by decide)
      (by decide), ?_⟩
    unfold pageSize
    dsimp only
    omega
  obtain ⟨hkept, hsub, hcarries, heach⟩ :=
    addBuffer_carries henv.layout henv.other hrequest hsound.kept rfl hplace
  refine ⟨⟨hkept, ?_⟩, hsub, hcarries, ?_⟩
  · intro segment hsegment
    rcases heach segment hsegment with hold | ⟨hbuf, hbufsz, -⟩
    · exact hsound.owned segment hold
    · refine ⟨?_, ?_⟩
      · rw [hbufsz, hbuf]
        rfl
      · rw [hbuf]
        rintro ⟨⟩
  · intro segment hsegment
    rcases heach segment hsegment with hold | ⟨-, -, hmem, hmemsz, -, hbelow, hdvd⟩
    · exact hlow segment hold
    · rw [hmem, hmemsz]
      exact add_roundUp_le (by decide) hdvd (by decide) hbelow

theorem BzImageRun.kernel_placed :
    run.Sound run.kernelSegments ∧ run.realModeSegments ⊆ run.kernelSegments ∧
      Carries run.kernelSegments .kernel kern32Base
        (kernel.drop (realModeSize kernel)).length := by
  obtain ⟨hsound, -, -, hlow⟩ := run.realMode_placed henv hkernel
  have hlength := hkernel.size
  obtain ⟨hkept, hsub, hcarries, heach⟩ := addSegment_carries henv.layout hsound.kept
    (by decide) (by decide) (by rw [List.length_drop]; unfold pageSize; omega)
    (fun segment hsegment => (hlow segment hsegment).trans (by decide)) run.kernelPlaced
  refine ⟨⟨hkept, ?_⟩, hsub, hcarries⟩
  intro segment hsegment
  rcases heach segment hsegment with hold | ⟨hbuf, hbufsz⟩
  · exact hsound.owned segment hold
  · refine ⟨?_, ?_⟩
    · rw [hbufsz, hbuf]
      rfl
    · rw [hbuf]
      rintro ⟨⟩

theorem BzImageRun.initrd_placed :
    run.Sound image.segments ∧ run.kernelSegments ⊆ image.segments ∧
      run.bootParameters.length = realModeSize kernel + cmdline.length ∧
      ∃ initrdBase, Carries image.segments .initrd initrdBase (initrd.getD []).length ∧
        Tells run.bootParameters (ulong (run.setupBase + realModeSize kernel))
          (realModeSize kernel) cmdline (ulong initrdBase) (ulong (initrd.getD []).length) := by
  obtain ⟨hsound, -, -⟩ := run.kernel_placed henv hkernel
  obtain ⟨hlength, initrdBase, hload, htells⟩ := bootloader_spec hkernel.nonempty hkernel.setup
    (by rw [version_realModeBuffer hkernel run.long]; exact hkernel.version) run.bootloader
  have hbuffer : (realModeBuffer env kernel cmdline).length =
      realModeSize kernel + cmdline.length := by
    rw [realModeBuffer, List.length_append, List.length_take_of_le run.long, length_malloc]
  rw [hbuffer] at hlength
  obtain ⟨hkept, hsub, hcarries, heach⟩ := loadInitrd_carries henv.layout henv.other henv.memMin
    hsound.kept hkernel.initrd hload
  refine ⟨⟨hkept, ?_⟩, hsub, hlength, initrdBase, hcarries, htells⟩
  intro segment hsegment
  rcases heach segment hsegment with hold | ⟨hbuf, hbufsz⟩
  · exact hsound.owned segment hold
  · refine ⟨?_, ?_⟩
    · rw [hbufsz, hbuf]
      rfl
    · rw [hbuf]
      rintro ⟨⟩

end Segments

end Monoimage.Kexec
