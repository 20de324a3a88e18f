import Monoimage.Kexec.BzImage

/-! The end of `my_load`: the trampoline for another architecture, the purgatory with its
options and its digest, and what lies in memory when the new kernel starts. -/
namespace Monoimage.Kexec

open Clib

def kexecArchX86_64 : Nat := 62 * 2 ^ 16

/-- The entry, the flags and the object. Nothing where -1 is returned; `machine` is what `uname`
tells. -/
def archCompatTrampoline (machine : Option Text) (rhdr : Ehdr) (entry flags : Nat) :
    Except Death (Option (Nat × Nat × Ehdr)) :=
  match machine with
  | none => .ok none
  | some machine =>
    if machine ∈ ["i386", "i486", "i586", "i686"].map String.toList then
      .ok (some (entry, flags, rhdr))
    else if machine = "x86_64".toList then
      if rhdr.shdrs = [] then .ok none
      else do
        let rhdr ← elfRelSetSymbol rhdr (asciiBytes "compat_x86_64_entry32") (putLE 4 entry)
        let entry ← elfRelGetAddr rhdr (asciiBytes "compat_x86_64")
        pure (some (entry, flags ||| kexecArchX86_64, rhdr))
    else .ok none

def archUpdatePurgatory (arch : ArchFlags) (rhdr : Ehdr) : Except Death Ehdr :=
  setSymbols
    [(asciiBytes "reset_vga", putLE 1 arch.resetVga.toNat),
     (asciiBytes "serial_base", putLE 2 arch.serialBase),
     (asciiBytes "serial_baud", putLE 4 arch.serialBaud),
     (asciiBytes "console_vga", putLE 1 arch.consoleVga.toNat),
     (asciiBytes "console_serial", putLE 1 arch.consoleSerial.toNat)] rhdr

def Region.bytes (region : Region) : Bytes := putLE 4 region.start ++ putLE 4 region.len

/-- `update_purgatory` as it changes the object. -/
def updateRhdr (arch : ArchFlags) (ctx : Sha256Context) (rhdr : Ehdr)
    (segments : List (Segment Bytes)) : Except Death Ehdr := do
  let rhdr ← archUpdatePurgatory arch rhdr
  let (regions, digest) ← (updatePurgatory ctx rhdr.relAddr segments).mapError .fault
  setSymbols [(asciiBytes "sha256_regions", regions.flatMap Region.bytes),
    (asciiBytes "sha256_digest", digest)] rhdr

def BzImage.buffer (image : BzImage) : BufferName → Bytes
  | .purgatory => image.rhdr.buffer
  | .realMode => image.realMode
  | .kernel => image.kernel
  | .initrd => image.initrd.getD []

/-- A segment with the bytes that it points to. -/
def Segment.withBytes {β : Type} (bytes : β → Bytes) (segment : Segment β) : Segment Bytes :=
  { segment with buf := bytes segment.buf }

/-- The arguments of `kexec_load`. -/
structure KexecLoad where
  entry : Nat
  flags : Nat
  segments : List (Segment Bytes)
  deriving DecidableEq, Repr

/-- What `my_load` was started with, beside the file: the result of `uname`, the options and
what is on the stack. -/
structure LoadCall where
  machine : Option Text
  arch : ArchFlags
  ctx : Sha256Context
  flags : Nat

/-- Nothing where `my_load` returns -1. -/
def handOver (layout : Layout) (load : LoadCall) (image : BzImage) :
    Except Death (Option KexecLoad) := do
  match ← archCompatTrampoline load.machine image.rhdr image.rhdr.entry load.flags with
  | none => pure none
  | some (entry, flags, rhdr) =>
    match verifySegments layout image.segments with
    | .error _ => pure none
    | .ok segments =>
      let image := { image with rhdr }
      let rhdr ← updateRhdr load.arch load.ctx rhdr (segments.map (·.withBytes image.buffer))
      let image := { image with rhdr }
      pure (some ⟨entry, flags, segments.map (·.withBytes image.buffer)⟩)

/-- A kernel that `my_load` puts into memory. -/
def loadBzImage (env : BzImageEnv) (load : LoadCall) (kernel cmdline : Bytes)
    (initrd : Option Bytes) (realModeEntry debug : Bool) : Except Death (Option KexecLoad) := do
  match ← doBzImageLoad env kernel cmdline initrd realModeEntry debug with
  | none => pure none
  | some image => handOver env.layout load image

/-! ## The table of regions -/

/-- A table of regions as the purgatory reads it. -/
def regionsOf : Nat → Bytes → List Region
  | 0, _ => []
  | count + 1, bytes =>
    ⟨getLE (slice bytes 0 4), getLE (slice bytes 4 4)⟩ :: regionsOf count (bytes.drop 8)

theorem Region.length_bytes (region : Region) : region.bytes.length = 8 := by
  rw [bytes, List.length_append, length_putLE, length_putLE]

theorem regionsOf_flatMap {regions : List Region}
    (h : ∀ region ∈ regions, region.start < 2 ^ 32 ∧ region.len < 2 ^ 32) :
    regionsOf regions.length (regions.flatMap Region.bytes) = regions := by
  induction regions with
  | nil => rfl
  | cons region rest ih =>
    rw [List.forall_mem_cons] at h
    have hfirst : slice (region.bytes ++ rest.flatMap Region.bytes) 0 4 = putLE 4 region.start := by
      rw [slice_append (by rw [Region.length_bytes]; decide), Region.bytes,
        slice_append (by rw [length_putLE])]
      rfl
    have hsecond : slice (region.bytes ++ rest.flatMap Region.bytes) 4 4 = putLE 4 region.len := by
      rw [slice_append (by rw [Region.length_bytes])]
      rfl
    rw [List.flatMap_cons, List.length_cons, regionsOf, hfirst, hsecond,
      getLE_putLE_of_lt h.1.1, getLE_putLE_of_lt h.1.2, List.drop_left' region.length_bytes, ih h.2]

theorem length_regionBytes (regions : List Region) :
    (regions.flatMap Region.bytes).length = 8 * regions.length := by
  induction regions with
  | nil => rfl
  | cons region rest ih =>
    rw [List.flatMap_cons, List.length_append, region.length_bytes, ih, List.length_cons]
    omega

/-! ## Buffers in memory -/

section Carried

variable {β : Type} {layout : Layout} {segments : List (Segment β)} (hkept : Kept layout segments)
  {bytes : β → Bytes} (hbytes : ∀ segment ∈ segments, segment.bufsz = (bytes segment.buf).length)
  {handed : List (Segment β)} (hperm : handed.Perm segments)

include hkept hperm

theorem pairwise_withBytes (bytes : β → Bytes) :
    (handed.map (·.withBytes bytes)).Pairwise Segment.Apart := by
  rw [List.pairwise_map]
  exact (hperm.pairwise_iff Segment.Apart.symm).mpr hkept.apart

include hbytes

theorem backed_withBytes : ∀ segment ∈ handed.map (·.withBytes bytes), segment.Backed := by
  intro segment hsegment
  obtain ⟨s, hs, rfl⟩ := List.mem_map.mp hsegment
  have hmem := hperm.subset hs
  exact ⟨Nat.le_of_eq (hbytes s hmem), (hkept.paged s hmem).bufsz⟩

/-- A buffer that was given memory is there when the kernel starts. -/
theorem readMemory_carried {buf : β} {mem : Nat} (hcarries : Carries segments buf mem
    (bytes buf).length) (memory : Memory) {p n : Nat} (hp : p + n ≤ (bytes buf).length) :
    readMemory (copySegments memory (handed.map (·.withBytes bytes))) ⟨mem + p, n⟩ =
      slice (bytes buf) p n := by
  rcases hcarries with hempty | ⟨segment, hsegment, rfl, rfl, hbufsz, -⟩
  · obtain rfl : n = 0 := by omega
    simp [readMemory, slice]
  · have hin : segment.withBytes bytes ∈ handed.map (·.withBytes bytes) :=
      List.mem_map_of_mem (hperm.symm.subset hsegment)
    exact readMemory_buffer (pairwise_withBytes hkept hperm bytes) hin
      (backed_withBytes hkept hbytes hperm _ hin) memory (hp.trans (Nat.le_of_eq hbufsz.symm))

end Carried

/-! ## The symbols of the purgatory -/

section Symbols

variable {rhdr rhdr' : Ehdr}

theorem archCompatTrampoline_spec {machine : Option Text} {entry entry' flags flags' : Nat}
    (h : archCompatTrampoline machine rhdr entry flags = .ok (some (entry', flags', rhdr'))) :
    ∃ assignments, setSymbols assignments rhdr = .ok rhdr' ∧
      (assignments.map Prod.fst).Sublist [asciiBytes "compat_x86_64_entry32"] := by
  unfold archCompatTrampoline at h
  split at h
  · cases h
  · split at h
    · cases h
      exact ⟨[], rfl, List.nil_sublist _⟩
    · split at h
      · split at h
        · cases h
        · obtain ⟨rhdr1, hset, h⟩ := bind_eq_ok_iff.mp h
          obtain ⟨address, -, h⟩ := bind_eq_ok_iff.mp h
          cases h
          exact ⟨_, (setSymbols_singleton _ _ _).trans hset, List.Sublist.refl _⟩
      · cases h

theorem relAddr_setSymbols (htables : rhdr.SymbolTables) {assignments : List (Bytes × Bytes)}
    (h : setSymbols assignments rhdr = .ok rhdr') : rhdr'.relAddr = rhdr.relAddr := by
  obtain ⟨_, _, -, -, rfl⟩ := (setSymbols_eq_ok_iff htables).mp h
  rfl

theorem updateRhdr_spec (htables : rhdr.SymbolTables) {arch : ArchFlags} {ctx : Sha256Context}
    {segments : List (Segment Bytes)} (h : updateRhdr arch ctx rhdr segments = .ok rhdr') :
    ∃ assignments regions digest, setSymbols assignments rhdr = .ok rhdr' ∧
      assignments.map Prod.fst = purgatorySymbols.drop 5 ∧
      updatePurgatory ctx rhdr.relAddr segments = .ok (regions, digest) ∧
      (asciiBytes "sha256_regions", regions.flatMap Region.bytes) ∈ assignments ∧
      (asciiBytes "sha256_digest", digest) ∈ assignments := by
  obtain ⟨rhdr1, harch, h⟩ := bind_eq_ok_iff.mp h
  obtain ⟨⟨regions, digest⟩, hupdate, h⟩ := bind_eq_ok_iff.mp h
  rw [mapError_eq_ok_iff, relAddr_setSymbols htables harch] at hupdate
  exact ⟨_, regions, digest, setSymbols_append_iff.mpr ⟨rhdr1, harch, h⟩, rfl, hupdate,
    by simp, by simp⟩

end Symbols

/-! ## What `kexec_load` gets -/

/-- The purgatory with all its symbols set, and the segments that lead to it. -/
structure HandedOver {env : BzImageEnv} {kernel cmdline : Bytes} {initrd : Option Bytes}
    {realModeEntry debug : Bool} {image : BzImage}
    (run : BzImageRun env kernel cmdline initrd realModeEntry debug image) (ctx : Sha256Context)
    (kexec : KexecLoad) where
  rhdr : Ehdr
  assignments : List (Bytes × Bytes)
  segments : List (Segment BufferName)
  regs32 : Bytes
  regions : List Region
  digest : Bytes
  early : Bytes
  set : setSymbols assignments run.placed = .ok rhdr
  names : (assignments.map Prod.fst).Sublist purgatorySymbols
  perm : segments.Perm image.segments
  handed : kexec.segments = segments.map (·.withBytes { image with rhdr }.buffer)
  mem_regs32 : (asciiBytes "entry32_regs", regs32) ∈ assignments
  enters : Enters regs32 run.setupBase fun eip =>
    realModeEntry = false → debug = false → eip = kern32Base
  late : LateOnly run.bootParameters image.realMode
  mem_regions : (asciiBytes "sha256_regions", regions.flatMap Region.bytes) ∈ assignments
  mem_digest : (asciiBytes "sha256_digest", digest) ∈ assignments
  earlyBuffer : early.length = run.placed.buffer.length
  hashed : updatePurgatory ctx run.placed.relAddr
    (segments.map (·.withBytes { image with rhdr := run.placed.withBuffer early }.buffer)) =
      .ok (regions, digest)

section Handed

variable {env : BzImageEnv} {ehdr : Ehdr} (henv : env.Proper ehdr) {kernel cmdline : Bytes}
  {initrd : Option Bytes} {realModeEntry debug : Bool} {image : BzImage}
  (run : BzImageRun env kernel cmdline initrd realModeEntry debug image)

theorem verifySegments_perm {β : Type} {layout : Layout} {segments handed : List (Segment β)}
    (h : verifySegments layout segments = .ok handed) : handed.Perm segments := by
  unfold verifySegments at h
  dsimp only at h
  split at h
  · split at h
    · cases h
    · cases h
      exact sortSegments_perm segments
  · cases h

theorem fillSystem_lateOnly {realMode hooked : Bytes}
    (h : fillSystem env realModeEntry hooked = .ok realMode) : LateOnly hooked realMode := by
  unfold fillSystem at h
  split at h
  · cases h
    exact lateOnly_refl _
  · exact system_lateOnly h

include henv

theorem handOver_run {load : LoadCall} {kexec : KexecLoad}
    (h : handOver env.layout load image = .ok (some kexec)) :
    Nonempty (HandedOver run load.ctx kexec) := by
  have htables := (run.moved henv).symbolTables henv.tables
  obtain ⟨hlate, first, regs32, hfirst, hfirstNames, hregs32, henters⟩ :=
    setRegisters_spec run.registers
  obtain ⟨_ | ⟨entry, flags, rhdr⟩, htrampoline, h⟩ := bind_eq_ok_iff.mp h
  · cases h
  · obtain ⟨second, hsecond, hsecondNames⟩ := archCompatTrampoline_spec htrampoline
    have hboth := setSymbols_append_iff.mpr ⟨_, hfirst, hsecond⟩
    dsimp only at h
    cases hverify : verifySegments env.layout image.segments with
    | error n =>
      rw [hverify] at h
      cases h
    | ok sorted =>
      rw [hverify] at h
      obtain ⟨rhdr', hupdate, h⟩ := bind_eq_ok_iff.mp h
      cases h
      obtain ⟨pokes, early, -, hearly, rfl⟩ := (setSymbols_eq_ok_iff htables).mp hboth
      obtain ⟨third, regions, digest, hthird, hthirdNames, hhashed, hregions, hdigest⟩ :=
        updateRhdr_spec ((run.placed.moved_withBuffer early).symbolTables htables) hupdate
      refine ⟨⟨rhdr', first ++ second ++ third, sorted, regs32, regions, digest, early,
        setSymbols_append_iff.mpr ⟨_, hboth, hthird⟩, ?_, verifySegments_perm hverify, rfl, ?_,
        henters, hlate.trans (fillSystem_lateOnly run.system), ?_, ?_, length_applyPokes hearly,
        hhashed⟩⟩
      · rw [List.map_append, List.map_append, hthirdNames]
        exact (hfirstNames.append hsecondNames).append (List.Sublist.refl _)
      · exact List.mem_append_left _ (List.mem_append_left _ hregs32)
      · exact List.mem_append_right _ hregions
      · exact List.mem_append_right _ hdigest

end Handed

/-! ## What is in memory -/

/-- What a kernel finds that is entered with its parameters at `setupBase`: its own code, and
through the parameters its command line and its ramdisk. -/
structure KernelFound (memory : Memory) (setupBase : Nat) (kernel cmdline : Bytes)
    (initrd : Option Bytes) : Prop where
  code : readMemory memory ⟨kern32Base, kernel.length - realModeSize kernel⟩ =
    kernel.drop (realModeSize kernel)
  cmdline : ∃ pointer,
    linuxParam.read .cmdLinePtr (readMemory memory ⟨setupBase, linuxParam.sizeof⟩) =
      some pointer ∧
    readMemory memory ⟨pointer, (commandLineOf cmdline).length⟩ = commandLineOf cmdline
  initrd : ∃ start size,
    linuxParam.read .initrdStart (readMemory memory ⟨setupBase, linuxParam.sizeof⟩) =
      some start ∧
    linuxParam.read .initrdSize (readMemory memory ⟨setupBase, linuxParam.sizeof⟩) =
      some size ∧
    readMemory memory ⟨start, size⟩ = initrd.getD []

/-- The bytes of a symbol in memory. -/
def FoundAt (memory : Memory) (rhdr : Ehdr) (name bytes : Bytes) : Prop :=
  ∃ address, elfRelGetAddr rhdr name = .ok address ∧
    readMemory memory ⟨address, bytes.length⟩ = bytes

theorem Struct.read_slice {ι : Type} [DecidableEq ι] {s : Struct ι} {name : ι} {m : Member ι}
    {start size : Nat} (hmember : s.member name = some (m, start)) (hsize : start + m.size ≤ size)
    (object : Bytes) : s.read name (slice object 0 size) = s.read name object := by
  rw [Struct.read_eq_slice hmember, Struct.read_eq_slice hmember, slice_slice hsize, Nat.zero_add]

section Found

variable {env : BzImageEnv} {ehdr : Ehdr} (henv : env.Proper ehdr) {kernel cmdline : Bytes}
  {initrd : Option Bytes} (hkernel : BootKernel kernel cmdline initrd)
  {realModeEntry debug : Bool} {image : BzImage}
  {run : BzImageRun env kernel cmdline initrd realModeEntry debug image} {ctx : Sha256Context}
  {kexec : KexecLoad} (handed : HandedOver run ctx kexec)

include henv

theorem HandedOver.symbols :
    (∃ buffer, handed.rhdr = run.placed.withBuffer buffer ∧
        buffer.length = run.placed.buffer.length) ∧
      ∀ assignment ∈ handed.assignments, HoldsSymbol handed.rhdr assignment.1 assignment.2 := by
  have hmoved := run.moved henv
  obtain ⟨hinPlace, -⟩ := run.purgatory_placed henv
  refine setSymbols_holds hinPlace (hmoved.onlyCopied henv.object)
    (hmoved.symbolTables henv.tables) (hmoved.symbolsApart henv.tables henv.symbols) ?_ ?_
    handed.set
  · intro assignment hassignment
    exact handed.names.subset (List.mem_map_of_mem hassignment)
  · exact nodup_purgatorySymbols.sublist handed.names

theorem HandedOver.relAddr_eq : handed.rhdr.relAddr = run.placed.relAddr := by
  obtain ⟨⟨buffer, hbuffer, -⟩, -⟩ := handed.symbols henv
  rw [hbuffer]
  rfl

theorem HandedOver.length_rhdr : handed.rhdr.buffer.length = run.placed.buffer.length := by
  obtain ⟨⟨buffer, hbuffer, hlength⟩, -⟩ := handed.symbols henv
  rw [hbuffer]
  exact hlength

theorem HandedOver.moved : ehdr.Moved handed.rhdr := by
  obtain ⟨⟨buffer, hbuffer, -⟩, -⟩ := handed.symbols henv
  have hmoved := run.moved henv
  rw [hbuffer]
  exact ⟨hmoved.file, hmoved.shdrs⟩

include hkernel

/-- Every buffer is as long as its segment says. -/
theorem BzImageRun.length_buffer (hlate : LateOnly run.bootParameters image.realMode) {rhdr : Ehdr}
    (hrhdr : rhdr.buffer.length = run.placed.buffer.length) (name : BufferName) :
    ({ image with rhdr }.buffer name).length = run.bufferLength name := by
  obtain ⟨-, -, hlength, -⟩ := run.initrd_placed henv hkernel
  cases name with
  | purgatory => exact hrhdr
  | realMode => exact hlate.length_eq.trans hlength
  | kernel => exact congrArg List.length run.kernel_eq
  | initrd => exact congrArg (fun initrd => (initrd.getD []).length) run.initrd_eq

theorem BzImageRun.bufsz_eq (hlate : LateOnly run.bootParameters image.realMode) {rhdr : Ehdr}
    (hrhdr : rhdr.buffer.length = run.placed.buffer.length) :
    ∀ segment ∈ image.segments,
      segment.bufsz = ({ image with rhdr }.buffer segment.buf).length := by
  intro segment hsegment
  rw [run.length_buffer henv hkernel hlate hrhdr]
  exact ((run.initrd_placed henv hkernel).1.owned segment hsegment).bufsz

/-- A buffer that got memory from the loader. -/
theorem HandedOver.readMemory_buffer {name : BufferName} {mem : Nat}
    (hcarries : Carries image.segments name mem (run.bufferLength name)) (memory : Memory)
    {p n : Nat} (hp : p + n ≤ run.bufferLength name) :
    readMemory (copySegments memory kexec.segments) ⟨mem + p, n⟩ =
      slice ({ image with rhdr := handed.rhdr }.buffer name) p n := by
  have hrhdr := handed.length_rhdr henv
  have hname := run.length_buffer henv hkernel handed.late hrhdr name
  rw [← hname] at hcarries hp
  rw [handed.handed]
  exact readMemory_carried (run.initrd_placed henv hkernel).1.kept
    (run.bufsz_eq henv hkernel handed.late hrhdr) handed.perm hcarries memory hp

include handed

/-- The memory of the real mode code, its parameters and its command line. -/
theorem HandedOver.readMemory_realMode (memory : Memory) {p n : Nat}
    (hp : p + n ≤ realModeSize kernel + cmdline.length) :
    readMemory (copySegments memory kexec.segments) ⟨run.setupBase + p, n⟩ =
      slice image.realMode p n := by
  obtain ⟨-, hsub, hcarries, -⟩ := run.realMode_placed henv hkernel
  obtain ⟨-, hsub', -⟩ := run.kernel_placed henv hkernel
  obtain ⟨-, hsub'', -⟩ := run.initrd_placed henv hkernel
  exact handed.readMemory_buffer henv hkernel ((hcarries.mono hsub').mono hsub'') memory hp

theorem HandedOver.kernelFound (memory : Memory) :
    KernelFound (copySegments memory kexec.segments) run.setupBase kernel cmdline initrd := by
  obtain ⟨-, -, hrealMode, hlow⟩ := run.realMode_placed henv hkernel
  obtain ⟨-, -, hcode⟩ := run.kernel_placed henv hkernel
  obtain ⟨hsound, hsub, -, initrdBase, hinitrd, htells⟩ := run.initrd_placed henv hkernel
  have htells' := handed.late.tells hkernel.setup htells
  have hsetup := hkernel.setup
  have hline := length_commandLineOf hkernel.nonempty
  have hpos := List.length_pos_iff.mpr hkernel.nonempty
  have hbase : run.setupBase + (realModeSize kernel + cmdline.length) ≤ lowMax := by
    rcases hrealMode with hzero | ⟨segment, hsegment, -, hmem, -, hsize⟩
    · omega
    · have := hlow segment hsegment
      omega
  have hparam (name : ParamField) {m : Member ParamField} {start : Nat}
      (hmember : linuxParam.member name = some (m, start)) (hstop : start + m.size ≤ 0x550) :
      linuxParam.read name (readMemory (copySegments memory kexec.segments)
        ⟨run.setupBase, linuxParam.sizeof⟩) = linuxParam.read name image.realMode := by
    have hsizeof : linuxParam.sizeof = 0x550 := by decide +kernel
    have hread := handed.readMemory_realMode henv hkernel memory (p := 0) (n := 0x550) (by omega)
    rw [Nat.add_zero] at hread
    rw [hsizeof, hread, Struct.read_slice hmember hstop]
  constructor
  · have hread := handed.readMemory_buffer henv hkernel (hcode.mono hsub) memory
      (p := 0) (n := kernel.length - realModeSize kernel)
      (by rw [BzImageRun.bufferLength, List.length_drop]; omega)
    rw [Nat.add_zero] at hread
    have hbuffer : { image with rhdr := handed.rhdr }.buffer .kernel =
        kernel.drop (realModeSize kernel) := run.kernel_eq
    rw [hread, hbuffer, ← List.length_drop, slice, List.drop_zero, List.take_length]
  · refine ⟨_, (hparam _ member_cmdLinePtr (by decide)).trans htells'.cmdLinePtr, ?_⟩
    unfold lowMax at hbase
    rw [ulong_of_lt (by omega), handed.readMemory_realMode henv hkernel memory (by omega),
      htells'.cmdline]
  · refine ⟨_, _, (hparam _ member_initrdStart (by decide)).trans htells'.initrdStart,
      (hparam _ member_initrdSize (by decide)).trans htells'.initrdSize, ?_⟩
    have hsize := hkernel.initrd
    rw [ulong_of_lt (show (initrd.getD []).length < 2 ^ 32 by omega)]
    have hstart : (initrd.getD []).length = 0 ∨ initrdBase < 2 ^ 32 := by
      refine hinitrd.imp_right ?_
      rintro ⟨segment, hsegment, -, rfl, -⟩
      have := (hsound.kept.inRam segment hsegment).stop_lt henv.layout
      omega
    rcases hstart with hempty | hstart
    · rw [hempty, List.length_eq_zero_iff.mp hempty]
      rfl
    · have hread := handed.readMemory_buffer henv hkernel hinitrd memory
        (p := 0) (n := (initrd.getD []).length) (by rw [Nat.zero_add]; exact Nat.le_refl _)
      rw [Nat.add_zero] at hread
      have hbuffer : { image with rhdr := handed.rhdr }.buffer .initrd = initrd.getD [] :=
        congrArg (·.getD []) run.initrd_eq
      rw [ulong_of_lt hstart, hread, hbuffer, slice, List.drop_zero, List.take_length]

/-- Every symbol that was set is in memory, where the purgatory has it. -/
theorem HandedOver.foundAt (memory : Memory) : ∀ assignment ∈ handed.assignments,
    FoundAt (copySegments memory kexec.segments) handed.rhdr assignment.1 assignment.2 := by
  obtain ⟨-, hholds⟩ := handed.symbols henv
  obtain ⟨hinPlace, -, hpurgatory, hlow, -⟩ := run.purgatory_placed henv
  obtain ⟨-, hsub, -⟩ := run.realMode_placed henv hkernel
  obtain ⟨-, hsub', -⟩ := run.kernel_placed henv hkernel
  obtain ⟨-, hsub'', -⟩ := run.initrd_placed henv hkernel
  intro assignment hassignment
  obtain ⟨offset, haddress, hfits, hslice⟩ := hholds assignment hassignment
  rw [handed.length_rhdr henv] at hfits
  have hin := hinPlace.buffer
  unfold lowMax at hlow
  refine ⟨_, haddress, ?_⟩
  rw [handed.relAddr_eq henv, ulong_of_lt (by omega), handed.readMemory_buffer henv hkernel
    (((hpurgatory.mono hsub).mono hsub').mono hsub'') memory hfits]
  exact hslice

theorem HandedOver.words {bytes : BufferName → Bytes} :
    ∀ segment ∈ handed.segments.map (·.withBytes bytes), segment.Words := by
  obtain ⟨hsound, -⟩ := run.initrd_placed henv hkernel
  intro segment hsegment
  obtain ⟨s, hs, rfl⟩ := List.mem_map.mp hsegment
  have := (hsound.kept.inRam s (handed.perm.subset hs)).stop_lt henv.layout
  exact ⟨show s.mem < 2 ^ 32 by omega, show s.memsz < 2 ^ 32 by omega⟩

/-- The digest that the purgatory takes of the memory is the one that it finds. -/
theorem HandedOver.verified (hctx : ctx.buffer.length = 64) {ctx' : Sha256Context}
    (hctx' : ctx'.buffer.length = 64) {before after : Memory}
    (hcopied : CopiedBut run.placed.relAddr kexec.segments before after) :
    verifySha256Digest after ctx' handed.regions handed.digest = true := by
  obtain ⟨hsound, -⟩ := run.initrd_placed henv hkernel
  have hearly : (run.placed.withBuffer handed.early).buffer.length = run.placed.buffer.length :=
    handed.earlyBuffer
  have hbytes := run.bufsz_eq henv hkernel handed.late hearly
  refine verify_of_copied hctx hctx' (pairwise_withBytes hsound.kept handed.perm _)
    (backed_withBytes hsound.kept hbytes handed.perm) (handed.words henv hkernel) handed.hashed ?_
    hcopied
  rw [handed.handed, List.forall₂_map_left_iff, List.forall₂_map_right_iff, List.forall₂_same]
  intro s hs
  refine ⟨rfl, rfl, fun hother => ?_⟩
  have hmem := (hsound.owned s (handed.perm.subset hs)).mem
  unfold Segment.withBytes
  cases hbuf : s.buf with
  | purgatory => exact absurd (hmem hbuf) hother
  | realMode => rfl
  | kernel => rfl
  | initrd => rfl

/-- The table of regions reads back as it was written. -/
theorem HandedOver.regionsOf_table :
    regionsOf sha256Regions (handed.regions.flatMap Region.bytes) = handed.regions := by
  obtain ⟨hcount, hregions, -⟩ := updatePurgatory_eq_ok_iff.mp handed.hashed
  have hlength : handed.regions.length = sha256Regions := by
    rw [hregions, List.length_append, List.length_map, List.length_replicate]
    omega
  rw [← hlength]
  apply regionsOf_flatMap
  rw [hregions, List.forall_mem_append]
  constructor
  · intro region hregion
    obtain ⟨segment, hsegment, rfl⟩ := List.mem_map.mp hregion
    exact handed.words henv hkernel segment (List.mem_of_mem_filter hsegment)
  · intro region hregion
    rw [List.eq_of_mem_replicate hregion]
    exact ⟨by decide, by decide⟩

end Found

end Monoimage.Kexec
