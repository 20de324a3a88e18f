import Monoimage.Clib.Pokes
import Monoimage.Kexec.Placement

/-! `x86-linux-setup.c`: the parameters of a Linux kernel, which lie at the start of its real
mode code. -/
namespace Monoimage.Kexec

open Clib

/-- The members of `struct x86_linux_param_header`. -/
inductive ParamField where
  | origX | origY | extMemK | origVideoPage | origVideoMode | origVideoCols | unused2
  | origVideoEgaBx | unused3 | origVideoLines | origVideoIsVGA | origVideoPoints | lfbWidth
  | lfbHeight | lfbDepth | lfbBase | lfbSize | clMagic | clOffset | lfbLinelength | redSize
  | redPos | greenSize | greenPos | blueSize | bluePos | rsvdSize | rsvdPos | vesapmSeg
  | vesapmOff | pages | reserved4 | apmBiosInfo | driveInfo | sysDescLength | sysDescTable
  | altMemK | reserved5 | e820MapNr | reserved6 | setupSects | mountRootRdonly | syssize
  | swapdev | ramdiskFlags | vidMode | rootDev | reserved9 | auxDeviceInfo | reserved10
  | headerMagic | protocolVersion | rmodeSwitchIp | rmodeSwitchCs | reserved11 | loaderType
  | loaderFlags | reserved12 | kernelStart | initrdStart | initrdSize | reserved13 | heapEndPtr
  | reserved14 | cmdLinePtr | initrdAddrMax | reserved15 | e820Map
  deriving DecidableEq, Repr

/-- The structures in it are bytes; `sys_desc_table` has two members. -/
def linuxParam : Struct ParamField :=
  [⟨.origX, .uint8, 1⟩, ⟨.origY, .uint8, 1⟩, ⟨.extMemK, .uint16, 1⟩,
   ⟨.origVideoPage, .uint16, 1⟩, ⟨.origVideoMode, .uint8, 1⟩, ⟨.origVideoCols, .uint8, 1⟩,
   ⟨.unused2, .uint16, 1⟩, ⟨.origVideoEgaBx, .uint16, 1⟩, ⟨.unused3, .uint16, 1⟩,
   ⟨.origVideoLines, .uint8, 1⟩, ⟨.origVideoIsVGA, .uint8, 1⟩, ⟨.origVideoPoints, .uint16, 1⟩,
   ⟨.lfbWidth, .uint16, 1⟩, ⟨.lfbHeight, .uint16, 1⟩, ⟨.lfbDepth, .uint16, 1⟩,
   ⟨.lfbBase, .uint32, 1⟩, ⟨.lfbSize, .uint32, 1⟩, ⟨.clMagic, .uint16, 1⟩,
   ⟨.clOffset, .uint16, 1⟩, ⟨.lfbLinelength, .uint16, 1⟩, ⟨.redSize, .uint8, 1⟩,
   ⟨.redPos, .uint8, 1⟩, ⟨.greenSize, .uint8, 1⟩, ⟨.greenPos, .uint8, 1⟩,
   ⟨.blueSize, .uint8, 1⟩, ⟨.bluePos, .uint8, 1⟩, ⟨.rsvdSize, .uint8, 1⟩,
   ⟨.rsvdPos, .uint8, 1⟩, ⟨.vesapmSeg, .uint16, 1⟩, ⟨.vesapmOff, .uint16, 1⟩,
   ⟨.pages, .uint16, 1⟩, ⟨.reserved4, .uint8, 12⟩, ⟨.apmBiosInfo, .uint8, 64⟩,
   ⟨.driveInfo, .uint8, 32⟩, ⟨.sysDescLength, .uint16, 1⟩, ⟨.sysDescTable, .uint8, 318⟩,
   ⟨.altMemK, .uint32, 1⟩, ⟨.reserved5, .uint8, 4⟩, ⟨.e820MapNr, .uint8, 1⟩,
   ⟨.reserved6, .uint8, 8⟩, ⟨.setupSects, .uint8, 1⟩, ⟨.mountRootRdonly, .uint16, 1⟩,
   ⟨.syssize, .uint16, 1⟩, ⟨.swapdev, .uint16, 1⟩, ⟨.ramdiskFlags, .uint16, 1⟩,
   ⟨.vidMode, .uint16, 1⟩, ⟨.rootDev, .uint16, 1⟩, ⟨.reserved9, .uint8, 1⟩,
   ⟨.auxDeviceInfo, .uint8, 1⟩, ⟨.reserved10, .uint8, 2⟩, ⟨.headerMagic, .uint8, 4⟩,
   ⟨.protocolVersion, .uint16, 1⟩, ⟨.rmodeSwitchIp, .uint16, 1⟩, ⟨.rmodeSwitchCs, .uint16, 1⟩,
   ⟨.reserved11, .uint8, 4⟩, ⟨.loaderType, .uint8, 1⟩, ⟨.loaderFlags, .uint8, 1⟩,
   ⟨.reserved12, .uint8, 2⟩, ⟨.kernelStart, .uint32, 1⟩, ⟨.initrdStart, .uint32, 1⟩,
   ⟨.initrdSize, .uint32, 1⟩, ⟨.reserved13, .uint8, 4⟩, ⟨.heapEndPtr, .uint16, 1⟩,
   ⟨.reserved14, .uint8, 2⟩, ⟨.cmdLinePtr, .uint32, 1⟩, ⟨.initrdAddrMax, .uint32, 1⟩,
   ⟨.reserved15, .uint8, 0x2d0 - 0x230⟩, ⟨.e820Map, .uint8, 640⟩]

example : linuxParam.sizeof = 0x550 := by decide +kernel

def defaultInitrdAddrMax : Nat := 0x37FFFFFF

def initrdBaseMin : Nat := 0x1000000

def clMagicValue : Nat := 0xA33F

def loaderTypeUnknown : Nat := 0xFF

def commandLineSize : Nat := 256

/-- Writes of a loader into a buffer of its own. -/
def pokeAll (pokes : List Poke) (buffer : Bytes) : Except Death Bytes :=
  (applyPokes pokes buffer).mapError .fault

def readParam (name : ParamField) (realMode : Bytes) : Nat :=
  (linuxParam.read name realMode).getD 0

/-- The request for the memory of an initial ramdisk. -/
def initrdRequest {β : Type} (name : β) (size addrMax : Nat) : Request β :=
  ⟨name, size, ⟨size, 4096, initrdBaseMin, addrMax, -1⟩⟩

/-- The base of the ramdisk, if there is one, and the segments. -/
def loadInitrd {β : Type} (layout : Layout) (segments : List (Segment β)) (name : β)
    (initrd : Option Bytes) (addrMax : Nat) : Except Death (Nat × List (Segment β)) :=
  match initrd with
  | some bytes => addBuffer layout segments (initrdRequest name bytes.length addrMax)
  | none => .ok (0, segments)

/-- The copy of the command line, whose last byte is made a NUL. -/
def cmdlinePokes (cmdlineOffset : Nat) (cmdline : Bytes) : List Poke :=
  let len := if commandLineSize < cmdline.length then commandLineSize else cmdline.length
  [⟨cmdlineOffset, cmdline.take len⟩, ⟨cmdlineOffset + len - 1, [0]⟩]

/-- The real mode code with its parameters, and the segments. -/
def setupLinuxBootloaderParameters {β : Type} (layout : Layout) (segments : List (Segment β))
    (initrdName : β) (realMode : Bytes) (realModeBase cmdlineOffset : Nat) (cmdline : Bytes)
    (initrd : Option Bytes) : Except Death (Bytes × List (Segment β)) := do
  let realMode ← pokeAll
    (linuxParam.assign [(.loaderType, loaderTypeUnknown), (.loaderFlags, 0)]) realMode
  let version := readParam .protocolVersion realMode
  let addrMax := if 0x0203 ≤ version then readParam .initrdAddrMax realMode
    else defaultInitrdAddrMax
  let (initrdBase, segments) ← loadInitrd layout segments initrdName initrd addrMax
  let pointer := if 0x0202 ≤ version then
      [(ParamField.cmdLinePtr, ulong (realModeBase + cmdlineOffset))]
    else []
  let realMode ← pokeAll (linuxParam.assign ([(.initrdStart, initrdBase),
    (.initrdSize, (initrd.getD []).length), (.clMagic, clMagicValue),
    (.clOffset, cmdlineOffset)] ++ pointer) ++ cmdlinePokes cmdlineOffset cmdline) realMode
  pure (realMode, segments)

/-! ## What the BIOS would provide -/

def e820Map : Nat := 0x2d0

def e820Max : Nat := 32

def RangeType.e820 : RangeType → Nat
  | .ram => 1
  | .reserved => 2
  | .acpi => 3
  | .acpiNvs => 4

/-- A `struct e820entry`, which is packed. -/
def e820Entry (i : Nat) (range : MemoryRange) : Poke :=
  ⟨e820Map + 20 * i, putLE 8 range.start ++ putLE 8 (range.stop + (2 ^ 64 - range.start)) ++
    putLE 4 range.type.e820⟩

/-- The kilobytes of the RAM from 1 MB on, counted from where the source counts them. -/
def memK (range : MemoryRange) : Nat := (range.stop / 1024 + (2 ^ 64 - 0x100000)) % 2 ^ 64

def memKPokes (range : MemoryRange) : List Poke :=
  if range.type = .ram ∧ range.start ≤ 0x100000 ∧ 0x100000 < range.stop then
    linuxParam.assign
      [(.extMemK, if 0xfc00 < memK range then 0xfc00 else memK range),
       (.altMemK, if 0xffffffff < memK range then 0xffffffff else memK range)]
  else []

/-- The loop over the ranges. -/
def e820Pokes (ranges : List MemoryRange) : List Poke :=
  ranges.zipIdx.flatMap fun (range, i) => e820Entry i range :: memKPokes range

def systemDefaults : List Poke :=
  linuxParam.assign
    [(.origX, 0), (.origY, 0), (.origVideoPage, 0), (.origVideoMode, 0), (.origVideoCols, 80),
     (.origVideoLines, 25), (.origVideoEgaBx, 0), (.origVideoIsVGA, 1), (.origVideoPoints, 16),
     (.extMemK, 0), (.altMemK, 0), (.e820MapNr, 0), (.apmBiosInfo, 0), (.driveInfo, 0),
     (.sysDescLength, 0), (.mountRootRdonly, 0xFFFF), (.rootDev, 0x3 * 2 ^ 8),
     (.auxDeviceInfo, 0)]

/-- `memory` is the result of `get_memory_ranges`. -/
def setupLinuxSystemParameters (memory : Option (List MemoryRange)) (realMode : Bytes) :
    Except Death Bytes := do
  let realMode ← pokeAll systemDefaults realMode
  match memory with
  | none => .error .memoryInformation
  | some ranges =>
    if ranges = [] then .error .memoryInformation
    else
      let ranges := ranges.take e820Max
      pokeAll (linuxParam.poke .e820MapNr ranges.length :: e820Pokes ranges) realMode

/-! ## What a kernel reads -/

theorem pokeAll_eq_ok_iff {pokes : List Poke} {buffer result : Bytes} :
    pokeAll pokes buffer = .ok result ↔ applyPokes pokes buffer = .ok result :=
  mapError_eq_ok_iff

def ParamField.stop (name : ParamField) : Nat :=
  match linuxParam.member name with
  | some (m, start) => start + m.size
  | none => 0

theorem stop_poke (name : ParamField) (value : Nat) :
    (linuxParam.poke name value).stop = name.stop := by
  unfold Struct.poke ParamField.stop
  cases linuxParam.member name with
  | none => rfl
  | some found => rw [Poke.stop, length_putLE]

/-- Writes to parameters that are neither the ramdisk's nor the command line's, or to the map of
the memory. -/
def Poke.Late (poke : Poke) : Prop :=
  poke.stop ≤ 0x218 ∨ (0x2d0 ≤ poke.offset ∧ poke.stop ≤ 0x550)

theorem late_assign {assignments : List (ParamField × Nat)}
    (h : ∀ name ∈ assignments.map Prod.fst, name.stop ≤ 0x218) :
    ∀ poke ∈ linuxParam.assign assignments, Poke.Late poke := by
  intro poke hpoke
  obtain ⟨assignment, hassignment, rfl⟩ := List.mem_map.mp hpoke
  left
  rw [stop_poke]
  exact h _ (List.mem_map_of_mem hassignment)

theorem late_systemDefaults : ∀ poke ∈ systemDefaults, Poke.Late poke :=
  late_assign (by decide +kernel)

theorem late_e820Pokes {ranges : List MemoryRange} (h : ranges.length ≤ e820Max) :
    ∀ poke ∈ e820Pokes ranges, Poke.Late poke := by
  intro poke hpoke
  obtain ⟨⟨range, i⟩, hrange, hpoke⟩ := List.mem_flatMap.mp hpoke
  have hi := (List.mem_zipIdx hrange).2.1
  unfold e820Max at h
  rcases List.mem_cons.mp hpoke with rfl | hpoke
  · right
    simp only [e820Entry, Poke.stop, e820Map, List.length_append, length_putLE]
    omega
  · dsimp only [memKPokes] at hpoke
    split at hpoke
    · refine late_assign ?_ poke hpoke
      have hnames : ∀ name ∈ [ParamField.extMemK, ParamField.altMemK], name.stop ≤ 0x218 := by
        decide +kernel
      exact hnames
    · cases hpoke

/-- Only late writes lead from one state of the parameters to the other. -/
def LateOnly (before after : Bytes) : Prop :=
  ∃ pokes, applyPokes pokes before = .ok after ∧ ∀ poke ∈ pokes, Poke.Late poke

theorem lateOnly_refl (buffer : Bytes) : LateOnly buffer buffer := ⟨[], rfl, by simp⟩

theorem LateOnly.trans {before middle after : Bytes} (h : LateOnly before middle)
    (h' : LateOnly middle after) : LateOnly before after := by
  obtain ⟨pokes, happly, hlate⟩ := h
  obtain ⟨pokes', happly', hlate'⟩ := h'
  refine ⟨pokes ++ pokes', ?_, List.forall_mem_append.mpr ⟨hlate, hlate'⟩⟩
  rw [applyPokes_append, happly]
  exact happly'

theorem LateOnly.length_eq {before after : Bytes} (h : LateOnly before after) :
    after.length = before.length := by
  obtain ⟨pokes, happly, -⟩ := h
  exact length_applyPokes happly

theorem LateOnly.slice_eq {before after : Bytes} (h : LateOnly before after) {p size : Nat}
    (hp : 0x218 ≤ p ∧ p + size ≤ 0x230 ∨ 0x550 ≤ p) : slice after p size = slice before p size := by
  obtain ⟨pokes, happly, hlate⟩ := h
  apply slice_applyPokes_of_apart happly
  intro poke hpoke
  have := hlate poke hpoke
  unfold Poke.Late at this
  omega

theorem system_lateOnly {memory : Option (List MemoryRange)} {before after : Bytes}
    (h : setupLinuxSystemParameters memory before = .ok after) : LateOnly before after := by
  obtain ⟨defaults, hdefaults, h⟩ := bind_eq_ok_iff.mp h
  refine LateOnly.trans ⟨_, pokeAll_eq_ok_iff.mp hdefaults, late_systemDefaults⟩ ?_
  cases memory with
  | none => cases h
  | some ranges =>
    dsimp only at h
    split at h
    · cases h
    · refine ⟨_, pokeAll_eq_ok_iff.mp h, ?_⟩
      rw [List.forall_mem_cons]
      refine ⟨.inl ?_, late_e820Pokes (List.length_take_le _ _)⟩
      rw [stop_poke]
      decide +kernel

theorem member_initrdStart : linuxParam.member .initrdStart =
    some (⟨.initrdStart, .uint32, 1⟩, 0x218) := by
  decide +kernel

theorem member_initrdSize : linuxParam.member .initrdSize =
    some (⟨.initrdSize, .uint32, 1⟩, 0x21c) := by
  decide +kernel

theorem member_cmdLinePtr : linuxParam.member .cmdLinePtr =
    some (⟨.cmdLinePtr, .uint32, 1⟩, 0x228) := by
  decide +kernel

theorem member_protocolVersion : linuxParam.member .protocolVersion =
    some (⟨.protocolVersion, .uint16, 1⟩, 0x206) := by
  decide +kernel

theorem member_initrdAddrMax : linuxParam.member .initrdAddrMax =
    some (⟨.initrdAddrMax, .uint32, 1⟩, 0x22c) := by
  decide +kernel

/-! ## What the kernel is told -/

/-- A command line as the kernel gets it, cut to its size and ended by a NUL. -/
def commandLineOf (cmdline : Bytes) : Bytes :=
  cmdline.take (min commandLineSize cmdline.length - 1) ++ [0]

/-- The parameters lead to a command line that lies behind them and to a ramdisk. -/
structure Tells (realMode : Bytes) (pointer offset : Nat) (cmdline : Bytes)
    (initrdBase initrdSize : Nat) : Prop where
  initrdStart : linuxParam.read .initrdStart realMode = some initrdBase
  initrdSize : linuxParam.read .initrdSize realMode = some initrdSize
  cmdLinePtr : linuxParam.read .cmdLinePtr realMode = some pointer
  cmdline : slice realMode offset (commandLineOf cmdline).length = commandLineOf cmdline

theorem length_commandLineOf {cmdline : Bytes} (h : cmdline ≠ []) :
    (commandLineOf cmdline).length = min commandLineSize cmdline.length := by
  have hpos := List.length_pos_iff.mpr h
  unfold commandLineOf commandLineSize
  rw [List.length_append, List.length_take_of_le (by omega), List.length_singleton]
  omega

theorem LateOnly.tells {before after : Bytes} (h : LateOnly before after)
    {pointer offset initrdBase initrdSize : Nat} {cmdline : Bytes} (hoffset : 0x550 ≤ offset)
    (htells : Tells before pointer offset cmdline initrdBase initrdSize) :
    Tells after pointer offset cmdline initrdBase initrdSize := by
  constructor
  · rw [Struct.read_eq_slice member_initrdStart, h.slice_eq (.inl (by decide)),
      ← Struct.read_eq_slice member_initrdStart, htells.initrdStart]
  · rw [Struct.read_eq_slice member_initrdSize, h.slice_eq (.inl (by decide)),
      ← Struct.read_eq_slice member_initrdSize, htells.initrdSize]
  · rw [Struct.read_eq_slice member_cmdLinePtr, h.slice_eq (.inl (by decide)),
      ← Struct.read_eq_slice member_cmdLinePtr, htells.cmdLinePtr]
  · rw [h.slice_eq (.inr hoffset), htells.cmdline]

/-- The two writes of the command line, read back. -/
theorem slice_cmdlinePokes {before : List Poke} {buffer result cmdline : Bytes} {offset : Nat}
    (hcmdline : cmdline ≠ [])
    (h : applyPokes (before ++ cmdlinePokes offset cmdline) buffer = .ok result) :
    slice result offset (commandLineOf cmdline).length = commandLineOf cmdline := by
  have hlen : (if commandLineSize < cmdline.length then commandLineSize else cmdline.length) =
      min commandLineSize cmdline.length := by
    split <;> omega
  have hlength := length_commandLineOf hcmdline
  have hpos := List.length_pos_iff.mpr hcmdline
  have hsize : 0 < min commandLineSize cmdline.length := by
    unfold commandLineSize
    omega
  unfold cmdlinePokes at h
  dsimp only at h
  rw [hlen] at h
  obtain ⟨n, hn⟩ : ∃ n, min commandLineSize cmdline.length = n + 1 :=
    ⟨_, (Nat.succ_pred_eq_of_pos hsize).symm⟩
  rw [hn] at h hlength
  have hcopy : (cmdline.take (n + 1)).length = n + 1 := List.length_take_of_le (by omega)
  rw [hlength, slice_add]
  have hline : commandLineOf cmdline = cmdline.take n ++ [0] := by
    rw [commandLineOf, hn, Nat.add_sub_cancel]
  rw [hline]
  congr 1
  · -- all but the last byte are those of the copy
    have hfirst := slice_applyPokes_part (p := 0) (n := n) h (by rw [hcopy]; omega) (by
      rw [List.forall_mem_singleton]
      exact .inl (by dsimp only; omega))
    have hslice : slice (cmdline.take (n + 1)) 0 n = cmdline.take n := by
      rw [slice_take (by omega), slice, List.drop_zero]
    rwa [hslice] at hfirst
  · have hsplit : before ++ [⟨offset, cmdline.take (n + 1)⟩, ⟨offset + n, [0]⟩] =
        (before ++ [⟨offset, cmdline.take (n + 1)⟩]) ++ [⟨offset + n, [0]⟩] := by
      rw [List.append_assoc]
      rfl
    have hbyte : offset + (n + 1) - 1 = offset + n := rfl
    rw [hbyte, hsplit] at h
    exact slice_applyPokes_last h (by simp)

section Bootloader

variable {β : Type} {layout : Layout} {segments segments' : List (Segment β)} {name : β}
  {realMode result cmdline : Bytes} {base offset : Nat} {initrd : Option Bytes}

/-- How far up a ramdisk may lie. -/
def initrdLimit (realMode : Bytes) : Nat :=
  if 0x0203 ≤ readParam .protocolVersion realMode then readParam .initrdAddrMax realMode
  else defaultInitrdAddrMax

theorem bootloader_spec (hcmdline : cmdline ≠ []) (hoffset : 0x550 ≤ offset)
    (hversion : 0x0202 ≤ readParam .protocolVersion realMode)
    (h : setupLinuxBootloaderParameters layout segments name realMode base offset cmdline initrd =
      .ok (result, segments')) :
    result.length = realMode.length ∧
    ∃ initrdBase, loadInitrd layout segments name initrd (initrdLimit realMode) =
        .ok (initrdBase, segments') ∧
      Tells result (ulong (base + offset)) offset cmdline (ulong initrdBase)
        (ulong (initrd.getD []).length) := by
  obtain ⟨named, hnamed, h⟩ := bind_eq_ok_iff.mp h
  rw [pokeAll_eq_ok_iff] at hnamed
  -- the loader's name is not among what is read before the ramdisk gets its place
  have hparam (name : ParamField) {m : Member ParamField} {start : Nat}
      (hmember : linuxParam.member name = some (m, start))
      (hname : name ∉ [ParamField.loaderType, .loaderFlags]) :
      readParam name named = readParam name realMode := by
    unfold readParam
    rw [Struct.read_of_clear hmember hnamed (Struct.clear_assign hmember hname)]
  have hprotocol := hparam _ member_protocolVersion (by decide)
  have haddrMax := hparam _ member_initrdAddrMax (by decide)
  obtain ⟨⟨initrdBase, placed⟩, hinitrd, h⟩ := bind_eq_ok_iff.mp h
  obtain ⟨_, htold, h⟩ := bind_eq_ok_iff.mp h
  cases h
  rw [hprotocol, haddrMax] at hinitrd
  rw [pokeAll_eq_ok_iff, hprotocol, if_pos hversion] at htold
  have hpos := List.length_pos_iff.mpr hcmdline
  have hclear {m : Member ParamField} {start : Nat}
      (hstop : start + m.size ≤ 0x550) :
      ∀ poke ∈ cmdlinePokes offset cmdline,
        start + m.size ≤ poke.offset ∨ poke.stop ≤ start := by
    unfold cmdlinePokes commandLineSize
    rw [List.forall_mem_cons, List.forall_mem_singleton]
    dsimp only
    split <;> constructor <;> left <;> omega
  have hnodup : [ParamField.initrdStart, .initrdSize, .clMagic, .clOffset, .cmdLinePtr].Nodup := by
    decide
  have hread (field : ParamField) {m : Member ParamField} {start value : Nat}
      (hmember : linuxParam.member field = some (m, start)) (hstop : start + m.size ≤ 0x550)
      (hmem : (field, value) ∈ [(ParamField.initrdStart, initrdBase),
        (.initrdSize, (initrd.getD []).length), (.clMagic, clMagicValue), (.clOffset, offset)] ++
          [(.cmdLinePtr, ulong (base + offset))]) :
      linuxParam.read field result = some (value % 256 ^ m.size) :=
    Struct.read_assign hmember htold hmem hnodup (hclear hstop)
  refine ⟨(length_applyPokes htold).trans (length_applyPokes hnamed), initrdBase, hinitrd, ?_⟩
  constructor
  · exact hread _ member_initrdStart (by decide) (by simp)
  · exact hread _ member_initrdSize (by decide) (by simp)
  · rw [hread _ member_cmdLinePtr (by decide)
      (List.mem_append_right _ (List.mem_singleton_self _))]
    exact congrArg some (Nat.mod_mod _ _)
  · exact slice_cmdlinePokes hcmdline htold

end Bootloader

/-! ## The map of the memory -/

/-- The entries of the map, as a kernel reads them: address, size and type. -/
def e820Entries (realMode : Bytes) : List (Nat × Nat × Nat) :=
  (List.range (readParam .e820MapNr realMode)).map fun i =>
    let entry := slice realMode (e820Map + 20 * i) 20
    (getLE (slice entry 0 8), getLE (slice entry 8 8), getLE (slice entry 16 4))

def MemoryRange.entry (range : MemoryRange) : Nat × Nat × Nat :=
  (range.start, range.stop - range.start, range.type.e820)

theorem member_e820MapNr : linuxParam.member .e820MapNr =
    some (⟨.e820MapNr, .uint8, 1⟩, 0x1e8) := by
  decide +kernel

theorem RangeType.e820_lt (type : RangeType) : type.e820 < 256 ^ 4 := by
  cases type <;> decide

theorem length_e820Entry (i : Nat) (range : MemoryRange) : (e820Entry i range).bytes.length = 20 := by
  simp [e820Entry]

/-- What the loop writes beside the map lies before it. -/
theorem memKPokes_stop (range : MemoryRange) :
    ∀ poke ∈ memKPokes range, poke.stop ≤ 0x1e4 := by
  intro poke hpoke
  unfold memKPokes at hpoke
  split at hpoke
  · have hnames : ∀ name ∈ [ParamField.extMemK, .altMemK], name.stop ≤ 0x1e4 := by
      decide +kernel
    obtain ⟨assignment, hassignment, rfl⟩ := List.mem_map.mp hpoke
    rw [stop_poke]
    exact hnames _ (List.mem_map_of_mem hassignment)
  · cases hpoke

theorem e820Pokes_cases {ranges : List MemoryRange} {first : Nat} :
    ∀ poke ∈ (ranges.zipIdx first).flatMap fun (range, i) => e820Entry i range :: memKPokes range,
      poke.stop ≤ 0x1e4 ∨ e820Map + 20 * first ≤ poke.offset := by
  intro poke hpoke
  obtain ⟨⟨range, i⟩, hrange, hpoke⟩ := List.mem_flatMap.mp hpoke
  have hi := List.mem_zipIdx hrange
  rcases List.mem_cons.mp hpoke with rfl | hpoke
  · right
    dsimp only [e820Entry]
    omega
  · exact .inl (memKPokes_stop range poke hpoke)

/-- Each entry of the map is written once. -/
theorem slice_e820Pokes {before : List Poke} {ranges : List MemoryRange} {first : Nat}
    {buffer result : Bytes} (h : applyPokes (before ++ (ranges.zipIdx first).flatMap
      fun (range, i) => e820Entry i range :: memKPokes range) buffer = .ok result) {i : Nat}
    {range : MemoryRange} (hrange : ranges[i]? = some range) :
    slice result (e820Map + 20 * (first + i)) 20 = (e820Entry (first + i) range).bytes := by
  induction ranges generalizing before first i with
  | nil => cases hrange
  | cons head rest ih =>
    rw [List.zipIdx_cons, List.flatMap_cons] at h
    cases i with
    | zero =>
      obtain rfl : head = range := Option.some.inj hrange
      have hlast := slice_applyPokes_last h (by
        intro later hlater
        have hoffset : (e820Entry first head).offset = e820Map + 20 * first := rfl
        rw [Poke.stop, length_e820Entry, hoffset]
        rcases List.mem_append.mp hlater with hlater | hlater
        · have := memKPokes_stop head later hlater
          unfold e820Map
          omega
        · have := e820Pokes_cases later hlater
          unfold e820Map at *
          omega)
      rw [length_e820Entry] at hlast
      exact hlast
    | succ i =>
      have hnext := ih (show applyPokes ((before ++ (e820Entry first head :: memKPokes head)) ++ _)
        buffer = .ok result by rw [List.append_assoc]; exact h) hrange
      rw [Nat.add_right_comm] at hnext
      exact hnext

theorem entry_e820Entry {range : MemoryRange} (hle : range.start ≤ range.stop)
    (hlt : range.stop < 2 ^ 64) (i : Nat) :
    (getLE (slice (e820Entry i range).bytes 0 8), getLE (slice (e820Entry i range).bytes 8 8),
      getLE (slice (e820Entry i range).bytes 16 4)) = range.entry := by
  have hsize : (range.stop + (2 ^ 64 - range.start)) % 256 ^ 8 = range.stop - range.start := by
    omega
  have hbytes : (e820Entry i range).bytes = putLE 8 range.start ++
      (putLE 8 (range.stop + (2 ^ 64 - range.start)) ++ putLE 4 range.type.e820) :=
    List.append_assoc _ _ _
  have hfirst : slice (e820Entry i range).bytes 0 8 = putLE 8 range.start := by
    rw [hbytes, slice_append (by rw [length_putLE]), slice_all _ (length_putLE _ _)]
  have hsecond : slice (e820Entry i range).bytes 8 8 =
      putLE 8 (range.stop + (2 ^ 64 - range.start)) := by
    rw [hbytes, slice_append_right (length_putLE 8 _) _ 0, slice_append (by rw [length_putLE]),
      slice_all _ (length_putLE _ _)]
  have hthird : slice (e820Entry i range).bytes 16 4 = putLE 4 range.type.e820 := by
    rw [hbytes, slice_append_right (length_putLE 8 _) _ 8,
      slice_append_right (length_putLE 8 _) _ 0, slice_all _ (length_putLE _ _)]
  rw [hfirst, hsecond, hthird, getLE_putLE_of_lt (by omega), getLE_putLE, hsize,
    getLE_putLE_of_lt range.type.e820_lt]
  rfl

/-- A kernel reads the ranges of `get_memory_ranges` from the map, up to the 32 that fit. -/
theorem system_e820 {ranges : List MemoryRange} {realMode result : Bytes}
    (hranges : ∀ range ∈ ranges, range.start ≤ range.stop ∧ range.stop < 2 ^ 64)
    (h : setupLinuxSystemParameters (some ranges) realMode = .ok result) :
    e820Entries result = (ranges.take e820Max).map MemoryRange.entry := by
  obtain ⟨defaults, -, h⟩ := bind_eq_ok_iff.mp h
  dsimp only at h
  split at h
  · cases h
  · rw [pokeAll_eq_ok_iff] at h
    have hlength : (ranges.take e820Max).length ≤ 32 := List.length_take_le _ _
    have happly : applyPokes (linuxParam.assign [(.e820MapNr, (ranges.take e820Max).length)] ++
        e820Pokes (ranges.take e820Max)) defaults = .ok result := h
    have hcount : readParam .e820MapNr result = (ranges.take e820Max).length := by
      have hread := Struct.read_assign member_e820MapNr happly (List.mem_singleton_self _)
        (by simp) (by
          intro poke hpoke
          have := e820Pokes_cases poke hpoke
          unfold e820Map at this
          simp only [Member.size, CType.size]
          omega)
      rw [readParam, hread, Option.getD_some]
      exact Nat.mod_eq_of_lt (Nat.lt_of_le_of_lt hlength (by decide))
    apply List.ext_getElem
    · rw [e820Entries, List.length_map, List.length_range, List.length_map, hcount]
    · intro i hi hi'
      rw [List.length_map] at hi'
      have hget := List.getElem?_eq_getElem hi'
      have hmem := List.mem_of_mem_take (List.getElem_mem hi')
      obtain ⟨hle, hlt⟩ := hranges _ hmem
      have hslice := slice_e820Pokes happly hget
      rw [Nat.zero_add] at hslice
      simp only [e820Entries, List.getElem_map, List.getElem_range]
      rw [hslice]
      exact entry_e820Entry hle hlt i

end Monoimage.Kexec
