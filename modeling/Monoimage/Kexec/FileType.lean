import Monoimage.Kexec.Monoimage

/-! `my_load`: which of the loaders gets the file. -/
namespace Monoimage.Kexec

open Clib Image

/-! ## `bzImage_probe` -/

/-- The members of `struct x86_linux_header`; its packed layout is the natural one. -/
inductive LinuxField where
  | reserved1 | setupSects | rootFlags | syssize | swapdev | ramdiskFlags | vidMode | rootDev
  | bootSectorMagic | reserved3 | headerMagic | protocolVersion | realmodeSwtch | startSys
  | kverAddr | typeOfLoader | loadflags | setupMoveSize | code32Start | ramdiskImage
  | ramdiskSize | reserved4 | heapEndPtr | reserved5 | cmdLinePtr | initrdAddrMax | tail
  deriving DecidableEq, Repr

def linuxHeader : Struct LinuxField :=
  [⟨.reserved1, .uint8, 0x1f1⟩, ⟨.setupSects, .uint8, 1⟩, ⟨.rootFlags, .uint16, 1⟩,
   ⟨.syssize, .uint16, 1⟩, ⟨.swapdev, .uint16, 1⟩, ⟨.ramdiskFlags, .uint16, 1⟩,
   ⟨.vidMode, .uint16, 1⟩, ⟨.rootDev, .uint16, 1⟩, ⟨.bootSectorMagic, .uint16, 1⟩,
   ⟨.reserved3, .uint8, 2⟩, ⟨.headerMagic, .uint8, 4⟩, ⟨.protocolVersion, .uint16, 1⟩,
   ⟨.realmodeSwtch, .uint32, 1⟩, ⟨.startSys, .uint16, 1⟩, ⟨.kverAddr, .uint16, 1⟩,
   ⟨.typeOfLoader, .uint8, 1⟩, ⟨.loadflags, .uint8, 1⟩, ⟨.setupMoveSize, .uint16, 1⟩,
   ⟨.code32Start, .uint32, 1⟩, ⟨.ramdiskImage, .uint32, 1⟩, ⟨.ramdiskSize, .uint32, 1⟩,
   ⟨.reserved4, .uint8, 4⟩, ⟨.heapEndPtr, .uint16, 1⟩, ⟨.reserved5, .uint8, 2⟩,
   ⟨.cmdLinePtr, .uint32, 1⟩, ⟨.initrdAddrMax, .uint32, 1⟩,
   ⟨.tail, .uint8, 32 * 1024 - 0x230⟩]

/-- The bytes of `HdrS`. -/
def hdrS : Bytes := [0x48, 0x64, 0x72, 0x53]

def bzImageProbe (buf : Bytes) : Int :=
  match linuxHeader.fread buf with
  | none => -1
  | some header =>
    if linuxHeader.bytesOf .headerMagic header ≠ some hdrS then -1
    else if linuxHeader.read .bootSectorMagic header ≠ some 0xAA55 then -1
    else if ((linuxHeader.read .protocolVersion header).getD 0) < 0x0200 then -1
    else if ((linuxHeader.read .loadflags header).getD 0) % 2 = 0 then -1
    else 0

/-! ## The table -/

/-- What the other probes return once the magic number at the start of the file has matched:
the ELF headers, the search for a multiboot header, the kernel inside a beoboot image, the
segments of a network boot image. -/
structure ProbeBodies where
  elf : Bytes → Int
  multiboot : Bytes → Int
  beoboot : Bytes → Int
  nbi : Bytes → Int

/-- The bytes of `\177ELF`. -/
def elfMagic : Bytes := [0x7f, 0x45, 0x4c, 0x46]

/-- The bytes of `BeoB`. -/
def beobootMagic : Bytes := [0x42, 0x65, 0x6f, 0x42]

def nbiMagic : Bytes := [0x36, 0x13, 0x03, 0x1b]

/-- A file of at least `size` bytes that starts with `magic` is left to `body`. -/
def magicProbe (size : Nat) (magic : Bytes) (body : Bytes → Int) (buf : Bytes) : Int :=
  if buf.length < size then -1
  else if buf.take 4 ≠ magic then -1
  else body buf

def elfX86Probe (bodies : ProbeBodies) : Bytes → Int := magicProbe 16 elfMagic bodies.elf

def multibootX86Probe (bodies : ProbeBodies) (buf : Bytes) : Int :=
  if elfX86Probe bodies buf < 0 then elfX86Probe bodies buf else bodies.multiboot buf

def beobootProbe (bodies : ProbeBodies) : Bytes → Int := magicProbe 16 beobootMagic bodies.beoboot

def nbiProbe (bodies : ProbeBodies) : Bytes → Int := magicProbe 512 nbiMagic bodies.nbi

inductive Loader where
  | multibootX86
  | elfX86
  | bzImage
  | beoboot
  | nbi
  | monoimage
  deriving DecidableEq, Repr

structure FileType where
  name : Text
  probe : Bytes → Int
  loader : Loader

def monoimageType : FileType := ⟨"monoimage-x86".toList, monoimageProbe, .monoimage⟩

def fileTypes (bodies : ProbeBodies) : List FileType :=
  [⟨"multiboot-x86".toList, multibootX86Probe bodies, .multibootX86⟩,
   ⟨"elf-x86".toList, elfX86Probe bodies, .elfX86⟩,
   ⟨"bzImage".toList, bzImageProbe, .bzImage⟩,
   ⟨"beoboot-x86".toList, beobootProbe bodies, .beoboot⟩,
   ⟨"nbi-x86".toList, nbiProbe bodies, .nbi⟩,
   monoimageType]

/-! ## `my_load` -/

/-- The return value, or the loader that the buffer is handed to. -/
inductive MyLoad where
  | returned (code : Int)
  | load (loader : Loader)
  deriving DecidableEq, Repr

/-- `memoryRanges` is whether the memory layout could be read. A file that is not of the type
that was asked for is refused, whatever else it may be. -/
def myLoad (bodies : ProbeBodies) (memoryRanges : Bool) (type : Option Text) (buf : Bytes) :
    MyLoad :=
  if memoryRanges then
    match type with
    | some type =>
      match (fileTypes bodies).find? (·.name = type) with
      | none => .returned (-1)
      | some fileType =>
        if fileType.probe buf < 0 then .returned (-1) else .load fileType.loader
    | none =>
      match (fileTypes bodies).find? (0 ≤ ·.probe buf) with
      | none => .returned (-1)
      | some fileType => .load fileType.loader
  else .returned (-1)

/-! ## What reaches `monoimage_load` -/

/-- A monoimage as the header file describes it. -/
structure Proper (buf : Bytes) : Prop where
  length : 20 ≤ buf.length
  magic : buf.take 4 = miMagic
  version : kexecHeader.readFrom .version buf = some 1

/-- A file that starts like a monoimage: this is all that the probe and `my_load` together
insist on. -/
structure Resembles (buf : Bytes) : Prop where
  length : 20 ≤ buf.length
  magic : buf.take 2 = miMagic.take 2

theorem monoimageProbe_nonneg_iff {buf : Bytes} : 0 ≤ monoimageProbe buf ↔ Resembles buf := by
  unfold monoimageProbe Struct.fread
  rw [sizeof_kexecHeader]
  by_cases hlength : bootimageHeaderSize ≤ buf.length
  · rw [if_pos hlength]
    have hbytes : kexecHeader.bytesOf .magic (buf.take bootimageHeaderSize) =
        some (((buf.take bootimageHeaderSize).drop 0).take 4) := rfl
    have htake : (((buf.take bootimageHeaderSize).drop 0).take 4).take 2 = buf.take 2 := by
      simp [List.take_take, bootimageHeaderSize]
    dsimp only
    rw [hbytes, Option.map_some, htake]
    by_cases hmagic : buf.take 2 = miMagic.take 2
    · rw [if_neg (by simp [hmagic])]
      simp only [(⟨hlength, hmagic⟩ : Resembles buf), iff_true]
      split <;> decide
    · rw [if_pos (by simpa using hmagic)]
      simp only [Int.reduceNeg, Int.reduceLE, false_iff]
      exact fun h => hmagic h.magic
  · rw [if_neg hlength]
    simp only [Int.reduceNeg, Int.reduceLE, false_iff]
    exact fun h => hlength h.length

section Selection

variable {bodies : ProbeBodies} {buf : Bytes}

theorem magicProbe_neg {size : Nat} {magic : Bytes} {body : Bytes → Int}
    (h : buf.take 2 ≠ magic.take 2) : magicProbe size magic body buf = -1 := by
  have htake : buf.take 4 ≠ magic := by
    intro heq
    apply h
    rw [← heq, List.take_take]
    rfl
  rw [magicProbe, if_pos htake, ite_self]

/-- Of the other probes, only that for bzImages can accept a file that starts like a
monoimage. -/
theorem otherProbes_neg (bodies : ProbeBodies) (h : Resembles buf) :
    multibootX86Probe bodies buf = -1 ∧ elfX86Probe bodies buf = -1 ∧
      beobootProbe bodies buf = -1 ∧ nbiProbe bodies buf = -1 := by
  have helf : elfX86Probe bodies buf = -1 := by
    apply magicProbe_neg
    rw [h.magic]
    decide
  refine ⟨?_, helf, ?_, ?_⟩
  · rw [multibootX86Probe, helf]
    rfl
  · apply magicProbe_neg
    rw [h.magic]
    decide
  · apply magicProbe_neg
    rw [h.magic]
    decide

theorem probe_of_loader {fileType : FileType} (hmem : fileType ∈ fileTypes bodies)
    (hloader : fileType.loader = .monoimage) : fileType.probe = monoimageProbe := by
  simp only [fileTypes, List.mem_cons, List.not_mem_nil, or_false] at hmem
  rcases hmem with rfl | rfl | rfl | rfl | rfl | rfl
  · cases hloader
  · cases hloader
  · cases hloader
  · cases hloader
  · cases hloader
  · rfl

theorem myLoad_typed (memoryRanges : Bool) :
    myLoad bodies memoryRanges (some monoimageType.name) buf = .load .monoimage ↔
      memoryRanges = true ∧ Resembles buf := by
  have hfind : (fileTypes bodies).find? (·.name = monoimageType.name) = some monoimageType := rfl
  have htype : monoimageType.probe = monoimageProbe := rfl
  have hloader : monoimageType.loader = .monoimage := rfl
  rw [← monoimageProbe_nonneg_iff]
  cases memoryRanges with
  | false => simp [myLoad]
  | true =>
    simp only [myLoad, if_true, hfind, htype, hloader, true_and]
    by_cases hprobe : monoimageProbe buf < 0
    · rw [if_pos hprobe]
      simp only [reduceCtorEq, false_iff]
      omega
    · rw [if_neg hprobe]
      simp only [true_iff]
      omega

theorem find_skip {fileType : FileType} {rest : List FileType} (h : fileType.probe buf < 0) :
    (fileType :: rest).find? (0 ≤ ·.probe buf) = rest.find? (0 ≤ ·.probe buf) := by
  apply List.find?_cons_of_neg
  rw [decide_eq_true_eq]
  omega

theorem find_take {fileType : FileType} {rest : List FileType} (h : 0 ≤ fileType.probe buf) :
    (fileType :: rest).find? (0 ≤ ·.probe buf) = some fileType :=
  List.find?_cons_of_pos (decide_eq_true h)

/-- Up to the fifth entry, the table can only give a bzImage. -/
theorem find_guessed (h : Resembles buf) :
    (fileTypes bodies).find? (0 ≤ ·.probe buf) =
      if bzImageProbe buf < 0 then some monoimageType
      else some ⟨"bzImage".toList, bzImageProbe, .bzImage⟩ := by
  obtain ⟨hmultiboot, helf, hbeoboot, hnbi⟩ := otherProbes_neg bodies h
  have hneg {n : Int} (hn : n = -1) : n < 0 := by omega
  rw [fileTypes, find_skip (hneg hmultiboot), find_skip (hneg helf)]
  split
  · rename_i hbz
    rw [find_skip hbz, find_skip (hneg hbeoboot), find_skip (hneg hnbi),
      find_take (monoimageProbe_nonneg_iff.mpr h)]
  · rename_i hbz
    rw [find_take (Int.not_lt.mp hbz)]

theorem myLoad_guessed (memoryRanges : Bool) :
    myLoad bodies memoryRanges none buf = .load .monoimage ↔
      memoryRanges = true ∧ Resembles buf ∧ bzImageProbe buf < 0 := by
  cases memoryRanges with
  | false => simp [myLoad]
  | true =>
    simp only [myLoad, if_true, true_and]
    constructor
    · intro hload
      split at hload
      · cases hload
      · rename_i fileType hfind
        have hloader : fileType.loader = .monoimage := MyLoad.load.inj hload
        have hprobe := List.find?_some hfind
        rw [probe_of_loader (List.mem_of_find?_eq_some hfind) hloader, decide_eq_true_eq,
          monoimageProbe_nonneg_iff] at hprobe
        refine ⟨hprobe, ?_⟩
        by_contra hbz
        rw [find_guessed hprobe, if_neg hbz, Option.some.injEq] at hfind
        subst hfind
        cases hloader
    · rintro ⟨h, hbz⟩
      rw [find_guessed h, if_pos hbz]
      rfl

end Selection

/-- `my_load` hands the buffer to `monoimage_load` only if it is a monoimage. -/
def HandsOverProper (bodies : ProbeBodies) (type : Option Text) (buf : Bytes) : Prop :=
  ∀ memoryRanges, myLoad bodies memoryRanges type buf = .load .monoimage → Proper buf

/-- A buffer that only resembles a monoimage is handed over all the same, unless it is a
bzImage and no type was given. -/
theorem handsOverProper_iff (bodies : ProbeBodies) {type : Option Text}
    (htype : type = none ∨ type = some monoimageType.name) (buf : Bytes) :
    HandsOverProper bodies type buf ↔
      ¬ Resembles buf ∨ Proper buf ∨ (type = none ∧ 0 ≤ bzImageProbe buf) := by
  have hload (memoryRanges : Bool) :
      myLoad bodies memoryRanges type buf = .load .monoimage ↔
        memoryRanges = true ∧ Resembles buf ∧ (type = none → bzImageProbe buf < 0) := by
    rcases htype with rfl | rfl
    · simp only [myLoad_guessed, forall_const]
    · simp [myLoad_typed]
  unfold HandsOverProper
  simp only [hload]
  constructor
  · intro h
    by_cases hresembles : Resembles buf
    · by_cases hbz : type = none ∧ 0 ≤ bzImageProbe buf
      · exact .inr (.inr hbz)
      · refine .inr (.inl (h true ⟨rfl, hresembles, ?_⟩))
        intro hnone
        exact Int.not_le.mp fun hnonneg => hbz ⟨hnone, hnonneg⟩
    · exact .inl hresembles
  · rintro h memoryRanges ⟨-, hresembles, hbz⟩
    rcases h with hnot | hproper | ⟨hnone, hnonneg⟩
    · exact absurd hresembles hnot
    · exact hproper
    · exact absurd (hbz hnone) (Int.not_lt.mpr hnonneg)

/-- Loaders for which a matching magic number is enough. -/
def trustingBodies : ProbeBodies := ⟨fun _ => 0, fun _ => 0, fun _ => 0, fun _ => 0⟩

theorem handsOverProper_sampleImage :
    HandsOverProper trustingBodies (some monoimageType.name) sampleImage := by
  apply (handsOverProper_iff trustingBodies (.inr rfl) sampleImage).mpr
  right
  left
  exact ⟨by decide, by decide, by decide⟩

/-- An image of version 2, which the probe calls 0 and `my_load` a match. -/
def laterImage : Bytes := miMagic ++ packHeader 2 0 0 20 20 20

theorem not_handsOverProper_laterImage :
    monoimageProbe laterImage = 0 ∧
      myLoad trustingBodies true none laterImage = .load .monoimage ∧
      myLoad trustingBodies true (some monoimageType.name) laterImage = .load .monoimage ∧
      kexecHeader.readFrom .version laterImage = some 2 ∧
      ¬ HandsOverProper trustingBodies none laterImage := by
  have hresembles : Resembles laterImage := ⟨by decide, by decide⟩
  have hload : myLoad trustingBodies true none laterImage = .load .monoimage :=
    (myLoad_guessed true).mpr ⟨rfl, hresembles, by decide +kernel⟩
  refine ⟨by decide, hload, (myLoad_typed true).mpr ⟨rfl, hresembles⟩, by decide, ?_⟩
  intro h
  exact absurd (h true hload).version (by decide)

end Monoimage.Kexec
