import Monoimage.Clib.Memory
import Monoimage.CommandLine.Compose
import Monoimage.Image.Header
import Monoimage.Kexec.Options

/-! `monoimage_probe` and `monoimage_load`, which cuts the kernel and the ramdisk out of a
monoimage and hands them to the loader for bzImages. -/
namespace Monoimage.Kexec

open Clib Image Device CommandLine

/-- `include/monoimage.h` of kexec-tools. -/
def kexecHeader : Struct HeaderField :=
  [⟨.magic, .uint8, 4⟩,
   ⟨.version, .uint16, 1⟩,
   ⟨.runfrom, .uint8, 1⟩,
   ⟨.fstype, .uint8, 1⟩,
   ⟨.kernelOffset, .offT, 1⟩,
   ⟨.ramdiskOffset, .offT, 1⟩,
   ⟨.rootfsOffset, .offT, 1⟩]

/-- Two bytes of the magic number are compared. -/
def monoimageProbe (buf : Bytes) : Int :=
  match kexecHeader.fread buf with
  | none => -1
  | some header =>
    if (kexecHeader.bytesOf .magic header).map (·.take 2) ≠ some (miMagic.take 2) then -1
    else if kexecHeader.read .version header ≠ some 1 then 0
    else 1

/-! ## What `monoimage_load` does before it looks at the image -/

inductive Errno where
  | enoent
  | other
  deriving DecidableEq, Repr

/-- `st_dev`, `st_rdev` and `S_ISBLK(st_mode)`. -/
structure StatBuf where
  dev : Nat
  rdev : Nat
  block : Bool
  deriving DecidableEq, Repr

/-- What `monoimage_load` meets outside. `imagesBuf` and `devbuf` are the two buffers before
any call of `stat`, `dev` the names in `/dev`, and `mounts` the text of `/proc/mounts`;
`none` is a failure to open. -/
structure LoadEnv where
  stat : Text → Except Errno StatBuf
  imagesBuf : StatBuf
  devbuf : StatBuf
  dev : Option (List Text)
  superblock : Text → Option Uuid
  mounts : Option Text

/-- The first word of the vector that can be statted, and `images_buf`. The last test of the
loop is of a buffer that no call has filled. -/
def findImage (env : LoadEnv) (buf : StatBuf) : List Text → Except Stop (Option Text × StatBuf)
  | [] => .ok (none, buf)
  | word :: rest =>
    match env.stat word with
    | .ok buf => .ok (some word, buf)
    | .error .other => .error (.returned (-1))
    | .error .enoent =>
      if buf.dev = 0 then .error (.returned (-1)) else findImage env buf rest

structure Devices where
  images : Option Text
  config : Option Text
  deriving DecidableEq, Repr

/-- What an entry of `/dev` is taken for, by the number of its device. -/
def Devices.judge (found : Devices) (imagesDev configDev : Nat) (path : Text)
    (devbuf : StatBuf) : Devices where
  images := if devbuf.rdev = imagesDev ∧ devbuf.block then some path else found.images
  config := if devbuf.rdev = configDev ∧ devbuf.block then some path else found.config

/-- The walk over `/dev`. An entry that is not there is judged by the buffer of the one
before it. -/
def findDevices (env : LoadEnv) (imagesDev configDev : Nat) :
    List Text → StatBuf → Devices → Except Stop Devices
  | [], _, found => .ok found
  | name :: rest, devbuf, found =>
    match store bufMax (devPath name) with
    | .error f => .error (.fault f)
    | .ok path =>
      match env.stat path with
      | .error .other => .error (.returned (-1))
      | .error .enoent =>
        findDevices env imagesDev configDev rest devbuf
          (found.judge imagesDev configDev path devbuf)
      | .ok devbuf =>
        findDevices env imagesDev configDev rest devbuf
          (found.judge imagesDev configDev path devbuf)

def liftFault {α : Type} (x : Except Fault α) : Except Stop α :=
  x.mapError .fault

/-- A name that was not found is read from an unset buffer. -/
def deviceName (found : Option Text) : Except Stop Text :=
  match found with
  | none => .error (.fault .uninitialised)
  | some name => .ok name

/-- The two texts for `I=` and `C=`. -/
def findUuids (env : LoadEnv) (imagesDev configDev : Text) : Except Stop (Text × Text) := do
  let imagesUuid ← liftFault (kexecExt2Uuid (env.superblock imagesDev))
  if imagesDev = configDev then pure (imagesUuid, imagesUuid)
  else
    let configUuid ← liftFault (kexecExt2Uuid (env.superblock configDev))
    pure (imagesUuid, configUuid)

/-- The field behind the device name on the first line that starts with it. -/
def findMountPoint (mounts : Option Text) (imagesDev : Text) : Except Stop Text :=
  match mounts with
  | none => .error (.fault .nullPointer)
  | some stream =>
    match (fgetsAll 256 stream).find? fun line => strncmpEq line imagesDev imagesDev.length with
    | none => .error (.fault .uninitialised)
    | some line =>
      let field := line.drop (imagesDev.length + 1)
      if ' ' ∈ field then .ok (field.takeWhile (· ≠ ' ')) else .error (.fault .outOfBounds)

/-- Both pointers run on while the characters agree, the NULs at the ends included. -/
def skipCommon : Text → Text → Except Fault Text
  | [], [] => .error .outOfBounds
  | [], image => .ok image
  | _ :: _, [] => .ok []
  | c :: mpoint, d :: image => if c = d then skipCommon mpoint image else .ok (d :: image)

def relativePath (mpoint image : Text) : Except Fault Text := do
  let rest ← skipCommon mpoint image
  pure (if strncmpEq rest ['/'] 1 then rest.drop 1 else rest)

structure Loading where
  options : MonoimageOptions
  commandLine : Text
  deriving DecidableEq, Repr

/-- From the options to the command line. -/
def prepare (env : LoadEnv) (argv : List Text) : Except Stop Loading := do
  let options ← (monoimageOptions argv).mapError fun _ => .returned (-1)
  let argv := (getoptLong monoimageTable argv).argv argv
  let (image, imagesBuf) ← findImage env env.imagesBuf argv.tail
  let configBuf ← (env.stat (options.configfile.getD [])).mapError fun _ => .returned (-1)
  match env.dev with
  | none => throw (.returned (-1))
  | some names =>
    let found ← findDevices env imagesBuf.dev configBuf.dev names env.devbuf ⟨none, none⟩
    let imagesDev ← deviceName found.images
    let configDev ← deviceName found.config
    let (imagesUuid, configUuid) ← findUuids env imagesDev configDev
    let mpoint ← findMountPoint env.mounts imagesDev
    match image with
    | none => throw (.fault .nullPointer)
    | some image =>
      let path ← liftFault (relativePath mpoint image)
      let commandLine ← liftFault
        (composeCommandLine options.commandLineAppend path imagesUuid configUuid)
      pure ⟨options, commandLine⟩

/-! ## The image -/

structure Offsets where
  kernel : Int
  ramdisk : Int
  rootfs : Int
  deriving DecidableEq, Repr

/-- The three members of type `off_t`. -/
def readOffsets (buf : Bytes) : Option Offsets := do
  let header ← kexecHeader.fread buf
  let kernel ← kexecHeader.read .kernelOffset header
  let ramdisk ← kexecHeader.read .ramdiskOffset header
  let rootfs ← kexecHeader.read .rootfsOffset header
  pure ⟨wrap32 kernel, wrap32 ramdisk, wrap32 rootfs⟩

def Offsets.ramdiskRange (o : Offsets) : Range := .between o.ramdisk o.rootfs

def Offsets.kernelRange (o : Offsets) : Range := .between o.kernel o.ramdisk

/-- The arguments of `do_bzImage_load`. -/
structure BzImageCall where
  kernel : Bytes
  commandLine : Text
  initrd : Bytes
  realModeEntry : Bool
  debug : Bool
  deriving DecidableEq, Repr

/-- `bzImage` is a return with what `do_bzImage_load` makes of the call. -/
inductive LoadFinish where
  | returned (code : Int)
  | fault (f : Fault)
  | bzImage (call : BzImageCall)
  deriving DecidableEq, Repr

/-- The ranges of the image that were copied, the last one in vain if the run ends with a
fault. -/
structure LoadRun where
  copies : List Range
  finish : LoadFinish
  deriving DecidableEq, Repr

/-- The ramdisk is copied before the kernel, and no offset is checked. -/
def loadImage (loading : Loading) (buf : Bytes) : LoadRun :=
  match readOffsets buf with
  | none => ⟨[], .fault .outOfBounds⟩
  | some o =>
    match memcpy buf o.ramdiskRange with
    | .error f => ⟨[o.ramdiskRange], .fault f⟩
    | .ok ramdisk =>
      match memcpy buf o.kernelRange with
      | .error f => ⟨[o.ramdiskRange, o.kernelRange], .fault f⟩
      | .ok kernel =>
        ⟨[o.ramdiskRange, o.kernelRange],
          .bzImage ⟨kernel, loading.commandLine, ramdisk, loading.options.realModeEntry,
            loading.options.debug⟩⟩

def monoimageLoad (env : LoadEnv) (argv : List Text) (buf : Bytes) : LoadRun :=
  match prepare env argv with
  | .error (.returned code) => ⟨[], .returned code⟩
  | .error (.fault f) => ⟨[], .fault f⟩
  | .ok loading => loadImage loading buf

theorem monoimageLoad_of_prepare {env : LoadEnv} {argv : List Text} {loading : Loading}
    (hprepare : prepare env argv = .ok loading) (buf : Bytes) :
    monoimageLoad env argv buf = loadImage loading buf := by
  rw [monoimageLoad, hprepare]

/-! A load that gets as far as the image: `kexec --config=mb.conf -l /images/funky.img`. -/

def exampleEnv : LoadEnv where
  stat path :=
    if path = "/images/funky.img".toList ∨ path = "mb.conf".toList then .ok ⟨0x303, 0, false⟩
    else if path = "/dev/hda3".toList then .ok ⟨5, 0x303, true⟩
    else .error .enoent
  imagesBuf := ⟨1, 0, false⟩
  devbuf := ⟨0, 0, false⟩
  dev := some ["hda3".toList]
  superblock _ := some exampleUuid
  mounts := some "/dev/hda3 /images ext3 rw 0 0\n".toList

def exampleArgv : List Text :=
  ["kexec".toList, "--config=mb.conf".toList, "-l".toList, "/images/funky.img".toList]

def exampleLoading : Loading where
  options := { configfile := some "mb.conf".toList }
  commandLine := commandLine none "funky.img".toList (uuid2str exampleUuid) (uuid2str exampleUuid)

theorem prepare_exampleArgv : prepare exampleEnv exampleArgv = .ok exampleLoading := by
  decide +kernel

/-! ## Images of `makeimage.pl` -/

theorem sizeof_kexecHeader : kexecHeader.sizeof = bootimageHeaderSize := by
  decide

section Makeimage

variable {opt : Image.Options} {files : String → Option Bytes} {image : Bytes}

theorem monoimageProbe_makeimage (p : Payloads opt files)
    (himage : makeimage opt files = .ok image) : monoimageProbe image = 1 := by
  have hmagic : kexecHeader.bytesOf .magic p.header = some miMagic := rfl
  have hversion : kexecHeader.read .version p.header = some (getLE (putLE 2 1)) := rfl
  rw [monoimageProbe, p.fread_makeimage sizeof_kexecHeader himage]
  simp [hmagic, hversion, getLE_putLE]

theorem readOffsets_makeimage (p : Payloads opt files) (hsize : p.rootfsStart < 2 ^ 31)
    (himage : makeimage opt files = .ok image) :
    readOffsets image = some ⟨bootimageHeaderSize,
      (bootimageHeaderSize + p.kernel.length : Nat), p.rootfsStart⟩ := by
  have hkernel : kexecHeader.read .kernelOffset p.header =
      some (getLE (putLE 4 bootimageHeaderSize)) := rfl
  have hramdisk : kexecHeader.read .ramdiskOffset p.header =
      some (getLE (putLE 4 (bootimageHeaderSize + p.kernel.length))) := rfl
  have hrootfs : kexecHeader.read .rootfsOffset p.header =
      some (getLE (putLE 4 p.rootfsStart)) := rfl
  have hle : bootimageHeaderSize + p.kernel.length ≤ p.rootfsStart := Nat.le_add_right _ _
  have hheader : bootimageHeaderSize ≤ bootimageHeaderSize + p.kernel.length :=
    Nat.le_add_right _ _
  have hread {n : Nat} (hn : n < 2 ^ 31) : wrap32 (getLE (putLE 4 n)) = n := by
    rw [getLE_putLE_of_lt (by omega), wrap32_of_lt (by omega) (by omega)]
  rw [readOffsets, p.fread_makeimage sizeof_kexecHeader himage, Option.bind_eq_bind,
    Option.bind_some, hkernel, Option.bind_eq_bind, Option.bind_some, hramdisk,
    Option.bind_some, hrootfs, Option.bind_some, hread hsize, hread (Nat.lt_of_le_of_lt hle hsize),
    hread (Nat.lt_of_le_of_lt (hheader.trans hle) hsize)]
  rfl

/-- The loader takes an image of `makeimage.pl` and passes its kernel and its ramdisk on. -/
theorem monoimageLoad_makeimage (p : Payloads opt files) (hsize : p.rootfsStart < 2 ^ 31)
    (himage : makeimage opt files = .ok image) :
    monoimageProbe image = 1 ∧
      ∀ env argv loading, prepare env argv = .ok loading →
        (monoimageLoad env argv image).finish =
          .bzImage ⟨p.kernel, loading.commandLine, p.ramdisk, loading.options.realModeEntry,
            loading.options.debug⟩ := by
  refine ⟨monoimageProbe_makeimage p himage, ?_⟩
  intro env argv loading hprepare
  have hoffsets := readOffsets_makeimage p hsize himage
  rw [p.makeimage_eq_header] at himage
  cases himage
  have hlength := p.length_header
  have hstart : p.rootfsStart = bootimageHeaderSize + p.kernel.length + p.ramdisk.length := rfl
  have hramdisk : memcpy (p.header ++ p.body) (.between
      ((bootimageHeaderSize + p.kernel.length : Nat) : Int) (p.rootfsStart : Int)) =
        .ok p.ramdisk := by
    rw [Payloads.body, ← List.append_assoc]
    apply memcpy_between
    · rw [List.length_append, hlength]
    · rw [List.length_append, hlength, hstart]
      omega
    · omega
  have hkernel : memcpy (p.header ++ p.body) (.between (bootimageHeaderSize : Int)
      ((bootimageHeaderSize + p.kernel.length : Nat) : Int)) = .ok p.kernel := by
    rw [Payloads.body]
    apply memcpy_between
    · rw [hlength]
    · rw [hlength]
      omega
    · omega
  rw [monoimageLoad_of_prepare hprepare, loadImage, hoffsets]
  dsimp only
  rw [Offsets.ramdiskRange, hramdisk]
  dsimp only
  rw [Offsets.kernelRange, hkernel]

end Makeimage

def sampleImage : Bytes := (samplePayloads [5]).header ++ (samplePayloads [5]).body

theorem monoimageLoad_sampleImage :
    monoimageProbe sampleImage = 1 ∧
      (monoimageLoad exampleEnv exampleArgv sampleImage).finish =
        .bzImage ⟨[1, 2], exampleLoading.commandLine, [5], false, false⟩ := by
  have h := monoimageLoad_makeimage (samplePayloads [5]) (by decide)
    (samplePayloads [5]).makeimage_eq_header
  exact ⟨h.1, h.2 exampleEnv exampleArgv exampleLoading prepare_exampleArgv⟩

/-! ## Any buffer -/

/-- The run ends with -1, or everything it has copied lies inside the buffer. -/
def CopiesInside (buf : Bytes) (run : LoadRun) : Prop :=
  run.finish = .returned (-1) ∨ ∀ range ∈ run.copies, range.Inside buf.length

instance (buf : Bytes) (run : LoadRun) : Decidable (CopiesInside buf run) :=
  inferInstanceAs (Decidable (_ ∨ _))

def Offsets.Ordered (o : Offsets) (len : Nat) : Prop :=
  0 ≤ o.kernel ∧ o.kernel ≤ o.ramdisk ∧ o.ramdisk ≤ o.rootfs ∧ o.rootfs ≤ len

theorem readOffsets_of_probe {buf : Bytes} (hprobe : 0 ≤ monoimageProbe buf) :
    ∃ o, readOffsets buf = some o := by
  cases hfread : kexecHeader.fread buf with
  | none =>
    rw [monoimageProbe, hfread] at hprobe
    exact absurd hprobe (by decide)
  | some header =>
    rw [readOffsets, hfread]
    exact ⟨_, rfl⟩

/-- The offsets that can be read are signed numbers of 32 bits. -/
theorem readOffsets_eq_some {buf : Bytes} {o : Offsets} (ho : readOffsets buf = some o) :
    ∃ kernel ramdisk rootfs : Int, o = ⟨wrap32 kernel, wrap32 ramdisk, wrap32 rootfs⟩ := by
  simp only [readOffsets, Option.bind_eq_bind, Option.bind_eq_some_iff] at ho
  obtain ⟨header, -, kernel, -, ramdisk, -, rootfs, -, ho⟩ := ho
  exact ⟨kernel, ramdisk, rootfs, (Option.some.inj ho).symm⟩

/-- Differences that wrap around do not help: the range then ends outside. -/
theorem ordered_iff {buf : Bytes} {o : Offsets} {len : Nat} (ho : readOffsets buf = some o)
    (hlen : len < 2 ^ 31) :
    o.Ordered len ↔ o.ramdiskRange.Inside len ∧ o.kernelRange.Inside len := by
  obtain ⟨kernel, ramdisk, rootfs, rfl⟩ := readOffsets_eq_some ho
  obtain ⟨-, -, -, hkernel⟩ := wrap32_cases kernel
  obtain ⟨-, -, hramdisk, hramdisk'⟩ := wrap32_cases ramdisk
  obtain ⟨-, -, hrootfs, hrootfs'⟩ := wrap32_cases rootfs
  rw [Offsets.ramdiskRange, Offsets.kernelRange,
    Range.inside_between_iff hramdisk' hrootfs hrootfs' hlen,
    Range.inside_between_iff hkernel hramdisk hramdisk' hlen]
  simp only [Offsets.Ordered]
  omega

theorem copiesInside_loadImage {buf : Bytes} {o : Offsets} (ho : readOffsets buf = some o)
    (loading : Loading) :
    CopiesInside buf (loadImage loading buf) ↔
      o.ramdiskRange.Inside buf.length ∧ o.kernelRange.Inside buf.length := by
  unfold loadImage memcpy
  rw [ho]
  dsimp only
  by_cases hramdisk : o.ramdiskRange.Inside buf.length
  · rw [if_pos hramdisk]
    by_cases hkernel : o.kernelRange.Inside buf.length
    · rw [if_pos hkernel]
      simp [CopiesInside, hramdisk, hkernel]
    · rw [if_neg hkernel]
      simp [CopiesInside, hkernel]
  · rw [if_neg hramdisk]
    simp [CopiesInside, hramdisk]

theorem copiesInside_monoimageLoad {buf : Bytes}
    (hload : ∀ loading, CopiesInside buf (loadImage loading buf)) (env : LoadEnv)
    (argv : List Text) : CopiesInside buf (monoimageLoad env argv buf) := by
  unfold monoimageLoad
  split
  · right
    simp
  · right
    simp
  · exact hload _

/-- Whatever its arguments, `monoimage_load` stays inside a buffer that the probe accepts
exactly if the offsets in the header are in order and end inside the buffer. -/
theorem copiesInside_iff {buf : Bytes} (hprobe : 0 ≤ monoimageProbe buf)
    (hlen : buf.length < 2 ^ 31) :
    (∀ env argv, CopiesInside buf (monoimageLoad env argv buf)) ↔
      ∃ o, readOffsets buf = some o ∧ o.Ordered buf.length := by
  constructor
  · intro h
    obtain ⟨o, ho⟩ := readOffsets_of_probe hprobe
    have hexample := h exampleEnv exampleArgv
    rw [monoimageLoad_of_prepare prepare_exampleArgv, copiesInside_loadImage ho] at hexample
    exact ⟨o, ho, (ordered_iff ho hlen).mpr hexample⟩
  · rintro ⟨o, ho, hordered⟩
    apply copiesInside_monoimageLoad
    intro loading
    rw [copiesInside_loadImage ho]
    exact (ordered_iff ho hlen).mp hordered

theorem copiesInside_sampleImage :
    0 ≤ monoimageProbe sampleImage ∧
      ∀ env argv, CopiesInside sampleImage (monoimageLoad env argv sampleImage) := by
  have hprobe : 0 ≤ monoimageProbe sampleImage := by decide
  refine ⟨hprobe, (copiesInside_iff hprobe (by decide)).mpr ?_⟩
  exact ⟨⟨20, 22, 23⟩, by decide, by unfold Offsets.Ordered; decide⟩

/-- A download that stopped before the ramdisk. -/
theorem not_copiesInside_truncated :
    monoimageProbe (sampleImage.take 22) = 1 ∧
      monoimageLoad exampleEnv exampleArgv (sampleImage.take 22) =
        ⟨[⟨22, 1⟩], .fault .outOfBounds⟩ ∧
      ¬ CopiesInside (sampleImage.take 22)
        (monoimageLoad exampleEnv exampleArgv (sampleImage.take 22)) := by
  rw [monoimageLoad_of_prepare prepare_exampleArgv]
  exact ⟨by decide, by decide +kernel, by decide +kernel⟩

end Monoimage.Kexec
