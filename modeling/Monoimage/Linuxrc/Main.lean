import Monoimage.Clib.Memory
import Monoimage.Clib.Trace
import Monoimage.CommandLine.Variable
import Monoimage.Device.Walk
import Monoimage.Image.Header

/-! `linuxrc`, which runs in the initial ramdisk: it mounts the images device, finds the
image that the command line names, and sets up its root file system on `/dev/loop0`. -/
namespace Monoimage.Linuxrc

open Clib CommandLine Device Image

def imagesDir : Text := "/images/".toList
def fsImg : Text := "failsafe.img".toList
def fsDev : Text := "/dev/hda1".toList
def loopDev : Text := "/dev/loop0".toList

def failsafe : Text := imagesDir ++ fsImg

theorem length_imagesDir : imagesDir.length = 8 := by
  decide

/-- The outcome of every system call. `dev` are the entries of `/dev`, `mountImages` the
result for the device that is found there, `image` the contents of the image file that
`fopen` and `fread` see, and `reboot` that of the last call, which then does not return. -/
structure LinuxrcEnv where
  mountProc : Bool
  procCmdline : Option Text
  dev : Option (List DevEntry)
  mountImages : DevEntry → Bool
  statImage : Bool
  umountImages : Bool
  mountFailsafe : Bool
  statFailsafe : Bool
  image : Option Bytes
  openImage : Bool
  openLoop : Bool
  loopSetFd : Bool
  loopSetStatus : Bool
  reboot : Bool

inductive Call where
  | mount (source target : Text) (done : Bool)
  | umount (target : Text) (done : Bool)
  | stat (path : Text) (done : Bool)
  | readHeader (path : Text) (rootfsOffset : Nat)
  | loopSetFd (device file : Text) (done : Bool)
  | loopSetStatus (device : Text) (offset : Nat) (done : Bool)
  | loopClrFd (device : Text)
  deriving DecidableEq, Repr

/-- An end other than the success exit. `died` is an end through `DIE`: the system halts,
or the program exits with 1 if `reboot` fails. -/
inductive Ending where
  | died (reboot : Bool)
  | fault (f : Fault)
  deriving DecidableEq, Repr

abbrev LinuxrcM := Traced Call Ending

/-- `DIE`. The Makefile defines `DEBUG`, so that it is `die_halt`. -/
def die {α : Type} (env : LinuxrcEnv) : LinuxrcM α :=
  .stop (.died env.reboot)

def must (env : LinuxrcEnv) (done : Bool) : LinuxrcM Unit :=
  if done then pure () else die env

def mustFind {α : Type} (env : LinuxrcEnv) (found : Option α) : LinuxrcM α :=
  match found with
  | some a => pure a
  | none => die env

def defined {α : Type} (x : Except Fault α) : LinuxrcM α :=
  .silent (x.mapError .fault)

/-- The line that the first `fgets` gives. -/
def LinuxrcEnv.line (env : LinuxrcEnv) : Option Text :=
  env.procCmdline.bind fun stream => (fgets bufMax stream).map Prod.fst

structure Vars where
  imagefile : Text
  imageuuid : Text
  configuuid : Text
  deriving DecidableEq, Repr

def parseVars (env : LinuxrcEnv) (cmdline : Text) : LinuxrcM Vars := do
  let value ← mustFind env (← defined (getCmdlineVar cmdline "F".toList))
  let imagefile ← defined (store bufMax (imagesDir ++ value))
  let value ← mustFind env (← defined (getCmdlineVar cmdline "I".toList))
  let imageuuid ← defined (store bufMax value)
  let value ← mustFind env (← defined (getCmdlineVar cmdline "C".toList))
  let configuuid ← defined (store bufMax value)
  pure ⟨imagefile, imageuuid, configuuid⟩

/-- A walk that finds no device goes on without one. -/
def mountDev (env : LinuxrcEnv) : Option DevEntry → LinuxrcM Unit
  | none => pure ()
  | some dev => do
    .emit (.mount (devPath dev.name) "/images".toList (env.mountImages dev))
    must env (env.mountImages dev)

def mountImages (env : LinuxrcEnv) (imageuuid : Text) : LinuxrcM Unit := do
  let devs ← mustFind env env.dev
  mountDev env (← defined (walkDev imageuuid devs))

def chooseImage (env : LinuxrcEnv) (imagefile : Text) : LinuxrcM Text := do
  .emit (.stat imagefile env.statImage)
  if env.statImage then pure imagefile
  else
    .emit (.umount "/images".toList env.umountImages)
    .emit (.mount fsDev "/images".toList env.mountFailsafe)
    must env env.mountFailsafe
    .emit (.stat failsafe env.statFailsafe)
    must env env.statFailsafe
    pure failsafe

def readHeader (env : LinuxrcEnv) (imagefile : Text) : LinuxrcM Nat := do
  let bytes ← mustFind env env.image
  let offset ← mustFind env (readRootfsOffset bytes)
  .emit (.readHeader imagefile offset)
  pure offset

/-- `offset` is an `int`, and `lo_offset` a `__u64`. -/
def loOffset (offset : Int) : Nat := (offset % 2 ^ 64).toNat

/-- The result is 0, or 1 after a failure. -/
def setLoop (env : LinuxrcEnv) (device file : Text) (offset : Int) : LinuxrcM Int := do
  if !env.openImage then pure 1
  else if !env.openLoop then pure 1
  else
    .emit (.loopSetFd device file env.loopSetFd)
    if !env.loopSetFd then pure 1
    else
      .emit (.loopSetStatus device (loOffset offset) env.loopSetStatus)
      if !env.loopSetStatus then
        .emit (.loopClrFd device)
        pure 1
      else pure 0

/-- `main` up to `set_loop`: the image file and the offset of its root file system. -/
def findRootfs (env : LinuxrcEnv) : LinuxrcM (Text × Nat) := do
  .emit (.mount "proc".toList "/proc".toList env.mountProc)
  must env env.mountProc
  let cmdline ← mustFind env env.line
  let vars ← parseVars env cmdline
  mountImages env vars.imageuuid
  let imagefile ← chooseImage env vars.imagefile
  let offset ← readHeader env imagefile
  pure (imagefile, offset)

/-- The result is the success exit. `rootfs_offset` goes through an `off_t` to an `int`. -/
def main (env : LinuxrcEnv) : LinuxrcM Unit := do
  let (imagefile, offset) ← findRootfs env
  let ret ← setLoop env loopDev imagefile (wrap32 (wrap32 offset))
  if ret < 0 then die env else pure ()

/-! ## How it ends -/

/-- The computation leaves the defined behaviour. -/
def Faults {α : Type} (x : LinuxrcM α) : Prop := ∃ f, x.result = .error (.fault f)

section Faults

variable {α β : Type} {env : LinuxrcEnv} {x : LinuxrcM α} {g : α → LinuxrcM β}

theorem faults_bind_iff :
    Faults (x >>= g) ↔ Faults x ∨ ∃ a, x.result = .ok a ∧ Faults (g a) := by
  simp only [Faults, Traced.result_bind_error_iff]
  constructor
  · rintro ⟨f, h | ⟨a, hx, h⟩⟩
    · exact Or.inl ⟨f, h⟩
    · exact Or.inr ⟨a, hx, f, h⟩
  · rintro (⟨f, h⟩ | ⟨a, hx, f, h⟩)
    · exact ⟨f, Or.inl h⟩
    · exact ⟨f, Or.inr ⟨a, hx, h⟩⟩

@[simp] theorem not_faults_pure (a : α) : ¬ Faults (pure a : LinuxrcM α) := by
  simp [Faults]

@[simp] theorem not_faults_emit (call : Call) : ¬ Faults (.emit call) := by
  simp [Faults]

@[simp] theorem not_faults_die : ¬ Faults (die env : LinuxrcM α) := by
  simp [Faults, die]

@[simp] theorem not_faults_must (done : Bool) : ¬ Faults (must env done) := by
  cases done <;> simp [must]

@[simp] theorem not_faults_mustFind (found : Option α) : ¬ Faults (mustFind env found) := by
  cases found <;> simp [mustFind]

@[simp] theorem faults_defined_iff {x : Except Fault α} :
    Faults (defined x) ↔ ∃ f, x = .error f := by
  cases x <;> simp [Faults, defined, Except.mapError]

@[simp] theorem defined_ok_iff {x : Except Fault α} {a : α} :
    (defined x).result = .ok a ↔ x = .ok a := by
  cases x <;> simp [defined, Except.mapError]

@[simp] theorem must_ok_iff {done : Bool} {u : Unit} :
    (must env done).result = .ok u ↔ done = true := by
  cases done <;> simp [must, die]

@[simp] theorem mustFind_ok_iff {found : Option α} {a : α} :
    (mustFind env found).result = .ok a ↔ found = some a := by
  cases found <;> simp [mustFind, die]

@[simp] theorem trace_must (done : Bool) : (must env done).trace = [] := by
  cases done <;> rfl

@[simp] theorem trace_mustFind (found : Option α) : (mustFind env found).trace = [] := by
  cases found <;> rfl

@[simp] theorem trace_defined (x : Except Fault α) : (defined x).trace = [] := rfl

end Faults

end Monoimage.Linuxrc
