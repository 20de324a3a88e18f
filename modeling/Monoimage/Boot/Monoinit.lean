import Monoimage.Boot.Start
import Monoimage.CommandLine.Variable

/-! monoinit, which runs in the booted image: it finds the image on the kernel command
line and records its tag as the last one that came up. -/
namespace Monoimage.Boot

open Clib CommandLine

structure Parsed where
  imagefile : Text
  configdev : Text
  configpath : Text
  deriving DecidableEq, Repr

inductive MonoinitVar where
  | image
  | config
  | cdev
  deriving DecidableEq, Repr

def MonoinitVar.name : MonoinitVar → Text
  | image => "IMAGE".toList
  | config => "CONFIG".toList
  | cdev => "CDEV".toList

def mbCmdlineNoproc : Int := -1
def mbCmdlineParse : Int := -2

def parseLine (cmdline : Text) : Except Fault (Except Int Parsed) := do
  match ← getCmdlineVar cmdline MonoinitVar.image.name with
  | none => pure (.error mbCmdlineParse)
  | some value =>
    let imagefile ← store mbPathMax value
    match ← getCmdlineVar cmdline MonoinitVar.config.name with
    | none => pure (.error mbCmdlineParse)
    | some value =>
      let configpath ← store mbPathMax value
      match ← getCmdlineVar cmdline MonoinitVar.cdev.name with
      | none => pure (.error mbCmdlineParse)
      | some value =>
        let configdev ← store mbPathMax ("/dev/".toList ++ value)
        if imagefile.length ≠ 0 ∧ configdev.length ≠ 0 then
          pure (.ok ⟨imagefile, configdev, configpath⟩)
        else pure (.error mbCmdlineParse)

/-- What an accepted line holds. -/
structure ParsedFrom (cmdline : Text) (parsed : Parsed) (dev : Text) : Prop where
  image : getCmdlineVar cmdline MonoinitVar.image.name = .ok (some parsed.imagefile)
  config : getCmdlineVar cmdline MonoinitVar.config.name = .ok (some parsed.configpath)
  cdev : getCmdlineVar cmdline MonoinitVar.cdev.name = .ok (some dev)
  configdev : parsed.configdev = "/dev/".toList ++ dev
  nonempty : parsed.imagefile ≠ []
  imagefile_fits : parsed.imagefile.length < mbPathMax
  configpath_fits : parsed.configpath.length < mbPathMax
  configdev_fits : ("/dev/".toList ++ dev).length < mbPathMax

theorem parsedFrom_of_parseLine {cmdline : Text} {parsed : Parsed}
    (h : parseLine cmdline = .ok (.ok parsed)) : ∃ dev, ParsedFrom cmdline parsed dev := by
  obtain ⟨image, himage, h⟩ := bind_eq_ok_iff.mp h
  cases image with
  | none => cases h
  | some image =>
    obtain ⟨imagefile, hstore, h⟩ := bind_eq_ok_iff.mp h
    obtain ⟨himagefits, rfl⟩ := store_eq_ok_iff.mp hstore
    obtain ⟨path, hpath, h⟩ := bind_eq_ok_iff.mp h
    cases path with
    | none => cases h
    | some path =>
      obtain ⟨configpath, hstore, h⟩ := bind_eq_ok_iff.mp h
      obtain ⟨hconfigfits, rfl⟩ := store_eq_ok_iff.mp hstore
      obtain ⟨cdev, hcdev, h⟩ := bind_eq_ok_iff.mp h
      cases cdev with
      | none => cases h
      | some cdev =>
        obtain ⟨configdev, hstore, h⟩ := bind_eq_ok_iff.mp h
        obtain ⟨hdevfits, rfl⟩ := store_eq_ok_iff.mp hstore
        split at h
        · rename_i hlen
          obtain rfl := Except.ok.inj (Except.ok.inj h)
          have hne : image ≠ [] := fun h => hlen.1 (by rw [h]; rfl)
          exact ⟨cdev, himage, hpath, hcdev, rfl, hne, himagefits, hconfigfits, hdevfits⟩
        · cases h

theorem parseLine_eq_ok_iff {cmdline file dev config : Text} :
    parseLine cmdline = .ok (.ok ⟨file, "/dev/".toList ++ dev, config⟩) ↔
      getCmdlineVar cmdline MonoinitVar.image.name = .ok (some file) ∧
      getCmdlineVar cmdline MonoinitVar.config.name = .ok (some config) ∧
      getCmdlineVar cmdline MonoinitVar.cdev.name = .ok (some dev) ∧
      file ≠ [] ∧ file.length < mbPathMax ∧ config.length < mbPathMax ∧
      ("/dev/".toList ++ dev).length < mbPathMax := by
  constructor
  · intro h
    obtain ⟨dev', h⟩ := parsedFrom_of_parseLine h
    obtain rfl : dev = dev' := List.append_cancel_left h.configdev
    exact ⟨h.image, h.config, h.cdev, h.nonempty, h.imagefile_fits, h.configpath_fits,
      h.configdev_fits⟩
  · rintro ⟨himage, hconfig, hcdev, hne, himagefits, hconfigfits, hdevfits⟩
    have hlen : file.length ≠ 0 ∧ ("/dev/".toList ++ dev).length ≠ 0 :=
      ⟨fun h => hne (List.eq_nil_of_length_eq_zero h), by simp⟩
    simp only [parseLine, himage, hconfig, hcdev, store_of_lt himagefits, store_of_lt hconfigfits,
      store_of_lt hdevfits, bind, Except.bind, if_pos hlen]
    rfl

/-- `none` is a `/proc/cmdline` that cannot be opened. -/
def parseCmdline (procCmdline : Option Text) : Except Fault (Except Int Parsed) :=
  match procCmdline with
  | none => .ok (.error mbCmdlineNoproc)
  | some stream =>
    match fgets mbCmdlineMax stream with
    | none => .ok (.error mbCmdlineNoproc)
    | some (cmdline, _) => parseLine cmdline

theorem parsedFrom_of_parseCmdline {procCmdline : Option Text} {parsed : Parsed}
    (h : parseCmdline procCmdline = .ok (.ok parsed)) :
    ∃ cmdline dev, ParsedFrom cmdline parsed dev := by
  cases procCmdline with
  | none => cases h
  | some stream =>
    rw [parseCmdline] at h
    split at h
    · cases h
    · exact ⟨_, parsedFrom_of_parseLine h⟩

/-- The loop over the image sections: the title of the first one whose file name starts
with `image`. -/
def findBooted (image : Text) : List ImageSec → Except Fault (Option Text)
  | [] => .ok none
  | sec :: rest =>
    match sec.filename with
    | none => .error .nullPointer
    | some filename =>
      if strncmpEq filename image image.length then .ok (some sec.title)
      else findBooted image rest

def acknowledge (cfg : Config) (title : Option Text) : Config :=
  match title with
  | none => cfg
  | some title => { cfg with lastboot := title }

/-- What monoinit saves, given the configuration that it loads; `none` is `exit(1)` on a
command line that it cannot read. -/
def monoinit (procCmdline : Option Text) (cfg : Config) : Except Fault (Option Config) := do
  match ← parseCmdline procCmdline with
  | .error _ => pure none
  | .ok parsed =>
    let title ← findBooted parsed.imagefile cfg.images
    pure (some (acknowledge cfg title))

theorem monoinit_eq {procCmdline : Option Text} {cfg : Config} {parsed : Parsed}
    (hparse : parseCmdline procCmdline = .ok (.ok parsed)) :
    monoinit procCmdline cfg =
      (findBooted parsed.imagefile cfg.images).map fun title => some (acknowledge cfg title) := by
  simp only [monoinit, hparse, bind, Except.bind]
  cases findBooted parsed.imagefile cfg.images <;> rfl

section FindBooted

variable {file : Text} {sec : ImageSec} {rest : List ImageSec}

theorem findBooted_hit {filename : Text} (hname : sec.filename = some filename)
    (hstarts : file <+: filename) : findBooted file (sec :: rest) = .ok (some sec.title) := by
  simp [findBooted, hname, strncmpEq_length_right.mpr hstarts]

theorem findBooted_pass {filename : Text} (hname : sec.filename = some filename)
    (hstarts : ¬ file <+: filename) : findBooted file (sec :: rest) = findBooted file rest := by
  rw [findBooted, hname]
  simp only [strncmpEq_length_right, hstarts, if_false]

/-- The section has a file name, and one that monoinit does not take for `file`. -/
def Passes (file : Text) (sec : ImageSec) : Prop :=
  ∃ filename, sec.filename = some filename ∧ ¬ file <+: filename

theorem findBooted_append_iff {before after : List ImageSec} {image : ImageSec}
    (hfile : image.filename = some file) (htitles : ∀ sec ∈ before, sec.title ≠ image.title) :
    findBooted file (before ++ image :: after) = .ok (some image.title) ↔
      ∀ sec ∈ before, Passes file sec := by
  induction before with
  | nil => simp [findBooted_hit hfile (List.prefix_refl _)]
  | cons sec before ih =>
    have ih := ih (fun s hs => htitles s (List.mem_cons_of_mem _ hs))
    rw [List.cons_append, List.forall_mem_cons]
    cases hname : sec.filename with
    | none => simp [findBooted, hname, Passes]
    | some filename =>
      by_cases hstarts : file <+: filename
      · rw [findBooted_hit hname hstarts]
        simp [htitles sec List.mem_cons_self, Passes, hname, hstarts]
      · rw [findBooted_pass hname hstarts, ih]
        simp [Passes, hname, hstarts]

theorem findBooted_ne_none {images : List ImageSec} {image : ImageSec} (himage : image ∈ images)
    (hfile : image.filename = some file) : findBooted file images ≠ .ok none := by
  induction images with
  | nil => simp at himage
  | cons sec rest ih =>
    cases hname : sec.filename with
    | none => simp [findBooted, hname]
    | some filename =>
      by_cases hstarts : file <+: filename
      · simp [findBooted_hit hname hstarts]
      · rw [findBooted_pass hname hstarts]
        rcases List.mem_cons.mp himage with rfl | hrest
        · rw [hfile, Option.some.injEq] at hname
          exact absurd (hname ▸ List.prefix_refl file) hstarts
        · exact ih hrest

end FindBooted

end Monoimage.Boot
