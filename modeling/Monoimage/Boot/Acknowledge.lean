import Monoimage.Boot.Protocol

/-! monoinit as a whole. It loads `/config/mb.conf` and saves through the `cmd_write` of
monoboot, whose `MB_PATH_CONFIG` is another directory. -/
namespace Monoimage.Boot

open Clib CommandLine

def initConf : Text := "/config/mb.conf".toList
def etcDir : Text := "/etc/".toList
def rsyncBinary : Text := "/usr/bin/rsync".toList

/-- `system` is what the shell makes of a command. -/
structure InitEnv where
  cwd : Text
  time : TimeStr
  system : Text → Files → Files

def rsyncCmd (cpath : Text) : Text :=
  rsyncBinary ++ (" -rt ".toList ++ (cpath ++ "/etc/ /etc/".toList))

def EtcOnly (update : Files → Files) : Prop :=
  ∀ files p, ¬ etcDir <+: p → update files p = files p

/-- The empty tmpfs that is mounted on `/etc`. -/
def mountEtc (files : Files) : Files :=
  fun p => if etcDir <+: p then none else files p

theorem mountEtc_etcOnly : EtcOnly mountEtc := by
  intro files p hp
  rw [mountEtc, if_neg hp]

/-- `main` of monoinit, with every system call succeeding: the exit code and the files that
are left. `files` is what there is with the configuration mounted. -/
def monoinitMain (lib : Confuse) (env : InitEnv) (procCmdline : Option Text) (files : Files) :
    Except Fault (Int × Files) := do
  match ← parseCmdline procCmdline with
  | .error _ => pure (1, files)
  | .ok parsed =>
    match loadConfig lib files initConf with
    | .error code => pure (code, files)
    | .ok cfg =>
      let title ← findBooted parsed.imagefile cfg.images
      let cfg := acknowledge cfg title
      let saved := cmdWrite (.success (confText env.time cfg)) env.time cfg env.cwd files
      let command ← store mbCmdlineMax (rsyncCmd parsed.configpath)
      pure (0, env.system command (mountEtc saved.2))

/-- After monoinit the file that it loaded reads as before, with `title` as the last boot. -/
def AcknowledgesOnDisk (lib : Confuse) (env : InitEnv) (procCmdline : Option Text)
    (files : Files) (cfg : Config) (title : Text) : Prop :=
  ∃ code files', monoinitMain lib env procCmdline files = .ok (code, files') ∧
    loadConfig lib files' initConf = .ok { cfg with lastboot := title }

/-- No working directory makes the two paths meet. -/
theorem initConf_ne (cwd name : Text) : initConf ≠ confFile cwd name := by
  intro heq
  have hinfix : mbPathConfig <:+: initConf := by
    rw [heq, confFile_eq]
    exact ⟨cwd ++ ['/'], '/' :: name, by simp⟩
  exact absurd hinfix (by decide)

theorem loadConfig_congr {lib : Confuse} {files files' : Files} {path : Text}
    (h : files' path = files path) : loadConfig lib files' path = loadConfig lib files path := by
  rw [loadConfig, h, loadConfig]

/-- What monoinit does to the files leaves the one that it has loaded alone. -/
theorem loadConfig_saved {lib : Confuse} {env : InitEnv} {cfg : Config} {files : Files}
    {command : Text} (hsystem : EtcOnly (env.system command)) :
    loadConfig lib (env.system command (mountEtc
      (cmdWrite (.success (confText env.time cfg)) env.time cfg env.cwd files).2)) initConf =
        loadConfig lib files initConf := by
  have hetc : ¬ etcDir <+: initConf := by decide
  apply loadConfig_congr
  rw [hsystem _ _ hetc, mountEtc_etcOnly _ _ hetc]
  exact cmdWrite_other (initConf_ne env.cwd)

theorem rsyncCmd_fits {procCmdline : Option Text} {parsed : Parsed}
    (hparse : parseCmdline procCmdline = .ok (.ok parsed)) :
    (rsyncCmd parsed.configpath).length < mbCmdlineMax := by
  obtain ⟨cmdline, dev, h⟩ := parsedFrom_of_parseCmdline hparse
  have hfits := h.configpath_fits
  have hbinary : rsyncBinary.length = 14 := rfl
  have hflags : " -rt ".toList.length = 5 := rfl
  have hdirs : "/etc/ /etc/".toList.length = 11 := rfl
  rw [rsyncCmd, List.length_append, List.length_append, List.length_append, hbinary, hflags, hdirs]
  unfold mbCmdlineMax
  unfold mbPathMax at hfits
  omega

/-- The loop ends well exactly if no section before the one of `file` lacks a file name. -/
theorem findBooted_eq {file : Text} {before : List ImageSec} (after : List ImageSec)
    {image : ImageSec} (hfile : image.filename = some file)
    (hothers : ∀ sec ∈ before, ∀ name, sec.filename = some name → ¬ file <+: name) :
    findBooted file (before ++ image :: after) =
      if ∀ sec ∈ before, sec.filename ≠ none then .ok (some image.title)
      else .error .nullPointer := by
  induction before with
  | nil => simp [findBooted_hit hfile (List.prefix_refl _)]
  | cons sec before ih =>
    rw [List.forall_mem_cons] at hothers
    cases hname : sec.filename with
    | none => simp [findBooted, hname]
    | some filename =>
      rw [List.cons_append, findBooted_pass hname (hothers.1 filename hname), ih hothers.2]
      simp [hname]

theorem monoinitMain_eq {lib : Confuse} {env : InitEnv} {procCmdline : Option Text} {files : Files}
    {cfg : Config} {parsed : Parsed} (hload : loadConfig lib files initConf = .ok cfg)
    (hparse : parseCmdline procCmdline = .ok (.ok parsed)) :
    monoinitMain lib env procCmdline files =
      (findBooted parsed.imagefile cfg.images).map fun title =>
        (0, env.system (rsyncCmd parsed.configpath) (mountEtc (cmdWrite
          (.success (confText env.time (acknowledge cfg title))) env.time (acknowledge cfg title)
          env.cwd files).2)) := by
  simp only [monoinitMain, hparse, hload, store_of_lt (rsyncCmd_fits hparse), bind, Except.bind]
  cases findBooted parsed.imagefile cfg.images <;> rfl

theorem acknowledgesOnDisk_iff {lib : Confuse} {env : InitEnv} {procCmdline : Option Text}
    {files : Files} {cfg : Config} {parsed : Parsed} {before after : List ImageSec}
    {image : ImageSec} (hload : loadConfig lib files initConf = .ok cfg)
    (hparse : parseCmdline procCmdline = .ok (.ok parsed))
    (himages : cfg.images = before ++ image :: after)
    (hfile : image.filename = some parsed.imagefile)
    (hothers : ∀ sec ∈ before ++ after, ∀ name, sec.filename = some name →
      ¬ parsed.imagefile <+: name)
    (hsystem : EtcOnly (env.system (rsyncCmd parsed.configpath))) :
    AcknowledgesOnDisk lib env procCmdline files cfg image.title ↔
      cfg.lastboot = image.title ∧ ∀ sec ∈ before, sec.filename ≠ none := by
  have hfound := findBooted_eq after hfile
    fun sec hsec => hothers sec (List.mem_append_left after hsec)
  rw [← himages] at hfound
  rw [AcknowledgesOnDisk, monoinitMain_eq hload hparse, hfound]
  by_cases hnames : ∀ sec ∈ before, sec.filename ≠ none
  · rw [if_pos hnames]
    constructor
    · rintro ⟨code, files', heq, hread⟩
      obtain ⟨-, rfl⟩ := Prod.mk.inj (Except.ok.inj heq)
      rw [loadConfig_saved hsystem, hload] at hread
      exact ⟨congrArg Config.lastboot (Except.ok.inj hread), hnames⟩
    · rintro ⟨hlast, -⟩
      refine ⟨0, _, rfl, ?_⟩
      rw [loadConfig_saved hsystem, hload, ← hlast]
  · rw [if_neg hnames]
    simp [Except.map, hnames]

/-- The `mb.conf` of the source, with `lastboot` as given. -/
def sampleText (lastboot : Text) : Text :=
  "version = 0\ndelay = 5\n\nbootonce = mental\ntryonce = no\n\n".toList ++
    "default = funky\nfallback = safe\n\nlasttry = funky\nlastboot = ".toList ++ lastboot ++
      "\n\nimage funky \x7b\n\tfilename = funky.img\n\x7d\n\n".toList ++
        "image safe \x7b\n\tfilename = safe.img\n\x7d\n\n".toList ++
          "image mental \x7b\n      \tfilename = mental.img\n\x7d\n\n".toList ++
            "network eth0 \x7b\n\taddress = 81.187.187.55/24\n".toList ++
              "\tgateway = 81.187.187.1\n\x7d\n\nline = \x7b ssh, ttyS0 \x7d\n\n".toList ++
                "password = foobar\n".toList

/-- A library that reads comments, and this file. -/
def sampleReader : Confuse where
  listDefault _ := []
  cfgParse cfg text :=
    if commentsOnly false text then some cfg
    else if text = sampleText nil then some exampleConf
    else if text = sampleText "funky".toList then
      some { exampleConf with lastboot := "funky".toList }
    else none
  cfgParse_comments cfg text h := by simp [h]

def sampleEnv : InitEnv where
  cwd := []
  time := exampleTime
  system _ files := files

def sampleFiles (lastboot : Text) : Files :=
  fun p => if p = initConf then some (sampleText lastboot) else none

theorem sampleText_injective {a b : Text} (h : sampleText a = sampleText b) : a = b := by
  unfold sampleText at h
  iterate 6 replace h := List.append_cancel_right h
  exact List.append_cancel_left h

theorem loadConfig_sample {lastboot : Text} (h : lastboot = nil ∨ lastboot = "funky".toList) :
    loadConfig sampleReader (sampleFiles lastboot) initConf =
      .ok { exampleConf with lastboot := lastboot } := by
  have hcomments : commentsOnly false (sampleText lastboot) = false := rfl
  have hfile : sampleFiles lastboot initConf = some (sampleText lastboot) := if_pos rfl
  have hparse : sampleReader.cfgParse sampleReader.cfgInit (sampleText lastboot) =
      some { exampleConf with lastboot := lastboot } := by
    simp only [sampleReader, hcomments, Bool.false_eq_true, if_false]
    rcases h with rfl | rfl
    · rw [if_pos rfl]
      rfl
    · have hne : sampleText "funky".toList ≠ sampleText nil := by
        intro heq
        exact absurd (sampleText_injective heq) (by decide)
      rw [if_neg hne, if_pos rfl]
  rw [loadConfig, hfile]
  dsimp only
  rw [hparse]

theorem acknowledgesOnDisk_again :
    AcknowledgesOnDisk sampleReader sampleEnv funkyCmdline (sampleFiles "funky".toList)
      { exampleConf with lastboot := "funky".toList } "funky".toList := by
  have hload : loadConfig sampleReader (sampleFiles "funky".toList) initConf =
      .ok { exampleConf with lastboot := "funky".toList } := loadConfig_sample (Or.inr rfl)
  have himages : ({ exampleConf with lastboot := "funky".toList } : Config).images =
      [] ++ ⟨"funky".toList, some "funky.img".toList⟩ :: exampleConf.images.tail := rfl
  refine (acknowledgesOnDisk_iff hload parseCmdline_funky himages rfl ?_ fun _ _ _ => rfl).mpr ?_
  · decide
  · exact ⟨rfl, by simp⟩

/-- The first boot of funky after another image: the record on the disk stays as it was. -/
theorem not_acknowledgesOnDisk_first :
    loadConfig sampleReader (sampleFiles nil) initConf = .ok exampleConf ∧
      parseCmdline funkyCmdline = .ok (.ok funkyParsed) ∧
      exampleConf.images.head? = some ⟨"funky".toList, some funkyParsed.imagefile⟩ ∧
      (∀ sec ∈ exampleConf.images.tail, ∀ name, sec.filename = some name →
        ¬ funkyParsed.imagefile <+: name) ∧
      ¬ AcknowledgesOnDisk sampleReader sampleEnv funkyCmdline (sampleFiles nil) exampleConf
        "funky".toList := by
  have hload : loadConfig sampleReader (sampleFiles nil) initConf = .ok exampleConf :=
    loadConfig_sample (Or.inl rfl)
  have hfound : findBooted funkyParsed.imagefile exampleConf.images =
      .ok (some "funky".toList) := by decide
  refine ⟨hload, parseCmdline_funky, by decide, by decide, ?_⟩
  rintro ⟨code, files', hmain, hread⟩
  rw [monoinitMain_eq hload parseCmdline_funky, hfound] at hmain
  obtain ⟨-, rfl⟩ := Prod.mk.inj (Except.ok.inj hmain)
  rw [loadConfig_saved (fun _ _ _ => rfl), hload] at hread
  exact absurd (congrArg Config.lastboot (Except.ok.inj hread)) (by decide)

end Monoimage.Boot
