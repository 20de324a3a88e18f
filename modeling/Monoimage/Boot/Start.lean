import Monoimage.Boot.Write

/-! A start of monoboot: `main` loads the configuration, `check_last` judges the
previous boot, and `cmd_boot` records its choice and runs kexec. -/
namespace Monoimage.Boot

open Clib

def mbImageMax : Nat := 32
def mbPathMax : Nat := 200
def mbCmdlineMax : Nat := 255

def mbPathImages : Text := "/images".toList
def kexecBinary : Text := "/usr/sbin/kexec".toList
def mountBinary : Text := "/bin/mount".toList

def yes : Text := "yes".toList
def no : Text := "no".toList
def nil : Text := "nil".toList

/-! ## `check_last` -/

/-- The return value, the text left in `bootimage`, and the amended configuration. -/
structure Last where
  ret : Int
  image : Text
  cfg : Config
  deriving DecidableEq, Repr

def clearTryonce (cfg : Config) : Config :=
  { cfg with tryonce := no }

def checkLast (cfg : Config) : Except Fault Last := do
  let cfg := clearTryonce cfg
  if cfg.lasttry ≠ cfg.lastboot then
    let image ← store mbImageMax cfg.fallback
    pure ⟨0, image, cfg⟩
  else
    let image ← store mbImageMax cfg.default
    pure ⟨1, image, cfg⟩

def selectedTag (cfg : Config) : Text :=
  if cfg.lasttry = cfg.lastboot then cfg.default else cfg.fallback

theorem checkLast_eq (cfg : Config) :
    checkLast cfg = (store mbImageMax (selectedTag cfg)).map
      (⟨if cfg.lasttry = cfg.lastboot then 1 else 0, ·, clearTryonce cfg⟩) := by
  unfold checkLast selectedTag clearTryonce
  by_cases h : cfg.lasttry = cfg.lastboot
  · simp only [h, ne_eq, not_true_eq_false, if_false, if_true]
    cases store mbImageMax cfg.default <;> rfl
  · simp only [h, ne_eq, not_false_eq_true, if_true, if_false]
    cases store mbImageMax cfg.fallback <;> rfl

theorem checkLast_eq_ok_iff {cfg : Config} {last : Last} :
    checkLast cfg = .ok last ↔ (selectedTag cfg).length < mbImageMax ∧
      ⟨if cfg.lasttry = cfg.lastboot then 1 else 0, selectedTag cfg, clearTryonce cfg⟩ = last := by
  rw [checkLast_eq]
  by_cases hfits : (selectedTag cfg).length < mbImageMax
  · rw [store_of_lt hfits]
    simp [Except.map, hfits]
  · rw [store_of_le (Nat.not_lt.mp hfits)]
    simp [Except.map, hfits]

theorem checkLast_of_lt {cfg : Config} (h : (selectedTag cfg).length < mbImageMax) :
    checkLast cfg = .ok ⟨if cfg.lasttry = cfg.lastboot then 1 else 0, selectedTag cfg,
      clearTryonce cfg⟩ :=
  checkLast_eq_ok_iff.mpr ⟨h, rfl⟩

/-! ## The console of the running kernel -/

def strlen (buffer : Text) : Except Fault Nat :=
  if '\x00' ∈ buffer then .ok (buffer.idxOf '\x00') else .error .outOfBounds

/-- The search loop of `get_kernel_console`, at position `p` of the buffer. It stops at a
match or at `len - 8`; shorter lines have no such position. -/
def walkToConsole (len : Nat) : Nat → Text → Except Fault (Nat × Text)
  | _, [] => .error .outOfBounds
  | p, c :: rest =>
    if strncmpEq "console=".toList (c :: rest) 8 then .ok (p, c :: rest)
    else if p + 8 = len then .ok (p, c :: rest)
    else walkToConsole len (p + 1) rest

def consoleChar (c : Char) : Bool :=
  c ≠ ' ' && c ≠ '\n' && c ≠ '\x00'

/-- `stack` is what the buffer held before `read`, which stores no NUL. -/
def getKernelConsole (procCmdline : Option Text) (stack : Text) : Except Fault (Option Text) :=
  match procCmdline with
  | none => .ok none
  | some content => do
    let content := content.take mbCmdlineMax
    let cmdline := content ++ stack.drop content.length
    let len ← strlen cmdline
    let (p, rest) ← walkToConsole len 0 cmdline
    if p < len then
      if (rest.takeWhile consoleChar).length = rest.length then .error .outOfBounds
      else .ok (some (rest.takeWhile consoleChar))
    else .ok none

theorem getKernelConsole_word {procCmdline : Option Text} {stack console : Text}
    (h : getKernelConsole procCmdline stack = .ok (some console)) :
    ' ' ∉ console ∧ '\n' ∉ console := by
  cases procCmdline with
  | none => simp [getKernelConsole] at h
  | some content =>
    obtain ⟨len, _, h⟩ := bind_eq_ok_iff.mp h
    obtain ⟨⟨p, rest⟩, _, h⟩ := bind_eq_ok_iff.mp h
    dsimp only at h
    split at h
    · split at h
      · cases h
      · cases h
        exact ⟨fun hmem => by simpa [consoleChar] using List.mem_takeWhile_imp hmem,
          fun hmem => by simpa [consoleChar] using List.mem_takeWhile_imp hmem⟩
    · cases h

/-- `printf("%s", NULL)` of the C library. -/
def printString (s : Option Text) : Text :=
  s.getD "(null)".toList

/-! ## `cmd_boot` -/

/-- What `cmd_boot` meets outside: `stat`, child processes and the final `execlp` by
their outcome, `/proc`, and the earlier contents of its console buffer. -/
structure BootEnv where
  stat : Text → Bool
  procMounted : Bool
  procCmdline : Option Text
  stack : Text
  run : Text → List Text → Bool
  execlp : Bool

inductive Action where
  | saveConfig (cfg : Config)
  | stat (path : Text)
  | exec (binary : Text) (argv : List Text)
  | dropConfig
  | execlp (binary : Text) (argv : List Text)
  deriving DecidableEq, Repr

/-- `replaced` is a successful `execlp`: another program runs in the process. -/
inductive Finish where
  | returned (code : Int)
  | replaced
  | fault (f : Fault)
  deriving DecidableEq, Repr

/-- The visible actions of a run of `cmd_boot`, its configuration at the end, and how it
ends. -/
structure BootRun where
  actions : List Action
  cfg : Config
  finish : Finish
  deriving DecidableEq, Repr

def BootRun.after (actions : List Action) (run : BootRun) : BootRun :=
  { run with actions := actions ++ run.actions }

def doExecArgv (args : List Text) : List Text :=
  args.take 31

def titleMatches (image : ImageSec) (tag : Text) : Bool :=
  strncmpEq image.title tag image.title.length

theorem titleMatches_iff {image : ImageSec} {tag : Text} :
    titleMatches image tag = true ↔ image.title <+: tag :=
  strncmpEq_length_left

def checkImageTag (cfg : Config) (tag : Text) : Bool :=
  cfg.images.any (titleMatches · tag)

theorem checkImageTag_of_title {cfg : Config} {tag : Text}
    (h : tag ∈ cfg.images.map ImageSec.title) : checkImageTag cfg tag = true := by
  obtain ⟨image, himage, rfl⟩ := List.mem_map.mp h
  rw [checkImageTag, List.any_eq_true]
  exact ⟨image, himage, titleMatches_iff.mpr (List.prefix_refl _)⟩

/-- The tag that `cmd_boot` settles on; `none` is "no such tag". -/
def bootTag (cfg : Config) (arg : Option Text) : Option Text :=
  let requested :=
    match arg with
    | some tag => if checkImageTag cfg tag then some tag else none
    | none => some cfg.default
  requested.map fun tag => if strncmpEq cfg.tryonce yes 3 then cfg.bootonce else tag

/-- The loop that fills `image_file`: the last section that matches wins. -/
def imageFile (tag : Text) : List ImageSec → Option Text → Except Fault (Option Text)
  | [], found => .ok found
  | image :: rest, found =>
    if titleMatches image tag then
      match image.filename with
      | none => .error .nullPointer
      | some file => do
        let file ← store mbPathMax file
        imageFile tag rest (some file)
    else imageFile tag rest found

def imagePath (file : Text) : Text := mbPathImages ++ '/' :: file

def configPath (tag : Text) : Text := mbPathConfig ++ "/tag/".toList ++ tag

def kexecAppend (console : Option Text) (tag : Text) : Text :=
  printString console ++ (" ide=nodma CONFIG=".toList ++ configPath tag)

def kexecCmdline (console : Option Text) (tag : Text) : Text :=
  "--command-line=".toList ++ kexecAppend console tag

def kexecArgv (console : Option Text) (tag path : Text) : List Text :=
  ["kexec".toList, kexecCmdline console tag, "-l".toList, path]

/-- From the console on: `kexec -l`, and if it succeeds `kexec -e`. -/
def runKexec (env : BootEnv) (cfg : Config) (tag path : Text) : BootRun :=
  match getKernelConsole env.procCmdline env.stack with
  | .error f => ⟨[], cfg, .fault f⟩
  | .ok console =>
    match store mbCmdlineMax (kexecCmdline console tag) with
    | .error f => ⟨[], cfg, .fault f⟩
    | .ok _ =>
      let load := Action.exec kexecBinary (doExecArgv (kexecArgv console tag path))
      if env.run kexecBinary (doExecArgv (kexecArgv console tag path)) then
        ⟨[load, .dropConfig, .execlp kexecBinary ["kexec".toList, "-e".toList]], cfg,
          if env.execlp then .replaced else .returned (-1)⟩
      else ⟨[load], cfg, .returned (-1)⟩

def bootImage (env : BootEnv) (cfg : Config) (tag : Text) : BootRun :=
  match imageFile tag cfg.images none with
  | .error f => ⟨[], cfg, .fault f⟩
  | .ok none => ⟨[], cfg, .fault .uninitialised⟩
  | .ok (some file) =>
    match store mbPathMax (imagePath file) with
    | .error f => ⟨[], cfg, .fault f⟩
    | .ok path =>
      if env.stat path then
        match store mbPathMax (configPath tag) with
        | .error f => ⟨[.stat path], cfg, .fault f⟩
        | .ok config =>
          if env.stat config then
            let mount :=
              if env.procMounted then []
              else [Action.exec mountBinary (doExecArgv
                ["mount".toList, "-t".toList, "proc".toList, "proc".toList, "/proc".toList])]
            (runKexec env cfg tag path).after ([.stat path, .stat config] ++ mount)
          else ⟨[.stat path, .stat config], cfg, .returned (-1)⟩
      else ⟨[.stat path], cfg, .returned (-1)⟩

def recordTry (cfg : Config) (tag : Text) : Config :=
  { cfg with lasttry := tag, lastboot := nil }

def cmdBoot (env : BootEnv) (cfg : Config) (arg : Option Text) : BootRun :=
  match bootTag cfg arg with
  | none => ⟨[], cfg, .returned (-1)⟩
  | some tag =>
    (bootImage env (recordTry cfg tag) tag).after [.saveConfig (recordTry cfg tag)]

/-! ## The ways that `cmd_boot` can go -/

/-- From the console on. -/
inductive KexecEnds (env : BootEnv) (cfg : Config) (tag path : Text) : BootRun → Prop
  | overrun {f : Fault} (hlong : ∀ console,
        getKernelConsole env.procCmdline env.stack = .ok console →
          mbCmdlineMax ≤ (kexecCmdline console tag).length) :
      KexecEnds env cfg tag path ⟨[], cfg, .fault f⟩
  | unloaded {console : Option Text}
      (hconsole : getKernelConsole env.procCmdline env.stack = .ok console)
      (hfits : (kexecCmdline console tag).length < mbCmdlineMax)
      (hrun : env.run kexecBinary (kexecArgv console tag path) = false) :
      KexecEnds env cfg tag path
        ⟨[.exec kexecBinary (kexecArgv console tag path)], cfg, .returned (-1)⟩
  | loaded {console : Option Text}
      (hconsole : getKernelConsole env.procCmdline env.stack = .ok console)
      (hfits : (kexecCmdline console tag).length < mbCmdlineMax)
      (hrun : env.run kexecBinary (kexecArgv console tag path) = true) :
      KexecEnds env cfg tag path
        ⟨[.exec kexecBinary (kexecArgv console tag path), .dropConfig,
            .execlp kexecBinary ["kexec".toList, "-e".toList]], cfg,
          if env.execlp then .replaced else .returned (-1)⟩

/-- The buffers hold the path of `file` when it comes to `stat`. -/
def Resolves (images : List ImageSec) (tag file : Text) : Prop :=
  imageFile tag images none = .ok (some file) ∧ (imagePath file).length < mbPathMax

def mountProc (env : BootEnv) : List Action :=
  if env.procMounted then []
  else [.exec mountBinary (doExecArgv
    ["mount".toList, "-t".toList, "proc".toList, "proc".toList, "/proc".toList])]

/-- From the image file on. -/
inductive ImageEnds (env : BootEnv) (cfg : Config) (tag : Text) : BootRun → Prop
  | unresolved {f : Fault} (hnone : ∀ file, ¬ Resolves cfg.images tag file) :
      ImageEnds env cfg tag ⟨[], cfg, .fault f⟩
  | missing {file : Text} (hfile : Resolves cfg.images tag file)
      (hstat : env.stat (imagePath file) = false) :
      ImageEnds env cfg tag ⟨[.stat (imagePath file)], cfg, .returned (-1)⟩
  | overrun {file : Text} {f : Fault} (hfile : Resolves cfg.images tag file)
      (hlong : mbPathMax ≤ (configPath tag).length) :
      ImageEnds env cfg tag ⟨[.stat (imagePath file)], cfg, .fault f⟩
  | unconfigured {file : Text} (hfile : Resolves cfg.images tag file)
      (hconfig : env.stat (configPath tag) = false) :
      ImageEnds env cfg tag
        ⟨[.stat (imagePath file), .stat (configPath tag)], cfg, .returned (-1)⟩
  | kexec {file : Text} (hfile : Resolves cfg.images tag file)
      (hstat : env.stat (imagePath file) = true) (hfits : (configPath tag).length < mbPathMax)
      (hconfig : env.stat (configPath tag) = true) :
      ImageEnds env cfg tag ((runKexec env cfg tag (imagePath file)).after
        ([.stat (imagePath file), .stat (configPath tag)] ++ mountProc env))

theorem runKexec_ends (env : BootEnv) (cfg : Config) (tag path : Text) :
    KexecEnds env cfg tag path (runKexec env cfg tag path) := by
  unfold runKexec
  cases hconsole : getKernelConsole env.procCmdline env.stack with
  | error f =>
    apply KexecEnds.overrun
    intro console hconsole'
    rw [hconsole] at hconsole'
    cases hconsole'
  | ok console =>
    have hargv : doExecArgv (kexecArgv console tag path) = kexecArgv console tag path := rfl
    dsimp only
    by_cases hfits : (kexecCmdline console tag).length < mbCmdlineMax
    · rw [store_of_lt hfits, hargv]
      cases hrun : env.run kexecBinary (kexecArgv console tag path) with
      | false => exact .unloaded hconsole hfits hrun
      | true => exact .loaded hconsole hfits hrun
    · rw [store_of_le (Nat.not_lt.mp hfits)]
      apply KexecEnds.overrun
      intro console' hconsole'
      rw [hconsole] at hconsole'
      cases hconsole'
      exact Nat.not_lt.mp hfits

theorem bootImage_ends (env : BootEnv) (cfg : Config) (tag : Text) :
    ImageEnds env cfg tag (bootImage env cfg tag) := by
  unfold bootImage
  split
  · rename_i f hfault
    apply ImageEnds.unresolved
    rintro file ⟨hfile, -⟩
    cases hfault.symm.trans hfile
  · rename_i hnone
    apply ImageEnds.unresolved
    rintro file ⟨hfile, -⟩
    cases hnone.symm.trans hfile
  · rename_i file hfile
    by_cases hpath : (imagePath file).length < mbPathMax
    · have hresolves : Resolves cfg.images tag file := ⟨hfile, hpath⟩
      rw [store_of_lt hpath]
      dsimp only
      cases hstat : env.stat (imagePath file) with
      | false => exact .missing hresolves hstat
      | true =>
        by_cases hfits : (configPath tag).length < mbPathMax
        · rw [store_of_lt hfits]
          dsimp only
          cases hconfig : env.stat (configPath tag) with
          | false => exact .unconfigured hresolves hconfig
          | true => exact .kexec hresolves hstat hfits hconfig
        · rw [store_of_le (Nat.not_lt.mp hfits)]
          exact .overrun hresolves (Nat.not_lt.mp hfits)
    · rw [store_of_le (Nat.not_lt.mp hpath)]
      apply ImageEnds.unresolved
      rintro file' ⟨hfile', hpath'⟩
      cases hfile.symm.trans hfile'
      exact hpath hpath'

theorem Resolves.unique {images : List ImageSec} {tag file file' : Text}
    (h : Resolves images tag file) (h' : Resolves images tag file') : file = file' := by
  have hsame := h.1.symm.trans h'.1
  rwa [Except.ok.injEq, Option.some.injEq] at hsame

/-! The configurations that a run hands to `save_config`. -/

def Action.saved : Action → Option Config
  | .saveConfig cfg => some cfg
  | _ => none

def BootRun.saves (run : BootRun) : List Config :=
  run.actions.filterMap Action.saved

@[simp] theorem BootRun.saves_after (actions : List Action) (run : BootRun) :
    (run.after actions).saves = actions.filterMap Action.saved ++ run.saves := by
  simp [BootRun.saves, BootRun.after]

section Ends

variable {env : BootEnv} {cfg : Config} {tag path : Text} {run : BootRun}

theorem KexecEnds.saves_eq (h : KexecEnds env cfg tag path run) : run.saves = [] := by
  cases h <;> rfl

theorem ImageEnds.saves_eq (h : ImageEnds env cfg tag run) : run.saves = [] := by
  cases h with
  | kexec =>
    rw [BootRun.saves_after, (runKexec_ends _ _ _ _).saves_eq, List.append_nil, mountProc]
    cases env.procMounted <;> rfl
  | _ => rfl

end Ends

theorem bootImage_saves (env : BootEnv) (cfg : Config) (tag : Text) :
    (bootImage env cfg tag).saves = [] :=
  (bootImage_ends env cfg tag).saves_eq

theorem cmdBoot_saves (env : BootEnv) (cfg : Config) (arg : Option Text) :
    (cmdBoot env cfg arg).saves = ((bootTag cfg arg).map (recordTry cfg)).toList := by
  unfold cmdBoot
  cases bootTag cfg arg with
  | none => rfl
  | some tag => simp [bootImage_saves, Action.saved]

/-! The calls that get as far as `kexec -l`. -/

/-- What has gone well by then. -/
structure KexecRun (env : BootEnv) (cfg : Config) (arg : Option Text) (tag file : Text)
    (console : Option Text) : Prop where
  tag_eq : bootTag cfg arg = some tag
  file_eq : imageFile tag cfg.images none = .ok (some file)
  path_fits : (imagePath file).length < mbPathMax
  path_found : env.stat (imagePath file) = true
  config_fits : (configPath tag).length < mbPathMax
  config_found : env.stat (configPath tag) = true
  console_eq : getKernelConsole env.procCmdline env.stack = .ok console
  cmdline_fits : (kexecCmdline console tag).length < mbCmdlineMax

theorem KexecEnds.exec_mem_iff {env : BootEnv} {cfg : Config} {tag path : Text} {run : BootRun}
    {argv : List Text} (h : KexecEnds env cfg tag path run) :
    .exec kexecBinary argv ∈ run.actions ↔
      ∃ console, getKernelConsole env.procCmdline env.stack = .ok console ∧
        (kexecCmdline console tag).length < mbCmdlineMax ∧ argv = kexecArgv console tag path := by
  cases h with
  | overrun hlong =>
    simp only [List.not_mem_nil, false_iff]
    rintro ⟨console, hconsole, hfits, -⟩
    exact absurd hfits (Nat.not_lt.mpr (hlong console hconsole))
  | unloaded hconsole hfits => simp [hconsole, hfits]
  | loaded hconsole hfits => simp [hconsole, hfits]

/-- The actions from `kexec -l` on. -/
def Action.late : Action → Bool
  | .exec binary _ => binary = kexecBinary
  | .dropConfig => true
  | .execlp _ _ => true
  | _ => false

theorem exec_late (argv : List Text) : (Action.exec kexecBinary argv).late = true := by
  simp [Action.late]

theorem mem_bootImage_iff {env : BootEnv} {cfg : Config} {tag : Text} {action : Action}
    (hlate : action.late = true) :
    action ∈ (bootImage env cfg tag).actions ↔
      ∃ file, Resolves cfg.images tag file ∧ env.stat (imagePath file) = true ∧
        (configPath tag).length < mbPathMax ∧ env.stat (configPath tag) = true ∧
        action ∈ (runKexec env cfg tag (imagePath file)).actions := by
  have hstat : ∀ path, action ≠ .stat path := by
    rintro path rfl
    exact absurd hlate (by simp [Action.late])
  have hmount : action ∉ mountProc env := by
    intro hmem
    have hbinary : mountBinary ≠ kexecBinary := by decide
    unfold mountProc at hmem
    split at hmem
    · cases hmem
    · obtain rfl := List.mem_singleton.mp hmem
      simp [Action.late, hbinary] at hlate
  have h := bootImage_ends env cfg tag
  generalize bootImage env cfg tag = run at h ⊢
  cases h with
  | unresolved hnone => simp [hnone]
  | missing hfile hmissing =>
    simp only [List.mem_singleton, hstat, false_iff]
    rintro ⟨file', hfile', hfound, -⟩
    rw [← hfile.unique hfile', hmissing] at hfound
    cases hfound
  | overrun hfile hlong => simp [hstat, Nat.not_lt.mpr hlong]
  | unconfigured hfile hconfig => simp [hstat, hconfig]
  | kexec hfile hfound hfits hconfig =>
    simp only [BootRun.after, List.mem_append, List.mem_cons, List.not_mem_nil, hstat, hmount,
      or_self, false_or]
    constructor
    · exact fun hmem => ⟨_, hfile, hfound, hfits, hconfig, hmem⟩
    · rintro ⟨file', hfile', -, -, -, hmem⟩
      rwa [hfile.unique hfile']

theorem mem_cmdBoot_iff {env : BootEnv} {cfg : Config} {arg : Option Text} {action : Action}
    (hlate : action.late = true) :
    action ∈ (cmdBoot env cfg arg).actions ↔
      ∃ tag file, bootTag cfg arg = some tag ∧ Resolves cfg.images tag file ∧
        env.stat (imagePath file) = true ∧ (configPath tag).length < mbPathMax ∧
        env.stat (configPath tag) = true ∧
        action ∈ (runKexec env (recordTry cfg tag) tag (imagePath file)).actions := by
  unfold cmdBoot
  cases bootTag cfg arg with
  | none => simp
  | some tag =>
    have hsave : action ≠ .saveConfig (recordTry cfg tag) := by
      rintro rfl
      exact absurd hlate (by simp [Action.late])
    have himages : (recordTry cfg tag).images = cfg.images := rfl
    simp [BootRun.after, hsave, mem_bootImage_iff hlate, himages]

theorem exec_mem_cmdBoot_iff {env : BootEnv} {cfg : Config} {arg : Option Text}
    {argv : List Text} :
    .exec kexecBinary argv ∈ (cmdBoot env cfg arg).actions ↔
      ∃ tag file console, KexecRun env cfg arg tag file console ∧
        argv = kexecArgv console tag (imagePath file) := by
  rw [mem_cmdBoot_iff (exec_late argv)]
  constructor
  · rintro ⟨tag, file, htag, ⟨hfile, hpath⟩, hfound, hconfig, hfound', hexec⟩
    obtain ⟨console, hconsole, hfits, rfl⟩ := (runKexec_ends _ _ _ _).exec_mem_iff.mp hexec
    exact ⟨tag, file, console, ⟨htag, hfile, hpath, hfound, hconfig, hfound', hconsole, hfits⟩,
      rfl⟩
  · rintro ⟨tag, file, console, h, rfl⟩
    refine ⟨tag, file, h.tag_eq, ⟨h.file_eq, h.path_fits⟩, h.path_found, h.config_fits,
      h.config_found, (runKexec_ends _ _ _ _).exec_mem_iff.mpr ?_⟩
    exact ⟨console, h.console_eq, h.cmdline_fits, rfl⟩

/-! ## `main` -/

/-- `argv0` is the base name that the program was called by, and `keypress` the result
of `get_keypress` for a delay. -/
structure StartEnv where
  argv0 : Text
  keypress : Int → Int
  boot : BootEnv

inductive Start where
  | netconf
  | shell (last : Last)
  | boot (last : Last) (run : BootRun)
  | fault (f : Fault)
  deriving DecidableEq, Repr

def main (env : StartEnv) (cfg : Config) : Start :=
  if strncmpEq env.argv0 "mbnet".toList 5 then .netconf
  else
    let interact :=
      if strncmpEq env.argv0 "mbsh".toList 4 then true
      else !strncmpEq env.argv0 "monoboot".toList 8
    let interact := interact || env.keypress cfg.delay == 0
    match checkLast cfg with
    | .error f => .fault f
    | .ok last =>
      if interact then .shell last
      else .boot last (cmdBoot env.boot last.cfg (some last.image))

/-- Called as monoboot, and nobody pressed a key. -/
structure NonInteractive (env : StartEnv) (cfg : Config) : Prop where
  called : "monoboot".toList <+: env.argv0
  unattended : env.keypress cfg.delay ≠ 0

theorem main_nonInteractive {env : StartEnv} {cfg : Config} (h : NonInteractive env cfg) :
    main env cfg =
      match checkLast cfg with
      | .error f => .fault f
      | .ok last => .boot last (cmdBoot env.boot last.cfg (some last.image)) := by
  obtain ⟨rest, hargv0⟩ := h.called
  have hmbnet : strncmpEq env.argv0 "mbnet".toList 5 = false := by
    rw [← hargv0]
    rfl
  have hmbsh : strncmpEq env.argv0 "mbsh".toList 4 = false := by
    rw [← hargv0]
    rfl
  have hmonoboot : strncmpEq env.argv0 "monoboot".toList 8 = true := by
    rw [← hargv0]
    rfl
  simp only [main, hmbnet, hmbsh, hmonoboot, Bool.false_eq_true, if_false, Bool.not_true,
    Bool.false_or, beq_iff_eq, h.unattended]

theorem bootTag_clearTryonce {cfg : Config} {tag : Text} :
    bootTag (clearTryonce cfg) (some tag) = if checkImageTag cfg tag then some tag else none := by
  have hno : strncmpEq (clearTryonce cfg).tryonce yes 3 = false := rfl
  simp only [bootTag, hno, Bool.false_eq_true, if_false, Option.map_id']
  rfl

end Monoimage.Boot
