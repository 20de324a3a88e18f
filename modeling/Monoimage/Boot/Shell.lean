import Monoimage.Boot.Tags
import Monoimage.Libcli.Command

/-! The monoboot shell: the commands that `mb_interact` registers, and what comes of a
`boot` that is typed there. -/
namespace Monoimage.Boot

open Clib Libcli

def modeConfigImage : Int := 1
def modeConfigNet : Int := 2

/-- The callbacks of `monoboot_cli.c`. -/
inductive CliCmd where
  | boot
  | showRunningConfig
  | showStartupConfig
  | showVersion
  | showDisk
  | write
  | shell
  | configImage
  | configNet
  | configModeExit
  deriving DecidableEq, Repr

/-- The commands that `mb_interact` registers. -/
def mbInteract : List (Command (Callback CliCmd)) :=
  let unprivileged := privilegeUnprivileged
  let commands := cliRegisterCommand (cliInit CliCmd) none "boot".toList (some (.user .boot))
    unprivileged modeExec none
  let commands := cliRegisterCommand commands none "show".toList none unprivileged modeExec none
  let commands := cliRegisterCommand commands (some 9) "running-config".toList
    (some (.user .showRunningConfig)) unprivileged modeExec none
  let commands := cliRegisterCommand commands (some 9) "startup-config".toList
    (some (.user .showStartupConfig)) unprivileged modeExec none
  let commands := cliRegisterCommand commands (some 9) "version".toList
    (some (.user .showVersion)) unprivileged modeExec none
  let commands := cliRegisterCommand commands (some 9) "disk".toList
    (some (.user .showDisk)) unprivileged modeExec none
  let commands := cliRegisterCommand commands none "write".toList (some (.user .write))
    unprivileged modeExec none
  let commands := cliRegisterCommand commands none "shell".toList (some (.user .shell))
    unprivileged modeExec none
  let commands := cliRegisterCommand commands none "copy".toList none unprivileged modeExec none
  let commands := cliRegisterCommand commands none "image".toList (some (.user .configImage))
    privilegePrivileged modeConfig (some "Create an image tag".toList)
  let commands := cliRegisterCommand commands none "exit".toList (some (.user .configModeExit))
    privilegePrivileged modeConfigImage (some "Exit from image configuration".toList)
  let commands := cliRegisterCommand commands none "network".toList (some (.user .configNet))
    privilegePrivileged modeConfig (some "Configure the network".toList)
  cliRegisterCommand commands none "exit".toList (some (.user .configModeExit))
    privilegePrivileged modeConfigNet (some "Exit from network configuration".toList)

/-- `cmd_boot` takes the tag from `cmdline[1]`. `main` leaves the place before it free, but
the words that libcli hands on do not start with the command. -/
def cliCmdBoot (env : BootEnv) (cfg : Config) (argv : List Text) : BootRun :=
  cmdBoot env cfg argv[1]?

/-- The run of `cmd_boot` that a line leads to. -/
def bootLine (regcomp : List Text → Option Text) (env : BootEnv) (cli : Cli) (cfg : Config)
    (line : Text) : Option BootRun :=
  match (cliRunCommand regcomp cli mbInteract line).2 with
  | .call (.user .boot) _ argv _ => some (cliCmdBoot env cfg argv)
  | _ => none

/-- At the prompt of exec mode, with or without `enable`. -/
structure AtExec (cli : Cli) : Prop where
  mode : cli.mode = modeExec
  privilege : cli.privilege = privilegeUnprivileged ∨ cli.privilege = privilegePrivileged

/-- What the dispatch looks at in the command that a word names. -/
def Command.view (c : Command (Callback CliCmd)) : Text × Option (Callback CliCmd) × Int × Bool :=
  (c.command, c.callback, c.mode, c.children.isEmpty)

theorem find_boot {cli : Cli} (h : AtExec cli) :
    (mbInteract.find? (picks cli "boot".toList)).map Command.view =
      some ("boot".toList, some (.user .boot), modeExec, true) := by
  obtain ⟨privilege, mode⟩ := cli
  obtain ⟨rfl, rfl | rfl⟩ := h
  · decide +kernel
  · decide +kernel

/-- The tag is the only word that `cli_cmd_boot` gets, and `cmd_boot` looks past it. -/
theorem bootLine_spells {regcomp : List Text → Option Text} {env : BootEnv} {cli : Cli}
    {cfg : Config} {blanks line tag : Text} (hcli : AtExec cli) (hblanks : Blank blanks)
    (hline : Spells line ["boot".toList, tag]) :
    bootLine regcomp env cli cfg (blanks ++ line) = some (cmdBoot env cfg none) := by
  obtain ⟨c, hfind, hview⟩ := Option.map_eq_some_iff.mp (find_boot hcli)
  simp only [Command.view, Prod.mk.injEq, List.isEmpty_iff] at hview
  obtain ⟨-, hcallback, -, hleaf⟩ := hview
  have hlast : "boot".toList.getLast? = some 't' := by decide
  have hroom : ["boot".toList, tag].length < maxWords := by
    rw [List.length_cons, List.length_singleton]
    decide
  rw [bootLine, cliRunCommand_spells hblanks hline hroom,
    cliFindCommand_leaf hlast (by decide) hfind hleaf hcallback]
  rfl

/-! ## The typed tag -/

def istag (c : Char) : Bool :=
  c.isAlphanum || c = '.' || c = '-' || c = '_'

structure IsTag (tag : Text) : Prop where
  nonempty : tag ≠ []
  chars : ∀ c ∈ tag, istag c = true

/-- "boot T", with any amount of blank space. -/
inductive BootLine (tag : Text) : Text → Prop
  | mk {before between after : Text} (hbefore : Blank before) (hbetween : Blank between)
      (hcut : between ≠ []) (hafter : Blank after) :
      BootLine tag (before ++ ("boot".toList ++ (between ++ (tag ++ after))))

/-- `cmd_boot` records `tag` and goes on with its image. -/
def Boots (env : BootEnv) (cfg : Config) (tag : Text) (run : BootRun) : Prop :=
  run = (bootImage env (recordTry cfg tag) tag).after [.saveConfig (recordTry cfg tag)]

structure BootsNothing (cfg : Config) (run : BootRun) : Prop where
  returns : ∃ code, run.finish = .returned code
  no_kexec : ∀ argv, .exec kexecBinary argv ∉ run.actions
  lasttry : run.cfg.lasttry = cfg.lasttry
  lastboot : run.cfg.lastboot = cfg.lastboot

def BootsTyped (cfg : Config) (tag : Text) : Prop :=
  ∀ regcomp env cli line, AtExec cli → BootLine tag line →
    ∃ run, bootLine regcomp env cli cfg line = some run ∧
      (tag ∈ titles cfg.images → Boots env cfg tag run) ∧
      (tag ∉ titles cfg.images → BootsNothing cfg run)

/-- The tag of a `boot` without argument. -/
def plainTag (cfg : Config) : Text :=
  if yes <+: cfg.tryonce then cfg.bootonce else cfg.default

theorem cmdBoot_none (env : BootEnv) (cfg : Config) :
    Boots env cfg (plainTag cfg) (cmdBoot env cfg none) := by
  have htag : bootTag cfg none = some (plainTag cfg) := by
    rw [bootTag_eq]
    rfl
  rw [Boots, cmdBoot, htag]

theorem isAlphanum_bounds {c : Char} (h : c.isAlphanum = true) :
    48 ≤ c.toNat ∧ c.toNat ≤ 122 := by
  have hranges : ((decide (65 ≤ c.val ∧ c.val ≤ 90) ||
      decide (97 ≤ c.val) && decide (c.val ≤ 122)) ||
      decide (48 ≤ c.val) && decide (c.val ≤ 57)) = true := h
  simp only [Bool.or_eq_true, Bool.and_eq_true, decide_eq_true_eq, UInt32.le_iff_toNat_le,
    UInt32.reduceToNat] at hranges
  change 48 ≤ c.val.toNat ∧ c.val.toNat ≤ 122
  omega

theorem istag_bounds {c : Char} (h : istag c = true) : 45 ≤ c.toNat ∧ c.toNat ≤ 122 := by
  simp only [istag, Bool.or_eq_true, decide_eq_true_eq] at h
  obtain ((halnum | rfl) | rfl) | rfl := h
  · have hbounds := isAlphanum_bounds halnum
    omega
  · decide
  · decide
  · decide

theorem isplain_of_istag {c : Char} (h : istag c = true) : isplain c = true := by
  have hbounds := istag_bounds h
  rw [isplain_iff]
  refine ⟨?_, ?_, ?_⟩
  · rw [Bool.eq_false_iff, ne_eq, isspace_iff]
    omega
  · have hquotes : '"'.toNat = 34 ∧ '\''.toNat = 39 := by decide
    simp only [isquote, Bool.or_eq_false_iff, decide_eq_false_iff_not, ← Char.toNat_inj]
    omega
  · rintro rfl
    exact absurd hbounds (by decide)

theorem IsTag.plain {tag : Text} (h : IsTag tag) : Plain tag :=
  ⟨h.nonempty, fun c hc => isplain_of_istag (h.chars c hc)⟩

theorem plain_boot : Plain "boot".toList := by
  constructor
  · decide
  · exact List.all_eq_true.mp (by decide)

theorem bootLine_eq {regcomp : List Text → Option Text} {env : BootEnv} {cli : Cli}
    {cfg : Config} {tag line : Text} (htag : IsTag tag) (hcli : AtExec cli)
    (hline : BootLine tag line) :
    bootLine regcomp env cli cfg line = some (cmdBoot env cfg none) := by
  cases hline with
  | mk hbefore hbetween hcut hafter =>
    exact bootLine_spells hcli hbefore
      (.more plain_boot hbetween hcut (.last htag.plain hafter))

theorem KexecEnds.exec_mem_of_returned {env : BootEnv} {cfg : Config} {tag path : Text}
    {run : BootRun} {code : Int} (h : KexecEnds env cfg tag path run)
    (hfinish : run.finish = .returned code) : ∃ argv, .exec kexecBinary argv ∈ run.actions := by
  cases h with
  | overrun hlong => cases hfinish
  | unloaded => exact ⟨_, List.mem_cons_self⟩
  | loaded => exact ⟨_, List.mem_cons_self⟩

/-- With every file in place, a boot that comes back has run `kexec -l`. -/
theorem ImageEnds.exec_mem_of_returned {env : BootEnv} {cfg : Config} {tag : Text}
    {run : BootRun} {code : Int} (h : ImageEnds env cfg tag run)
    (hfound : ∀ path, env.stat path = true) (hfinish : run.finish = .returned code) :
    ∃ argv, .exec kexecBinary argv ∈ run.actions := by
  cases h with
  | unresolved hnone => cases hfinish
  | missing hfile hstat => cases hstat.symm.trans (hfound _)
  | overrun hfile hlong => cases hfinish
  | unconfigured hfile hconfig => cases hconfig.symm.trans (hfound _)
  | kexec hfile hstat hfits hconfig =>
    obtain ⟨argv, hargv⟩ := (runKexec_ends env cfg tag _).exec_mem_of_returned hfinish
    exact ⟨argv, List.mem_append_right _ hargv⟩

theorem not_bootsNothing {env : BootEnv} {cfg : Config} {tag : Text} {run : BootRun}
    (hstat : ∀ path, env.stat path = true) (hrun : Boots env cfg tag run) :
    ¬ BootsNothing cfg run := by
  subst hrun
  intro h
  obtain ⟨code, hcode⟩ := h.returns
  obtain ⟨argv, hargv⟩ := (bootImage_ends env _ tag).exec_mem_of_returned hstat hcode
  exact h.no_kexec argv (List.mem_append_right _ hargv)

theorem boots_iff {env : BootEnv} {cfg : Config} {tag tag' : Text} {run : BootRun}
    (hrun : Boots env cfg tag run) : Boots env cfg tag' run ↔ tag = tag' := by
  constructor
  · intro hrun'
    have hsaves : ∀ tag, Boots env cfg tag run → run.saves = [recordTry cfg tag] := by
      rintro tag rfl
      simp [bootImage_saves, Action.saved]
    have hsame := (hsaves tag hrun).symm.trans (hsaves tag' hrun')
    simpa [recordTry] using hsame
  · rintro rfl
    exact hrun

theorem plainTag_of_bootsTyped {cfg : Config} {tag : Text} (htag : IsTag tag)
    (h : BootsTyped cfg tag) : tag ∈ titles cfg.images ∧ plainTag cfg = tag := by
  have hcli : AtExec ⟨privilegeUnprivileged, modeExec⟩ := ⟨rfl, Or.inl rfl⟩
  have hblank : Blank [' '] := by simp [Blank, isspace]
  have hnone : Blank [] := by simp [Blank]
  have hline : BootLine tag _ := .mk hnone hblank (List.cons_ne_nil _ _) hnone
  obtain ⟨run, hrun, htitle, hother⟩ := h (fun _ => none) exampleStart.boot _ _ hcli hline
  rw [bootLine_eq htag hcli hline, Option.some.injEq] at hrun
  subst hrun
  have hplain := cmdBoot_none exampleStart.boot cfg
  by_cases hmem : tag ∈ titles cfg.images
  · exact ⟨hmem, (boots_iff hplain).mp (htitle hmem)⟩
  · exact absurd (hother hmem) (not_bootsNothing (fun _ => rfl) hplain)

end Monoimage.Boot
