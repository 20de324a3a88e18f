import Monoimage.Boot.Tags

/-! The configuration that `cmd_boot` leaves to the shell when it comes back. -/
namespace Monoimage.Boot

open Clib

/-- A run that returns has not dropped the configuration, and has changed nothing in it but
the record of the boot. -/
def KeepsConfig (cfg : Config) (run : BootRun) : Prop :=
  ∀ code, run.finish = .returned code →
    .dropConfig ∉ run.actions ∧
      run.cfg = { cfg with lasttry := run.cfg.lasttry, lastboot := run.cfg.lastboot }

/-- The call gets as far as the last `execlp`. -/
def ReachesExec (env : BootEnv) (cfg : Config) (arg : Option Text) : Prop :=
  ∃ tag file console, KexecRun env cfg arg tag file console ∧
    env.run kexecBinary (kexecArgv console tag (imagePath file)) = true

section Ends

variable {env : BootEnv} {cfg : Config} {tag path : Text} {run : BootRun}

theorem KexecEnds.dropConfig_mem_iff (h : KexecEnds env cfg tag path run) :
    .dropConfig ∈ run.actions ↔
      ∃ console, getKernelConsole env.procCmdline env.stack = .ok console ∧
        (kexecCmdline console tag).length < mbCmdlineMax ∧
        env.run kexecBinary (kexecArgv console tag path) = true := by
  cases h with
  | overrun hlong =>
    simp only [List.not_mem_nil, false_iff]
    rintro ⟨console, hconsole, hfits, -⟩
    exact absurd hfits (Nat.not_lt.mpr (hlong console hconsole))
  | unloaded hconsole hfits hrun => simp [hconsole, hrun]
  | loaded hconsole hfits hrun => simp [hconsole, hfits, hrun]

theorem KexecEnds.finish_of_drop (h : KexecEnds env cfg tag path run)
    (hdrop : .dropConfig ∈ run.actions) :
    run.finish = if env.execlp then .replaced else .returned (-1) := by
  cases h with
  | overrun hlong => cases hdrop
  | unloaded hconsole hfits hrun => simp at hdrop
  | loaded hconsole hfits hrun => rfl

theorem KexecEnds.cfg_eq (h : KexecEnds env cfg tag path run) : run.cfg = cfg := by
  cases h <;> rfl

theorem ImageEnds.finish_of_drop (h : ImageEnds env cfg tag run)
    (hdrop : .dropConfig ∈ run.actions) :
    run.finish = if env.execlp then .replaced else .returned (-1) := by
  cases h with
  | unresolved hnone => cases hdrop
  | missing hfile hstat => simp at hdrop
  | overrun hfile hlong => simp at hdrop
  | unconfigured hfile hconfig => simp at hdrop
  | kexec hfile hstat hfits hconfig =>
    apply (runKexec_ends env cfg tag _).finish_of_drop
    rcases List.mem_append.mp hdrop with hbefore | hkexec
    · unfold mountProc at hbefore
      split at hbefore <;> simp at hbefore
    · exact hkexec

theorem ImageEnds.cfg_eq (h : ImageEnds env cfg tag run) : run.cfg = cfg := by
  cases h with
  | kexec => exact (runKexec_ends env cfg tag _).cfg_eq
  | _ => rfl

end Ends

theorem dropConfig_mem_cmdBoot_iff {env : BootEnv} {cfg : Config} {arg : Option Text} :
    .dropConfig ∈ (cmdBoot env cfg arg).actions ↔ ReachesExec env cfg arg := by
  rw [mem_cmdBoot_iff rfl]
  constructor
  · rintro ⟨tag, file, htag, ⟨hfile, hpath⟩, hfound, hconfig, hfound', hdrop⟩
    obtain ⟨console, hconsole, hfits, hrun⟩ := (runKexec_ends _ _ _ _).dropConfig_mem_iff.mp hdrop
    exact ⟨tag, file, console, ⟨htag, hfile, hpath, hfound, hconfig, hfound', hconsole, hfits⟩,
      hrun⟩
  · rintro ⟨tag, file, console, h, hrun⟩
    refine ⟨tag, file, h.tag_eq, ⟨h.file_eq, h.path_fits⟩, h.path_found, h.config_fits,
      h.config_found, (runKexec_ends _ _ _ _).dropConfig_mem_iff.mpr ?_⟩
    exact ⟨console, h.console_eq, h.cmdline_fits, hrun⟩

theorem cmdBoot_finish_of_drop {env : BootEnv} {cfg : Config} {arg : Option Text}
    (hdrop : .dropConfig ∈ (cmdBoot env cfg arg).actions) :
    (cmdBoot env cfg arg).finish = if env.execlp then .replaced else .returned (-1) := by
  unfold cmdBoot at hdrop ⊢
  cases htag : bootTag cfg arg with
  | none =>
    rw [htag] at hdrop
    cases hdrop
  | some tag =>
    rw [htag] at hdrop
    apply (bootImage_ends env (recordTry cfg tag) tag).finish_of_drop
    exact (List.mem_cons.mp hdrop).resolve_left nofun

theorem cmdBoot_cfg (env : BootEnv) (cfg : Config) (arg : Option Text) :
    (cmdBoot env cfg arg).cfg =
      { cfg with
        lasttry := (cmdBoot env cfg arg).cfg.lasttry
        lastboot := (cmdBoot env cfg arg).cfg.lastboot } := by
  unfold cmdBoot
  cases bootTag cfg arg with
  | none => rfl
  | some tag =>
    simp only [BootRun.after, (bootImage_ends env (recordTry cfg tag) tag).cfg_eq]
    rfl

theorem keepsConfig_iff (env : BootEnv) (cfg : Config) (arg : Option Text) :
    KeepsConfig cfg (cmdBoot env cfg arg) ↔ (ReachesExec env cfg arg → env.execlp = true) := by
  constructor
  · intro h hreaches
    have hdrop := dropConfig_mem_cmdBoot_iff.mpr hreaches
    by_contra hexeclp
    have hfinish := cmdBoot_finish_of_drop hdrop
    rw [if_neg hexeclp] at hfinish
    exact (h _ hfinish).1 hdrop
  · intro h code hcode
    refine ⟨fun hdrop => ?_, cmdBoot_cfg env cfg arg⟩
    have hreaches := dropConfig_mem_cmdBoot_iff.mp hdrop
    rw [cmdBoot_finish_of_drop hdrop, if_pos (h hreaches)] at hcode
    cases hcode

/-- The loaded image is there, and `kexec -e` cannot be run. -/
theorem not_keepsConfig_funky :
    ¬ KeepsConfig exampleConf (cmdBoot { exampleStart.boot with execlp := false } exampleConf
      (some "funky".toList)) := by
  intro h
  have hrun := h (-1) (by decide +kernel)
  exact hrun.1 (by decide +kernel)

end Monoimage.Boot
