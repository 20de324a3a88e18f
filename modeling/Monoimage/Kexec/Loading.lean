import Monoimage.Boot.Readme
import Monoimage.Kexec.Options

/-! The arguments that `cmd_boot` passes to `kexec -l`, in the three passes of kexec. -/
namespace Monoimage.Kexec

open Clib Boot

def commandLineName : Text := "command-line".toList

theorem kexecCmdline_eq (console : Option Text) (tag : Text) :
    kexecCmdline console tag = '-' :: '-' :: (commandLineName ++ '=' :: kexecAppend console tag) :=
  rfl

section Argv

variable {table : OptTable} {console : Option Text} {tag file : Text}

theorem classify_kexecCmdline :
    classify table (kexecCmdline console tag) =
      longOption table.long (commandLineName ++ '=' :: kexecAppend console tag) := by
  rw [kexecCmdline_eq]
  exact classify_long (List.cons_ne_nil _ _)

theorem classify_imagePath : classify table (imagePath file) = .operand :=
  classify_operand (by decide)

theorem getoptLong_kexecArgv {opts : List Opt}
    (hlong : longOption table.long (commandLineName ++ '=' :: kexecAppend console tag) =
      .options opts none)
    (hload : classify table "-l".toList = .options [⟨optLoad, none⟩] none) :
    getoptLong table (kexecArgv console tag (imagePath file)) =
      ⟨opts ++ [⟨optLoad, none⟩], [kexecCmdline console tag, "-l".toList], [imagePath file]⟩ := by
  have hfirst : classify table (kexecCmdline console tag) = .options opts none := by
    rw [classify_kexecCmdline, hlong]
  rw [getoptLong, kexecArgv, List.tail_cons, scan_options hfirst, scan_options hload,
    scan_operand classify_imagePath]
  rfl

theorem getoptLong_main :
    getoptLong mainTable (kexecArgv console tag (imagePath file)) =
      ⟨[unknownOpt, ⟨optLoad, none⟩], [kexecCmdline console tag, "-l".toList],
        [imagePath file]⟩ :=
  getoptLong_kexecArgv (longOption_unknown (by decide) (by decide)) (by decide)

theorem getoptLong_arch :
    getoptLong archTable (kexecArgv console tag (imagePath file)) =
      ⟨[unknownOpt, ⟨optLoad, none⟩], [kexecCmdline console tag, "-l".toList],
        [imagePath file]⟩ :=
  getoptLong_kexecArgv (longOption_unknown (by decide) (by decide)) (by decide)

theorem findLong_commandLine :
    findLong monoimageLongOptions commandLineName = some ⟨commandLineName, true, optAppend⟩ := by
  decide

theorem getoptLong_monoimage :
    getoptLong monoimageTable (kexecArgv console tag (imagePath file)) =
      ⟨[⟨optAppend, some (kexecAppend console tag)⟩, ⟨optLoad, none⟩],
        [kexecCmdline console tag, "-l".toList], [imagePath file]⟩ := by
  have hload : classify monoimageTable "-l".toList = .options [⟨optLoad, none⟩] none := by decide
  exact getoptLong_kexecArgv (longOption_value (by decide) findLong_commandLine rfl) hload

/-- The first two passes do not know the option, keep the order, and find the image. -/
theorem optionPasses_kexecArgv :
    optionPasses (kexecArgv console tag (imagePath file)) =
      .ok ⟨{ doShutdown := false }, {}, 3, kexecArgv console tag (imagePath file)⟩ := by
  have hargv : Scanned.argv ⟨[unknownOpt, ⟨optLoad, none⟩],
      [kexecCmdline console tag, "-l".toList], [imagePath file]⟩
      (kexecArgv console tag (imagePath file)) = kexecArgv console tag (imagePath file) := rfl
  simp only [optionPasses, getoptLong_main, hargv, getoptLong_arch]
  rfl

/-- `monoimage_load` knows it, gets the text that `cmd_boot` built, and misses the other
option that it insists on. -/
theorem foldlM_monoimageOption :
    (getoptLong monoimageTable (kexecArgv console tag (imagePath file))).opts.foldlM
        monoimageOption {} =
      .ok { commandLineAppend := some (kexecAppend console tag) } := by
  rw [getoptLong_monoimage]
  rfl

theorem monoimageOptions_kexecArgv :
    monoimageOptions (kexecArgv console tag (imagePath file)) = .error .configRequired := by
  rw [monoimageOptions, foldlM_monoimageOption]
  rfl

theorem not_accepts_kexecArgv (append config : Text) :
    ¬ Accepts (kexecArgv console tag (imagePath file)) append config := by
  rintro ⟨passes, options, hpasses, -, hoptions, -⟩
  rw [optionPasses_kexecArgv, Except.ok.injEq] at hpasses
  subst hpasses
  rw [monoimageOptions_kexecArgv] at hoptions
  cases hoptions

end Argv

/-- No run of `kexec -l` by `cmd_boot` is accepted. -/
theorem not_accepts_cmdBoot {env : BootEnv} {cfg : Config} {arg console : Option Text}
    {tag : Text} {argv : List Text}
    (hexec : .exec kexecBinary argv ∈ (cmdBoot env cfg arg).actions)
    (htag : bootTag cfg arg = some tag)
    (hconsole : getKernelConsole env.procCmdline env.stack = .ok console) :
    ¬ Accepts argv (kexecAppend console tag) (configPath tag) := by
  obtain ⟨tag', file, console', hrun, rfl⟩ := exec_mem_cmdBoot_iff.mp hexec
  obtain rfl : tag' = tag := Option.some.inj (hrun.tag_eq.symm.trans htag)
  obtain rfl : console' = console := Except.ok.inj (hrun.console_eq.symm.trans hconsole)
  exact not_accepts_kexecArgv _ _

theorem exec_mem_funky :
    .exec kexecBinary (kexecArgv (some consoleText) "funky".toList (imagePath "funky.img".toList)) ∈
      (cmdBoot exampleStart.boot exampleConf (some "funky".toList)).actions :=
  exec_mem_cmdBoot_iff.mpr ⟨_, _, _, kexecRun_funky, rfl⟩

theorem not_accepts_exampleConf :
    bootTag exampleConf (some "funky".toList) = some "funky".toList ∧
      ¬ Accepts (kexecArgv (some consoleText) "funky".toList (imagePath "funky.img".toList))
        (kexecAppend (some consoleText) "funky".toList) (configPath "funky".toList) :=
  ⟨kexecRun_funky.tag_eq,
    not_accepts_cmdBoot exec_mem_funky kexecRun_funky.tag_eq exampleStart_console⟩

/-- A boot of funky runs kexec, which ends with "config is required". -/
theorem kexec_refuses_funky :
    .exec kexecBinary (kexecArgv (some consoleText) "funky".toList (imagePath "funky.img".toList)) ∈
        (cmdBoot exampleStart.boot exampleConf (some "funky".toList)).actions ∧
      (∃ passes, optionPasses (kexecArgv (some consoleText) "funky".toList
          (imagePath "funky.img".toList)) = .ok passes ∧
        monoimageOptions passes.argv = .error .configRequired) ∧
      ¬ Accepts (kexecArgv (some consoleText) "funky".toList (imagePath "funky.img".toList))
        (kexecAppend (some consoleText) "funky".toList) (configPath "funky".toList) :=
  ⟨exec_mem_funky, ⟨_, optionPasses_kexecArgv, monoimageOptions_kexecArgv⟩,
    not_accepts_kexecArgv _ _⟩

end Monoimage.Kexec
