import Monoimage.Boot.Start

/-! The README's rule for the image to boot, and how far a start follows it. -/
namespace Monoimage.Boot

open Clib

/-- "if the config file has 'tryonce = yes' then boot bootonce"; "if an image just failed
to boot, and it wasn't 'bootonce', then boot 'fallback'"; else "boot 'default'". -/
def readmeTag (cfg : Config) : Text :=
  if cfg.tryonce = yes then cfg.bootonce
  else if cfg.lasttry ≠ cfg.lastboot ∧ cfg.lasttry ≠ cfg.bootonce then cfg.fallback
  else cfg.default

/-- The start records the tag of the rule and goes on to boot it; a `tryonce` is used up. -/
def FollowsReadme (env : StartEnv) (cfg : Config) : Prop :=
  ∃ last saved,
    main env cfg = .boot last
      ((bootImage env.boot saved (readmeTag cfg)).after [.saveConfig saved]) ∧
    saved.lasttry = readmeTag cfg ∧ (cfg.tryonce = yes → saved.tryonce = no)

/-- Where the program and the rule agree. `check_last` clears `tryonce` before `cmd_boot`
tests it, and does not know the exception for a failed `bootonce`: neither may matter, and
the tag has to fit the buffer of `main`. -/
structure RuleApplies (cfg : Config) : Prop where
  tryonce_failed : cfg.tryonce = yes → cfg.lasttry ≠ cfg.lastboot → cfg.bootonce = cfg.fallback
  tryonce_succeeded : cfg.tryonce = yes → cfg.lasttry = cfg.lastboot → cfg.bootonce = cfg.default
  bootonce_failed : cfg.tryonce ≠ yes → cfg.lasttry ≠ cfg.lastboot →
    cfg.lasttry = cfg.bootonce → cfg.fallback = cfg.default
  fits : (readmeTag cfg).length < mbImageMax

theorem ruleApplies_iff {cfg : Config} :
    RuleApplies cfg ↔ selectedTag cfg = readmeTag cfg ∧ (readmeTag cfg).length < mbImageMax := by
  unfold selectedTag
  constructor
  · intro h
    refine ⟨?_, h.fits⟩
    unfold readmeTag
    by_cases hyes : cfg.tryonce = yes <;> by_cases hlast : cfg.lasttry = cfg.lastboot
    · simp only [hyes, hlast, if_true]
      exact (h.tryonce_succeeded hyes hlast).symm
    · simp only [hyes, hlast, if_true, if_false]
      exact (h.tryonce_failed hyes hlast).symm
    · simp [hyes, hlast]
    · by_cases honce : cfg.lasttry = cfg.bootonce
      · rw [if_neg hlast, if_neg hyes, if_neg (fun hand => hand.2 honce)]
        exact h.bootonce_failed hyes hlast honce
      · simp [hyes, hlast, honce]
  · rintro ⟨heq, hfits⟩
    refine ⟨?_, ?_, ?_, hfits⟩
    · intro hyes hlast
      simpa [readmeTag, hyes, hlast] using heq.symm
    · intro hyes hlast
      simpa [readmeTag, hyes, hlast] using heq.symm
    · intro hyes hlast honce
      rwa [readmeTag, if_neg hlast, if_neg hyes, if_neg (fun hand => hand.2 honce)] at heq

theorem main_selectedTag {env : StartEnv} {cfg : Config} (henv : NonInteractive env cfg)
    (hfits : (selectedTag cfg).length < mbImageMax)
    (htag : checkImageTag cfg (selectedTag cfg) = true) :
    ∃ last, main env cfg = .boot last
      ((bootImage env.boot (recordTry (clearTryonce cfg) (selectedTag cfg))
        (selectedTag cfg)).after
          [.saveConfig (recordTry (clearTryonce cfg) (selectedTag cfg))]) := by
  rw [main_nonInteractive henv, checkLast_of_lt hfits]
  refine ⟨_, congrArg (Start.boot _) ?_⟩
  rw [cmdBoot, bootTag_clearTryonce, if_pos htag]

theorem main_saved {env : StartEnv} {cfg saved : Config} {last : Last} {run : BootRun}
    (henv : NonInteractive env cfg) (hmain : main env cfg = .boot last run)
    (hsaved : saved ∈ run.saves) :
    (selectedTag cfg).length < mbImageMax ∧ checkImageTag cfg (selectedTag cfg) = true ∧
      saved = recordTry (clearTryonce cfg) (selectedTag cfg) := by
  rw [main_nonInteractive henv] at hmain
  cases hlast : checkLast cfg with
  | error f =>
    rw [hlast] at hmain
    cases hmain
  | ok last =>
    rw [hlast] at hmain
    obtain ⟨hfits, rfl⟩ := checkLast_eq_ok_iff.mp hlast
    cases hmain
    rw [cmdBoot_saves, bootTag_clearTryonce] at hsaved
    by_cases htag : checkImageTag cfg (selectedTag cfg) = true
    · rw [if_pos htag] at hsaved
      simpa [hfits, htag] using hsaved
    · rw [if_neg htag] at hsaved
      simp at hsaved

theorem selectedTag_of_followsReadme {env : StartEnv} {cfg : Config}
    (henv : NonInteractive env cfg) (h : FollowsReadme env cfg) :
    selectedTag cfg = readmeTag cfg ∧ (readmeTag cfg).length < mbImageMax := by
  obtain ⟨last, saved, hmain, hlasttry, -⟩ := h
  have hsaved : saved ∈ ((bootImage env.boot saved (readmeTag cfg)).after
      [.saveConfig saved]).saves := by
    simp [Action.saved]
  obtain ⟨hfits, -, rfl⟩ := main_saved henv hmain hsaved
  have heq : selectedTag cfg = readmeTag cfg := hlasttry
  exact ⟨heq, heq ▸ hfits⟩

/-- A non-interactive start whose rule names an existing image boots it exactly where the
rule applies. -/
theorem followsReadme_iff {env : StartEnv} {cfg : Config} (henv : NonInteractive env cfg)
    (htitle : readmeTag cfg ∈ cfg.images.map ImageSec.title) :
    FollowsReadme env cfg ↔ RuleApplies cfg := by
  rw [ruleApplies_iff]
  constructor
  · exact selectedTag_of_followsReadme henv
  · rintro ⟨heq, hfits⟩
    have htag : checkImageTag cfg (selectedTag cfg) = true := by
      rw [heq]
      exact checkImageTag_of_title htitle
    obtain ⟨last, hmain⟩ := main_selectedTag henv (heq ▸ hfits) htag
    rw [heq] at hmain
    exact ⟨last, _, hmain, rfl, fun _ => rfl⟩

def exampleStart : StartEnv where
  argv0 := "monoboot".toList
  keypress _ := 1
  boot :=
    { stat := fun _ => true
      procMounted := true
      procCmdline := some "root=/dev/hda1 ro console=ttyS0\n".toList
      stack := List.replicate 255 '\x00'
      run := fun _ _ => true
      execlp := true }

theorem exampleStart_nonInteractive (cfg : Config) : NonInteractive exampleStart cfg :=
  ⟨List.prefix_refl _, show (1 : Int) ≠ 0 by decide⟩

def consoleText : Text := "console=ttyS0".toList

theorem exampleStart_console :
    getKernelConsole exampleStart.boot.procCmdline exampleStart.boot.stack =
      .ok (some consoleText) := by
  decide +kernel

theorem kexecRun_funky :
    KexecRun exampleStart.boot exampleConf (some "funky".toList) "funky".toList
      "funky.img".toList (some consoleText) :=
  ⟨by decide, by decide, by decide, rfl, by decide, rfl, exampleStart_console, by decide⟩

theorem followsReadme_exampleConf :
    readmeTag exampleConf ∈ exampleConf.images.map ImageSec.title ∧
      FollowsReadme exampleStart exampleConf := by
  have htitle : readmeTag exampleConf ∈ exampleConf.images.map ImageSec.title := by decide
  refine ⟨htitle, ?_⟩
  apply (followsReadme_iff (exampleStart_nonInteractive exampleConf) htitle).mpr
  exact ⟨by decide, by decide, by decide, by decide⟩

/-- With `tryonce = yes` the rule gives mental, and the program boots safe. -/
theorem not_followsReadme_tryonce :
    NonInteractive exampleStart { exampleConf with tryonce := yes } ∧
      readmeTag { exampleConf with tryonce := yes } ∈
        ({ exampleConf with tryonce := yes } : Config).images.map ImageSec.title ∧
      ¬ FollowsReadme exampleStart { exampleConf with tryonce := yes } := by
  refine ⟨exampleStart_nonInteractive _, by decide, ?_⟩
  intro h
  have heq := (selectedTag_of_followsReadme (exampleStart_nonInteractive _) h).1
  exact absurd heq (by decide)

end Monoimage.Boot
