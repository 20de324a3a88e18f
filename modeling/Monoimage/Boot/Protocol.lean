import Mathlib.Logic.Relation
import Monoimage.Boot.Monoinit
import Monoimage.Boot.Readme

/-! The acknowledgement protocol of monoboot and monoinit over the two flags `lasttry` and
`lastboot`, for configurations that are saved and loaded without loss. -/
namespace Monoimage.Boot

open Clib

/-! ## The abstract machine

What the flags are for: the last image that was tried, and whether it came up. -/

structure Attempt where
  tag : Text
  confirmed : Bool
  deriving DecidableEq, Repr

def Attempt.choice (settings : Config) (a : Attempt) : Text :=
  if a.confirmed then settings.default else settings.fallback

inductive Attempt.Step (settings : Config) : Attempt → Attempt → Prop
  | try_ (a : Attempt) : Step settings a ⟨a.choice settings, false⟩
  | confirm (a : Attempt) : Step settings a ⟨a.tag, true⟩

def Represents (cfg : Config) (a : Attempt) : Prop :=
  cfg.lasttry = a.tag ∧ (cfg.lasttry = cfg.lastboot ↔ a.confirmed = true)

theorem Represents.selectedTag {cfg : Config} {a : Attempt} (h : Represents cfg a) :
    selectedTag cfg = a.choice cfg := by
  unfold Boot.selectedTag Attempt.choice
  by_cases hlast : cfg.lasttry = cfg.lastboot
  · rw [if_pos hlast, if_pos (h.2.mp hlast)]
  · rw [if_neg hlast, if_neg (fun hc => hlast (h.2.mpr hc))]

/-- `cmd_boot` marks a fresh attempt by a `lastboot` of "nil", which is a tag like any
other. -/
theorem represents_recordTry_iff {cfg : Config} {tag : Text} :
    Represents (recordTry cfg tag) ⟨tag, false⟩ ↔ tag ≠ nil := by
  simp [Represents, recordTry]

theorem represents_acknowledge_iff {cfg : Config} {title : Text} :
    Represents (acknowledge cfg (some title)) ⟨cfg.lasttry, true⟩ ↔ title = cfg.lasttry := by
  simp [Represents, acknowledge, eq_comm]

/-! ## The programs -/

/-- One program runs on the configuration that was last saved: a non-interactive start of
monoboot, whether or not it gets as far as saving, or monoinit in a booted image. -/
inductive Step : Config → Config → Prop
  | start {env : StartEnv} {cfg : Config} {last : Last} {run : BootRun}
      (henv : NonInteractive env cfg) (hmain : main env cfg = .boot last run) :
      Step cfg (run.saves.getLast?.getD cfg)
  | monoinit {procCmdline : Option Text} {cfg saved : Config}
      (hinit : monoinit procCmdline cfg = .ok (some saved)) : Step cfg saved

/-- Only the flags that the programs manage have changed. -/
def SameSettings (cfg cfg' : Config) : Prop :=
  cfg' = { cfg with tryonce := cfg'.tryonce, lasttry := cfg'.lasttry, lastboot := cfg'.lastboot }

theorem SameSettings.trans {a b c : Config} (hab : SameSettings a b) (hbc : SameSettings b c) :
    SameSettings a c := by
  unfold SameSettings at *
  rw [hbc, hab]

theorem SameSettings.tags_eq {cfg cfg' : Config} (h : SameSettings cfg cfg') :
    cfg'.default = cfg.default ∧ cfg'.fallback = cfg.fallback := by
  unfold SameSettings at h
  rw [h]
  exact ⟨rfl, rfl⟩

theorem sameSettings_recordTry (cfg : Config) (tag : Text) :
    SameSettings cfg (recordTry (clearTryonce cfg) tag) := rfl

theorem sameSettings_acknowledge (cfg : Config) (title : Option Text) :
    SameSettings cfg (acknowledge cfg title) := by
  cases title <;> rfl

theorem start_saved {env : StartEnv} {cfg : Config} {last : Last} {run : BootRun}
    (henv : NonInteractive env cfg) (hmain : main env cfg = .boot last run) :
    run.saves.getLast?.getD cfg = cfg ∨
      run.saves.getLast?.getD cfg = recordTry (clearTryonce cfg) (selectedTag cfg) := by
  cases hsaves : run.saves.getLast? with
  | none => exact Or.inl rfl
  | some saved =>
    right
    exact (main_saved henv hmain (List.mem_of_getLast? hsaves)).2.2

theorem monoinit_saved {procCmdline : Option Text} {cfg saved : Config}
    (h : monoinit procCmdline cfg = .ok (some saved)) : ∃ title, saved = acknowledge cfg title := by
  obtain ⟨parsed, -, h⟩ := bind_eq_ok_iff.mp h
  cases parsed with
  | error code => cases h
  | ok parsed =>
    obtain ⟨title, -, h⟩ := bind_eq_ok_iff.mp h
    cases h
    exact ⟨title, rfl⟩

theorem Step.sameSettings {cfg cfg' : Config} (h : Step cfg cfg') : SameSettings cfg cfg' := by
  cases h with
  | start henv hmain =>
    rcases start_saved henv hmain with h | h
    · rw [h]
      rfl
    · rw [h]
      exact sameSettings_recordTry _ _
  | monoinit hinit =>
    obtain ⟨title, rfl⟩ := monoinit_saved hinit
    exact sameSettings_acknowledge _ _

theorem sameSettings_of_run {cfg cfg' : Config} (h : Relation.ReflTransGen Step cfg cfg') :
    SameSettings cfg cfg' := by
  induction h with
  | refl => rfl
  | tail _ hstep ih => exact ih.trans hstep.sameSettings

/-- The steps that do what they are meant to: a start whose tag is not the mark of a
fresh attempt, and a monoinit that acknowledges the image that was tried. -/
inductive FaithfulStep : Config → Config → Prop
  | start {env : StartEnv} {cfg : Config} {last : Last} {run : BootRun}
      (henv : NonInteractive env cfg) (hmain : main env cfg = .boot last run)
      (htag : selectedTag cfg ≠ nil) : FaithfulStep cfg (run.saves.getLast?.getD cfg)
  | monoinit {procCmdline : Option Text} {cfg saved : Config}
      (hinit : monoinit procCmdline cfg = .ok (some saved))
      (hown : saved.lastboot = cfg.lasttry) : FaithfulStep cfg saved

theorem Attempt.choice_sameSettings {cfg cfg' : Config} (h : SameSettings cfg cfg') (a : Attempt) :
    a.choice cfg' = a.choice cfg := by
  rw [Attempt.choice, Attempt.choice, h.tags_eq.1, h.tags_eq.2]

theorem FaithfulStep.toStep {cfg cfg' : Config} (h : FaithfulStep cfg cfg') : Step cfg cfg' := by
  cases h with
  | start henv hmain => exact .start henv hmain
  | monoinit hinit => exact .monoinit hinit

theorem FaithfulStep.simulates {settings cfg cfg' : Config} {a : Attempt}
    (hsettings : SameSettings settings cfg) (h : FaithfulStep cfg cfg') (ha : Represents cfg a) :
    ∃ a', Relation.ReflGen (Attempt.Step settings) a a' ∧ Represents cfg' a' := by
  cases h with
  | start henv hmain htag =>
    rcases start_saved henv hmain with hsaved | hsaved
    · refine ⟨a, .refl, ?_⟩
      rwa [hsaved]
    · refine ⟨⟨a.choice settings, false⟩, .single (.try_ a), ?_⟩
      rw [hsaved, ← Attempt.choice_sameSettings hsettings, ← ha.selectedTag]
      exact represents_recordTry_iff.mpr htag
  | monoinit hinit hown =>
    obtain ⟨title, rfl⟩ := monoinit_saved hinit
    refine ⟨⟨a.tag, true⟩, .single (.confirm a), ?_⟩
    cases title with
    | none =>
      have hlast : cfg.lasttry = cfg.lastboot := hown.symm
      exact ⟨ha.1, by simp [acknowledge, hlast]⟩
    | some title =>
      rw [← ha.1]
      exact represents_acknowledge_iff.mpr hown

theorem run_simulates {settings cfg : Config} {a : Attempt} (ha : Represents settings a)
    (h : Relation.ReflTransGen FaithfulStep settings cfg) :
    ∃ a', Relation.ReflTransGen (Attempt.Step settings) a a' ∧ Represents cfg a' := by
  induction h with
  | refl => exact ⟨a, .refl, ha⟩
  | tail hrun hstep ih =>
    obtain ⟨b, hb, hrep⟩ := ih
    have hsettings := sameSettings_of_run
      (Relation.ReflTransGen.mono (fun _ _ => FaithfulStep.toStep) _ _ hrun)
    obtain ⟨b', hb', hrep'⟩ := hstep.simulates hsettings hrep
    exact ⟨b', hb.trans hb'.to_reflTransGen, hrep'⟩

/-! ## A boot that does not come up -/

/-- The next start finds that the last boot failed and hands `tag` to `cmd_boot`. -/
def FallsBackTo (tag : Text) (env : StartEnv) (cfg : Config) : Prop :=
  ∃ last, checkLast cfg = .ok last ∧ last.ret = 0 ∧ last.image = tag ∧
    main env cfg = .boot last (cmdBoot env.boot last.cfg (some tag))

theorem fallsBackTo_iff {tag : Text} {env : StartEnv} {cfg : Config}
    (henv : NonInteractive env cfg) :
    FallsBackTo tag env cfg ↔
      cfg.lasttry ≠ cfg.lastboot ∧ cfg.fallback = tag ∧ tag.length < mbImageMax := by
  have hselected (h : cfg.lasttry ≠ cfg.lastboot) : selectedTag cfg = cfg.fallback := if_neg h
  constructor
  · rintro ⟨last, hlast, hret, rfl, -⟩
    obtain ⟨hfits, rfl⟩ := checkLast_eq_ok_iff.mp hlast
    have hne : cfg.lasttry ≠ cfg.lastboot := by
      intro h
      simp [h] at hret
    exact ⟨hne, (hselected hne).symm, hfits⟩
  · rintro ⟨hne, rfl, hfits⟩
    have hlast := checkLast_of_lt (by rwa [hselected hne])
    rw [hselected hne] at hlast
    refine ⟨_, hlast, if_neg hne, rfl, ?_⟩
    rw [main_nonInteractive henv, hlast]

theorem saves_after_record (env : BootEnv) (cfg : Config) (tag : Text) :
    ((bootImage env cfg tag).after [.saveConfig cfg]).saves = [cfg] := by
  rw [BootRun.saves_after, bootImage_saves]
  rfl

/-- In every run, a start that records a tag is followed, if monoinit does not run, by a
start that falls back exactly if the tag it recorded was not "nil" and the fallback tag
fits. The recorded tag is `default` or `fallback`, by the flags that the start found. -/
theorem unacknowledged_start_iff {first cfg saved : Config} {env next : StartEnv} {last : Last}
    {run : BootRun} (hrun : Relation.ReflTransGen Step first cfg)
    (henv : NonInteractive env cfg) (hmain : main env cfg = .boot last run)
    (hsaved : saved ∈ run.saves) (hnext : NonInteractive next saved) :
    FallsBackTo first.fallback next saved ↔
      (cfg.lasttry = cfg.lastboot → first.default ≠ nil) ∧
      (cfg.lasttry ≠ cfg.lastboot → first.fallback ≠ nil) ∧
      first.fallback.length < mbImageMax := by
  obtain ⟨hdefault, hfallback⟩ := (sameSettings_of_run hrun).tags_eq
  obtain ⟨-, -, rfl⟩ := main_saved henv hmain hsaved
  rw [fallsBackTo_iff hnext]
  have hflags : (recordTry (clearTryonce cfg) (selectedTag cfg)).lasttry ≠
      (recordTry (clearTryonce cfg) (selectedTag cfg)).lastboot ↔ selectedTag cfg ≠ nil := Iff.rfl
  have hsame : (recordTry (clearTryonce cfg) (selectedTag cfg)).fallback = first.fallback :=
    hfallback
  rw [hflags, hsame, selectedTag, hdefault, hfallback]
  by_cases hlast : cfg.lasttry = cfg.lastboot <;> simp [hlast]

theorem unacknowledged_exampleConf :
    ∃ last run, main exampleStart exampleConf = .boot last run ∧
      run.saves = [recordTry exampleConf "safe".toList] ∧
      FallsBackTo "safe".toList exampleStart (recordTry exampleConf "safe".toList) := by
  obtain ⟨last, hmain⟩ := main_selectedTag (exampleStart_nonInteractive exampleConf)
    (by decide) (by decide)
  have hsaves := saves_after_record exampleStart.boot
    (recordTry (clearTryonce exampleConf) (selectedTag exampleConf)) (selectedTag exampleConf)
  have hrun : Relation.ReflTransGen Step exampleConf exampleConf := .refl
  refine ⟨last, _, hmain, hsaves, ?_⟩
  exact (unacknowledged_start_iff hrun (exampleStart_nonInteractive exampleConf) hmain
    (by rw [hsaves]; exact List.mem_singleton_self _)
    (exampleStart_nonInteractive _)).mpr ⟨by decide, by decide, by decide⟩

def nilConf : Config :=
  { exampleConf with
    default := nil
    lasttry := nil
    images := [⟨nil, some "funky.img".toList⟩, ⟨"safe".toList, some "safe.img".toList⟩] }

/-- A failed boot of the image nil is taken for a success. -/
theorem not_fallsBackTo_nilConf :
    ∃ last run saved, NonInteractive exampleStart nilConf ∧
      main exampleStart nilConf = .boot last run ∧ saved ∈ run.saves ∧ saved.lasttry = nil ∧
      NonInteractive exampleStart saved ∧ ¬ FallsBackTo nilConf.fallback exampleStart saved := by
  obtain ⟨last, hmain⟩ := main_selectedTag (exampleStart_nonInteractive nilConf)
    (by decide) (by decide)
  have hsaves := saves_after_record exampleStart.boot
    (recordTry (clearTryonce nilConf) (selectedTag nilConf)) (selectedTag nilConf)
  refine ⟨last, _, _, exampleStart_nonInteractive _, hmain,
    by rw [hsaves]; exact List.mem_singleton_self _, rfl, exampleStart_nonInteractive _, ?_⟩
  rw [fallsBackTo_iff (exampleStart_nonInteractive _)]
  exact fun h => h.1 rfl

/-! ## A boot that comes up -/

/-- monoinit acknowledges the boot, and the next start takes it for a success and selects
`tag`. -/
def Acknowledges (tag : Text) (procCmdline : Option Text) (saved : Config) : Prop :=
  ∃ acked last, monoinit procCmdline saved = .ok (some acked) ∧
    checkLast acked = .ok last ∧ last.ret = 1 ∧ last.image = tag

theorem checkLast_success_iff {cfg : Config} {tag : Text} (hdefault : cfg.default = tag) :
    (∃ last, checkLast cfg = .ok last ∧ last.ret = 1 ∧ last.image = tag) ↔
      cfg.lasttry = cfg.lastboot ∧ tag.length < mbImageMax := by
  subst hdefault
  constructor
  · rintro ⟨last, hlast, hret, -⟩
    obtain ⟨hfits, rfl⟩ := checkLast_eq_ok_iff.mp hlast
    have heq : cfg.lasttry = cfg.lastboot := by
      by_contra hne
      simp [hne] at hret
    rw [selectedTag, if_pos heq] at hfits
    exact ⟨heq, hfits⟩
  · rintro ⟨heq, hfits⟩
    have hselected : selectedTag cfg = cfg.default := if_pos heq
    refine ⟨_, checkLast_of_lt (by rwa [hselected]), if_pos heq, hselected⟩

/-- The acknowledgement of the image in a section reaches the next start exactly if
monoinit passes every section before it, and the default tag fits. -/
theorem acknowledges_iff {env : BootEnv} {cfg saved : Config} {arg procCmdline : Option Text}
    {before after : List ImageSec} {image : ImageSec} {parsed : Parsed}
    (himages : cfg.images = before ++ image :: after)
    (htitles : (cfg.images.map ImageSec.title).Nodup)
    (hsaved : saved ∈ (cmdBoot env cfg arg).saves) (htried : saved.lasttry = image.title)
    (hparse : parseCmdline procCmdline = .ok (.ok parsed))
    (hfile : image.filename = some parsed.imagefile) :
    Acknowledges cfg.default procCmdline saved ↔
      (∀ sec ∈ before, Passes parsed.imagefile sec) ∧ cfg.default.length < mbImageMax := by
  have hrecord : saved = recordTry cfg image.title := by
    rw [cmdBoot_saves] at hsaved
    obtain ⟨tag, -, rfl⟩ : ∃ tag, bootTag cfg arg = some tag ∧ recordTry cfg tag = saved := by
      simpa using hsaved
    exact congrArg (recordTry cfg) htried
  subst hrecord
  have hdistinct : ∀ sec ∈ before, sec.title ≠ image.title := by
    rw [himages, List.map_append, List.map_cons] at htitles
    intro sec hsec heq
    exact (List.nodup_append.mp htitles).2.2 _ (List.mem_map_of_mem hsec) _ List.mem_cons_self heq
  have hne := findBooted_ne_none (himages ▸ List.mem_append_right before List.mem_cons_self) hfile
  rw [← findBooted_append_iff hfile hdistinct, ← himages]
  have hrecorded : (recordTry cfg image.title).images = cfg.images := rfl
  rw [Acknowledges, monoinit_eq hparse, hrecorded]
  cases hfound : findBooted parsed.imagefile cfg.images with
  | error f => simp [Except.map]
  | ok title =>
    cases title with
    | none => exact absurd hfound hne
    | some title =>
      have hsame : (acknowledge (recordTry cfg image.title) (some title)).default = cfg.default :=
        rfl
      have hcheck := checkLast_success_iff hsame
      simpa [Except.map, acknowledge, recordTry, eq_comm] using hcheck

def funkyCmdline : Option Text :=
  some "ro IMAGE=funky.img CONFIG=monoboot/tag/funky CDEV=hda1\n".toList

def funkyParsed : Parsed where
  imagefile := "funky.img".toList
  configdev := "/dev/hda1".toList
  configpath := "monoboot/tag/funky".toList

theorem parseCmdline_funky : parseCmdline funkyCmdline = .ok (.ok funkyParsed) := by
  decide

theorem acknowledges_exampleConf :
    Acknowledges "funky".toList funkyCmdline (recordTry exampleConf "funky".toList) := by
  have hsaved : recordTry exampleConf "funky".toList ∈
      (cmdBoot exampleStart.boot exampleConf (some "funky".toList)).saves := by
    rw [cmdBoot_saves]
    exact List.mem_singleton_self _
  have himages : exampleConf.images = [] ++ ⟨"funky".toList, some "funky.img".toList⟩ ::
      exampleConf.images.tail := rfl
  exact (acknowledges_iff himages (by decide) hsaved rfl parseCmdline_funky rfl).mpr
    ⟨by simp, by decide⟩

/-- A section before funky whose file name only starts like that of funky. -/
def shadowedConf : Config :=
  { exampleConf with
    images :=
      [⟨"mental".toList, some "funky.img.new".toList⟩,
       ⟨"funky".toList, some "funky.img".toList⟩,
       ⟨"safe".toList, some "safe.img".toList⟩] }

/-- monoinit acknowledges mental for funky. -/
theorem not_acknowledges_shadowedConf :
    (shadowedConf.images.map ImageSec.title).Nodup ∧
      recordTry shadowedConf "funky".toList ∈
        (cmdBoot exampleStart.boot shadowedConf (some "funky".toList)).saves ∧
      parseCmdline funkyCmdline = .ok (.ok funkyParsed) ∧
      ⟨"funky".toList, some funkyParsed.imagefile⟩ ∈ shadowedConf.images ∧
      ¬ Acknowledges shadowedConf.default funkyCmdline
        (recordTry shadowedConf "funky".toList) := by
  refine ⟨by decide, ?_, parseCmdline_funky, by decide, ?_⟩
  · rw [cmdBoot_saves]
    exact List.mem_singleton_self _
  · have hinit : monoinit funkyCmdline (recordTry shadowedConf "funky".toList) =
        .ok (some { recordTry shadowedConf "funky".toList with lastboot := "mental".toList }) := by
      rw [monoinit_eq parseCmdline_funky]
      decide
    rintro ⟨acked, last, hacked, hlast, hret, himage⟩
    rw [hinit, Except.ok.injEq, Option.some.injEq] at hacked
    subst hacked
    exact absurd ((checkLast_success_iff rfl).mp ⟨last, hlast, hret, himage⟩).1 (by decide)

end Monoimage.Boot
