import Monoimage.Boot.Readme

/-! Tags and image sections: `check_image_tag` and the loop of `cmd_boot` both take a section
whose title is only the start of the tag, and the loop goes on to the last one. -/
namespace Monoimage.Boot

open Clib

def titles (images : List ImageSec) : List Text := images.map ImageSec.title

/-- The sections that are taken for `tag`. -/
def matching (images : List ImageSec) (tag : Text) : List ImageSec :=
  images.filter (titleMatches · tag)

theorem checkImageTag_iff {cfg : Config} {tag : Text} :
    checkImageTag cfg tag = true ↔ ∃ title ∈ titles cfg.images, title <+: tag := by
  simp [checkImageTag, titles, titleMatches_iff]

/-- `strcpy` into `image_file` is defined. -/
def ImageSec.Usable (image : ImageSec) : Prop :=
  ∃ file, image.filename = some file ∧ file.length < mbPathMax

/-- The loop needs a file name in every matching section, and keeps the last one. -/
theorem imageFile_eq_ok_iff {tag : Text} {images : List ImageSec} {found result : Option Text} :
    imageFile tag images found = .ok result ↔
      (∀ image ∈ matching images tag, image.Usable) ∧
        result = ((matching images tag).getLast?.map ImageSec.filename).getD found := by
  induction images generalizing found with
  | nil => simp [imageFile, matching, eq_comm]
  | cons image rest ih =>
    rw [imageFile, matching, List.filter_cons]
    by_cases hmatch : titleMatches image tag = true
    · rw [if_pos hmatch, if_pos hmatch, List.forall_mem_cons]
      cases hname : image.filename with
      | none => simp [ImageSec.Usable, hname]
      | some file =>
        by_cases hfits : file.length < mbPathMax
        · have husable : image.Usable := ⟨file, hname, hfits⟩
          have hlast : (((image :: matching rest tag).getLast?).map ImageSec.filename).getD found =
              ((matching rest tag).getLast?.map ImageSec.filename).getD (some file) := by
            rw [List.getLast?_cons]
            cases (matching rest tag).getLast? with
            | none => simp [hname]
            | some last => rfl
          simp only [store_of_lt hfits, husable, true_and, bind, Except.bind]
          rw [ih]
          exact and_congr_right fun _ => by rw [← hlast]; rfl
        · have hunusable : ¬ image.Usable := by
            rintro ⟨file', hname', hfits'⟩
            rw [hname, Option.some.injEq] at hname'
            exact hfits (hname' ▸ hfits')
          simp [store_of_le (Nat.not_lt.mp hfits), hunusable, bind, Except.bind]
    · rw [if_neg hmatch, if_neg hmatch]
      exact ih

/-! ## The path that `cmd_boot` looks at -/

def Action.statted : Action → Option Text
  | .stat path => some path
  | _ => none

/-- The first path that a run stats; for `cmd_boot` this is the one of the image. -/
def BootRun.imageStat (run : BootRun) : Option Text :=
  run.actions.findSome? Action.statted

/-- A run that leaves the defined behaviour on the way to `stat` may look at any path. -/
def MayStat (run : BootRun) (path : Text) : Prop :=
  run.imageStat = some path ∨ (run.imageStat = none ∧ ∃ f, run.finish = .fault f)

theorem ImageEnds.imageStat_eq {env : BootEnv} {cfg : Config} {tag file : Text} {run : BootRun}
    (h : ImageEnds env cfg tag run) (hfile : Resolves cfg.images tag file) :
    run.imageStat = some (imagePath file) := by
  cases h with
  | unresolved hnone => exact absurd hfile (hnone file)
  | missing hfile' => rw [hfile.unique hfile']; rfl
  | overrun hfile' => rw [hfile.unique hfile']; rfl
  | unconfigured hfile' => rw [hfile.unique hfile']; rfl
  | kexec hfile' => rw [hfile.unique hfile']; rfl

theorem ImageEnds.faults {env : BootEnv} {cfg : Config} {tag : Text} {run : BootRun}
    (h : ImageEnds env cfg tag run) (hnone : ∀ file, ¬ Resolves cfg.images tag file) :
    run.imageStat = none ∧ ∃ f, run.finish = .fault f := by
  cases h with
  | unresolved => exact ⟨rfl, _, rfl⟩
  | missing hfile => exact absurd hfile (hnone _)
  | overrun hfile => exact absurd hfile (hnone _)
  | unconfigured hfile => exact absurd hfile (hnone _)
  | kexec hfile => exact absurd hfile (hnone _)

theorem mayStat_cmdBoot_iff {env : BootEnv} {cfg : Config} {arg : Option Text} {tag path : Text}
    (htag : bootTag cfg arg = some tag) :
    MayStat (cmdBoot env cfg arg) path ↔
      ∀ file, Resolves cfg.images tag file → path = imagePath file := by
  have hrun : cmdBoot env cfg arg =
      (bootImage env (recordTry cfg tag) tag).after [.saveConfig (recordTry cfg tag)] := by
    rw [cmdBoot, htag]
  have hstat : (cmdBoot env cfg arg).imageStat =
      (bootImage env (recordTry cfg tag) tag).imageStat := by
    rw [hrun]
    rfl
  have hfinish : (cmdBoot env cfg arg).finish =
      (bootImage env (recordTry cfg tag) tag).finish := by
    rw [hrun]
    rfl
  have hends := bootImage_ends env (recordTry cfg tag) tag
  unfold MayStat
  rw [hstat, hfinish]
  by_cases hfile : ∃ file, Resolves cfg.images tag file
  · obtain ⟨file, hfile⟩ := hfile
    rw [hends.imageStat_eq hfile]
    constructor
    · intro h file' hfile'
      rw [← hfile.unique hfile']
      simpa [eq_comm] using h
    · intro h
      rw [h file hfile]
      simp
  · have hnone : ∀ file, ¬ Resolves cfg.images tag file := fun file h => hfile ⟨file, h⟩
    obtain ⟨hstat, hfault⟩ := hends.faults hnone
    simp only [hstat, hfault, and_self, or_true, true_iff]
    exact fun file h => absurd h (hnone file)

/-! ## Exact titles -/

/-- The tag is accepted exactly when it is a title, and every image path that `cmd_boot`
looks at for it, typed or from the configuration, is that of the section of this title. -/
def ResolvesTag (cfg : Config) (tag : Text) : Prop :=
  (checkImageTag cfg tag = true ↔ tag ∈ titles cfg.images) ∧
    ∀ env arg path, bootTag cfg arg = some tag → MayStat (cmdBoot env cfg arg) path →
      ∃ file, ⟨tag, some file⟩ ∈ cfg.images ∧ path = imagePath file

/-- Some request makes `cmd_boot` settle on `tag`. -/
def SettlesOn (cfg : Config) (tag : Text) : Prop :=
  if yes <+: cfg.tryonce then cfg.bootonce = tag
  else cfg.default = tag ∨ ∃ title ∈ titles cfg.images, title <+: tag

/-- Every section taken for `tag` has a file name that fits the buffers, and the last of
them names the file of a section titled exactly `tag`. -/
def LastNames (images : List ImageSec) (tag : Text) : Prop :=
  (∀ image ∈ matching images tag, image.Usable) ∧
    ∃ last file, (matching images tag).getLast? = some last ∧ last.filename = some file ∧
      (imagePath file).length < mbPathMax ∧ ⟨tag, some file⟩ ∈ images

structure TagClear (cfg : Config) (tag : Text) : Prop where
  title : (∃ title ∈ titles cfg.images, title <+: tag) → tag ∈ titles cfg.images
  file : SettlesOn cfg tag → LastNames cfg.images tag

theorem bootTag_eq {cfg : Config} {arg : Option Text} :
    bootTag cfg arg =
      (match arg with
        | some tag => if checkImageTag cfg tag then some tag else none
        | none => some cfg.default).map
          fun tag => if yes <+: cfg.tryonce then cfg.bootonce else tag := by
  have hyes : strncmpEq cfg.tryonce yes 3 = true ↔ yes <+: cfg.tryonce :=
    strncmpEq_length_right (b := yes)
  unfold bootTag
  cases arg with
  | none => simp only [hyes]
  | some tag => simp only [hyes]

theorem settlesOn_iff {cfg : Config} {tag : Text} :
    SettlesOn cfg tag ↔ ∃ arg, bootTag cfg arg = some tag := by
  unfold SettlesOn
  simp only [bootTag_eq]
  by_cases hyes : yes <+: cfg.tryonce
  · simp only [hyes, if_true]
    constructor
    · intro h
      exact ⟨none, by simp [h]⟩
    · rintro ⟨arg, h⟩
      obtain ⟨_, _, h⟩ := Option.map_eq_some_iff.mp h
      exact h
  · simp only [hyes, if_false, Option.map_id', ← checkImageTag_iff]
    constructor
    · rintro (h | h)
      · exact ⟨none, by simp [h]⟩
      · exact ⟨some tag, by simp [h]⟩
    · rintro ⟨arg, h⟩
      cases arg with
      | none => exact Or.inl (Option.some.inj h)
      | some typed =>
        by_cases hcheck : checkImageTag cfg typed = true
        · simp only [hcheck, if_true, Option.some.injEq] at h
          exact Or.inr (h ▸ hcheck)
        · simp [hcheck] at h

theorem resolves_iff {images : List ImageSec} {tag file : Text} :
    Resolves images tag file ↔ (∀ image ∈ matching images tag, image.Usable) ∧
      (∃ last, (matching images tag).getLast? = some last ∧ last.filename = some file) ∧
        (imagePath file).length < mbPathMax := by
  unfold Resolves
  rw [imageFile_eq_ok_iff, and_assoc]
  cases (matching images tag).getLast? with
  | none => simp
  | some last => simp [eq_comm]

theorem lastNames_iff {images : List ImageSec} {tag : Text} :
    LastNames images tag ↔ ∃ file, Resolves images tag file ∧ ⟨tag, some file⟩ ∈ images := by
  unfold LastNames
  simp only [resolves_iff]
  constructor
  · rintro ⟨husable, last, file, hlast, hname, hfits, hmem⟩
    exact ⟨file, ⟨husable, ⟨last, hlast, hname⟩, hfits⟩, hmem⟩
  · rintro ⟨file, ⟨husable, ⟨last, hlast, hname⟩, hfits⟩, hmem⟩
    exact ⟨husable, last, file, hlast, hname, hfits, hmem⟩

theorem imagePath_injective {file file' : Text} (h : imagePath file = imagePath file') :
    file = file' :=
  (List.cons.inj (List.append_cancel_left h)).2

/-- The paths that a run may look at are the right ones when the loop ends on the right
file, and otherwise one of them is wrong. -/
theorem mayStat_named_iff (env : BootEnv) {cfg : Config} {arg : Option Text} {tag : Text}
    (htag : bootTag cfg arg = some tag) :
    (∀ path, MayStat (cmdBoot env cfg arg) path →
      ∃ file, ⟨tag, some file⟩ ∈ cfg.images ∧ path = imagePath file) ↔
        LastNames cfg.images tag := by
  rw [lastNames_iff]
  simp only [mayStat_cmdBoot_iff htag]
  constructor
  · intro h
    by_cases hfile : ∃ file, Resolves cfg.images tag file
    · obtain ⟨file, hfile⟩ := hfile
      have honly : ∀ file', Resolves cfg.images tag file' → imagePath file = imagePath file' := by
        intro file' hfile'
        rw [hfile.unique hfile']
      obtain ⟨file', hmem, hpath⟩ := h (imagePath file) honly
      rw [← imagePath_injective hpath] at hmem
      exact ⟨file, hfile, hmem⟩
    · -- nothing is resolved, so the empty path may be looked at, and no section names it
      obtain ⟨file, -, hpath⟩ := h [] fun file hresolves => absurd ⟨file, hresolves⟩ hfile
      cases hpath
  · rintro ⟨file, hfile, hmem⟩ path hpath
    exact ⟨file, hmem, hpath file hfile⟩

theorem resolvesTag_iff (cfg : Config) (tag : Text) : ResolvesTag cfg tag ↔ TagClear cfg tag := by
  have hcheck : (checkImageTag cfg tag = true ↔ tag ∈ titles cfg.images) ↔
      ((∃ title ∈ titles cfg.images, title <+: tag) → tag ∈ titles cfg.images) := by
    rw [checkImageTag_iff]
    constructor
    · exact fun h => h.mp
    · exact fun h => ⟨h, fun hmem => ⟨tag, hmem, List.prefix_refl tag⟩⟩
  constructor
  · rintro ⟨htitle, hpaths⟩
    refine ⟨hcheck.mp htitle, fun hsettles => ?_⟩
    obtain ⟨arg, harg⟩ := settlesOn_iff.mp hsettles
    apply (mayStat_named_iff exampleStart.boot harg).mp
    exact fun path => hpaths _ arg path harg
  · intro h
    refine ⟨hcheck.mpr h.title, fun env arg path harg => ?_⟩
    exact (mayStat_named_iff env harg).mpr (h.file (settlesOn_iff.mpr ⟨arg, harg⟩)) path

/-- The later title is the start of the earlier one. -/
def nestedConf : Config :=
  { exampleConf with
    images := [⟨"funky".toList, some "funky.img".toList⟩, ⟨"fun".toList, some "other.img".toList⟩] }

theorem not_resolvesTag_nestedConf :
    (titles nestedConf.images).Nodup ∧ ¬ ResolvesTag nestedConf "funky".toList := by
  refine ⟨by decide, fun h => ?_⟩
  have hother : MayStat (cmdBoot exampleStart.boot nestedConf (some "funky".toList))
      "/images/other.img".toList := Or.inl (by decide)
  obtain ⟨file, hmem, hpath⟩ := h.2 _ _ _ (by decide) hother
  have hfile : file = "other.img".toList := (imagePath_injective hpath).symm
  rw [hfile] at hmem
  exact absurd hmem (by decide)

end Monoimage.Boot
