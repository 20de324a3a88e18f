import Monoimage.Boot.Tags
import Monoimage.Kexec.Relative

/-! The fixed buffers on the way of a tag, a file name and a console from monoboot over
`monoimage_load` to `linuxrc`. -/
namespace Monoimage.Boot

open Clib CommandLine Device Kexec

/-! ## `image_file` -/

/-- The loop over the sections comes to one whose file name is too long. -/
def CopiesLong (images : List ImageSec) (tag : Text) : Prop :=
  ∃ before image after file, matching images tag = before ++ image :: after ∧
    (∀ image ∈ before, image.Usable) ∧ image.filename = some file ∧ mbPathMax ≤ file.length

theorem not_copiesLong_nil {tag : Text} : ¬ CopiesLong [] tag := by
  rintro ⟨before, image, after, file, hsplit, -⟩
  simp [matching] at hsplit

theorem copiesLong_cons_iff {image : ImageSec} {rest : List ImageSec} {tag : Text} :
    CopiesLong (image :: rest) tag ↔
      if titleMatches image tag then
        match image.filename with
        | none => False
        | some file => mbPathMax ≤ file.length ∨ CopiesLong rest tag
      else CopiesLong rest tag := by
  unfold CopiesLong
  rw [matching, List.filter_cons]
  split
  · constructor
    · rintro ⟨before, long, after, file, hsplit, husable, hname, hlong⟩
      cases before with
      | nil =>
        obtain ⟨rfl, rfl⟩ := List.cons.inj hsplit
        rw [hname]
        exact Or.inl hlong
      | cons first before =>
        obtain ⟨rfl, htail⟩ := List.cons.inj hsplit
        rw [List.forall_mem_cons] at husable
        obtain ⟨⟨first, hfirst, -⟩, hbefore⟩ := husable
        rw [hfirst]
        exact Or.inr ⟨before, long, after, file, htail, hbefore, hname, hlong⟩
    · intro h
      cases hname : image.filename with
      | none =>
        rw [hname] at h
        exact h.elim
      | some file =>
        rw [hname] at h
        by_cases hlong : mbPathMax ≤ file.length
        · exact ⟨[], image, _, file, rfl, by simp, hname, hlong⟩
        · obtain ⟨before, long, after, file', hsplit, husable, hname', hlong'⟩ :=
            h.resolve_left hlong
          refine ⟨image :: before, long, after, file', by rw [← matching, hsplit]; rfl, ?_, hname',
            hlong'⟩
          exact List.forall_mem_cons.mpr ⟨⟨file, hname, Nat.not_le.mp hlong⟩, husable⟩
  · rfl

theorem imageFile_overflow_iff {images : List ImageSec} {tag : Text} {found : Option Text} :
    imageFile tag images found = .error .overflow ↔ CopiesLong images tag := by
  induction images generalizing found with
  | nil => simp [imageFile, not_copiesLong_nil]
  | cons image rest ih =>
    rw [imageFile, copiesLong_cons_iff]
    split
    · cases image.filename with
      | none => simp
      | some file =>
        dsimp only
        by_cases hlong : mbPathMax ≤ file.length
        · simp [store_of_le hlong, hlong, bind, Except.bind]
        · rw [store_of_lt (Nat.not_le.mp hlong)]
          simp only [bind, Except.bind, ih, hlong, false_or]
    · exact ih

/-! ## The other buffers of `cmd_boot` -/

theorem getKernelConsole_ne_overflow (procCmdline : Option Text) (stack : Text) :
    getKernelConsole procCmdline stack ≠ .error .overflow := by
  have hwalk (len p : Nat) (text : Text) : walkToConsole len p text ≠ .error .overflow := by
    induction text generalizing p with
    | nil => simp [walkToConsole]
    | cons c rest ih =>
      rw [walkToConsole]
      split
      · simp
      · split
        · simp
        · exact ih (p + 1)
  cases procCmdline with
  | none => simp [getKernelConsole]
  | some content =>
    rw [getKernelConsole]
    dsimp only
    unfold strlen
    split
    · dsimp only [bind, Except.bind]
      split
      · rename_i f herror
        intro h
        obtain rfl := Except.error.inj h
        exact hwalk _ _ _ herror
      · split
        · split <;> simp
        · simp
    · simp [bind, Except.bind]

section CmdBoot

variable {env : BootEnv} {cfg : Config} {tag path : Text}

theorem runKexec_overflow_iff :
    (runKexec env cfg tag path).finish = .fault .overflow ↔
      ∃ console, getKernelConsole env.procCmdline env.stack = .ok console ∧
        mbCmdlineMax ≤ (kexecCmdline console tag).length := by
  unfold runKexec
  cases hconsole : getKernelConsole env.procCmdline env.stack with
  | error f =>
    have hne : f ≠ .overflow := fun h => getKernelConsole_ne_overflow _ _ (h ▸ hconsole)
    simp [hne]
  | ok console =>
    dsimp only
    by_cases hlong : mbCmdlineMax ≤ (kexecCmdline console tag).length
    · simp [store_of_le hlong, hlong]
    · rw [store_of_lt (Nat.not_le.mp hlong)]
      dsimp only
      split
      · split <;> simp [hlong]
      · simp [hlong]

theorem bootImage_overflow_iff :
    (bootImage env cfg tag).finish = .fault .overflow ↔
      CopiesLong cfg.images tag ∨ ∃ file, imageFile tag cfg.images none = .ok (some file) ∧
        (mbPathMax ≤ (imagePath file).length ∨ env.stat (imagePath file) = true ∧
          (mbPathMax ≤ (configPath tag).length ∨ env.stat (configPath tag) = true ∧
            (runKexec env cfg tag (imagePath file)).finish = .fault .overflow)) := by
  rw [← @imageFile_overflow_iff _ _ none]
  unfold bootImage
  cases hfile : imageFile tag cfg.images none with
  | error f => simp
  | ok found =>
    cases found with
    | none => simp
    | some file =>
      simp only [reduceCtorEq, false_or, Except.ok.injEq, Option.some.injEq, exists_eq_left']
      by_cases hpath : mbPathMax ≤ (imagePath file).length
      · simp [store_of_le hpath, hpath]
      · rw [store_of_lt (Nat.not_le.mp hpath)]
        dsimp only
        cases env.stat (imagePath file) with
        | false => simp [hpath]
        | true =>
          rw [if_pos rfl]
          by_cases hconfig : mbPathMax ≤ (configPath tag).length
          · simp [store_of_le hconfig, hconfig]
          · rw [store_of_lt (Nat.not_le.mp hconfig)]
            dsimp only
            cases env.stat (configPath tag) with
            | false => simp [hpath, hconfig]
            | true =>
              -- mounting /proc does not change the end
              change (runKexec env cfg tag (imagePath file)).finish = .fault .overflow ↔ _
              simp [hpath, hconfig]

end CmdBoot

/-! ## From `command_line` to `imagefile` -/

/-- The line for an image fits `command_line`, and what `linuxrc` reads from it fits
`imagefile`. -/
def LoadFits (append mpoint image : Text) (imagesUuid configUuid : Uuid) : Prop :=
  ∀ path, relativePath mpoint image = .ok path →
    ∃ line, composeCommandLine (some append) path (uuid2str imagesUuid) (uuid2str configUuid) =
        .ok line ∧
      ∀ value, ReadsImage line value →
        ∃ imagefile, store bufMax (Linuxrc.imagesDir ++ value) = .ok imagefile

/-- The second buffer is large enough for whatever the first one holds. -/
theorem loadFits_iff {append mpoint image : Text} {imagesUuid configUuid : Uuid} :
    LoadFits append mpoint image imagesUuid configUuid ↔
      ∀ path, Remains mpoint image path →
        (commandLine (some append) path (uuid2str imagesUuid) (uuid2str configUuid)).length <
          256 := by
  unfold LoadFits
  simp only [relativePath_eq_ok_iff]
  constructor
  · intro h path hpath
    obtain ⟨line, hline, -⟩ := h path hpath
    exact (store_eq_ok_iff.mp hline).1
  · intro h path hpath
    refine ⟨_, store_of_lt (h path hpath), ?_⟩
    intro value hvalue
    obtain ⟨rest, hrest⟩ := rootWords_commandLine (some append) path (uuid2str imagesUuid)
      (uuid2str configUuid)
    have hlen := length_readsImage hrest hvalue
    refine ⟨_, store_of_lt ?_⟩
    rw [List.length_append, Linuxrc.length_imagesDir, bufMax]
    omega

/-! ## The whole way -/

/-- A start and the `cmd_boot` in it write nothing beyond a buffer: not `check_last`, not
`cmd_boot`, and if that comes to `kexec -l`, neither `monoimage_load` with its text and image
nor `linuxrc` with that line. The argument is the tag that `check_last` left, or in the shell
what was typed. -/
def BootFits (env : BootEnv) (cfg : Config) (arg : Option Text) (mpoint : Text)
    (imagesUuid configUuid : Uuid) : Prop :=
  ∃ last, checkLast cfg = .ok last ∧ (cmdBoot env last.cfg arg).finish ≠ .fault .overflow ∧
    ∀ tag file console, KexecRun env last.cfg arg tag file console →
      LoadFits (kexecAppend console tag) mpoint (imagePath file) imagesUuid configUuid

/-- The tag that `cmd_boot` goes on with; `check_last` has cleared `tryonce`. -/
def Asked (cfg : Config) (arg : Option Text) (tag : Text) : Prop :=
  match arg with
  | none => cfg.default = tag
  | some typed => typed = tag ∧ checkImageTag cfg tag = true

theorem bootTag_clearTryonce_eq_some_iff {cfg : Config} {arg : Option Text} {tag : Text} :
    bootTag (clearTryonce cfg) arg = some tag ↔ Asked cfg arg tag := by
  cases arg with
  | none =>
    have hdefault : bootTag (clearTryonce cfg) none = some cfg.default := rfl
    rw [hdefault, Option.some.injEq, Asked]
  | some typed =>
    rw [bootTag_clearTryonce, Asked]
    split
    · rename_i htag
      rw [Option.some.injEq]
      exact ⟨fun h => ⟨h, h ▸ htag⟩, And.left⟩
    · rename_i htag
      simp only [reduceCtorEq, false_iff, not_and]
      rintro rfl
      exact htag

/-- The name of the last section for `tag`, when all of them have one that fits. -/
def LastFile (images : List ImageSec) (tag file : Text) : Prop :=
  (∀ image ∈ matching images tag, image.Usable) ∧
    ∃ last, (matching images tag).getLast? = some last ∧ last.filename = some file

theorem imageFile_iff_lastFile {images : List ImageSec} {tag file : Text} :
    imageFile tag images none = .ok (some file) ↔ LastFile images tag file := by
  rw [imageFile_eq_ok_iff, LastFile]
  refine and_congr_right fun _ => ?_
  cases (matching images tag).getLast? with
  | none => simp
  | some last => simp [eq_comm]

/-- The room for the console, the tag and the path besides the words around them. -/
def LineFits (console tag mpoint image : Text) (imagesUuid configUuid : Uuid) : Prop :=
  console.length + tag.length < 209 ∧ ∀ path, Remains mpoint image path →
    console.length + tag.length + path.length + (uuid2str imagesUuid).length +
      (uuid2str configUuid).length < 197

/-- What `cmd_boot` and those behind it put together for the tag is short, as far as the boot
gets. -/
def TagFits (env : BootEnv) (images : List ImageSec) (tag mpoint : Text)
    (imagesUuid configUuid : Uuid) : Prop :=
  ¬ CopiesLong images tag ∧ ∀ file, LastFile images tag file → file.length < 192 ∧
    (env.stat (imagePath file) = true → tag.length < 187 ∧
      (env.stat (configPath tag) = true →
        ∀ console, getKernelConsole env.procCmdline env.stack = .ok console →
          LineFits (printString console) tag mpoint (imagePath file) imagesUuid configUuid))

def TextsFit (env : BootEnv) (cfg : Config) (arg : Option Text) (mpoint : Text)
    (imagesUuid configUuid : Uuid) : Prop :=
  (selectedTag cfg).length < mbImageMax ∧
    ∀ tag, Asked cfg arg tag → TagFits env cfg.images tag mpoint imagesUuid configUuid

/-! The lengths of the texts that are put together. -/

theorem length_imagePath (file : Text) : (imagePath file).length = file.length + 8 := by
  rw [imagePath, List.length_append, List.length_cons, Nat.add_comm]
  rfl

theorem length_configPath (tag : Text) : (configPath tag).length = tag.length + 13 := by
  rw [configPath, List.length_append, Nat.add_comm]
  rfl

theorem length_kexecAppend (console : Option Text) (tag : Text) :
    (kexecAppend console tag).length = (printString console).length + tag.length + 31 := by
  have hwords : " ide=nodma CONFIG=".toList.length = 18 := by decide
  rw [kexecAppend, List.length_append, List.length_append, length_configPath, hwords]
  omega

theorem length_kexecCmdline (console : Option Text) (tag : Text) :
    (kexecCmdline console tag).length = (printString console).length + tag.length + 46 := by
  have hoption : "--command-line=".toList.length = 15 := by decide
  have hsplit : kexecCmdline console tag = "--command-line=".toList ++ kexecAppend console tag :=
    rfl
  rw [hsplit, List.length_append, length_kexecAppend, hoption]
  omega

theorem length_commandLine_some (append path imagesUuid configUuid : Text) :
    (commandLine (some append) path imagesUuid configUuid).length =
      append.length + path.length + imagesUuid.length + configUuid.length + 28 := by
  simp only [commandLine_some, settings, setting, LinuxrcVar.name, List.length_append,
    List.length_cons, List.length_nil, length_rootWords]
  omega

section BootFits

variable {env : BootEnv} {cfg : Config} {arg : Option Text} {tag mpoint : Text}
  {imagesUuid configUuid : Uuid}

theorem bootImage_ne_overflow_iff :
    (bootImage env cfg tag).finish ≠ .fault .overflow ↔
      ¬ CopiesLong cfg.images tag ∧ ∀ file, LastFile cfg.images tag file → file.length < 192 ∧
        (env.stat (imagePath file) = true → tag.length < 187 ∧
          (env.stat (configPath tag) = true →
            ∀ console, getKernelConsole env.procCmdline env.stack = .ok console →
              (printString console).length + tag.length < 209)) := by
  rw [ne_eq, bootImage_overflow_iff, not_or]
  refine and_congr_right fun _ => ?_
  simp only [runKexec_overflow_iff, imageFile_iff_lastFile, not_exists, not_and, not_or,
    Nat.not_le, length_imagePath, length_configPath, length_kexecCmdline, mbPathMax, mbCmdlineMax]
  refine forall_congr' fun file => imp_congr_right fun _ => ?_
  refine and_congr (by omega) (imp_congr_right fun _ => ?_)
  refine and_congr (by omega) (imp_congr_right fun _ => ?_)
  refine forall_congr' fun console => imp_congr_right fun _ => ?_
  omega

theorem kexecRun_clearTryonce_iff {file : Text} {console : Option Text} :
    KexecRun env (clearTryonce cfg) arg tag file console ↔
      Asked cfg arg tag ∧ LastFile cfg.images tag file ∧ file.length < 192 ∧
        env.stat (imagePath file) = true ∧ tag.length < 187 ∧
        env.stat (configPath tag) = true ∧
        getKernelConsole env.procCmdline env.stack = .ok console ∧
        (printString console).length + tag.length < 209 := by
  have hpath : (imagePath file).length < mbPathMax ↔ file.length < 192 := by
    rw [length_imagePath, mbPathMax]
    omega
  have hconfig : (configPath tag).length < mbPathMax ↔ tag.length < 187 := by
    rw [length_configPath, mbPathMax]
    omega
  have hcmdline : (kexecCmdline console tag).length < mbCmdlineMax ↔
      (printString console).length + tag.length < 209 := by
    rw [length_kexecCmdline, mbCmdlineMax]
    omega
  rw [← bootTag_clearTryonce_eq_some_iff, ← imageFile_iff_lastFile, ← hpath, ← hconfig, ← hcmdline]
  constructor
  · rintro ⟨htag, hfile, hpath, hstat, hconfig, hfound, hconsole, hcmdline⟩
    exact ⟨htag, hfile, hpath, hstat, hconfig, hfound, hconsole, hcmdline⟩
  · rintro ⟨htag, hfile, hpath, hstat, hconfig, hfound, hconsole, hcmdline⟩
    exact ⟨htag, hfile, hpath, hstat, hconfig, hfound, hconsole, hcmdline⟩

theorem loadFits_kexecAppend_iff {console : Option Text} {image : Text} :
    LoadFits (kexecAppend console tag) mpoint image imagesUuid configUuid ↔
      ∀ path, Remains mpoint image path →
        (printString console).length + tag.length + path.length + (uuid2str imagesUuid).length +
          (uuid2str configUuid).length < 197 := by
  rw [loadFits_iff]
  refine forall_congr' fun path => imp_congr_right fun _ => ?_
  rw [length_commandLine_some, length_kexecAppend]
  omega

theorem cmdBoot_ne_overflow_iff :
    (cmdBoot env cfg arg).finish ≠ .fault .overflow ↔
      ∀ tag, bootTag cfg arg = some tag →
        (bootImage env (recordTry cfg tag) tag).finish ≠ .fault .overflow := by
  unfold cmdBoot
  cases bootTag cfg arg with
  | none => simp
  | some tag => simp [BootRun.after]

end BootFits

def longTag : Text := List.replicate 32 'a'

def longTagConf : Config :=
  { exampleConf with fallback := longTag, images := [⟨longTag, some "funky.img".toList⟩] }

def longFileConf : Config :=
  { exampleConf with images := [⟨"safe".toList, some (List.replicate 192 'a')⟩] }

end Monoimage.Boot
