import Monoimage.Kexec.Monoimage
import Monoimage.Linuxrc.Main

/-! The path of the image relative to the mount point of its device, from `monoimage_load`
over the command line to the file that `linuxrc` looks for. -/
namespace Monoimage.Kexec

open Clib CommandLine Device

/-! ## The common prefix -/

/-- The absolute path of a file below a mount point. -/
def imageOn (mpoint rel : Text) : Text :=
  if mpoint = ['/'] then '/' :: rel else mpoint ++ '/' :: rel

theorem strncmpEq_slash_iff {rest : Text} :
    strncmpEq rest ['/'] 1 = true ↔ rest.head? = some '/' := by
  cases rest with
  | nil => simp [strncmpEq]
  | cons c rest => simp [strncmpEq]

theorem skipCommon_append {rest : Text} (mpoint : Text) (hrest : rest ≠ []) :
    skipCommon mpoint (mpoint ++ rest) = .ok rest := by
  induction mpoint with
  | nil =>
    cases rest with
    | nil => exact absurd rfl hrest
    | cons c rest => rfl
  | cons c mpoint ih =>
    rw [List.cons_append, skipCommon, if_pos rfl]
    exact ih

/-- The loop stops behind the mount point, whatever the two have in common beyond it. -/
theorem relativePath_imageOn {rel : Text} (mpoint : Text) (hne : rel ≠ [])
    (hhead : rel.head? ≠ some '/') : relativePath mpoint (imageOn mpoint rel) = .ok rel := by
  have hslash : strncmpEq rel ['/'] 1 = false := by
    rwa [Bool.eq_false_iff, ne_eq, strncmpEq_slash_iff]
  unfold relativePath imageOn
  split
  · rename_i hroot
    subst hroot
    have hskip : skipCommon ['/'] ('/' :: rel) = .ok rel := skipCommon_append ['/'] hne
    simp [hskip, hslash, bind, Except.bind, pure, Except.pure]
  · rw [skipCommon_append mpoint (by simp)]
    simp [strncmpEq, bind, Except.bind, pure, Except.pure]

/-- `rest` is what the path of the image has behind all that it has in common with the mount
point. -/
def Behind (mpoint image rest : Text) : Prop :=
  image ≠ mpoint ∧ ∃ common, image = common ++ rest ∧ common <+: mpoint ∧
    ∀ c, [c] <+: rest → ¬ common ++ [c] <+: mpoint

theorem behind_nil_left_iff {image rest : Text} :
    Behind [] image rest ↔ image ≠ [] ∧ image = rest := by
  simp [Behind]

theorem behind_nil_iff {c : Char} {mpoint rest : Text} :
    Behind (c :: mpoint) [] rest ↔ [] = rest := by
  constructor
  · rintro ⟨-, common, hsplit, -⟩
    exact (List.append_eq_nil_iff.mp hsplit.symm).2.symm
  · rintro rfl
    exact ⟨by simp, [], rfl, List.nil_prefix, by simp⟩

theorem behind_cons_same_iff {c : Char} {mpoint image rest : Text} :
    Behind (c :: mpoint) (c :: image) rest ↔ Behind mpoint image rest := by
  constructor
  · rintro ⟨hne, common, hsplit, hcommon, hmax⟩
    cases common with
    | nil =>
      rw [List.nil_append] at hsplit
      have hfirst : [c] <+: rest := ⟨image, hsplit⟩
      exact absurd ⟨mpoint, rfl⟩ (hmax c hfirst)
    | cons d common =>
      obtain ⟨rfl, rfl⟩ := List.cons.inj hsplit
      refine ⟨fun h => hne (congrArg _ h), common, rfl, (List.cons_prefix_cons.mp hcommon).2, ?_⟩
      intro c' hc' h
      exact hmax c' hc' (List.cons_prefix_cons.mpr ⟨rfl, h⟩)
  · rintro ⟨hne, common, rfl, hcommon, hmax⟩
    refine ⟨fun h => hne (List.cons.inj h).2, c :: common, rfl,
      List.cons_prefix_cons.mpr ⟨rfl, hcommon⟩, ?_⟩
    intro c' hc' h
    exact hmax c' hc' (List.cons_prefix_cons.mp h).2

theorem behind_cons_ne_iff {c d : Char} {mpoint image rest : Text} (hne : c ≠ d) :
    Behind (c :: mpoint) (d :: image) rest ↔ d :: image = rest := by
  constructor
  · rintro ⟨-, common, hsplit, hcommon, -⟩
    cases common with
    | nil => exact hsplit
    | cons e common =>
      obtain ⟨rfl, rfl⟩ := List.cons.inj hsplit
      exact absurd (List.cons_prefix_cons.mp hcommon).1.symm hne
  · rintro rfl
    refine ⟨fun h => hne (List.cons.inj h).1.symm, [], rfl, List.nil_prefix, ?_⟩
    intro e he h
    obtain rfl := (List.cons_prefix_cons.mp he).1
    exact hne (List.cons_prefix_cons.mp h).1.symm

theorem skipCommon_eq_ok_iff {mpoint image rest : Text} :
    skipCommon mpoint image = .ok rest ↔ Behind mpoint image rest := by
  induction mpoint generalizing image with
  | nil =>
    rw [behind_nil_left_iff]
    cases image with
    | nil => simp [skipCommon]
    | cons d image => simp [skipCommon]
  | cons c mpoint ih =>
    cases image with
    | nil => rw [skipCommon, behind_nil_iff, Except.ok.injEq]
    | cons d image =>
      rw [skipCommon]
      by_cases hsame : c = d
      · subst hsame
        rw [if_pos rfl, ih, behind_cons_same_iff]
      · rw [if_neg hsame, behind_cons_ne_iff hsame, Except.ok.injEq]

/-- The path below the mount point: what is behind it, without a slash in front. -/
def Remains (mpoint image path : Text) : Prop :=
  ∃ rest, Behind mpoint image rest ∧ path = if rest.head? = some '/' then rest.tail else rest

theorem relativePath_eq_ok_iff {mpoint image path : Text} :
    relativePath mpoint image = .ok path ↔ Remains mpoint image path := by
  unfold relativePath Remains
  rw [bind_eq_ok_iff]
  refine exists_congr fun rest => and_congr skipCommon_eq_ok_iff ?_
  simp only [strncmpEq_slash_iff, List.drop_one, pure, Except.pure, Except.ok.injEq]
  exact eq_comm

/-! ## The line -/

/-- The words in front of the settings. -/
def frontOf (append : Option Text) : Text :=
  match append with
  | none => rootWords
  | some append => rootWords ++ ' ' :: append

theorem commandLine_eq (append : Option Text) (path imagesUuid configUuid : Text) :
    commandLine append path imagesUuid configUuid =
      frontOf append ++ ' ' :: settings path imagesUuid configUuid := by
  cases append with
  | none => rfl
  | some append => simp [commandLine, frontOf]

/-- The image that `linuxrc` looks for is the file below `/images` that kexec was given below
the mount point. -/
def KeepsPath (append : Option Text) (mpoint rel : Text) (imagesUuid configUuid : Uuid) : Prop :=
  ∃ line cmdline rest value, relativePath mpoint (imageOn mpoint rel) = .ok rel ∧
    composeCommandLine append rel (uuid2str imagesUuid) (uuid2str configUuid) = .ok line ∧
    fgets bufMax (procCmdline line) = some (cmdline, rest) ∧
    getCmdlineVar cmdline LinuxrcVar.image.name = .ok (some value) ∧
    store bufMax (Linuxrc.imagesDir ++ value) = .ok (Linuxrc.imagesDir ++ rel)

/-- The path is one word, and no letter F stands in front of it, unless with the path behind
it. A newline in the text of `--command-line` ends the line that `linuxrc` reads; what is in
front of it then has to hold the path. -/
def Undisturbed (append : Option Text) (rel : Text) : Prop :=
  match append with
  | none => ' ' ∉ rel ∧ '\n' ∉ rel
  | some append =>
    if '\n' ∈ append then
      let first := append.takeWhile (· ≠ '\n')
      Supplies first LinuxrcVar.image.name rel ∨
        ∃ rest, strstr first LinuxrcVar.image.name = some (LinuxrcVar.image.name ++ ' ' :: rest) ∧
          rel = rest ++ ['\n']
    else ' ' ∉ rel ∧ '\n' ∉ rel ∧ Transparent append LinuxrcVar.image.name rel

/-! ## What `linuxrc` reads -/

/-- The value of F on the line that the first `fgets` gives. -/
def ReadsImage (line value : Text) : Prop :=
  ∃ cmdline rest, fgets bufMax (procCmdline line) = some (cmdline, rest) ∧
    getCmdlineVar cmdline LinuxrcVar.image.name = .ok (some value)

theorem fgets_procCmdline (line : Text) :
    fgets bufMax (procCmdline line) = some (readLine 255 (procCmdline line)) := by
  rw [fgets, if_neg (by simp [procCmdline])]
  rfl

theorem readsImage_iff {line value : Text} :
    ReadsImage line value ↔
      getCmdlineVar (readLine 255 (procCmdline line)).1 LinuxrcVar.image.name =
        .ok (some value) := by
  unfold ReadsImage
  rw [fgets_procCmdline]
  constructor
  · rintro ⟨cmdline, rest, hread, hvalue⟩
    rw [Option.some.inj hread]
    exact hvalue
  · exact fun hvalue => ⟨_, _, rfl, hvalue⟩

/-- A line starts with words that `linuxrc` does not take for its variable. -/
theorem length_readsImage {line rest value : Text} (hline : line = rootWords ++ ' ' :: rest)
    (h : ReadsImage line value) : value.length < 237 := by
  have hskip : strstr rootWords LinuxrcVar.image.name = none := by decide
  have hread := readsImage_iff.mp h
  rw [hline, procCmdline, List.append_assoc,
    readLine_append newline_notMem_rootWords (by rw [length_rootWords]; omega), length_rootWords,
    List.cons_append, readLine, if_neg (by decide)] at hread
  dsimp only at hread
  rw [getCmdlineVar_skip (LinuxrcVar.blank_notMem _) hskip] at hread
  have hvalue := length_getCmdlineVar hread
  have hrest := length_readLine_le 236 (rest ++ ['\n'])
  omega

theorem rootWords_commandLine (append : Option Text) (path imagesUuid configUuid : Text) :
    ∃ rest, commandLine append path imagesUuid configUuid = rootWords ++ ' ' :: rest := by
  cases append with
  | none => exact ⟨_, rfl⟩
  | some append => exact ⟨_, rfl⟩

/-- A newline on the command line ends what `linuxrc` gets. -/
theorem readsImage_newline {first rest value : Text} (hfirst : '\n' ∉ first)
    (hfits : first.length < 255) :
    ReadsImage (first ++ '\n' :: rest) value ↔
      getCmdlineVar (first ++ ['\n']) LinuxrcVar.image.name = .ok (some value) := by
  rw [readsImage_iff, procCmdline, List.append_assoc, List.cons_append,
    readLine_newline hfirst hfits]

/-- Otherwise it gets the line, with its newline unless that does not fit. -/
theorem readsImage_whole {line : Text} (hline : '\n' ∉ line) (hfits : line.length < 256) :
    ∃ eol, eol <+: ['\n'] ∧ ∀ value, ReadsImage line value ↔
      getCmdlineVar (line ++ eol) LinuxrcVar.image.name = .ok (some value) := by
  refine ⟨_, readLine_prefix_self (255 - line.length) ['\n'], fun value => ?_⟩
  rw [readsImage_iff, procCmdline, readLine_append hline (Nat.le_of_lt_succ hfits)]

section Lines

variable {append : Option Text} {rel : Text} {imagesUuid configUuid : Uuid}

theorem strstr_configSetting {eol : Text} (heol : eol <+: ['\n']) :
    strstr (setting .configUuid (uuid2str configUuid) ++ eol) LinuxrcVar.image.name = none := by
  have hsetting : strstr (setting .configUuid (uuid2str configUuid)) LinuxrcVar.image.name = none :=
    strstr_setting_uuid (by decide)
  rw [LinuxrcVar.name, strstr_singleton_eq_none] at hsetting ⊢
  rw [List.mem_append, not_or]
  refine ⟨hsetting, fun h => ?_⟩
  exact absurd (heol.subset h) (by decide)

theorem newline_notMem_line (hfront : '\n' ∉ frontOf append) (hnewline : '\n' ∉ rel) :
    '\n' ∉ commandLine append rel (uuid2str imagesUuid) (uuid2str configUuid) := by
  simp [commandLine_eq, settings, hfront, setting_newline hnewline,
    setting_newline (uuid2str_newline _)]

/-- The path is one word of the line. -/
theorem readsImage_word (hfront : '\n' ∉ frontOf append) (hblank : ' ' ∉ rel)
    (hnewline : '\n' ∉ rel)
    (hfits : (commandLine append rel (uuid2str imagesUuid) (uuid2str configUuid)).length < 256) :
    ReadsImage (commandLine append rel (uuid2str imagesUuid) (uuid2str configUuid)) rel ↔
      Supplies (frontOf append ++ ' ' :: setting .image rel) LinuxrcVar.image.name rel := by
  obtain ⟨eol, heol, hread⟩ := readsImage_whole (newline_notMem_line hfront hnewline) hfits
  have hsplit : commandLine append rel (uuid2str imagesUuid) (uuid2str configUuid) ++ eol =
      (frontOf append ++ ' ' :: setting .image rel) ++ ' ' ::
        (setting .imagesUuid (uuid2str imagesUuid) ++ ' ' ::
          (setting .configUuid (uuid2str configUuid) ++ eol)) := by
    simp only [commandLine_eq, settings, List.append_assoc, List.cons_append]
  rw [hread, hsplit]
  exact getCmdlineVar_words_iff (LinuxrcVar.blank_notMem _) hblank (strstr_setting_uuid (by decide))
    (strstr_configSetting heol)

/-- A path with a blank would have to be the end of the line, and the path on the line comes
before that. -/
theorem not_readsImage_blank (hfront : '\n' ∉ frontOf append) (hblank : ' ' ∈ rel)
    (hnewline : '\n' ∉ rel)
    (hfits : (commandLine append rel (uuid2str imagesUuid) (uuid2str configUuid)).length < 256) :
    ¬ ReadsImage (commandLine append rel (uuid2str imagesUuid) (uuid2str configUuid)) rel := by
  obtain ⟨eol, -, hread⟩ := readsImage_whole (newline_notMem_line hfront hnewline) hfits
  rw [hread]
  intro h
  have hstart := getCmdlineVar_blank (LinuxrcVar.blank_notMem _) h hblank
  have hsuffix : settings rel (uuid2str imagesUuid) (uuid2str configUuid) ++ eol <:+
      commandLine append rel (uuid2str imagesUuid) (uuid2str configUuid) ++ eol := by
    rw [commandLine_eq, List.append_assoc, List.cons_append]
    exact (List.suffix_cons _ _).trans (List.suffix_append _ _)
  have hfirst := length_le_strstr hstart hsuffix ⟨_, rfl⟩
  simp only [settings, setting, LinuxrcVar.name, List.length_append, List.length_cons,
    List.length_nil] at hfirst
  omega

/-- A path with a newline ends the line, and the text in front of the newline is read. -/
theorem not_readsImage_newline (hfront : '\n' ∉ frontOf append) (hnewline : '\n' ∈ rel)
    (hfits : (commandLine append rel (uuid2str imagesUuid) (uuid2str configUuid)).length < 256) :
    ¬ ReadsImage (commandLine append rel (uuid2str imagesUuid) (uuid2str configUuid)) rel := by
  obtain ⟨word, rest, rfl, hword⟩ := List.eq_append_cons_of_mem hnewline
  have hsplit : commandLine append (word ++ '\n' :: rest) (uuid2str imagesUuid)
      (uuid2str configUuid) = (frontOf append ++ ' ' :: setting .image word) ++ '\n' ::
        (rest ++ ' ' :: (setting .imagesUuid (uuid2str imagesUuid) ++ ' ' ::
          setting .configUuid (uuid2str configUuid))) := by
    simp only [commandLine_eq, settings, setting, List.append_assoc, List.cons_append]
  have hfirst : '\n' ∉ frontOf append ++ ' ' :: setting .image word := by
    simp [hfront, setting_newline hword]
  rw [hsplit, List.length_append, List.length_cons] at hfits
  rw [hsplit, readsImage_newline hfirst (by omega),
    getCmdlineVar_line hfirst (LinuxrcVar.blank_notMem _) (LinuxrcVar.newline_notMem _)]
  rintro (hsupplies | ⟨hnil, -⟩ | ⟨swallowed, hstart, hvalue⟩)
  · -- a word of the line has no newline
    obtain ⟨w, hw, hcarried⟩ := Option.bind_eq_some_iff.mp hsupplies
    have hinside := (of_mem_splitOn (List.mem_of_find?_eq_some hw)).2
    exact hfirst (hinside.subset ((carried_suffix hcarried).subset hnewline))
  · simp at hnil
  · -- the line would end both in `=word` and in ` word`
    obtain ⟨rfl, -⟩ : word = swallowed ∧ rest = [] := by
      have hsuffix := (strstr_some hstart).1
      have hswallowed : '\n' ∉ swallowed :=
        fun h => hfirst (hsuffix.subset (by simp [h]))
      exact append_sep_inj hword hswallowed hvalue
    have hblank : ' ' :: word <:+ frontOf append ++ ' ' :: setting .image word :=
      (List.suffix_append _ _).trans (strstr_some hstart).1
    have hequals : '=' :: word <:+ frontOf append ++ ' ' :: setting .image word :=
      (List.suffix_append LinuxrcVar.image.name _).trans
        ((List.suffix_cons _ _).trans (List.suffix_append _ _))
    have hsame := (List.suffix_or_suffix_of_suffix hblank hequals).elim
      (fun h => h.eq_of_length rfl) (fun h => (h.eq_of_length rfl).symm)
    exact absurd (List.cons.inj hsame).1 (by decide)

theorem readsImage_append_newline {first rest : Text} (hfirst : '\n' ∉ first) (hne : rel ≠ [])
    (hfits : (commandLine (some (first ++ '\n' :: rest)) rel (uuid2str imagesUuid)
      (uuid2str configUuid)).length < 256) :
    ReadsImage (commandLine (some (first ++ '\n' :: rest)) rel (uuid2str imagesUuid)
        (uuid2str configUuid)) rel ↔
      Supplies first LinuxrcVar.image.name rel ∨
        ∃ rest, strstr first LinuxrcVar.image.name = some (LinuxrcVar.image.name ++ ' ' :: rest) ∧
          rel = rest ++ ['\n'] := by
  have hroot : strstr rootWords LinuxrcVar.image.name = none := by decide
  have hsplit : commandLine (some (first ++ '\n' :: rest)) rel (uuid2str imagesUuid)
      (uuid2str configUuid) = (rootWords ++ ' ' :: first) ++ '\n' ::
        (rest ++ ' ' :: settings rel (uuid2str imagesUuid) (uuid2str configUuid)) := by
    simp only [commandLine_some, List.append_assoc, List.cons_append]
  have hline : '\n' ∉ rootWords ++ ' ' :: first := by
    simp [newline_notMem_rootWords, hfirst]
  rw [hsplit, List.length_append, List.length_cons] at hfits
  rw [hsplit, readsImage_newline hline (by omega), List.append_assoc, List.cons_append,
    getCmdlineVar_skip (LinuxrcVar.blank_notMem _) hroot,
    getCmdlineVar_line hfirst (LinuxrcVar.blank_notMem _) (LinuxrcVar.newline_notMem _)]
  simp [hne]

theorem readsImage_undisturbed_iff (hne : rel ≠ [])
    (hfits : (commandLine append rel (uuid2str imagesUuid) (uuid2str configUuid)).length < 256) :
    ReadsImage (commandLine append rel (uuid2str imagesUuid) (uuid2str configUuid)) rel ↔
      Undisturbed append rel := by
  have hplain (hfront : '\n' ∉ frontOf append) :
      ReadsImage (commandLine append rel (uuid2str imagesUuid) (uuid2str configUuid)) rel ↔
        ' ' ∉ rel ∧ '\n' ∉ rel ∧
          Supplies (frontOf append ++ ' ' :: setting .image rel) LinuxrcVar.image.name rel := by
    by_cases hnewline : '\n' ∈ rel
    · simp [hnewline, not_readsImage_newline hfront hnewline hfits]
    · by_cases hblank : ' ' ∈ rel
      · simp [hblank, not_readsImage_blank hfront hblank hnewline hfits]
      · simp [hnewline, hblank, readsImage_word hfront hblank hnewline hfits]
  cases append with
  | none =>
    rw [hplain newline_notMem_rootWords, Undisturbed]
    constructor
    · exact fun ⟨hblank, hnewline, _⟩ => ⟨hblank, hnewline⟩
    · rintro ⟨hblank, hnewline⟩
      refine ⟨hblank, hnewline, ?_⟩
      rw [frontOf, supplies_skip (firstWord_rootWords _)]
      exact supplies_setting hblank
  | some append =>
    unfold Undisturbed
    dsimp only
    split
    · rename_i hmem
      obtain ⟨first, rest, rfl, hfirst⟩ := List.eq_append_cons_of_mem hmem
      rw [takeWhile_ne_append hfirst]
      exact readsImage_append_newline hfirst hne hfits
    · rename_i hmem
      rw [hplain (by simp [frontOf, newline_notMem_rootWords, hmem])]
      refine and_congr_right fun hblank => and_congr_right fun _ => ?_
      rw [frontOf, List.append_assoc, List.cons_append, supplies_skip (firstWord_rootWords _)]
      exact supplies_append_iff_transparent (supplies_setting hblank)

end Lines

/-- The path is kept exactly if the line fits its buffer, and nothing on it disturbs the
reader. -/
theorem keepsPath_iff {append : Option Text} {mpoint rel : Text} {imagesUuid configUuid : Uuid}
    (hne : rel ≠ []) (hhead : rel.head? ≠ some '/') :
    KeepsPath append mpoint rel imagesUuid configUuid ↔
      (commandLine append rel (uuid2str imagesUuid) (uuid2str configUuid)).length < 256 ∧
        Undisturbed append rel := by
  constructor
  · rintro ⟨line, cmdline, rest, value, -, hline, hread, hvalue, hfile⟩
    obtain ⟨hfits, rfl⟩ := store_eq_ok_iff.mp hline
    obtain rfl : value = rel := List.append_cancel_left (store_eq_ok_iff.mp hfile).2
    exact ⟨hfits, (readsImage_undisturbed_iff hne hfits).mp ⟨cmdline, rest, hread, hvalue⟩⟩
  · rintro ⟨hfits, hundisturbed⟩
    obtain ⟨cmdline, rest, hread, hvalue⟩ := (readsImage_undisturbed_iff hne hfits).mpr hundisturbed
    refine ⟨_, cmdline, rest, rel, relativePath_imageOn mpoint hne hhead, store_of_lt hfits, hread,
      hvalue, store_of_lt ?_⟩
    obtain ⟨front, hfront⟩ := rootWords_commandLine append rel (uuid2str imagesUuid)
      (uuid2str configUuid)
    have hlen := length_readsImage hfront ⟨cmdline, rest, hread, hvalue⟩
    rw [List.length_append, Linuxrc.length_imagesDir, bufMax]
    omega

theorem keepsPath_funky :
    KeepsPath (some "console=ttyS0".toList) "/images".toList "funky.img".toList exampleUuid
      exampleUuid := by
  apply (keepsPath_iff (by decide) (by decide)).mpr
  refine ⟨by rw [exampleUuid_text]; decide +kernel, ?_⟩
  rw [Undisturbed, if_neg (by decide)]
  exact ⟨by decide, by decide, by decide⟩

/-- With the text that `cmd_boot` passes on, `linuxrc` looks for what stands behind the F of
CONFIG. -/
theorem not_keepsPath_config :
    relativePath "/images".toList (imageOn "/images".toList "funky.img".toList) =
        .ok "funky.img".toList ∧
      ReadsImage (commandLine (some funkyAppend) "funky.img".toList (uuid2str exampleUuid)
        (uuid2str exampleUuid)) "G=monoboot/tag/funky".toList ∧
      ¬ KeepsPath (some funkyAppend) "/images".toList "funky.img".toList exampleUuid
        exampleUuid := by
  have hread : ReadsImage (commandLine (some funkyAppend) "funky.img".toList
      (uuid2str exampleUuid) (uuid2str exampleUuid)) "G=monoboot/tag/funky".toList := by
    rw [readsImage_iff, exampleUuid_text]
    decide +kernel
  refine ⟨by decide, hread, ?_⟩
  rintro ⟨line, cmdline, rest, value, -, hline, hfgets, hvalue, hfile⟩
  obtain ⟨-, rfl⟩ := store_eq_ok_iff.mp hline
  obtain rfl : value = "funky.img".toList :=
    List.append_cancel_left (store_eq_ok_iff.mp hfile).2
  have hother := readsImage_iff.mp ⟨cmdline, rest, hfgets, hvalue⟩
  exact absurd (hother.symm.trans (readsImage_iff.mp hread)) (by decide)

end Monoimage.Kexec
