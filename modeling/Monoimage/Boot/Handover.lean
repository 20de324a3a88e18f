import Monoimage.Boot.Monoinit
import Monoimage.Boot.Readme
import Monoimage.CommandLine.Compose

/-! From monoboot over kexec to monoinit: what monoinit can read from the command line
that `monoimage_load` composes from the text of `cmd_boot`. -/
namespace Monoimage.Boot

open Clib CommandLine Device

/-! ## The line -/

def ideWord : Text := "ide=nodma".toList

def configWord (tag : Text) : Text := "CONFIG=".toList ++ configPath tag

def frontWords (console tag : Text) : Text :=
  rootWords ++ ' ' :: (console ++ ' ' :: (ideWord ++ ' ' :: configWord tag))

theorem kexecAppend_eq (console : Option Text) (tag : Text) :
    kexecAppend console tag =
      printString console ++ ' ' :: (ideWord ++ ' ' :: configWord tag) := by
  have hformat : " ide=nodma CONFIG=".toList = ' ' :: (ideWord ++ ' ' :: "CONFIG=".toList) := by
    decide
  rw [kexecAppend, hformat]
  rfl

theorem commandLine_kexecAppend (console : Option Text) (tag path imagesUuid configUuid : Text) :
    commandLine (some (kexecAppend console tag)) path imagesUuid configUuid =
      frontWords (printString console) tag ++ ' ' :: settings path imagesUuid configUuid := by
  rw [commandLine_some, kexecAppend_eq]
  simp only [frontWords, List.append_assoc, List.cons_append]

/-- The console is one word, also where there is none and `printf` shows that. -/
theorem printString_word {env : BootEnv} {console : Option Text}
    (h : getKernelConsole env.procCmdline env.stack = .ok console) :
    ' ' ∉ printString console ∧ '\n' ∉ printString console := by
  cases console with
  | none => exact ⟨by decide, by decide⟩
  | some console => exact getKernelConsole_word h

def lineRead (line : Text) : Text := (readLine (mbCmdlineMax - 1) (procCmdline line)).1

theorem parseCmdline_eq (line : Text) :
    parseCmdline (some (procCmdline line)) = parseLine (lineRead line) := by
  have hne : procCmdline line ≠ [] := by simp [procCmdline]
  simp only [parseCmdline, fgets, if_neg hne]
  rfl

/-! The names that monoinit looks for, in the words that are always there. -/

theorem MonoinitVar.blank_notMem (var : MonoinitVar) : ' ' ∉ var.name := by
  cases var <;> decide

theorem MonoinitVar.newline_notMem (var : MonoinitVar) : '\n' ∉ var.name := by
  cases var <;> decide

theorem strstr_rootWords (var : MonoinitVar) : strstr rootWords var.name = none := by
  cases var <;> decide

theorem strstr_ideWord (var : MonoinitVar) : strstr ideWord var.name = none := by
  cases var <;> decide

theorem strstr_configWord {var : MonoinitVar} (hne : var ≠ .config) (tag : Text) :
    strstr (configWord tag) var.name = strstr tag var.name := by
  cases var with
  | config => exact absurd rfl hne
  | image => rfl
  | cdev => rfl

theorem carried_configWord (tag : Text) :
    carried (configWord tag) MonoinitVar.config.name = some (configPath tag) :=
  rfl

theorem strstr_configWord_config (tag : Text) :
    strstr (configWord tag) MonoinitVar.config.name = some (configWord tag) :=
  rfl

theorem configWord_append (first second : Text) :
    configWord (first ++ second) = configWord first ++ second :=
  rfl

theorem configPath_inj {tag tag' : Text} (h : configPath tag = configPath tag') : tag = tag' :=
  List.append_cancel_left h

theorem notMem_configWord {tag : Text} {c : Char} (hfixed : c ∉ configWord []) (htag : c ∉ tag) :
    c ∉ configWord tag := by
  rw [← List.nil_append tag, configWord_append, List.mem_append, not_or]
  exact ⟨hfixed, htag⟩

theorem newline_notMem_frontWords {console tag : Text} (hconsole : '\n' ∉ console)
    (htag : '\n' ∉ tag) : '\n' ∉ frontWords console tag := by
  have hide : '\n' ∉ ideWord := by decide
  have hconfig : '\n' ∉ configWord tag := notMem_configWord (by decide) htag
  simp [frontWords, newline_notMem_rootWords, hconsole, hide, hconfig]

theorem getCmdlineVar_front {console rest : Text} (var : MonoinitVar)
    (hskip : strstr console var.name = none) :
    getCmdlineVar (rootWords ++ ' ' :: (console ++ ' ' :: (ideWord ++ ' ' :: rest))) var.name =
      getCmdlineVar rest var.name := by
  rw [getCmdlineVar_skip var.blank_notMem (strstr_rootWords var),
    getCmdlineVar_skip var.blank_notMem hskip,
    getCmdlineVar_skip var.blank_notMem (strstr_ideWord var)]

theorem getCmdlineVar_console_iff {console rest found value : Text} (var : MonoinitVar)
    (hconsole : ' ' ∉ console) (hfound : strstr console var.name = some found) :
    getCmdlineVar (rootWords ++ ' ' :: (console ++ ' ' :: rest)) var.name = .ok (some value) ↔
      carried console var.name = some value ∨
        (carried console var.name = none ∧ rest = value) := by
  rw [getCmdlineVar_skip var.blank_notMem (strstr_rootWords var),
    getCmdlineVar_hit_iff hconsole var.blank_notMem hfound]

theorem lineRead_append {first rest : Text} (hfirst : '\n' ∉ first) (hrest : rest ≠ [])
    (hfits : (first ++ rest).length < 256) :
    ∃ n, rest.length ≤ n + 1 ∧
      lineRead (first ++ rest) = first ++ (readLine n (procCmdline rest)).1 := by
  have hpos := List.length_pos_of_ne_nil hrest
  rw [List.length_append] at hfits
  have hmax : mbCmdlineMax - 1 = 254 := rfl
  refine ⟨254 - first.length, by omega, ?_⟩
  rw [lineRead, procCmdline, List.append_assoc, hmax]
  exact readLine_append hfirst (by omega)

/-! ## CONFIG

monoinit gets the tag back only if it is one word, and the console does not mislead it. -/

theorem exists_first_stop {text : Text} (h : ' ' ∈ text ∨ '\n' ∈ text) :
    ∃ word stop rest, text = word ++ stop :: rest ∧ ' ' ∉ word ∧ '\n' ∉ word ∧
      (stop = ' ' ∨ stop = '\n') := by
  induction text with
  | nil => simp at h
  | cons c text ih =>
    by_cases hc : c = ' ' ∨ c = '\n'
    · exact ⟨[], c, text, rfl, by simp, by simp, hc⟩
    · obtain ⟨hblank, hnewline⟩ := not_or.mp hc
      have htext : ' ' ∈ text ∨ '\n' ∈ text := by
        simpa [Ne.symm hblank, Ne.symm hnewline] using h
      obtain ⟨word, stop, rest, rfl, hword, hword', hstop⟩ := ih htext
      exact ⟨c :: word, stop, rest, rfl, by simp [Ne.symm hblank, hword],
        by simp [Ne.symm hnewline, hword'], hstop⟩

section Config

variable {console tag rest : Text}

theorem getCmdlineVar_config_cut {word tail : Text} {stop : Char} (hconsole : '\n' ∉ console)
    (hskip : strstr console MonoinitVar.config.name = none) (hword : ' ' ∉ word)
    (hword' : '\n' ∉ word) (hstop : stop = ' ' ∨ stop = '\n') (htail : tail ≠ [])
    (hfits : (frontWords console word ++ stop :: tail).length < 256) :
    getCmdlineVar (lineRead (frontWords console word ++ stop :: tail)) MonoinitVar.config.name =
      .ok (some (configPath word)) := by
  have hconfig := notMem_configWord (by decide) hword
  have hconfig' := notMem_configWord (by decide) hword'
  have hfront := newline_notMem_frontWords hconsole hword'
  obtain ⟨n, hn, hread⟩ := lineRead_append hfront (List.cons_ne_nil stop tail) hfits
  have hpos := List.length_pos_of_ne_nil htail
  obtain ⟨n, rfl⟩ := Nat.exists_eq_succ_of_ne_zero (show n ≠ 0 by simp at hn; omega)
  rw [hread, frontWords]
  simp only [List.append_assoc, List.cons_append]
  rw [getCmdlineVar_front _ hskip]
  rcases hstop with rfl | rfl
  · have hblank : (readLine (n + 1) (procCmdline (' ' :: tail))).1 =
        ' ' :: (readLine n (procCmdline tail)).1 := rfl
    rw [hblank, getCmdlineVar_hit hconfig (MonoinitVar.blank_notMem _)
      (strstr_configWord_config word), carried_configWord]
    rfl
  · have hnewline : (readLine (n + 1) (procCmdline ('\n' :: tail))).1 = ['\n'] := rfl
    rw [hnewline, getCmdlineVar_last hconfig hconfig' (MonoinitVar.newline_notMem _)
      (strstr_configWord_config word), carried_configWord]
    rfl

theorem config_of_read (hconsole : ' ' ∉ console) (hconsole' : '\n' ∉ console)
    (hfits : (frontWords console tag ++ ' ' :: rest).length < 256)
    (h : getCmdlineVar (lineRead (frontWords console tag ++ ' ' :: rest)) MonoinitVar.config.name =
      .ok (some (configPath tag))) :
    (' ' ∉ tag ∧ '\n' ∉ tag) ∧ Transparent console MonoinitVar.config.name (configPath tag) := by
  cases hfound : strstr console MonoinitVar.config.name with
  | none =>
    have hnone : firstWord console MonoinitVar.config.name = none := by
      rw [firstWord_word hconsole, hfound]
      rfl
    refine ⟨?_, Or.inl hnone⟩
    by_contra hstop
    rw [← not_or, not_not] at hstop
    obtain ⟨word, stop, tail, rfl, hword, hword', hstop⟩ := exists_first_stop hstop
    have hsplit : frontWords console (word ++ stop :: tail) ++ ' ' :: rest =
        frontWords console word ++ stop :: (tail ++ ' ' :: rest) := by
      simp only [frontWords, configWord_append, List.append_assoc, List.cons_append]
    rw [hsplit] at h hfits
    rw [getCmdlineVar_config_cut hconsole' hfound hword hword' hstop (by simp) hfits] at h
    have hcut := configPath_inj (Option.some.inj (Except.ok.inj h))
    simp at hcut
  | some found =>
    have hide : '\n' ∉ ideWord := by decide
    have hfirst : '\n' ∉ rootWords ++ ' ' :: (console ++ ' ' :: ideWord) := by
      simp [newline_notMem_rootWords, hconsole', hide]
    have hsplit : frontWords console tag ++ ' ' :: rest =
        (rootWords ++ ' ' :: (console ++ ' ' :: ideWord)) ++
          ' ' :: (configWord tag ++ ' ' :: rest) := by
      simp only [frontWords, List.append_assoc, List.cons_append]
    rw [hsplit] at h hfits
    obtain ⟨n, -, hread⟩ := lineRead_append hfirst (List.cons_ne_nil _ _) hfits
    rw [hread, List.append_assoc, List.cons_append, List.append_assoc, List.cons_append,
      getCmdlineVar_console_iff _ hconsole hfound] at h
    rcases h with hcarried | ⟨-, hrest⟩
    · have htag : tag <:+ console := (List.suffix_append _ _).trans (carried_suffix hcarried)
      exact ⟨⟨fun hmem => hconsole (htag.subset hmem), fun hmem => hconsole' (htag.subset hmem)⟩,
        Or.inr ((supplies_word hconsole).mpr hcarried)⟩
    · -- the rest of the line starts with ide=nodma
      have hhead : some 'i' = some 'm' := congrArg List.head? hrest
      exact absurd hhead (by decide)

end Config

/-! ## IMAGE

The name of the image file is on the line only as the path behind F=, and there nothing
says IMAGE. -/

/-- A text does not end in `/path` if it ends in `path` and some more text without a slash:
the part behind the last slash would be longer than itself. -/
theorem slash_path_ne {before first path tail : Text} (hslash : '/' ∉ tail) (hne : tail ≠ []) :
    before ++ '/' :: path ≠ first ++ (path ++ tail) := by
  induction hlen : path.length using Nat.strong_induction_on generalizing path with
  | _ n ih =>
    intro h
    have hsuffix : '/' :: path <:+ first ++ (path ++ tail) := ⟨before, h⟩
    have htail : tail <:+ first ++ (path ++ tail) :=
      (List.suffix_append path tail).trans (List.suffix_append _ _)
    rcases List.suffix_or_suffix_of_suffix hsuffix htail with hin | ⟨q, hq⟩
    · exact hslash (hin.subset List.mem_cons_self)
    · cases q with
      | nil => exact hslash (by rw [List.nil_append] at hq; rw [hq]; exact List.mem_cons_self)
      | cons c q =>
        obtain ⟨rfl, rfl⟩ : c = '/' ∧ q ++ tail = path := List.cons.inj hq
        have hshorter : q.length < n := by
          have := List.length_pos_of_ne_nil hne
          rw [← hlen, List.length_append]
          omega
        apply ih q.length hshorter rfl
        apply List.append_cancel_right
        simpa only [List.append_assoc, List.cons_append] using h

def settingsTail (imagesUuid configUuid : Uuid) : Text :=
  ' ' :: (setting .imagesUuid (uuid2str imagesUuid) ++ ' ' ::
    setting .configUuid (uuid2str configUuid))

theorem procCmdline_settings (path : Text) (imagesUuid configUuid : Uuid) :
    procCmdline (settings path (uuid2str imagesUuid) (uuid2str configUuid)) =
      setting .image path ++ procCmdline (settingsTail imagesUuid configUuid) :=
  List.append_assoc _ _ _

theorem length_settings (path : Text) (imagesUuid configUuid : Uuid) :
    path.length + 8 ≤ (settings path (uuid2str imagesUuid) (uuid2str configUuid)).length := by
  simp only [settings, setting, LinuxrcVar.name, List.length_append, List.length_cons,
    List.length_nil]
  omega

def tailChars : Text := [' ', 'I', 'C', '=', '\n'] ++ uuidChars

theorem mem_setting_uuid {var : LinuxrcVar} {uu : Uuid} {c : Char} (hvar : var ≠ .image)
    (h : c ∈ setting var (uuid2str uu)) : c ∈ tailChars := by
  rcases List.mem_append.mp h with h | h
  · cases var with
    | image => exact absurd rfl hvar
    | imagesUuid =>
      rw [List.mem_singleton.mp h]
      decide
    | configUuid =>
      rw [List.mem_singleton.mp h]
      decide
  · rcases List.mem_cons.mp h with rfl | h
    · decide
    · exact List.mem_append_right _ (mem_uuid2str h)

theorem mem_procCmdline {word : Text} (hword : ∀ c ∈ word, c ∈ tailChars) :
    ∀ c ∈ procCmdline word, c ∈ tailChars := by
  intro c hc
  rcases List.mem_append.mp hc with hc | hc
  · exact hword c hc
  · rw [List.mem_singleton.mp hc]
    decide

theorem mem_settingsTail {imagesUuid configUuid : Uuid} {c : Char}
    (h : c ∈ procCmdline (settingsTail imagesUuid configUuid)) : c ∈ tailChars := by
  refine mem_procCmdline (fun c hc => ?_) c h
  simp only [settingsTail, List.mem_cons, List.mem_append] at hc
  rcases hc with rfl | hc | rfl | hc
  · decide
  · exact mem_setting_uuid (by decide) hc
  · decide
  · exact mem_setting_uuid (by decide) hc

section Image

variable {file mount path : Text} {imagesUuid configUuid : Uuid} {n : Nat}

/-- What monoinit gets of the settings. -/
abbrev settingsRead (n : Nat) (path : Text) (imagesUuid configUuid : Uuid) : Text :=
  (readLine n (procCmdline (settings path (uuid2str imagesUuid) (uuid2str configUuid)))).1

theorem settingsRead_of_newline {word rest : Text} (hword : '\n' ∉ word)
    (hn : (settings (word ++ '\n' :: rest) (uuid2str imagesUuid) (uuid2str configUuid)).length ≤
      n + 1) :
    settingsRead n (word ++ '\n' :: rest) imagesUuid configUuid =
      setting .image word ++ ['\n'] := by
  have hlen := length_settings (word ++ '\n' :: rest) imagesUuid configUuid
  have hfits : (setting .image word).length < n := by
    simp only [setting, LinuxrcVar.name, List.length_append, List.length_cons,
      List.length_nil] at hlen ⊢
    omega
  have hstream : procCmdline (settings (word ++ '\n' :: rest) (uuid2str imagesUuid)
      (uuid2str configUuid)) = setting .image word ++ '\n' ::
        (rest ++ procCmdline (settingsTail imagesUuid configUuid)) := by
    rw [procCmdline_settings]
    simp only [setting, List.append_assoc, List.cons_append]
  rw [settingsRead, hstream, readLine_newline (setting_newline hword) hfits]

theorem settingsRead_of_newline_notMem (hpath : '\n' ∉ path)
    (hn : (settings path (uuid2str imagesUuid) (uuid2str configUuid)).length ≤ n + 1) :
    ∃ last, settingsRead n path imagesUuid configUuid = setting .image path ++ ' ' ::
        (setting .imagesUuid (uuid2str imagesUuid) ++ ' ' :: last) ∧
      last <+: procCmdline (setting .configUuid (uuid2str configUuid)) := by
  have hfirst : '\n' ∉ setting .image path ++ ' ' ::
      (setting .imagesUuid (uuid2str imagesUuid) ++ [' ']) := by
    simp [setting_newline hpath, setting_newline (uuid2str_newline imagesUuid)]
  have hsplit : procCmdline (settings path (uuid2str imagesUuid) (uuid2str configUuid)) =
      (setting .image path ++ ' ' :: (setting .imagesUuid (uuid2str imagesUuid) ++ [' '])) ++
        procCmdline (setting .configUuid (uuid2str configUuid)) := by
    simp only [procCmdline, settings, List.append_assoc, List.cons_append, List.nil_append]
  have hfits : (setting .image path ++ ' ' ::
      (setting .imagesUuid (uuid2str imagesUuid) ++ [' '])).length ≤ n := by
    simp only [settings, setting, LinuxrcVar.name, List.length_append, List.length_cons,
      List.length_nil] at hn ⊢
    omega
  refine ⟨_, ?_, readLine_prefix_self (n - (setting .image path ++ ' ' ::
    (setting .imagesUuid (uuid2str imagesUuid) ++ [' '])).length) _⟩
  rw [settingsRead, hsplit, readLine_append hfirst hfits]
  simp only [List.append_assoc, List.cons_append, List.nil_append]

/-- The image file is not the tail of the line either. -/
theorem file_ne_append_settingsRead (first : Text) (hfirst : '\n' ∉ first)
    (hpath : imagePath file = mount ++ '/' :: path)
    (hn : (settings path (uuid2str imagesUuid) (uuid2str configUuid)).length ≤ n + 1) :
    file ≠ first ++ settingsRead n path imagesUuid configUuid := by
  by_cases hnewline : '\n' ∈ path
  · -- the line ends in the path, which would stand behind a slash and behind a =
    obtain ⟨word, rest, rfl, hword⟩ := List.eq_append_cons_of_mem hnewline
    rw [settingsRead_of_newline hword hn]
    rintro rfl
    have hends : (mbPathImages ++ '/' :: (first ++ ['F']) ++ ['='] ++ word) ++ '\n' :: [] =
        (mount ++ ['/'] ++ word) ++ '\n' :: rest := by
      simpa [imagePath, setting, LinuxrcVar.name] using hpath
    have hfront : '\n' ∉ mbPathImages ++ '/' :: (first ++ ['F']) ++ ['='] ++ word := by
      have himages : '\n' ∉ mbPathImages := by decide
      simp [himages, hfirst, hword]
    obtain ⟨hfront, -⟩ := (List.append_cons_inj_of_notMem hfront (by simp)).mp hends
    have hlast := congrArg List.getLast? (List.append_cancel_right hfront)
    rw [List.getLast?_concat, List.getLast?_concat] at hlast
    exact absurd hlast (by decide)
  · obtain ⟨last, hread, hlast⟩ := settingsRead_of_newline_notMem hnewline hn
    have htail : ' ' :: (setting .imagesUuid (uuid2str imagesUuid) ++ ' ' :: last) <+:
        procCmdline (settingsTail imagesUuid configUuid) := by
      rw [procCmdline, settingsTail, List.cons_append, List.append_assoc, List.cons_append,
        List.cons_prefix_cons, List.prefix_append_right_inj, List.cons_prefix_cons]
      exact ⟨rfl, rfl, hlast⟩
    have hslash : '/' ∉ ' ' :: (setting .imagesUuid (uuid2str imagesUuid) ++ ' ' :: last) :=
      fun hmem => absurd (mem_settingsTail (htail.subset hmem)) (by decide)
    rw [hread]
    rintro rfl
    have hends : mount ++ '/' :: path = (mbPathImages ++ '/' :: (first ++ ['F', '='])) ++
        (path ++ ' ' :: (setting .imagesUuid (uuid2str imagesUuid) ++ ' ' :: last)) := by
      rw [← hpath]
      simp [imagePath, setting, LinuxrcVar.name]
    exact slash_path_ne hslash (List.cons_ne_nil _ _) hends

/-- IMAGE in the path would be one more than in the file. -/
theorem getCmdlineVar_settingsRead_ne (hpath : imagePath file = mount ++ '/' :: path) :
    getCmdlineVar (settingsRead n path imagesUuid configUuid) MonoinitVar.image.name ≠
      .ok (some file) := by
  intro h
  obtain ⟨c, tail, hfound⟩ := getCmdlineVar_some h
  have hread := (strstr_some hfound).1.sublist.count_le 'M'
  have hname : MonoinitVar.image.name.count 'M' = 1 := by decide
  have htail : (procCmdline (settingsTail imagesUuid configUuid)).count 'M' = 0 :=
    List.count_eq_zero.mpr fun hmem => absurd (mem_settingsTail hmem) (by decide)
  have hsettings : (procCmdline (settings path (uuid2str imagesUuid)
      (uuid2str configUuid))).count 'M' = path.count 'M' := by
    rw [procCmdline_settings, List.count_append, htail]
    simp [setting, LinuxrcVar.name]
  have hsuffix : path.count 'M' ≤ (imagePath file).count 'M' := by
    rw [hpath, List.count_append, List.count_cons]
    omega
  have hfile : (imagePath file).count 'M' = file.count 'M' := by
    have himages : mbPathImages.count 'M' = 0 := by decide
    simp [imagePath, himages]
  have hline : (settingsRead n path imagesUuid configUuid).count 'M' ≤ path.count 'M' := by
    rw [← hsettings]
    exact (readLine_prefix_self _ _).sublist.count_le 'M'
  rw [List.count_append, List.count_cons, List.count_append, hname] at hread
  omega

theorem image_of_read {console tag : Text} (hconsole : ' ' ∉ console) (htag : ' ' ∉ tag)
    (htag' : '\n' ∉ tag) (hpath : imagePath file = mount ++ '/' :: path)
    (hn : (settings path (uuid2str imagesUuid) (uuid2str configUuid)).length ≤ n + 1)
    (h : getCmdlineVar (frontWords console tag ++ ' ' :: settingsRead n path imagesUuid configUuid)
      MonoinitVar.image.name = .ok (some file)) :
    Supplies (console ++ ' ' :: tag) MonoinitVar.image.name file := by
  have hide : '\n' ∉ ideWord := by decide
  have hconfig : ' ' ∉ configWord tag := notMem_configWord (by decide) htag
  have hconfig' : '\n' ∉ configWord tag := notMem_configWord (by decide) htag'
  have hsearch := strstr_configWord (show MonoinitVar.image ≠ .config by decide) tag
  have hsame := carried_congr hsearch
  rw [supplies_append, supplies_word hconsole, supplies_word htag, firstWord_word hconsole]
  simp only [frontWords, List.append_assoc, List.cons_append] at h
  cases hfound : strstr console MonoinitVar.image.name with
  | some found =>
    rw [getCmdlineVar_console_iff _ hconsole hfound] at h
    rcases h with hcarried | ⟨-, hrest⟩
    · exact Or.inl hcarried
    · have hfile : file = (ideWord ++ ' ' :: (configWord tag ++ [' '])) ++
          settingsRead n path imagesUuid configUuid := by
        rw [← hrest]
        simp
      exact absurd hfile (file_ne_append_settingsRead _ (by simp [hide, hconfig']) hpath hn)
  | none =>
    rw [getCmdlineVar_front _ hfound] at h
    cases htagfound : strstr tag MonoinitVar.image.name with
    | some found =>
      rw [htagfound] at hsearch
      rw [getCmdlineVar_hit_iff hconfig (MonoinitVar.blank_notMem _)
        hsearch, hsame] at h
      rcases h with hcarried | ⟨-, hrest⟩
      · exact Or.inr ⟨rfl, hcarried⟩
      · exact absurd hrest.symm (file_ne_append_settingsRead [] (by simp) hpath hn)
    | none =>
      rw [htagfound] at hsearch
      rw [getCmdlineVar_skip (MonoinitVar.blank_notMem _) hsearch] at h
      exact absurd h (getCmdlineVar_settingsRead_ne hpath)

end Image

/-! ## The whole line -/

section Line

variable {console tag path rest value : Text} {imagesUuid configUuid : Uuid} {n : Nat}

theorem strstr_uuidWord {word : Text} (var : MonoinitVar)
    (hword : ∀ c ∈ word, c ∈ tailChars) :
    strstr word var.name = none := by
  have hletter {c : Char} (hc : c ∉ tailChars) : c ∉ word :=
    fun hmem => hc (hword c hmem)
  cases var with
  | image => exact strstr_eq_none_of_notMem (c := 'M') (by decide) (hletter (by decide))
  | config => exact strstr_eq_none_of_notMem (c := 'O') (by decide) (hletter (by decide))
  | cdev => exact strstr_eq_none_of_notMem (c := 'V') (by decide) (hletter (by decide))

theorem getCmdlineVar_read_iff (var : MonoinitVar) (hpath : '\n' ∉ path) (hvalue : ' ' ∉ value)
    (hn : (settings path (uuid2str imagesUuid) (uuid2str configUuid)).length ≤ n + 1) :
    getCmdlineVar (frontWords console tag ++ ' ' :: settingsRead n path imagesUuid configUuid)
        var.name = .ok (some value) ↔
      Supplies (frontWords console tag ++ ' ' :: setting .image path) var.name value := by
  obtain ⟨last, hread, hlast⟩ := settingsRead_of_newline_notMem hpath hn
  have hsplit : frontWords console tag ++ ' ' :: settingsRead n path imagesUuid configUuid =
      (frontWords console tag ++ ' ' :: setting .image path) ++ ' ' ::
        (setting .imagesUuid (uuid2str imagesUuid) ++ ' ' :: last) := by
    rw [hread, List.append_assoc, List.cons_append]
  rw [hsplit]
  apply getCmdlineVar_words_iff var.blank_notMem hvalue
  · exact strstr_uuidWord var fun c hc => mem_setting_uuid (by decide) hc
  · exact strstr_uuidWord var fun c hc =>
      mem_procCmdline (fun c hc => mem_setting_uuid (by decide) hc) c (hlast.subset hc)

theorem firstWord_rootWords_ideWord (var : MonoinitVar) :
    firstWord rootWords var.name = none ∧ firstWord ideWord var.name = none := by
  cases var <;> decide

theorem supplies_front_config (htag : ' ' ∉ tag) :
    Supplies (frontWords console tag ++ ' ' :: rest) MonoinitVar.config.name (configPath tag) ↔
      Transparent console MonoinitVar.config.name (configPath tag) := by
  obtain ⟨hroot, hide⟩ := firstWord_rootWords_ideWord .config
  simp only [frontWords, List.append_assoc, List.cons_append]
  rw [supplies_skip hroot]
  apply supplies_append_iff_transparent
  rw [supplies_skip hide, supplies_append, supplies_word (notMem_configWord (by decide) htag)]
  exact Or.inl (carried_configWord tag)

theorem supplies_front_iff {var : MonoinitVar} (hvar : var ≠ .config) (htag : ' ' ∉ tag) :
    Supplies (frontWords console tag ++ ' ' :: rest) var.name value ↔
      Supplies (console ++ ' ' :: tag) var.name value ∨
        (firstWord (console ++ ' ' :: tag) var.name = none ∧ Supplies rest var.name value) := by
  obtain ⟨hroot, hide⟩ := firstWord_rootWords_ideWord var
  have hconfig : ' ' ∉ configWord tag := notMem_configWord (by decide) htag
  obtain ⟨hsupplies, hnone⟩ : (Supplies (configWord tag) var.name value ↔ _) ∧ _ :=
    word_congr hconfig htag (strstr_configWord hvar tag)
  simp only [frontWords, List.append_assoc, List.cons_append]
  rw [supplies_skip hroot, supplies_append, supplies_skip hide, supplies_append, supplies_append,
    firstWord_append, Option.or_eq_none_iff, hsupplies, hnone, and_or_left, or_assoc, and_assoc]

theorem suffix_of_supplies {var : Text} (hconsole : ' ' ∉ console) (htag : ' ' ∉ tag)
    (h : Supplies (console ++ ' ' :: tag) var value) : value <:+ console ∨ value <:+ tag := by
  rw [supplies_append, supplies_word hconsole, supplies_word htag] at h
  rcases h with h | ⟨-, h⟩
  · exact Or.inl (carried_suffix h)
  · exact Or.inr (carried_suffix h)

theorem notMem_file {file : Text} {c : Char} (hconsole : c ∉ console) (htag : c ∉ tag)
    (hfile : file <:+ console ∨ file <:+ tag) : c ∉ file := by
  intro hmem
  rcases hfile with hfile | hfile
  · exact hconsole (hfile.subset hmem)
  · exact htag (hfile.subset hmem)

theorem cdev_of_path {file mount : Text} (hconsole : ' ' ∉ console) (htag : ' ' ∉ tag)
    (hpath : imagePath file = mount ++ '/' :: path) (hfile : file <:+ console ∨ file <:+ tag)
    (hnone : firstWord (console ++ ' ' :: tag) MonoinitVar.cdev.name = none) :
    strstr path MonoinitVar.cdev.name = none := by
  rw [firstWord_append, Option.or_eq_none_iff, firstWord_word hconsole,
    firstWord_word htag] at hnone
  have hnot {word : Text} (hword : (if (strstr word MonoinitVar.cdev.name).isSome then some word
      else none) = none) : ¬ MonoinitVar.cdev.name <:+: word := by
    rw [← strstr_eq_none_iff]
    simpa using hword
  have hhead : strstr (imagePath file) MonoinitVar.cdev.name =
      strstr file MonoinitVar.cdev.name := rfl
  rw [strstr_eq_none_iff]
  intro hin
  have himage : MonoinitVar.cdev.name <:+: imagePath file := by
    rw [hpath]
    exact hin.trans ((List.suffix_cons '/' path).trans (List.suffix_append _ _)).isInfix
  have hinfile : MonoinitVar.cdev.name <:+: file := by
    by_contra hnotin
    rw [← strstr_eq_none_iff, ← hhead, strstr_eq_none_iff] at hnotin
    exact hnotin himage
  rcases hfile with hfile | hfile
  · exact hnot hnone.1 (hinfile.trans hfile.isInfix)
  · exact hnot hnone.2 (hinfile.trans hfile.isInfix)

theorem supplies_front_cdev {file mount dev : Text} (hconsole : ' ' ∉ console) (htag : ' ' ∉ tag)
    (hpath : imagePath file = mount ++ '/' :: path) (hblank : ' ' ∉ path)
    (hfile : file <:+ console ∨ file <:+ tag) :
    Supplies (frontWords console tag ++ ' ' :: setting .image path) MonoinitVar.cdev.name dev ↔
      Supplies (console ++ ' ' :: tag) MonoinitVar.cdev.name dev := by
  have hsame : strstr (setting .image path) MonoinitVar.cdev.name =
      strstr path MonoinitVar.cdev.name := rfl
  rw [supplies_front_iff (by decide) htag, or_iff_left_iff_imp]
  rintro ⟨hnone, hsupplies⟩
  rw [supplies_word (setting_blank hblank), carried_congr hsame, carried,
    cdev_of_path hconsole htag hpath hfile hnone] at hsupplies
  cases hsupplies

theorem notMem_path {file mount : Text} {c : Char} (hc : c ∉ imagePath [])
    (hpath : imagePath file = mount ++ '/' :: path) (hfile : c ∉ file) : c ∉ path := by
  have himage : c ∉ imagePath file := by
    have hsplit : imagePath file = imagePath [] ++ file := rfl
    rw [hsplit, List.mem_append, not_or]
    exact ⟨hc, hfile⟩
  rw [hpath] at himage
  exact fun hmem => himage (List.mem_append_right _ (List.mem_cons_of_mem _ hmem))

theorem lineRead_frontWords (hconsole : '\n' ∉ console) (htag : '\n' ∉ tag)
    (hfits : (frontWords console tag ++ ' ' :: settings path (uuid2str imagesUuid)
      (uuid2str configUuid)).length < 256) :
    ∃ n, (settings path (uuid2str imagesUuid) (uuid2str configUuid)).length ≤ n + 1 ∧
      lineRead (frontWords console tag ++ ' ' :: settings path (uuid2str imagesUuid)
        (uuid2str configUuid)) =
      frontWords console tag ++ ' ' :: settingsRead n path imagesUuid configUuid := by
  have hfront : '\n' ∉ frontWords console tag ++ [' '] := by
    simp [newline_notMem_frontWords hconsole htag]
  have hne : settings path (uuid2str imagesUuid) (uuid2str configUuid) ≠ [] := by
    apply List.ne_nil_of_length_pos
    have := length_settings path imagesUuid configUuid
    omega
  rw [List.append_cons] at hfits ⊢
  obtain ⟨n, hn, hread⟩ := lineRead_append hfront hne hfits
  exact ⟨n, hn, by rw [hread, List.append_assoc]; rfl⟩

end Line

/-- Where monoinit can read its three values. Neither `cmd_boot` nor `monoimage_load` writes
IMAGE or CDEV, so the console or the tag has to hold them. -/
structure NamesCarried (console tag file dev : Text) : Prop where
  tag_blank : ' ' ∉ tag
  tag_newline : '\n' ∉ tag
  config : Transparent console MonoinitVar.config.name (configPath tag)
  image : Supplies (console ++ ' ' :: tag) MonoinitVar.image.name file
  cdev : Supplies (console ++ ' ' :: tag) MonoinitVar.cdev.name dev
  file_ne : file ≠ []
  dev_fits : (devPath dev).length < mbPathMax

/-- `parse_cmdline` returns 0 with the booted file, the config device and the path of
CONFIG exactly if the console or the tag carries the names. -/
theorem handsOver_iff {env : BootEnv} {cfg : Config} {arg console : Option Text}
    {tag file mount path line dev : Text} {imagesUuid configUuid : Uuid}
    (hrun : KexecRun env cfg arg tag file console)
    (hpath : imagePath file = mount ++ '/' :: path)
    (hline : composeCommandLine (some (kexecAppend console tag)) path (uuid2str imagesUuid)
      (uuid2str configUuid) = .ok line)
    (hdev : ' ' ∉ dev) :
    parseCmdline (some (procCmdline line)) = .ok (.ok ⟨file, devPath dev, configPath tag⟩) ↔
      NamesCarried (printString console) tag file dev := by
  obtain ⟨hconsole, hconsole'⟩ := printString_word hrun.console_eq
  obtain ⟨hfits, rfl⟩ := store_eq_ok_iff.mp hline
  rw [commandLine_kexecAppend] at hfits ⊢
  generalize printString console = console at *
  have hfilefits : file.length < mbPathMax := by
    have := hrun.path_fits
    rw [imagePath, List.length_append, List.length_cons] at this
    omega
  have hdevPath : devPath dev = "/dev/".toList ++ dev := rfl
  rw [parseCmdline_eq, hdevPath, parseLine_eq_ok_iff]
  constructor
  · rintro ⟨himage, hconfig, hcdev, hne, -, -, hdevfits⟩
    obtain ⟨⟨htag, htag'⟩, htransparent⟩ := config_of_read hconsole hconsole' hfits hconfig
    obtain ⟨n, hn, hread⟩ := lineRead_frontWords hconsole' htag' hfits
    rw [hread] at himage hcdev
    have hsupplies := image_of_read hconsole htag htag' hpath hn himage
    have hfile := suffix_of_supplies hconsole htag hsupplies
    have hblank := notMem_path (by decide) hpath (notMem_file hconsole htag hfile)
    have hnewline := notMem_path (by decide) hpath (notMem_file hconsole' htag' hfile)
    rw [getCmdlineVar_read_iff .cdev hnewline hdev hn,
      supplies_front_cdev hconsole htag hpath hblank hfile] at hcdev
    exact ⟨htag, htag', htransparent, hsupplies, hcdev, hne, hdevfits⟩
  · intro h
    have hfile := suffix_of_supplies hconsole h.tag_blank h.image
    have hfileblank := notMem_file hconsole h.tag_blank hfile
    have hblank := notMem_path (by decide) hpath hfileblank
    have hnewline := notMem_path (by decide) hpath (notMem_file hconsole' h.tag_newline hfile)
    have hconfigblank : ' ' ∉ configPath tag := fun hmem =>
      notMem_configWord (by decide) h.tag_blank (List.mem_append_right _ hmem)
    obtain ⟨n, hn, hread⟩ := lineRead_frontWords hconsole' h.tag_newline hfits
    rw [hread, getCmdlineVar_read_iff .image hnewline hfileblank hn,
      getCmdlineVar_read_iff .config hnewline hconfigblank hn,
      getCmdlineVar_read_iff .cdev hnewline hdev hn,
      supplies_front_iff (by decide) h.tag_blank, supplies_front_config h.tag_blank,
      supplies_front_cdev hconsole h.tag_blank hpath hblank hfile]
    exact ⟨Or.inl h.image, h.config, h.cdev, h.file_ne, hfilefits, hrun.config_fits, h.dev_fits⟩

/-- A tag that holds both names, for an image file that holds one. -/
def carryingTag : Text := "IMAGE=CDEV=hda1".toList

def carryingFile : Text := "CDEV=hda1".toList

def carryingConf : Config :=
  { exampleConf with images := [⟨carryingTag, some carryingFile⟩] }

theorem handsOver_carryingTag :
    ∃ line, composeCommandLine (some (kexecAppend (some consoleText) carryingTag)) carryingFile
        (uuid2str exampleUuid) (uuid2str exampleUuid) = .ok line ∧
      parseCmdline (some (procCmdline line)) =
        .ok (.ok ⟨carryingFile, devPath "hda1".toList, configPath carryingTag⟩) := by
  have hrun : KexecRun exampleStart.boot carryingConf (some carryingTag) carryingTag carryingFile
      (some consoleText) :=
    ⟨by decide, by decide, by decide, rfl, by decide, rfl, exampleStart_console, by decide⟩
  have hline : composeCommandLine (some (kexecAppend (some consoleText) carryingTag)) carryingFile
      (uuid2str exampleUuid) (uuid2str exampleUuid) =
      .ok (commandLine (some (kexecAppend (some consoleText) carryingTag)) carryingFile
        (uuid2str exampleUuid) (uuid2str exampleUuid)) := by
    apply store_of_lt
    rw [exampleUuid_text]
    decide +kernel
  have hpath : imagePath carryingFile = mbPathImages ++ '/' :: carryingFile := rfl
  have hnames : NamesCarried (printString (some consoleText)) carryingTag carryingFile
      "hda1".toList :=
    ⟨by decide, by decide, by decide, by decide, by decide, by decide, by decide⟩
  exact ⟨_, hline, (handsOver_iff hrun hpath hline (by decide)).mpr hnames⟩

/-- An ordinary boot: monoinit does not find IMAGE. -/
theorem parseCmdline_funky_boot :
    KexecRun exampleStart.boot exampleConf (some "funky".toList) "funky".toList
        "funky.img".toList (some consoleText) ∧
      ∃ line, composeCommandLine (some (kexecAppend (some consoleText) "funky".toList))
          "funky.img".toList (uuid2str exampleUuid) (uuid2str exampleUuid) = .ok line ∧
        parseCmdline (some (procCmdline line)) = .ok (.error mbCmdlineParse) := by
  refine ⟨kexecRun_funky, _, store_of_lt ?_, ?_⟩
  · rw [exampleUuid_text]
    decide +kernel
  · rw [exampleUuid_text]
    decide +kernel

end Monoimage.Boot
