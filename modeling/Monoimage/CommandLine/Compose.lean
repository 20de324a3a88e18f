import Monoimage.CommandLine.Variable
import Monoimage.Device.Walk

/-! The command line that `monoimage_load` composes for the new kernel, and what linuxrc
reads back from it. -/
namespace Monoimage.CommandLine

open Clib Device

inductive LinuxrcVar where
  | image
  | imagesUuid
  | configUuid
  deriving DecidableEq, Repr

def LinuxrcVar.name : LinuxrcVar → Text
  | image => ['F']
  | imagesUuid => ['I']
  | configUuid => ['C']

def rootWords : Text := "root=/dev/loop0 ro".toList

def setting (var : LinuxrcVar) (value : Text) : Text := var.name ++ '=' :: value

def settings (path imagesUuid configUuid : Text) : Text :=
  setting .image path ++ ' ' :: (setting .imagesUuid imagesUuid ++ ' ' ::
    setting .configUuid configUuid)

/-- `"root=/dev/loop0 ro %s F=%s I=%s C=%s"`, or without the first `%s` if there was no
`--command-line`. -/
def commandLine (append : Option Text) (path imagesUuid configUuid : Text) : Text :=
  match append with
  | some append => rootWords ++ ' ' :: (append ++ ' ' :: settings path imagesUuid configUuid)
  | none => rootWords ++ ' ' :: settings path imagesUuid configUuid

/-- `char command_line[256]`. -/
def composeCommandLine (append : Option Text) (path imagesUuid configUuid : Text) :
    Except Fault Text :=
  store 256 (commandLine append path imagesUuid configUuid)

def procCmdline (line : Text) : Text := line ++ ['\n']

/-- linuxrc finds the path and the two UUID texts on the line it gets from `fgets`. -/
def ReadsBack (stream path imagesUuid configUuid : Text) : Prop :=
  match fgets bufMax stream with
  | none => False
  | some (cmdline, _) =>
    getCmdlineVar cmdline LinuxrcVar.image.name = .ok (some path) ∧
      getCmdlineVar cmdline LinuxrcVar.imagesUuid.name = .ok (some imagesUuid) ∧
      getCmdlineVar cmdline LinuxrcVar.configUuid.name = .ok (some configUuid)

/-! ## The words of the line -/

theorem commandLine_some (append path imagesUuid configUuid : Text) :
    commandLine (some append) path imagesUuid configUuid =
      rootWords ++ ' ' :: (append ++ ' ' :: settings path imagesUuid configUuid) :=
  rfl

theorem LinuxrcVar.blank_notMem (var : LinuxrcVar) : ' ' ∉ var.name := by
  cases var <;> decide

theorem LinuxrcVar.newline_notMem (var : LinuxrcVar) : '\n' ∉ var.name := by
  cases var <;> decide

theorem length_rootWords : rootWords.length = 18 := by
  decide

theorem firstWord_rootWords (var : LinuxrcVar) : firstWord rootWords var.name = none := by
  cases var <;> decide

theorem uuid2str_blank (uu : Uuid) : ' ' ∉ uuid2str uu :=
  fun h => absurd (mem_uuid2str h) (by decide)

theorem uuid2str_newline (uu : Uuid) : '\n' ∉ uuid2str uu :=
  fun h => absurd (mem_uuid2str h) (by decide)

theorem uuid2str_ne_nil (uu : Uuid) : uuid2str uu ≠ [] := by
  unfold uuid2str
  split
  · decide
  · exact List.ne_nil_of_length_pos (by simp [length_uuidToStr])

theorem notMem_setting {var : LinuxrcVar} {value : Text} {c : Char} (hvar : c ∉ var.name)
    (heq : c ≠ '=') (hvalue : c ∉ value) : c ∉ setting var value := by
  simp [setting, hvar, heq, hvalue]

theorem setting_blank {var : LinuxrcVar} {value : Text} (hvalue : ' ' ∉ value) :
    ' ' ∉ setting var value :=
  notMem_setting var.blank_notMem (by decide) hvalue

theorem setting_newline {var : LinuxrcVar} {value : Text} (hvalue : '\n' ∉ value) :
    '\n' ∉ setting var value :=
  notMem_setting var.newline_notMem (by decide) hvalue

theorem supplies_setting {var : LinuxrcVar} {value : Text} (hvalue : ' ' ∉ value) :
    Supplies (setting var value) var.name value := by
  rw [supplies_word (setting_blank hvalue)]
  cases var <;> rfl

theorem strstr_setting {var other : LinuxrcVar} {value : Text} (hne : other ≠ var) :
    strstr (setting other value) var.name = strstr value var.name := by
  cases var <;> cases other <;> first | exact absurd rfl hne | rfl

theorem transparent_append_setting {var other : LinuxrcVar} {text value v : Text}
    (hne : other ≠ var) (hvalue : ' ' ∉ value) :
    Transparent (text ++ ' ' :: setting other value) var.name v ↔
      Transparent (text ++ ' ' :: value) var.name v := by
  obtain ⟨hsupplies, hnone⟩ := word_congr (setting_blank hvalue) hvalue (strstr_setting hne)
  rw [transparent_append, transparent_append, Transparent, Transparent, hsupplies, hnone]

theorem strstr_setting_uuid {var other : LinuxrcVar} {uu : Uuid} (hne : other ≠ var) :
    strstr (setting other (uuid2str uu)) var.name = none := by
  rw [strstr_setting hne]
  cases var <;>
    exact strstr_singleton_eq_none.mpr fun h => absurd (mem_uuid2str h) (by decide)

section Supplies

variable {append path : Text} {imagesUuid configUuid : Uuid}

theorem supplies_image (hpath : ' ' ∉ path) :
    Supplies (commandLine (some append) path (uuid2str imagesUuid) (uuid2str configUuid))
        LinuxrcVar.image.name path ↔
      Transparent append LinuxrcVar.image.name path := by
  rw [commandLine_some, supplies_skip (firstWord_rootWords _)]
  apply supplies_append_iff_transparent
  rw [settings, supplies_append]
  exact Or.inl (supplies_setting hpath)

/-- A setting behind the path is found unless the words up to the path hold its name. -/
theorem supplies_behind_path {var : LinuxrcVar} {rest value : Text} (hvar : .image ≠ var)
    (hpath : ' ' ∉ path) (hrest : Supplies rest var.name value) :
    Supplies (rootWords ++ ' ' :: (append ++ ' ' :: (setting .image path ++ ' ' :: rest)))
        var.name value ↔
      Transparent (append ++ ' ' :: path) var.name value := by
  rw [supplies_skip (firstWord_rootWords var), ← List.cons_append, ← List.append_assoc,
    supplies_append_iff_transparent hrest, transparent_append_setting hvar hpath]

theorem supplies_imagesUuid (hpath : ' ' ∉ path) :
    Supplies (commandLine (some append) path (uuid2str imagesUuid) (uuid2str configUuid))
        LinuxrcVar.imagesUuid.name (uuid2str imagesUuid) ↔
      Transparent (append ++ ' ' :: path) LinuxrcVar.imagesUuid.name (uuid2str imagesUuid) := by
  apply supplies_behind_path (by decide) hpath
  rw [supplies_append]
  exact Or.inl (supplies_setting (uuid2str_blank _))

theorem supplies_configUuid (hpath : ' ' ∉ path) :
    Supplies (commandLine (some append) path (uuid2str imagesUuid) (uuid2str configUuid))
        LinuxrcVar.configUuid.name (uuid2str configUuid) ↔
      Transparent (append ++ ' ' :: path) LinuxrcVar.configUuid.name (uuid2str configUuid) := by
  have hskip : firstWord (setting .imagesUuid (uuid2str imagesUuid))
      LinuxrcVar.configUuid.name = none := by
    rw [firstWord_word (setting_blank (uuid2str_blank _)), strstr_setting_uuid (by decide)]
    rfl
  apply supplies_behind_path (by decide) hpath
  rw [supplies_skip hskip]
  exact supplies_setting (uuid2str_blank _)

end Supplies

/-! ## Reading the line back -/

/-- linuxrc finds the value on the line: a word supplies it, or it is empty and the name
ends the line. -/
def Yields (line var value : Text) : Prop :=
  Supplies line var value ∨ (value = [] ∧ strstr line var = some var)

theorem readsBack_line_iff {line rest path : Text} {imagesUuid configUuid : Uuid}
    (hline : '\n' ∉ line) (hfits : line.length + 1 < bufMax) (hpath : '\n' ∉ path) :
    ReadsBack (line ++ '\n' :: rest) path (uuid2str imagesUuid) (uuid2str configUuid) ↔
      Yields line LinuxrcVar.image.name path ∧
      Supplies line LinuxrcVar.imagesUuid.name (uuid2str imagesUuid) ∧
      Supplies line LinuxrcVar.configUuid.name (uuid2str configUuid) := by
  have hread : fgets bufMax (line ++ '\n' :: rest) = some (line ++ ['\n'], rest) := by
    rw [fgets, if_neg (by simp), readLine_newline hline (by omega)]
  have hvar (var : LinuxrcVar) {value : Text} (hvalue : '\n' ∉ value) :
      getCmdlineVar (line ++ ['\n']) var.name = .ok (some value) ↔ Yields line var.name value :=
    getCmdlineVar_line_iff hline var.blank_notMem var.newline_notMem hvalue
  have huuid (var : LinuxrcVar) (uu : Uuid) :
      Yields line var.name (uuid2str uu) ↔ Supplies line var.name (uuid2str uu) := by
    simp [Yields, uuid2str_ne_nil]
  rw [ReadsBack, hread]
  dsimp only
  rw [hvar _ hpath, hvar _ (uuid2str_newline _), hvar _ (uuid2str_newline _), huuid, huuid]

/-- Where the letters cannot mislead linuxrc: they first occur in words that carry the
values anyhow, or not at all, in front of the settings. A newline ends the line that
linuxrc reads, and what is in front of it has to carry everything. -/
def Legible (append path imagesUuid configUuid : Text) : Prop :=
  if '\n' ∈ append then
    let first := append.takeWhile (· ≠ '\n')
    Yields first LinuxrcVar.image.name path ∧
      Supplies first LinuxrcVar.imagesUuid.name imagesUuid ∧
      Supplies first LinuxrcVar.configUuid.name configUuid
  else
    Transparent append LinuxrcVar.image.name path ∧
      Transparent (append ++ ' ' :: path) LinuxrcVar.imagesUuid.name imagesUuid ∧
      Transparent (append ++ ' ' :: path) LinuxrcVar.configUuid.name configUuid

theorem yields_append_iff {first last var value : Text} (hvar : ' ' ∉ var)
    (hlast : strstr last var = none) :
    Yields (first ++ ' ' :: last) var value ↔ Supplies (first ++ ' ' :: last) var value := by
  have hend : strstr (first ++ ' ' :: last) var ≠ some var := by
    rw [strstr_append_sep hvar, hlast]
    cases strstr first var with
    | none => simp
    | some found =>
      intro h
      apply hvar
      rw [← Option.some.inj h]
      simp
  simp [Yields, hend]

theorem newline_notMem_rootWords : '\n' ∉ rootWords := by decide

theorem newline_notMem_commandLine {append path : Text} {imagesUuid configUuid : Uuid}
    (happend : '\n' ∉ append) (hpath : '\n' ∉ path) :
    '\n' ∉ commandLine (some append) path (uuid2str imagesUuid) (uuid2str configUuid) := by
  have hsep {first second : Text} (hfirst : '\n' ∉ first) (hsecond : '\n' ∉ second) :
      '\n' ∉ first ++ ' ' :: second := by
    simp [hfirst, hsecond]
  rw [commandLine_some, settings]
  exact hsep newline_notMem_rootWords (hsep happend (hsep (setting_newline hpath)
    (hsep (setting_newline (uuid2str_newline _)) (setting_newline (uuid2str_newline _)))))

theorem yields_image {append path : Text} {imagesUuid configUuid : Uuid} (hpath : ' ' ∉ path) :
    Yields (commandLine (some append) path (uuid2str imagesUuid) (uuid2str configUuid))
        LinuxrcVar.image.name path ↔
      Transparent append LinuxrcVar.image.name path := by
  rw [← supplies_image hpath]
  have hsplit : commandLine (some append) path (uuid2str imagesUuid) (uuid2str configUuid) =
      (rootWords ++ ' ' :: (append ++ ' ' :: (setting .image path ++ ' ' ::
        setting .imagesUuid (uuid2str imagesUuid)))) ++ ' ' ::
          setting .configUuid (uuid2str configUuid) := by
    simp only [commandLine_some, settings, List.append_assoc, List.cons_append]
  rw [hsplit]
  exact yields_append_iff (LinuxrcVar.blank_notMem _) (strstr_setting_uuid (by decide))

theorem yields_rootWords {var : LinuxrcVar} {rest value : Text} :
    Yields (rootWords ++ ' ' :: rest) var.name value ↔ Yields rest var.name value := by
  have hstrstr : strstr rootWords var.name = none := by cases var <;> decide
  rw [Yields, Yields, supplies_skip (firstWord_rootWords var),
    strstr_append_sep var.blank_notMem, hstrstr]

/-- linuxrc reads the three settings back exactly where the line is legible. -/
theorem readsBack_iff {append path line : Text} {imagesUuid configUuid : Uuid}
    (hblank : ' ' ∉ path) (hnewline : '\n' ∉ path)
    (hline : composeCommandLine (some append) path (uuid2str imagesUuid) (uuid2str configUuid) =
      .ok line)
    (hfits : (procCmdline line).length < bufMax) :
    ReadsBack (procCmdline line) path (uuid2str imagesUuid) (uuid2str configUuid) ↔
      Legible append path (uuid2str imagesUuid) (uuid2str configUuid) := by
  obtain ⟨-, rfl⟩ := store_eq_ok_iff.mp hline
  rw [procCmdline, List.length_append, List.length_singleton] at hfits
  unfold Legible
  split
  · rename_i hmem
    obtain ⟨first, rest, rfl, hfirst⟩ := List.eq_append_cons_of_mem hmem
    have hstream : procCmdline (commandLine (some (first ++ '\n' :: rest)) path
        (uuid2str imagesUuid) (uuid2str configUuid)) =
        (rootWords ++ ' ' :: first) ++ '\n' ::
          (rest ++ ' ' :: settings path (uuid2str imagesUuid) (uuid2str configUuid) ++ ['\n']) := by
      simp only [procCmdline, commandLine_some, List.append_assoc, List.cons_append]
    have hlast : '\n' ∉ rootWords ++ ' ' :: first := by
      simp [newline_notMem_rootWords, hfirst]
    have hlen : (rootWords ++ ' ' :: first).length + 1 < bufMax := by
      have hlen := congrArg List.length hstream
      simp only [procCmdline, List.length_append, List.length_cons, List.length_nil] at hlen hfits ⊢
      omega
    rw [hstream, readsBack_line_iff hlast hlen hnewline, yields_rootWords,
      supplies_skip (firstWord_rootWords _), supplies_skip (firstWord_rootWords _),
      takeWhile_ne_append hfirst]
  · rename_i happend
    rw [procCmdline,
      readsBack_line_iff (newline_notMem_commandLine happend hnewline) hfits hnewline,
      yields_image hblank, supplies_imagesUuid hblank, supplies_configUuid hblank]

def exampleUuid : Uuid :=
  #v[0x3e, 0x2a, 0x31, 0x4c, 0x90, 0x11, 0x4d, 0x0c, 0x8d, 0x6e, 0x1f, 0x5a, 0x7b, 0x00, 0xc2, 0xd4]

theorem exampleUuid_text :
    uuid2str exampleUuid = "3e2a314c-9011-4d0c-8d6e-1f5a7b00c2d4".toList := by
  decide

theorem readsBack_console :
    ReadsBack (procCmdline (commandLine (some "console=ttyS0".toList) "funky.img".toList
        (uuid2str exampleUuid) (uuid2str exampleUuid)))
      "funky.img".toList (uuid2str exampleUuid) (uuid2str exampleUuid) := by
  have hfits : (procCmdline (commandLine (some "console=ttyS0".toList) "funky.img".toList
      (uuid2str exampleUuid) (uuid2str exampleUuid))).length < bufMax := by
    rw [exampleUuid_text]
    decide +kernel
  have hline : composeCommandLine (some "console=ttyS0".toList) "funky.img".toList
      (uuid2str exampleUuid) (uuid2str exampleUuid) =
      .ok (commandLine (some "console=ttyS0".toList) "funky.img".toList
        (uuid2str exampleUuid) (uuid2str exampleUuid)) := by
    apply store_of_lt
    rw [procCmdline, List.length_append] at hfits
    exact Nat.lt_of_succ_lt hfits
  rw [readsBack_iff (by decide) (by decide) hline hfits, Legible, if_neg (by decide),
    exampleUuid_text]
  decide

def funkyAppend : Text := "console=ttyS0 ide=nodma CONFIG=monoboot/tag/funky".toList

/-- No word of it is a setting, but CONFIG holds all three letters. -/
theorem not_readsBack_config :
    (∀ word ∈ funkyAppend.splitOn ' ', ∀ var, ¬ setting var [] <+: word) ∧
    (procCmdline (commandLine (some funkyAppend) "funky.img".toList (uuid2str exampleUuid)
      (uuid2str exampleUuid))).length < bufMax ∧
    ¬ ReadsBack (procCmdline (commandLine (some funkyAppend) "funky.img".toList
        (uuid2str exampleUuid) (uuid2str exampleUuid)))
      "funky.img".toList (uuid2str exampleUuid) (uuid2str exampleUuid) := by
  have hfits : (procCmdline (commandLine (some funkyAppend) "funky.img".toList
      (uuid2str exampleUuid) (uuid2str exampleUuid))).length < bufMax := by
    rw [exampleUuid_text]
    decide +kernel
  refine ⟨?_, hfits, ?_⟩
  · intro word hword var
    revert word
    cases var <;> decide
  · rw [procCmdline, readsBack_line_iff (newline_notMem_commandLine (by decide) (by decide))
      (by simpa [procCmdline] using hfits) (by decide), yields_image (by decide)]
    exact fun h => absurd h.1 (by decide)

end Monoimage.CommandLine
