import Monoimage.Libcli.Words

/-! The commands of libcli: `cli_register_command` keeps them in a tree, and
`cli_run_command` finds the one that a line names and hands it the words that are left. -/
namespace Monoimage.Libcli

open Clib

def cliOk : Int := 0
def cliError : Int := -1
def cliQuit : Int := -2

def privilegeUnprivileged : Int := 0
def privilegePrivileged : Int := 15

def modeAny : Int := -1
def modeExec : Int := 0
def modeConfig : Int := 1

structure Command (γ : Type) where
  command : Text
  callback : Option γ
  uniqueLen : Nat
  help : Option Text
  privilege : Int
  mode : Int
  children : List (Command γ)

section Tree

variable {γ : Type}

/-- The first length at which no other name starts like `name`. For a name that is the start
of another this is its length and one more. -/
def shortest (others : List Text) (name : Text) : Nat :=
  ((List.range' 1 name.length).find? fun len =>
    others.all fun other => !strncmpEq other name len).getD (name.length + 1)

mutual

def Command.buildShortest (others : List Text) : Command γ → Command γ
  | ⟨command, callback, _, help, privilege, mode, children⟩ =>
    ⟨command, callback, shortest others command, help, privilege, mode, buildAll [] children⟩

/-- `before` are the names of the list before this point. -/
def buildAll (before : List Text) : List (Command γ) → List (Command γ)
  | [] => []
  | c :: rest =>
    c.buildShortest (before ++ rest.map Command.command) :: buildAll (before ++ [c.command]) rest

end

def cliBuildShortest (commands : List (Command γ)) : List (Command γ) :=
  buildAll [] commands

/-- `cli_register_command`. With a parent, given by its place in the list, the lengths are
set again from the parent on. -/
def cliRegisterCommand (commands : List (Command γ)) (parent : Option Nat) (command : Text)
    (callback : Option γ) (privilege mode : Int) (help : Option Text) : List (Command γ) :=
  let c := ⟨command, callback, 0, help, privilege, mode, []⟩
  match parent with
  | none => cliBuildShortest (commands ++ [c])
  | some i =>
    commands.take i ++ cliBuildShortest ((commands.drop i).modifyHead fun p =>
      { p with children := p.children ++ [c] })

end Tree

/-! ## Filters -/

/-- What comes of a line: `cli_find_command` returns by itself after some messages, or it
calls a callback with the words that are left. `argv` goes on to the end of the words, and
`argc` only to the first filter. -/
inductive Dispatch (γ : Type) where
  | ret (code : Int) (said : List Text)
  | call (callback : γ) (name : Text) (argv : List Text) (argc : Nat)
  | fault (f : Fault)

def quoted (text : Text) : Text := '"' :: (text ++ ['"'])

/-- `"  %-20s %s"`. -/
def helpLine (name help : Text) : Text :=
  "  ".toList ++ name ++ List.replicate (20 - name.length) ' ' ++ ' ' :: help

def abbreviates (typed name : Text) : Bool :=
  strncmpEq name typed typed.length

def filterHelp : List Text :=
  [helpLine "begin".toList "Begin with lines that match".toList,
   helpLine "between".toList "Between lines that match".toList,
   helpLine "count".toList "Count of lines".toList,
   helpLine "exclude".toList "Exclude lines that match".toList,
   helpLine "include".toList "Include lines that match".toList,
   helpLine "grep".toList "Include lines that match regex (options: -v, -i, -e)".toList,
   helpLine "egrep".toList "Include lines that match extended regex".toList]

/-- `regcomp` gives the complaint about the pattern of a grep filter, if there is one. -/
def cliMatchFilterInit (regcomp : List Text → Option Text) (argv : List Text) : Option Text :=
  if argv.length < 2 then some "Match filter requires an argument".toList
  else if (argv.headD []).head? = some 'i' || "ex".toList <+: argv.headD [] then none
  else regcomp argv

def cliRangeFilterInit (argv : List Text) : Option Text :=
  if strncmpEq (argv.headD []) "bet".toList 3 then
    if argv.length < 3 then some "Between filter requires 2 arguments".toList else none
  else if argv.length < 2 then some "Begin filter requires an argument".toList else none

def cliCountFilterInit (argv : List Text) : Option Text :=
  if 1 < argv.length then some "Count filter does not take arguments".toList else none

def filterInit (regcomp : List Text → Option Text) (argv : List Text) : Option Text :=
  let name := argv.headD []
  if ["include".toList, "exclude".toList, "grep".toList, "egrep".toList].any (abbreviates name) then
    cliMatchFilterInit regcomp argv
  else if ["begin".toList, "between".toList].any (abbreviates name) then cliRangeFilterInit argv
  else if abbreviates name "count".toList then cliCountFilterInit argv
  else some ("Invalid filter ".toList ++ quoted name)

/-- One filter with its words; `none` is that it is set up. -/
def setupFilter {γ : Type} (regcomp : List Text → Option Text) (argv : List Text) :
    Option (Dispatch γ) :=
  let name := argv.headD []
  match (argv.getLastD []).getLast? with
  | none => some (.fault .outOfBounds)
  | some '?' =>
    some (.ret cliOk
      (if argv.length = 1 then filterHelp
       else (if name.head? = some 'c' then [] else ["  WORD".toList]) ++
         if 2 < argv.length || name.head? = some 'c' then ["  <cr>".toList] else []))
  | some _ =>
    if name.head? = some 'b' && name.length < 3 then
      some (.ret cliError ["Ambiguous filter ".toList ++ quoted name ++
        " (begin, between)".toList])
    else if name.head? = some 'e' && name.length < 2 then
      some (.ret cliError ["Ambiguous filter ".toList ++ quoted name ++
        " (egrep, exclude)".toList])
    else (filterInit regcomp argv).map fun complaint => .ret cliError [complaint]

/-- The loop over the filters, each given by the place of its bar. -/
def setupFilters {γ : Type} (regcomp : List Text → Option Text) (words : List Text) :
    List Nat → Option (Dispatch γ)
  | [] => none
  | f :: rest =>
    let n := rest.headD words.length
    if f + 1 = n then some (.ret cliError ["Missing filter".toList])
    else
      match setupFilter regcomp ((words.take n).drop (f + 1)) with
      | some dispatch => some dispatch
      | none => setupFilters regcomp words rest

/-! ## Dispatch -/

/-- The part of `struct cli_def` that decides which commands are there. -/
structure Cli where
  privilege : Int
  mode : Int
  deriving DecidableEq, Repr

/-- The names match up to what makes the command unique, and as far as the word goes. -/
def named {γ : Type} (word : Text) (c : Command γ) : Bool :=
  strncasecmpEq c.command word c.uniqueLen && strncasecmpEq c.command word word.length

/-- A submode of the configuration falls back to it when it meets one of its commands. -/
def dropsOut {γ : Type} (cli : Cli) (c : Command γ) : Bool :=
  modeConfig < cli.mode && c.mode = modeConfig

def picks {γ : Type} (cli : Cli) (word : Text) (c : Command γ) : Bool :=
  c.privilege ≤ cli.privilege && named word c &&
    (dropsOut cli c || c.mode = cli.mode || c.mode = modeAny)

theorem picks_iff {γ : Type} {cli : Cli} {word : Text} {c : Command γ} :
    picks cli word c = true ↔ c.privilege ≤ cli.privilege ∧ named word c = true ∧
      ((modeConfig < cli.mode ∧ c.mode = modeConfig) ∨ c.mode = cli.mode ∨ c.mode = modeAny) := by
  simp [picks, dropsOut, and_assoc, or_assoc]

/-- The words of the line and the places of its bars, as `cli_run_command` sets them up. -/
structure Line where
  words : List Text
  filters : List Nat
  deriving DecidableEq, Repr

def Line.ofWords (words : List Text) : Line where
  words := words
  filters :=
    -- a bar in the first place ends the list, as zero is the mark of its end
    (((List.range words.length).filter fun i => (words.getD i []).head? = some '|').take
      (maxWords - 1)).takeWhile (· ≠ 0)

def Line.cWords (line : Line) : Nat := line.filters.headD line.words.length

def cliHelp {γ : Type} (cli : Cli) (commands : List (Command γ)) (word : Text) : List Text :=
  (commands.filter fun c =>
    strncasecmpEq c.command word (word.length - 1) && (c.callback.isSome || !c.children.isEmpty) &&
      c.privilege ≤ cli.privilege && (c.mode = cli.mode || c.mode = modeAny)).map
    fun c => helpLine c.command (c.help.getD [])

/-- `cli_find_command` at the words from `start` on, of which the list is what is left.
`parents` is the name of the command so far. -/
def cliFindCommand {γ : Type} (regcomp : List Text → Option Text) (line : Line) (cli : Cli)
    (commands : List (Command γ)) (parents : Text) (start : Nat) : List Text → Cli × Dispatch γ
  | [] => (cli, .ret cliError [])
  | word :: rest =>
    match word.getLast? with
    | none => (cli, .fault .outOfBounds)
    | some '?' => (cli, .ret cliOk (cliHelp cli commands word))
    | some _ =>
      match commands.find? (picks cli word) with
      | none =>
        (cli, .ret cliError [("Invalid ".toList ++
          (if start = 0 then "command".toList else "argument".toList)) ++ ' ' :: quoted word])
      | some c =>
        let cli := if dropsOut cli c then { cli with mode := modeConfig } else cli
        let name := if start = 0 then c.command else parents ++ ' ' :: c.command
        if c.children.isEmpty then
          match c.callback with
          | none => (cli, .ret cliError ["No callback for ".toList ++ quoted name])
          | some callback =>
            (cli, (setupFilters regcomp line.words line.filters).getD
              (.call callback name rest (line.cWords - start - 1)))
        else if start + 1 = line.cWords then
          (cli, .ret cliError ["Incomplete command".toList])
        else cliFindCommand regcomp line cli c.children name (start + 1) rest

/-- `cli_run_command` up to the callback. -/
def cliRunCommand {γ : Type} (regcomp : List Text → Option Text) (cli : Cli)
    (commands : List (Command γ)) (command : Text) : Cli × Dispatch γ :=
  let command := command.dropWhile isspace
  if command = [] then (cli, .ret cliOk [])
  else
    let line := Line.ofWords (cliParseLine command maxWords)
    cliFindCommand regcomp line cli commands [] 0 line.words

/-! ## Plain lines -/

section Plain

variable {γ : Type} {regcomp : List Text → Option Text} {cli : Cli} {commands : List (Command γ)}

theorem Spells.plain {line : Text} {words : List Text} (h : Spells line words) :
    ∀ word ∈ words, Plain word := by
  induction h with
  | last hword _ => simpa using hword
  | more hword _ _ _ ih => simpa [hword] using ih

theorem Spells.starts_plain {line : Text} {words : List Text} (h : Spells line words) :
    ∃ c rest, line = c :: rest ∧ isspace c = false := by
  have hword : ∀ word : Text, Plain word → ∃ c rest, word = c :: rest ∧ isspace c = false := by
    intro word hplain
    cases word with
    | nil => exact absurd rfl hplain.1
    | cons c rest => exact ⟨c, rest, rfl, (isplain_iff.mp (hplain.2 c List.mem_cons_self)).1⟩
  cases h with
  | last hplain _ =>
    obtain ⟨c, rest, rfl, hc⟩ := hword _ hplain
    exact ⟨c, _, rfl, hc⟩
  | more hplain _ _ _ =>
    obtain ⟨c, rest, rfl, hc⟩ := hword _ hplain
    exact ⟨c, _, rfl, hc⟩

theorem Plain.head_ne_bar {word : Text} (h : Plain word) : word.head? ≠ some '|' := by
  intro hhead
  exact (isplain_iff.mp (h.2 '|' (List.mem_of_head? hhead))).2.2 rfl

theorem Line.ofWords_plain {words : List Text} (h : ∀ word ∈ words, Plain word) :
    Line.ofWords words = ⟨words, []⟩ := by
  have hfilter : ((List.range words.length).filter fun i =>
      (words.getD i []).head? = some '|') = [] := by
    rw [List.filter_eq_nil_iff]
    intro i hi
    rw [List.mem_range] at hi
    have hword : words.getD i [] = words[i] := by simp [hi]
    rw [hword, decide_eq_true_eq]
    exact (h _ (List.getElem_mem hi)).head_ne_bar
  rw [Line.ofWords, hfilter]
  rfl

/-- A line of plain words goes to the dispatch as these words. -/
theorem cliRunCommand_spells {blanks line : Text} {words : List Text} (hblanks : Blank blanks)
    (hline : Spells line words) (hroom : words.length < maxWords) :
    cliRunCommand regcomp cli commands (blanks ++ line) =
      cliFindCommand regcomp ⟨words, []⟩ cli commands [] 0 words := by
  obtain ⟨c, rest, rfl, hc⟩ := hline.starts_plain
  have hdrop : (blanks ++ c :: rest).dropWhile isspace = c :: rest := by
    rw [List.dropWhile_append_of_pos hblanks, List.dropWhile_cons_of_neg (by simp [hc])]
  rw [cliRunCommand, hdrop]
  dsimp only
  rw [if_neg (List.cons_ne_nil c rest), cliParseLine_spells hline hroom,
    Line.ofWords_plain hline.plain]

theorem cliFindCommand_leaf {word : Text} {rest words : List Text} {c : Command γ} {callback : γ}
    {last : Char} (hlast : word.getLast? = some last) (hquery : last ≠ '?')
    (hfind : commands.find? (picks cli word) = some c) (hleaf : c.children = [])
    (hcallback : c.callback = some callback) :
    cliFindCommand regcomp ⟨words, []⟩ cli commands [] 0 (word :: rest) =
      (if dropsOut cli c then { cli with mode := modeConfig } else cli,
        .call callback c.command rest (words.length - 1)) := by
  rw [cliFindCommand, hlast]
  dsimp only
  rw [hfind]
  simp [hleaf, hcallback, setupFilters, Line.cWords]

theorem setupFilters_ne_call {words : List Text} {places : List Nat} {dispatch : Dispatch γ}
    (h : setupFilters regcomp words places = some dispatch) (callback : γ) (name : Text)
    (argv : List Text) (argc : Nat) : dispatch ≠ .call callback name argv argc := by
  have hfilter {argv : List Text} {dispatch : Dispatch γ}
      (h : setupFilter regcomp argv = some dispatch) (callback : γ) (name : Text)
      (argv : List Text) (argc : Nat) : dispatch ≠ .call callback name argv argc := by
    rintro rfl
    unfold setupFilter at h
    dsimp only at h
    split at h
    · cases h
    · cases h
    · split at h
      · cases h
      · split at h
        · cases h
        · simp at h
  induction places with
  | nil => cases h
  | cons place rest ih =>
    rw [setupFilters] at h
    split at h
    · cases h
      simp
    · split at h
      · rename_i found hfound
        cases h
        exact hfilter hfound callback name argv argc
      · exact ih h

/-- Up to `MODE_CONFIG` the dispatch leaves the mode alone. -/
theorem cliFindCommand_mode {line : Line} {parents : Text} {start : Nat} {words : List Text}
    (h : cli.mode ≤ modeConfig) :
    (cliFindCommand regcomp line cli commands parents start words).1 = cli := by
  induction words generalizing commands parents start with
  | nil => rfl
  | cons word rest ih =>
    have hstays (c : Command γ) : dropsOut cli c = false := by
      simp [dropsOut, Int.not_lt.mpr h]
    rw [cliFindCommand]
    split
    · rfl
    · rfl
    · split
      · rfl
      · rename_i c _
        simp only [hstays, Bool.false_eq_true, if_false]
        split
        · split <;> rfl
        · split
          · rfl
          · exact ih

end Plain

/-! ## `cli_init` -/

/-- The callbacks that the library brings with it. -/
inductive Builtin where
  | help
  | quit
  | exit
  | history
  | enable
  | disable
  | configureTerminal
  deriving DecidableEq, Repr

inductive Callback (γ : Type) where
  | int (builtin : Builtin)
  | user (callback : γ)
  deriving DecidableEq, Repr

/-- The commands that `cli_init` registers. -/
def cliInit (γ : Type) : List (Command (Callback γ)) :=
  let commands := cliRegisterCommand [] none "help".toList (some (.int .help))
    privilegeUnprivileged modeAny (some "Show available commands".toList)
  let commands := cliRegisterCommand commands none "quit".toList (some (.int .quit))
    privilegeUnprivileged modeAny (some "Disconnect".toList)
  let commands := cliRegisterCommand commands none "logout".toList (some (.int .quit))
    privilegeUnprivileged modeAny (some "Disconnect".toList)
  let commands := cliRegisterCommand commands none "exit".toList (some (.int .exit))
    privilegeUnprivileged modeAny (some "Exit from current mode".toList)
  let commands := cliRegisterCommand commands none "history".toList (some (.int .history))
    privilegeUnprivileged modeAny (some "Show a list of previously run commands".toList)
  let commands := cliRegisterCommand commands none "enable".toList (some (.int .enable))
    privilegeUnprivileged modeExec (some "Turn on privileged commands".toList)
  let commands := cliRegisterCommand commands none "disable".toList (some (.int .disable))
    privilegePrivileged modeExec (some "Turn off privileged commands".toList)
  let commands := cliRegisterCommand commands none "configure".toList none
    privilegePrivileged modeExec (some "Enter configuration mode".toList)
  cliRegisterCommand commands (some 7) "terminal".toList (some (.int .configureTerminal))
    privilegePrivileged modeExec (some "Configure from the terminal".toList)

/-! What these callbacks do besides their texts, and what they return. -/

def cliSetPrivilege (cli : Cli) (privilege : Int) : Cli := { cli with privilege }

def cliSetConfigmode (cli : Cli) (mode : Int) : Cli := { cli with mode }

/-- Where no password is set for it. -/
def cliIntEnable (cli : Cli) : Cli × Int :=
  if cli.privilege = privilegePrivileged then (cli, cliOk)
  else (cliSetConfigmode (cliSetPrivilege cli privilegePrivileged) modeExec, cliOk)

def cliIntDisable (cli : Cli) : Cli × Int :=
  (cliSetConfigmode (cliSetPrivilege cli privilegeUnprivileged) modeExec, cliOk)

def cliIntQuit (cli : Cli) : Cli × Int :=
  (cliSetConfigmode (cliSetPrivilege cli privilegeUnprivileged) modeExec, cliQuit)

def cliIntExit (cli : Cli) : Cli × Int :=
  if cli.mode = modeExec then cliIntQuit cli
  else if modeConfig < cli.mode then (cliSetConfigmode cli modeConfig, cliOk)
  else (cliSetConfigmode cli modeExec, cliOk)

def cliIntConfigureTerminal (cli : Cli) : Cli × Int :=
  (cliSetConfigmode cli modeConfig, cliOk)

def Builtin.run (cli : Cli) : Builtin → Cli × Int
  | help => (cli, cliOk)
  | quit => cliIntQuit cli
  | exit => cliIntExit cli
  | history => (cli, cliOk)
  | enable => cliIntEnable cli
  | disable => cliIntDisable cli
  | configureTerminal => cliIntConfigureTerminal cli

/-! ## `cli_loop` -/

/-- What the loop makes of a line in the normal state; `none` is that it ends. -/
def cliLoopLine {γ : Type} (regcomp : List Text → Option Text) (cli : Cli)
    (commands : List (Command γ)) (cmd : Text) : Option (Cli × Dispatch γ) :=
  if strcasecmpEq cmd "quit".toList then none
  else some (cliRunCommand regcomp cli commands cmd)

/-- A dispatch without the texts that come with it. -/
def Dispatch.silent {γ : Type} : Dispatch γ → Dispatch γ
  | .ret code _ => .ret code []
  | dispatch => dispatch

@[simp] theorem Dispatch.silent_ret {γ : Type} (code : Int) (said : List Text) :
    (Dispatch.ret code said : Dispatch γ).silent = .ret code [] :=
  rfl

end Monoimage.Libcli
