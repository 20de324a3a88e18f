import Monoimage.Boot.Shell
import Monoimage.Clib.Trace

/-! The modes of the shell: the session that `mb_interact` runs over libcli, beside a machine
that tells the four modes apart. -/
namespace Monoimage.Boot

open Clib Libcli

/-! ## The session -/

/-- A line at the prompt. A command of monoboot need not come back from what it does:
`boot` may replace the process. -/
structure Entered where
  line : Text
  returns : Bool
  deriving DecidableEq, Repr

/-- The commands that only change the mode. -/
def CliCmd.configures : CliCmd → Bool
  | configImage => true
  | configNet => true
  | configModeExit => true
  | _ => false

/-- What a callback of `monoboot_cli.c` does to the mode. -/
def CliCmd.run (cli : Cli) (argc : Nat) : CliCmd → Cli
  | configImage => if argc < 1 then cli else cliSetConfigmode cli modeConfigImage
  | configNet => cliSetConfigmode cli modeConfigNet
  | configModeExit => cliSetConfigmode cli modeConfig
  | _ => cli

structure ModeSession where
  cli : Cli
  ended : Bool
  deriving DecidableEq, Repr

/-- None of the callbacks of monoboot returns `CLI_QUIT`. -/
def ModeSession.call (returns : Bool) (argc : Nat) (cli : Cli) : Callback CliCmd → ModeSession
  | .int builtin => ⟨(builtin.run cli).1, decide ((builtin.run cli).2 = cliQuit)⟩
  | .user cmd => ⟨cmd.run cli argc, !(returns || cmd.configures)⟩

def ModeSession.dispatched (returns : Bool) (cli : Cli) : Dispatch (Callback CliCmd) → ModeSession
  | .ret _ _ => ⟨cli, false⟩
  | .fault _ => ⟨cli, true⟩
  | .call callback _ _ argc => call returns argc cli callback

def ModeSession.step (regcomp : List Text → Option Text) (s : ModeSession) (e : Entered) :
    ModeSession :=
  if s.ended then s
  else
    match cliLoopLine regcomp s.cli mbInteract e.line with
    | none => { s with ended := true }
    | some (cli, dispatch) => ModeSession.dispatched e.returns cli dispatch

/-- After `enable`. -/
def ModeSession.privileged : ModeSession := ⟨⟨privilegePrivileged, modeExec⟩, false⟩

def ModeSession.run (regcomp : List Text → Option Text) (entered : List Entered) : ModeSession :=
  entered.foldl (ModeSession.step regcomp) ModeSession.privileged

/-! ## The reference machine -/

inductive ShellMode where
  | exec
  | config
  | configImage
  | configNet
  deriving DecidableEq, Repr

namespace ShellMode

/-- The number that monoboot and libcli have for the mode. -/
def code : ShellMode → Int
  | exec => modeExec
  | config => modeConfig
  | configImage => modeConfigImage
  | configNet => modeConfigNet

/-- Four numbers for four modes, the submodes beyond `MODE_CONFIG`. -/
def number : ShellMode → Int
  | exec => modeExec
  | config => modeConfig
  | configImage => modeConfig + 1
  | configNet => modeConfig + 2

/-- Where `exit` leads; `none` is out of the session. -/
def up : ShellMode → Option ShellMode
  | exec => none
  | config => some exec
  | configImage => some config
  | configNet => some config

end ShellMode

/-- The two `exit` of the submodes belong to the numbers of these. -/
def renumber (c : Command (Callback CliCmd)) : Command (Callback CliCmd) :=
  if c.callback = some (.user .configModeExit) then
    { c with mode :=
        if c.mode = modeConfigImage then ShellMode.configImage.number
        else ShellMode.configNet.number }
  else c

def referenceCommands : List (Command (Callback CliCmd)) := mbInteract.map renumber

structure Reference where
  privilege : Int
  mode : ShellMode
  ended : Bool
  deriving DecidableEq, Repr

namespace Reference

def cli (r : Reference) : Cli := ⟨r.privilege, r.mode.number⟩

def leave (r : Reference) : Reference :=
  match r.mode.up with
  | none => { r with ended := true }
  | some mode => { r with mode }

def call (returns : Bool) (argc : Nat) (r : Reference) : Callback CliCmd → Reference
  | .int .help => r
  | .int .quit => { r with ended := true }
  | .int .exit => r.leave
  | .int .history => r
  | .int .enable =>
    if r.privilege = privilegePrivileged then r
    else { r with privilege := privilegePrivileged, mode := .exec }
  | .int .disable => { r with privilege := privilegeUnprivileged, mode := .exec }
  | .int .configureTerminal => { r with mode := .config }
  | .user .configImage => if argc < 1 then r else { r with mode := .configImage }
  | .user .configNet => { r with mode := .configNet }
  | .user .configModeExit => { r with mode := .config }
  | .user _ => { r with ended := !returns }

def dispatched (r : Reference) (returns : Bool) : Dispatch (Callback CliCmd) → Reference
  | .ret _ _ => r
  | .fault _ => { r with ended := true }
  | .call callback _ _ argc => r.call returns argc callback

/-- The dispatch of libcli leaves a submode only for the configuration. -/
def follow (r : Reference) (cli : Cli) : Reference :=
  if cli.mode = r.mode.number then r else { r with mode := .config }

def step (regcomp : List Text → Option Text) (r : Reference) (e : Entered) : Reference :=
  if r.ended then r
  else
    match cliLoopLine regcomp r.cli referenceCommands e.line with
    | none => { r with ended := true }
    | some (cli, dispatch) => (r.follow cli).dispatched e.returns dispatch

def privileged : Reference := ⟨privilegePrivileged, .exec, false⟩

def run (regcomp : List Text → Option Text) (entered : List Entered) : Reference :=
  entered.foldl (step regcomp) privileged

end Reference

/-- Both sessions are over, or neither is, and then the mode is the one of the reference
machine, and each line leads to the same command or to the same refusal. -/
structure Agrees (regcomp : List Text → Option Text) (s : ModeSession) (r : Reference) :
    Prop where
  ended : s.ended = r.ended
  cli : r.ended = false → s.cli = ⟨r.privilege, r.mode.code⟩
  accepts : r.ended = false → ∀ line,
    (cliRunCommand regcomp s.cli mbInteract line).2.silent =
      (cliRunCommand regcomp r.cli referenceCommands line).2.silent

/-- After every line the session is where the reference machine is. -/
def FollowsReference (regcomp : List Text → Option Text) (entered : List Entered) : Prop :=
  StepsTogether (Agrees regcomp) (ModeSession.step regcomp) (Reference.step regcomp)
    ModeSession.privileged Reference.privileged entered

/-- The line is taken for `exit` while an image is being configured. -/
def LeavesImage (regcomp : List Text → Option Text) (r : Reference) (e : Entered) : Prop :=
  r.ended = false ∧ r.mode = .configImage ∧ ∃ cli name argv argc,
    cliLoopLine regcomp r.cli referenceCommands e.line =
      some (cli, .call (.int .exit) name argv argc)

/-! ## The dispatch

The `exit` of the library comes before the two of the submodes. All other commands are found
in a mode of the reference machine exactly if they are in the mode of the session. -/

def submodeExit : Option (Callback CliCmd) := some (.user .configModeExit)

section Commands

variable {c : Command (Callback CliCmd)}

theorem renumber_of_ne (h : c.callback ≠ submodeExit) : renumber c = c :=
  if_neg h

theorem name_of_submodeExit (hmem : c ∈ mbInteract) (h : c.callback = submodeExit) :
    c.command = "exit".toList ∧ c.uniqueLen = 5 ∧ c.privilege = privilegePrivileged := by
  have hall : (mbInteract.all fun c => c.callback ≠ submodeExit ||
      (c.command = "exit".toList && c.uniqueLen = 5 &&
        c.privilege = privilegePrivileged)) = true := by
    decide +kernel
  simpa [h, and_assoc] using List.all_eq_true.mp hall c hmem

theorem mode_of_ne_submodeExit (hmem : c ∈ mbInteract) (h : c.callback ≠ submodeExit) :
    c.mode = modeAny ∨ c.mode = modeExec ∨ c.mode = modeConfig := by
  have hall : (mbInteract.all fun c => c.callback = submodeExit ||
      (c.mode = modeAny || c.mode = modeExec || c.mode = modeConfig)) = true := by
    decide +kernel
  simpa [h, or_assoc] using List.all_eq_true.mp hall c hmem

theorem mode_of_children (hmem : c ∈ mbInteract) (h : c.children ≠ []) : c.mode = modeExec := by
  have hall : (mbInteract.all fun c => c.children.isEmpty || c.mode = modeExec) = true := by
    decide +kernel
  simpa [h] using List.all_eq_true.mp hall c hmem

theorem mode_of_exit (hmem : c ∈ mbInteract) (h : c.callback = some (.int .exit)) :
    c.mode = modeAny := by
  have hall : (mbInteract.all fun c => c.callback ≠ some (.int .exit) || c.mode = modeAny) =
      true := by
    decide +kernel
  simpa [h] using List.all_eq_true.mp hall c hmem

/-- The commands up to the `exit` of the library. -/
theorem mode_of_mem_take (hmem : c ∈ mbInteract.take 4) :
    c.mode = modeAny ∧ c.callback ≠ submodeExit := by
  have hall : ((mbInteract.take 4).all fun c => c.mode = modeAny && c.callback ≠ submodeExit) =
      true := by
    decide +kernel
  simpa using List.all_eq_true.mp hall c hmem

theorem exists_exit : ∃ c ∈ mbInteract.take 4, c.command = "exit".toList ∧ c.uniqueLen = 5 ∧
    c.privilege = privilegeUnprivileged ∧ c.mode = modeAny := by
  have hany : ((mbInteract.take 4).any fun c => c.command = "exit".toList && c.uniqueLen = 5 &&
      c.privilege = privilegeUnprivileged && c.mode = modeAny) = true := by
    decide +kernel
  simpa [and_assoc] using List.any_eq_true.mp hany

theorem picks_reference {privilege : Int} {mode : ShellMode} {word : Text}
    (hmode : c.mode = modeAny ∨ c.mode = modeExec ∨ c.mode = modeConfig) :
    picks ⟨privilege, mode.number⟩ word c = picks ⟨privilege, mode.code⟩ word c := by
  unfold picks dropsOut
  rcases hmode with h | h | h <;> rw [h] <;> cases mode <;> rfl

theorem renumber_name (c : Command (Callback CliCmd)) :
    (renumber c).privilege = c.privilege ∧ ∀ word, named word (renumber c) = named word c := by
  unfold renumber
  split
  · exact ⟨rfl, fun _ => rfl⟩
  · exact ⟨rfl, fun _ => rfl⟩

/-- Where a submode's `exit` would be found, that of the library is. -/
theorem exists_picks_of_named {privilege mode : Int} {word : Text} (hmem : c ∈ mbInteract)
    (hexit : c.callback = submodeExit) (hprivilege : c.privilege ≤ privilege)
    (hnamed : named word c = true) :
    ∃ d ∈ mbInteract.take 4, picks ⟨privilege, mode⟩ word d = true := by
  obtain ⟨hname, hlen, hpriv⟩ := name_of_submodeExit hmem hexit
  obtain ⟨d, hd, hname', hlen', hpriv', hany⟩ := exists_exit
  refine ⟨d, hd, picks_iff.mpr ⟨?_, ?_, Or.inr (Or.inr hany)⟩⟩
  · rw [hpriv, privilegePrivileged] at hprivilege
    rw [hpriv', privilegeUnprivileged]
    dsimp only
    omega
  · rw [named, hname, hlen] at hnamed
    rw [named, hname', hlen']
    exact hnamed

end Commands

theorem find_map_congr {α : Type} {l : List α} {g : α → α} {p q : α → Bool}
    (h : ∀ c ∈ l, (g c = c ∧ p c = q c) ∨ (p (g c) = false ∧ q c = false)) :
    (l.map g).find? p = l.find? q := by
  induction l with
  | nil => rfl
  | cons c rest ih =>
    obtain ⟨hc, hrest⟩ := List.forall_mem_cons.mp h
    rw [List.map_cons, List.find?_cons, List.find?_cons, ih hrest]
    rcases hc with ⟨hsame, hpicks⟩ | ⟨hp, hq⟩
    · rw [hsame, hpicks]
    · rw [hp, hq]

theorem find_reference (privilege : Int) (mode : ShellMode) (word : Text) :
    referenceCommands.find? (picks ⟨privilege, mode.number⟩ word) =
      mbInteract.find? (picks ⟨privilege, mode.code⟩ word) := by
  rw [referenceCommands, ← List.take_append_drop 4 mbInteract, List.map_append, List.find?_append,
    List.find?_append]
  have hfront : ((mbInteract.take 4).map renumber).find? (picks ⟨privilege, mode.number⟩ word) =
      (mbInteract.take 4).find? (picks ⟨privilege, mode.code⟩ word) := by
    apply find_map_congr
    intro c hmem
    obtain ⟨hany, hne⟩ := mode_of_mem_take hmem
    exact Or.inl ⟨renumber_of_ne hne, picks_reference (Or.inl hany)⟩
  rw [hfront]
  cases hfound : (mbInteract.take 4).find? (picks ⟨privilege, mode.code⟩ word) with
  | some c => rw [Option.some_or, Option.some_or]
  | none =>
    rw [Option.none_or, Option.none_or]
    apply find_map_congr
    intro c hmem
    have hmem' := List.mem_of_mem_drop hmem
    by_cases hexit : c.callback = submodeExit
    · have hhidden : ¬ (c.privilege ≤ privilege ∧ named word c = true) := by
        rintro ⟨hprivilege, hnamed⟩
        obtain ⟨d, hd, hpicks⟩ := exists_picks_of_named hmem' hexit hprivilege hnamed
        exact List.find?_eq_none.mp hfound d hd hpicks
      obtain ⟨hprivilege, hnamed⟩ := renumber_name c
      right
      constructor
      · rw [Bool.eq_false_iff, ne_eq, picks_iff, hprivilege, hnamed]
        exact fun h => hhidden ⟨h.1, h.2.1⟩
      · rw [Bool.eq_false_iff, ne_eq, picks_iff]
        exact fun h => hhidden ⟨h.1, h.2.1⟩
    · exact Or.inl ⟨renumber_of_ne hexit, picks_reference (mode_of_ne_submodeExit hmem' hexit)⟩

/-- The `exit` of a submode is never found. -/
theorem find_ne_submodeExit {privilege mode : Int} {word : Text}
    {c : Command (Callback CliCmd)}
    (h : mbInteract.find? (picks ⟨privilege, mode⟩ word) = some c) : c.callback ≠ submodeExit := by
  intro hexit
  obtain ⟨hprivilege, hnamed, -⟩ := picks_iff.mp (List.find?_some h)
  obtain ⟨d, hd, hpicks⟩ : ∃ d ∈ mbInteract.take 4, picks ⟨privilege, mode⟩ word d = true :=
    exists_picks_of_named (List.mem_of_find?_eq_some h) hexit hprivilege hnamed
  obtain ⟨e, hfront⟩ := Option.isSome_iff_exists.mp (List.find?_isSome.mpr ⟨d, hd, hpicks⟩)
  rw [← List.take_append_drop 4 mbInteract, List.find?_append, hfront, Option.some_or,
    Option.some.injEq] at h
  subst h
  exact (mode_of_mem_take (List.mem_of_find?_eq_some hfront)).2 hexit

/-- The mode that the dispatch goes on with behind a command. -/
def ShellMode.behind (mode : ShellMode) (c : Command (Callback CliCmd)) : ShellMode :=
  if c.mode = modeConfig then config else mode

section Found

variable {privilege : Int} {mode : ShellMode} {word : Text} {c : Command (Callback CliCmd)}

theorem le_of_picks (h : picks ⟨privilege, mode.code⟩ word c = true)
    (hconfig : c.mode = modeConfig) :
    modeConfig ≤ mode.code ∧ modeConfig ≤ mode.number := by
  obtain ⟨-, -, hmode⟩ := picks_iff.mp h
  rw [hconfig] at hmode
  dsimp only at hmode
  cases mode with
  | exec => exact absurd hmode (by decide)
  | _ => decide

theorem dropsOut_eq {number : Int} (h : c.mode = modeConfig → modeConfig ≤ number) :
    (if dropsOut ⟨privilege, number⟩ c then ⟨privilege, modeConfig⟩
      else ⟨privilege, number⟩ : Cli) =
        ⟨privilege, if c.mode = modeConfig then modeConfig else number⟩ := by
  unfold dropsOut
  by_cases hconfig : c.mode = modeConfig
  · have hle := h hconfig
    by_cases hlt : modeConfig < number
    · simp [hconfig, hlt]
    · simp [hconfig, Int.le_antisymm (Int.not_lt.mp hlt) hle]
  · simp [hconfig]

theorem cli_behind (h : picks ⟨privilege, mode.code⟩ word c = true) :
    (if dropsOut ⟨privilege, mode.code⟩ c then ⟨privilege, modeConfig⟩
      else ⟨privilege, mode.code⟩ : Cli) = ⟨privilege, (mode.behind c).code⟩ ∧
    (if dropsOut ⟨privilege, mode.number⟩ c then ⟨privilege, modeConfig⟩
      else ⟨privilege, mode.number⟩ : Cli) = ⟨privilege, (mode.behind c).number⟩ := by
  rw [dropsOut_eq fun hconfig => (le_of_picks h hconfig).1,
    dropsOut_eq fun hconfig => (le_of_picks h hconfig).2]
  unfold ShellMode.behind
  split
  · exact ⟨rfl, rfl⟩
  · exact ⟨rfl, rfl⟩

/-- The commands with others under them belong to exec mode, where both have one number. -/
theorem exec_of_children (h : mbInteract.find? (picks ⟨privilege, mode.code⟩ word) = some c)
    (hchildren : c.children ≠ []) : mode = .exec ∧ c.mode ≠ modeConfig := by
  have hexec := mode_of_children (List.mem_of_find?_eq_some h) hchildren
  obtain ⟨-, -, hmode⟩ := picks_iff.mp (List.find?_some h)
  rw [hexec] at hmode ⊢
  dsimp only at hmode
  refine ⟨?_, by decide⟩
  cases mode with
  | exec => rfl
  | _ => exact absurd hmode (by decide)

end Found

section Dispatch

variable {regcomp : List Text → Option Text} {line : Line}

/-- What the dispatch of a line has in common for the session and the reference machine, which
go on in `mode'`. -/
structure SameDispatch (privilege : Int) (mode mode' : ShellMode)
    (session reference : Cli × Dispatch (Callback CliCmd)) : Prop where
  session_cli : session.1 = ⟨privilege, mode'.code⟩
  reference_cli : reference.1 = ⟨privilege, mode'.number⟩
  silent : session.2.silent = reference.2.silent
  mode_eq : mode' = mode ∨ mode' = .config ∧
    ∀ name argv argc, reference.2 ≠ .call (.int .exit) name argv argc

theorem sameDispatch_behind {privilege : Int} {mode : ShellMode} {c : Command (Callback CliCmd)}
    {dispatch : Dispatch (Callback CliCmd)} (hne : c.mode = modeConfig →
      ∀ name argv argc, dispatch ≠ .call (.int .exit) name argv argc) :
    SameDispatch privilege mode (mode.behind c) (⟨privilege, (mode.behind c).code⟩, dispatch)
      (⟨privilege, (mode.behind c).number⟩, dispatch) := by
  refine ⟨rfl, rfl, rfl, ?_⟩
  by_cases hconfig : c.mode = modeConfig
  · exact Or.inr ⟨if_pos hconfig, hne hconfig⟩
  · exact Or.inl (if_neg hconfig)

/-- A command of the configuration is not the `exit` of the library, with filters or not. -/
theorem getD_setupFilters_ne_exit {c : Command (Callback CliCmd)} {callback : Callback CliCmd}
    {words : List Text} {places : List Nat} {name name' : Text} {argv argv' : List Text}
    {argc argc' : Nat} (hmem : c ∈ mbInteract) (hcallback : c.callback = some callback)
    (hconfig : c.mode = modeConfig) :
    (setupFilters regcomp words places).getD (.call callback name argv argc) ≠
      .call (.int .exit) name' argv' argc' := by
  cases hfilters : setupFilters regcomp words places with
  | some dispatch => exact setupFilters_ne_call hfilters _ _ _ _
  | none =>
    intro hcall
    obtain ⟨rfl, -⟩ := Dispatch.call.inj hcall
    have hany := mode_of_exit hmem hcallback
    rw [hconfig] at hany
    exact absurd hany (by decide)

theorem cliFindCommand_reference (privilege : Int) (mode : ShellMode) (words : List Text) :
    ∃ mode', SameDispatch privilege mode mode'
      (cliFindCommand regcomp line ⟨privilege, mode.code⟩ mbInteract [] 0 words)
      (cliFindCommand regcomp line ⟨privilege, mode.number⟩ referenceCommands [] 0 words) := by
  cases words with
  | nil => exact ⟨mode, rfl, rfl, rfl, Or.inl rfl⟩
  | cons word rest =>
    rw [cliFindCommand, cliFindCommand]
    cases word.getLast? with
    | none => exact ⟨mode, rfl, rfl, rfl, Or.inl rfl⟩
    | some last =>
      by_cases hquery : last = '?'
      · -- what `?` shows does depend on the numbers
        subst hquery
        exact ⟨mode, rfl, rfl, by simp only [Dispatch.silent_ret], Or.inl rfl⟩
      · simp only [find_reference]
        cases hfind : mbInteract.find? (picks ⟨privilege, mode.code⟩ word) with
        | none => exact ⟨mode, by simp, by simp, by simp, Or.inl rfl⟩
        | some c =>
          have hmem := List.mem_of_find?_eq_some hfind
          obtain ⟨hcli, hcli'⟩ := cli_behind (List.find?_some hfind)
          simp only [hcli, hcli']
          by_cases hleaf : c.children = []
          · simp only [hleaf, List.isEmpty_nil, if_true]
            cases hcallback : c.callback with
            | none => exact ⟨_, sameDispatch_behind fun _ _ _ _ => by simp⟩
            | some callback =>
              exact ⟨_, sameDispatch_behind fun hconfig _ _ _ =>
                getD_setupFilters_ne_exit hmem hcallback hconfig⟩
          · -- from here on both look for the same words in the same mode
            obtain ⟨rfl, hmode⟩ := exec_of_children hfind hleaf
            have hbehind : ShellMode.exec.behind c = .exec := if_neg hmode
            have hnumber : ShellMode.exec.number = ShellMode.exec.code := rfl
            rw [hbehind, hnumber]
            suffices hstays : _ = (⟨privilege, ShellMode.exec.code⟩ : Cli) from
              ⟨.exec, hstays, hstays, rfl, Or.inl rfl⟩
            rw [if_neg (by simp [hleaf])]
            split
            · rfl
            · exact cliFindCommand_mode (show modeExec ≤ modeConfig by decide)

theorem cliRunCommand_reference (privilege : Int) (mode : ShellMode) (command : Text) :
    ∃ mode', SameDispatch privilege mode mode'
      (cliRunCommand regcomp ⟨privilege, mode.code⟩ mbInteract command)
      (cliRunCommand regcomp ⟨privilege, mode.number⟩ referenceCommands command) := by
  unfold cliRunCommand
  dsimp only
  split
  · exact ⟨mode, rfl, rfl, rfl, Or.inl rfl⟩
  · exact cliFindCommand_reference privilege mode _

/-- The loop ends for both, or it dispatches the line for both. -/
theorem cliLoopLine_reference (privilege : Int) (mode : ShellMode) (command : Text) :
    (cliLoopLine regcomp ⟨privilege, mode.code⟩ mbInteract command = none ∧
        cliLoopLine regcomp ⟨privilege, mode.number⟩ referenceCommands command = none) ∨
      ∃ mode' session reference, SameDispatch privilege mode mode' session reference ∧
        cliLoopLine regcomp ⟨privilege, mode.code⟩ mbInteract command = some session ∧
        cliLoopLine regcomp ⟨privilege, mode.number⟩ referenceCommands command =
          some reference := by
  unfold cliLoopLine
  split
  · exact Or.inl ⟨rfl, rfl⟩
  · obtain ⟨mode', hsame⟩ := cliRunCommand_reference privilege mode command
    exact Or.inr ⟨mode', _, _, hsame, rfl, rfl⟩

end Dispatch

/-! ## The run -/

section Run

variable {regcomp : List Text → Option Text}

/-- Where the modes are the same, so are the commands. -/
theorem agrees_iff {s : ModeSession} {r : Reference} :
    Agrees regcomp s r ↔
      s.ended = r.ended ∧ (r.ended = false → s.cli = ⟨r.privilege, r.mode.code⟩) := by
  constructor
  · exact fun h => ⟨h.ended, h.cli⟩
  · rintro ⟨hended, hcli⟩
    refine ⟨hended, hcli, fun hgoes line => ?_⟩
    obtain ⟨mode', hsame⟩ := cliRunCommand_reference r.privilege r.mode line
    rw [hcli hgoes]
    exact hsame.silent

/-- `cli_int_exit` at the numbers that the session has for the modes. -/
theorem cliIntExit_code (privilege : Int) (mode : ShellMode) :
    cliIntExit ⟨privilege, mode.code⟩ =
      match mode with
      | .exec => (⟨privilegeUnprivileged, modeExec⟩, cliQuit)
      | .config => (⟨privilege, modeExec⟩, cliOk)
      | .configImage => (⟨privilege, modeExec⟩, cliOk)
      | .configNet => (⟨privilege, modeConfig⟩, cliOk) := by
  cases mode <;> rfl

theorem agrees_call_iff {privilege : Int} {mode : ShellMode} {returns : Bool} {argc : Nat}
    {callback : Callback CliCmd} :
    Agrees regcomp (ModeSession.call returns argc ⟨privilege, mode.code⟩ callback)
        (Reference.call returns argc ⟨privilege, mode, false⟩ callback) ↔
      ¬ (mode = .configImage ∧ callback = .int .exit) := by
  have hok : cliOk ≠ cliQuit := by decide
  rw [agrees_iff]
  cases callback with
  | int builtin =>
    rw [ModeSession.call]
    cases builtin with
    | exit =>
      rw [Builtin.run, cliIntExit_code, Reference.call, Reference.leave]
      cases mode with
      | exec => simp [ShellMode.up]
      | config => simp [ShellMode.up, hok, ShellMode.code]
      | configImage =>
        have hmodes : modeExec ≠ modeConfig := by decide
        simp [ShellMode.up, hok, ShellMode.code, hmodes]
      | configNet => simp [ShellMode.up, hok, ShellMode.code]
    | enable =>
      rw [Builtin.run, cliIntEnable, Reference.call]
      dsimp only
      by_cases h : privilege = privilegePrivileged
      · simp [h, hok]
      · simp [h, hok, cliSetConfigmode, cliSetPrivilege, ShellMode.code]
    | help => simp [Builtin.run, Reference.call, hok]
    | quit => simp [Builtin.run, Reference.call, cliIntQuit]
    | history => simp [Builtin.run, Reference.call, hok]
    | disable =>
      simp [Builtin.run, Reference.call, cliIntDisable, hok, cliSetConfigmode, cliSetPrivilege,
        ShellMode.code]
    | configureTerminal =>
      simp [Builtin.run, Reference.call, cliIntConfigureTerminal, hok, cliSetConfigmode,
        ShellMode.code]
  | user cmd =>
    rw [ModeSession.call]
    cases cmd with
    | configImage =>
      rw [CliCmd.run, Reference.call]
      by_cases h : argc < 1
      · simp [h, CliCmd.configures]
      · simp [h, CliCmd.configures, cliSetConfigmode, ShellMode.code]
    | configNet =>
      simp [Reference.call, CliCmd.run, CliCmd.configures, cliSetConfigmode, ShellMode.code]
    | configModeExit =>
      simp [Reference.call, CliCmd.run, CliCmd.configures, cliSetConfigmode, ShellMode.code]
    | _ => simp [Reference.call, CliCmd.run, CliCmd.configures]

theorem ShellMode.number_inj {mode mode' : ShellMode} (h : mode.number = mode'.number) :
    mode = mode' := by
  cases mode <;> cases mode' <;> first | rfl | exact absurd h (by decide)

theorem follow_eq {r : Reference} {mode : ShellMode} (h : mode = r.mode ∨ mode = .config) :
    r.follow ⟨r.privilege, mode.number⟩ = { r with mode } := by
  unfold Reference.follow
  dsimp only
  split
  · rename_i hnumber
    rw [ShellMode.number_inj hnumber]
  · rename_i hnumber
    rw [h.resolve_left fun hsame => hnumber (congrArg _ hsame)]

theorem agrees_dispatched_iff {privilege : Int} {mode : ShellMode} {returns : Bool}
    {dispatch dispatch' : Dispatch (Callback CliCmd)} (h : dispatch.silent = dispatch'.silent) :
    Agrees regcomp (ModeSession.dispatched returns ⟨privilege, mode.code⟩ dispatch)
        (Reference.dispatched ⟨privilege, mode, false⟩ returns dispatch') ↔
      ¬ (mode = .configImage ∧
        ∃ name argv argc, dispatch' = .call (.int .exit) name argv argc) := by
  cases dispatch with
  | ret code said =>
    cases dispatch' with
    | ret code' said' => simp [ModeSession.dispatched, Reference.dispatched, agrees_iff]
    | _ => cases h
  | fault f =>
    cases dispatch' with
    | fault f' => simp [ModeSession.dispatched, Reference.dispatched, agrees_iff]
    | _ => cases h
  | call callback name argv argc =>
    cases dispatch' with
    | call callback' name' argv' argc' =>
      obtain ⟨rfl, rfl, rfl, rfl⟩ := Dispatch.call.inj h
      rw [ModeSession.dispatched, Reference.dispatched, agrees_call_iff]
      simp
    | _ => cases h

theorem agrees_step_iff {s : ModeSession} {r : Reference} {e : Entered} (h : Agrees regcomp s r) :
    Agrees regcomp (s.step regcomp e) (r.step regcomp e) ↔ ¬ LeavesImage regcomp r e := by
  obtain ⟨scli, sended⟩ := s
  obtain ⟨privilege, mode, rended⟩ := r
  obtain ⟨hended, hcli, -⟩ := h
  dsimp only at hended hcli
  subst hended
  cases sended with
  | true => simp [ModeSession.step, Reference.step, LeavesImage, agrees_iff]
  | false =>
    obtain rfl := hcli rfl
    unfold ModeSession.step Reference.step LeavesImage
    dsimp only [Reference.cli]
    rw [if_neg Bool.false_ne_true, if_neg Bool.false_ne_true]
    rcases cliLoopLine_reference privilege mode e.line with
      ⟨hsession, hreference⟩ | ⟨mode', session, reference, hsame, hsession, hreference⟩
    · rw [hsession, hreference]
      simp [agrees_iff]
    · rw [hsession, hreference]
      obtain ⟨cli, dispatch⟩ := session
      obtain ⟨cli', dispatch'⟩ := reference
      obtain ⟨rfl, rfl, hsilent, hmode⟩ := hsame
      dsimp only at hsilent hmode ⊢
      have hfollow : (⟨privilege, mode, false⟩ : Reference).follow ⟨privilege, mode'.number⟩ =
          ⟨privilege, mode', false⟩ :=
        follow_eq (hmode.imp_right And.left)
      rw [hfollow, agrees_dispatched_iff hsilent]
      rcases hmode with rfl | ⟨rfl, hne⟩
      · simp
      · simp [hne]

end Run

def imageEntered : List Entered :=
  [⟨"configure terminal".toList, true⟩, ⟨"image funky".toList, true⟩, ⟨"exit".toList, true⟩]

end Monoimage.Boot
