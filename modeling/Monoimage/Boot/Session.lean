import Monoimage.Boot.Shell

/-! A session of the shell: which `mb.conf` its commands write. `MB_PATH_CONFIG` is relative,
and `cmd_show_disk` moves the process about. -/
namespace Monoimage.Boot

open Clib Libcli

def mbConfigMax : Nat := 8000

/-- The working directory `/`, without its slash. -/
def rootDir : Text := []

/-! ## `cmd_show_disk` -/

/-- The outcomes of its system calls. `entries` are the names that `readdir` gives, each with
the size from its `stat`. -/
structure DiskOutcome where
  opendir : Bool
  chdirImages : Bool
  entries : List (Text × Option Nat)
  chdirRoot : Bool
  statvfs : Bool
  deriving DecidableEq, Repr

def shown (name : Text) : Bool :=
  !strncmpEq ".".toList name 1 && !strncmpEq "..".toList name 2 &&
    !strncmpEq "lost+found".toList name 10

/-- The loop over the directory; `false` is a `stat` that failed. -/
def listEntries : List (Text × Option Nat) → Bool
  | [] => true
  | (name, size) :: rest =>
    if shown name then
      match size with
      | none => false
      | some _ => listEntries rest
    else listEntries rest

def chdir (done : Bool) (dir cwd : Text) : Text := if done then dir else cwd

/-- The return value, and the working directory that is left. -/
def cmdShowDisk (o : DiskOutcome) (cwd : Text) : Int × Text :=
  if !o.opendir then (-1, cwd)
  else
    let cwd := chdir o.chdirImages mbPathImages cwd
    if !listEntries o.entries then (-1, cwd)
    else (if o.statvfs then 0 else -1, chdir o.chdirRoot rootDir cwd)

/-- Where `show disk` leaves the process, if it moves it. -/
def DiskOutcome.landing (o : DiskOutcome) : Option Text :=
  if !o.opendir then none
  else if listEntries o.entries && o.chdirRoot then some rootDir
  else if o.chdirImages then some mbPathImages
  else none

theorem cmdShowDisk_cwd (o : DiskOutcome) (cwd : Text) :
    (cmdShowDisk o cwd).2 = o.landing.getD cwd := by
  unfold cmdShowDisk DiskOutcome.landing chdir
  cases o.opendir <;> cases o.chdirImages <;> cases listEntries o.entries <;>
    cases o.chdirRoot <;> rfl

/-! ## The session -/

/-- The shell process. `replaced` lists the `mb.conf` of every `cmd_write` so far. -/
structure Session where
  cwd : Text
  files : Files
  cfg : Config
  dropped : Bool
  ended : Bool
  replaced : List Text

def Session.start (home : Text) (files : Files) (cfg : Config) : Session :=
  ⟨home, files, cfg, false, false, []⟩

/-- A command with the outcomes of its system calls. `showStart` has what it finds in
`mb.conf`, and `shell` the files that ash leaves. -/
inductive ShellStep where
  | showDisk (o : DiskOutcome)
  | showRun
  | showStart (conf : Option Text)
  | showVer
  | write (o : WriteOutcome) (time : TimeStr)
  | shell (files : Files)
  | boot (env : BootEnv) (argv : List Text) (o : WriteOutcome) (time : TimeStr)

/-- `fprintf` takes the text for a format, which is defined as long as it asks for no
argument. -/
def formatPlain : Text → Bool
  | [] => true
  | '%' :: '%' :: rest => formatPlain rest
  | '%' :: _ => false
  | _ :: rest => formatPlain rest

namespace Session

def write (s : Session) (o : WriteOutcome) (time : TimeStr) (cfg : Config) : Session :=
  { s with
    files := (cmdWrite o time cfg s.cwd s.files).2
    replaced := s.replaced ++ [(confPaths s.cwd).conf] }

/-- A program image that was replaced or has left the defined behaviour takes no more
commands. -/
def boot (s : Session) (env : BootEnv) (argv : List Text) (o : WriteOutcome) (time : TimeStr) :
    Session :=
  if s.dropped then { s with ended := true }
  else
    let run := cliCmdBoot env s.cfg argv
    let s := run.saves.foldl (fun s saved => s.write o time saved) s
    match run.finish with
    | .returned _ => { s with cfg := run.cfg, dropped := decide (.dropConfig ∈ run.actions) }
    | _ => { s with cfg := run.cfg, ended := true }

def step (s : Session) (c : ShellStep) : Session :=
  if s.ended then s
  else
    match c with
    | .showDisk o => { s with cwd := (cmdShowDisk o s.cwd).2 }
    | .showRun => { s with ended := s.dropped }
    | .showStart conf =>
      match conf with
      | none => { s with ended := true }
      | some text => { s with ended := !(fgetsAll mbConfigMax text).all formatPlain }
    | .showVer => s
    | .write o time => s.write o time s.cfg
    | .shell files => { s with files := files }
    | .boot env argv o time => s.boot env argv o time

def run (s : Session) (steps : List ShellStep) : Session :=
  steps.foldl step s

end Session

/-! ## The file that is written -/

/-- The command calls `cmd_write`. -/
def performs (s : Session) : ShellStep → Bool
  | .write _ _ => !s.ended
  | .boot _ argv _ _ => !s.ended && !s.dropped && (bootTag s.cfg argv[1]?).isSome
  | _ => false

def ShellStep.landing : ShellStep → Option Text
  | .showDisk o => o.landing
  | _ => none

/-- Every `cmd_write` so far was about the `mb.conf` that `main` read. -/
def SameConf (home : Text) (s : Session) : Prop :=
  ∀ path ∈ s.replaced, path = (confPaths home).conf

theorem boot_frame (s : Session) (env : BootEnv) (argv : List Text) (o : WriteOutcome)
    (time : TimeStr) :
    (s.boot env argv o time).cwd = s.cwd ∧
      (s.boot env argv o time).replaced = s.replaced ++
        if !s.dropped && (bootTag s.cfg argv[1]?).isSome then [(confPaths s.cwd).conf] else [] := by
  unfold Session.boot
  cases s.dropped with
  | true => simp
  | false =>
    have hsaves : (cliCmdBoot env s.cfg argv).saves =
        ((bootTag s.cfg argv[1]?).map (recordTry s.cfg)).toList := cmdBoot_saves env s.cfg argv[1]?
    simp only [Bool.false_eq_true, if_false, hsaves, Bool.not_false, Bool.true_and]
    cases bootTag s.cfg argv[1]? with
    | none =>
      cases (cliCmdBoot env s.cfg argv).finish <;> simp
    | some tag =>
      cases (cliCmdBoot env s.cfg argv).finish <;> simp [Session.write]

theorem step_cwd (s : Session) (c : ShellStep) (h : (s.step c).ended = false) :
    (s.step c).cwd = c.landing.getD s.cwd := by
  cases hended : s.ended with
  | true =>
    simp [Session.step, hended] at h
  | false =>
    cases c with
    | showDisk o => simpa [Session.step, hended, ShellStep.landing] using cmdShowDisk_cwd o s.cwd
    | showStart conf => cases conf <;> simp [Session.step, hended, ShellStep.landing]
    | boot env argv o time =>
      simpa [Session.step, hended, ShellStep.landing] using (boot_frame s env argv o time).1
    | _ => simp [Session.step, hended, ShellStep.landing, Session.write]

theorem step_replaced (s : Session) (c : ShellStep) :
    (s.step c).replaced = s.replaced ++ if performs s c then [(confPaths s.cwd).conf] else [] := by
  cases hended : s.ended with
  | true =>
    cases c <;> simp [Session.step, hended, performs]
  | false =>
    cases c with
    | showStart conf => cases conf <;> simp [Session.step, hended, performs]
    | write o time => simp [Session.step, hended, performs, Session.write]
    | boot env argv o time =>
      simpa [Session.step, hended, performs] using (boot_frame s env argv o time).2
    | _ => simp [Session.step, hended, performs]

theorem step_ended {s : Session} (c : ShellStep) (h : s.ended = true) : s.step c = s := by
  cases c <;> simp [Session.step, h]

theorem run_ended {s : Session} (steps : List ShellStep) (h : s.ended = true) :
    s.run steps = s := by
  induction steps with
  | nil => rfl
  | cons c rest ih =>
    rw [Session.run, List.foldl_cons, step_ended c h]
    exact ih

/-- As long as the session goes on, the last `show disk` that moved the process says where
it is. -/
theorem run_cwd (s : Session) (steps : List ShellStep) (h : (s.run steps).ended = false) :
    (s.run steps).cwd = (steps.filterMap ShellStep.landing).getLastD s.cwd := by
  induction steps generalizing s with
  | nil => rfl
  | cons c rest ih =>
    have hrun : s.run (c :: rest) = (s.step c).run rest := rfl
    rw [hrun] at h ⊢
    have hstep : (s.step c).ended = false := by
      by_contra hended
      rw [Bool.not_eq_false] at hended
      rw [run_ended rest hended, hended] at h
      cases h
    rw [ih (s.step c) h, step_cwd s c hstep, List.filterMap_cons]
    cases c.landing with
    | none => rfl
    | some dir => rw [List.getLastD_cons]; rfl

/-- Every path of the log comes from one command of the run. -/
theorem mem_replaced_iff {s : Session} {steps : List ShellStep} {path : Text} :
    path ∈ (s.run steps).replaced ↔ path ∈ s.replaced ∨
      ∃ before c after, steps = before ++ c :: after ∧ performs (s.run before) c = true ∧
        path = (confPaths (s.run before).cwd).conf := by
  induction steps generalizing s with
  | nil => simp [Session.run]
  | cons c rest ih =>
    have hrun : s.run (c :: rest) = (s.step c).run rest := rfl
    rw [hrun, ih, step_replaced, List.mem_append, or_assoc]
    apply or_congr_right
    constructor
    · rintro (hmem | ⟨before, c', after, rfl, hperforms, rfl⟩)
      · split at hmem
        · rename_i hperforms
          exact ⟨[], c, rest, rfl, hperforms, List.mem_singleton.mp hmem⟩
        · cases hmem
      · exact ⟨c :: before, c', after, rfl, hperforms, rfl⟩
    · rintro ⟨before, c', after, hsplit, hperforms, rfl⟩
      cases before with
      | nil =>
        obtain ⟨rfl, rfl⟩ := List.cons.inj hsplit
        have hfirst : performs s c = true := hperforms
        rw [if_pos hfirst]
        exact Or.inl (List.mem_singleton_self _)
      | cons c₀ before =>
        obtain ⟨rfl, rfl⟩ := List.cons.inj hsplit
        exact Or.inr ⟨before, c', after, rfl, hperforms, rfl⟩

theorem confPaths_conf_inj {cwd home : Text} :
    (confPaths cwd).conf = (confPaths home).conf ↔ cwd = home := by
  constructor
  · intro h
    change confFile cwd mbConf = confFile home mbConf at h
    rw [confFile_eq, confFile_eq] at h
    exact List.append_cancel_right h
  · rintro rfl
    rfl

theorem not_ended_of_performs {s : Session} {c : ShellStep} (h : performs s c = true) :
    s.ended = false := by
  cases c <;> simp_all [performs]

/-- A session writes the file that was read exactly if, at each of its writes, the last
`show disk` that moved the process has left it where it started. -/
theorem sameConf_iff (home : Text) (files : Files) (cfg : Config) (steps : List ShellStep) :
    SameConf home ((Session.start home files cfg).run steps) ↔
      ∀ before c after, steps = before ++ c :: after →
        performs ((Session.start home files cfg).run before) c = true →
          (before.filterMap ShellStep.landing).getLastD home = home := by
  have hcwd : ∀ before c, performs ((Session.start home files cfg).run before) c = true →
      ((Session.start home files cfg).run before).cwd =
        (before.filterMap ShellStep.landing).getLastD home := fun before c hperforms =>
    run_cwd (Session.start home files cfg) before (not_ended_of_performs hperforms)
  unfold SameConf
  constructor
  · intro h before c after hsplit hperforms
    rw [← hcwd before c hperforms, ← confPaths_conf_inj]
    apply h
    exact mem_replaced_iff.mpr (Or.inr ⟨before, c, after, hsplit, hperforms, rfl⟩)
  · intro h path hpath
    obtain hstart | ⟨before, c, after, hsplit, hperforms, rfl⟩ := mem_replaced_iff.mp hpath
    · cases hstart
    · rw [confPaths_conf_inj, hcwd before c hperforms]
      exact h before c after hsplit hperforms

/-- Started in `/`: a listing that cannot `stat` an image, and a write. -/
def lostSteps : List ShellStep :=
  [.showDisk ⟨true, true, [("funky.img".toList, none)], true, true⟩,
   .write (.success (confText exampleTime exampleConf)) exampleTime]

theorem not_sameConf_lostSteps :
    ¬ SameConf rootDir ((Session.start rootDir (fun _ => none) exampleConf).run lostSteps) := by
  intro h
  have hpath : "/images/monoboot/mb.conf".toList = (confPaths rootDir).conf :=
    h _ (by decide)
  exact absurd hpath (by decide)

end Monoimage.Boot
