import Monoimage.Boot.Config

/-! `cmd_write`: the configuration goes to `mb.conf.new`, the old file is kept as
`mb.conf.old`, and the new one is renamed into place. -/
namespace Monoimage.Boot

open Clib

/-- `MB_PATH_CONFIG` is relative. -/
def mbPathConfig : Text := "monoboot".toList

def mbConf : Text := "mb.conf".toList
def mbConfNew : Text := "mb.conf.new".toList
def mbConfOld : Text := "mb.conf.old".toList

/-- The three distinct files that `cmd_write` handles. -/
structure ConfPaths where
  conf : Text
  new : Text
  old : Text
  new_ne_conf : new ≠ conf
  old_ne_conf : old ≠ conf
  new_ne_old : new ≠ old

def confFile (cwd name : Text) : Text :=
  resolve cwd (mbPathConfig ++ '/' :: name)

theorem confFile_eq (cwd name : Text) :
    confFile cwd name = cwd ++ '/' :: (mbPathConfig ++ '/' :: name) := by
  have hrelative : (mbPathConfig ++ '/' :: name).head? = some 'm' := rfl
  rw [confFile, resolve, hrelative, if_neg (by decide)]

theorem confFile_ne {cwd a b : Text} (h : a ≠ b) : confFile cwd a ≠ confFile cwd b := by
  rw [confFile_eq, confFile_eq]
  intro heq
  have htail := List.cons.inj (List.append_cancel_left heq)
  exact h (List.cons.inj (List.append_cancel_left htail.2)).2

def confPaths (cwd : Text) : ConfPaths where
  conf := confFile cwd mbConf
  new := confFile cwd mbConfNew
  old := confFile cwd mbConfOld
  new_ne_conf := confFile_ne (by decide)
  old_ne_conf := confFile_ne (by decide)
  new_ne_old := confFile_ne (by decide)

/-- What `strftime` leaves in `timestr`: names, digits and punctuation on one line. -/
structure TimeStr where
  text : Text
  no_newline : '\n' ∉ text

/-- The text that `cmd_write` prints. The configuration itself is the empty string:
the call of `get_running_config` is commented out. -/
def confText (time : TimeStr) (_cfg : Config) : Text :=
  let config : Text := []
  "# config saved by monoboot at ".toList ++ (time.text ++ '\n' :: '\n' :: config)

/-- The outcomes of the file operations. `flushed` lists how much of the text is in
`mb.conf.new` after each write that reaches the disk, up to the one of `fclose`; the
program looks at none of these results except that of `fopen`. -/
structure WriteOutcome where
  fopen : Bool
  flushed : List Nat
  renameOld : Bool
  renameNew : Bool
  deriving DecidableEq, Repr

namespace WriteOutcome

def written (o : WriteOutcome) (text : Text) : Text :=
  text.take (o.flushed.getLastD 0)

def fill (o : WriteOutcome) (paths : ConfPaths) (text : Text) : List (Files → Files) :=
  Files.write paths.new [] :: o.flushed.map fun n => Files.write paths.new (text.take n)

/-- The two renames; a failed one is reported and otherwise ignored. -/
def swap (o : WriteOutcome) (paths : ConfPaths) : List (Files → Files) :=
  [if o.renameOld then Files.rename paths.conf paths.old else id,
   if o.renameNew then Files.rename paths.new paths.conf else id]

def updates (o : WriteOutcome) (paths : ConfPaths) (text : Text) : List (Files → Files) :=
  if o.fopen then o.fill paths text ++ o.swap paths else []

def success (text : Text) : WriteOutcome := ⟨true, [text.length], true, true⟩

end WriteOutcome

/-- The return value of `cmd_write` and the files it leaves. -/
def cmdWrite (o : WriteOutcome) (time : TimeStr) (cfg : Config) (cwd : Text) (files : Files) :
    Int × Files :=
  (if o.fopen then 0 else -1, runAll (o.updates (confPaths cwd) (confText time cfg)) files)

section Updates

variable (o : WriteOutcome) (paths : ConfPaths) (text : Text) (files : Files)

theorem length_fill : (o.fill paths text).length = o.flushed.length + 1 := by
  simp [WriteOutcome.fill]

theorem cutAfter_fill_conf (k : Nat) :
    cutAfter (o.fill paths text) k files paths.conf = files paths.conf := by
  refine cutAfter_induct (P := fun state : Files => state paths.conf = files paths.conf) k rfl ?_
  intro update hupdate state hstate
  simp only [WriteOutcome.fill, List.mem_cons, List.mem_map] at hupdate
  rcases hupdate with rfl | ⟨n, _, rfl⟩
  · rw [Files.write_other paths.new_ne_conf.symm, hstate]
  · rw [Files.write_other paths.new_ne_conf.symm, hstate]

theorem runAll_fill_conf : runAll (o.fill paths text) files paths.conf = files paths.conf := by
  have h := cutAfter_fill_conf o paths text files (o.fill paths text).length
  rwa [cutAfter, List.take_length] at h

theorem runAll_fill_new :
    runAll (o.fill paths text) files paths.new = some (o.written text) := by
  obtain ⟨fopen, flushed, renameOld, renameNew⟩ := o
  simp only [WriteOutcome.fill, WriteOutcome.written]
  cases flushed using List.reverseRecOn with
  | nil => simp [runAll]
  | append_singleton flushed n =>
    rw [List.map_append, ← List.cons_append, runAll_append]
    simp [runAll]

theorem runAll_swap_conf :
    runAll (o.swap paths) (runAll (o.fill paths text) files) paths.conf =
      if o.renameNew then some (o.written text)
      else if o.renameOld then none else files paths.conf := by
  have hnew : (if o.renameOld then Files.rename paths.conf paths.old else id)
      (runAll (o.fill paths text) files) paths.new = some (o.written text) := by
    split
    · rw [Files.rename_other paths.new_ne_old paths.new_ne_conf, runAll_fill_new]
    · exact runAll_fill_new o paths text files
  simp only [WriteOutcome.swap, runAll, List.foldl_cons, List.foldl_nil]
  by_cases hrn : o.renameNew
  · simp only [hrn, if_true, Files.rename_target]
    exact hnew
  · simp only [hrn, Bool.false_eq_true, if_false, id]
    split
    · exact Files.rename_source paths.old_ne_conf.symm
    · exact runAll_fill_conf o paths text files

end Updates

/-- `cmd_write` touches its three files only. -/
theorem cmdWrite_other {o : WriteOutcome} {time : TimeStr} {cfg : Config} {cwd p : Text}
    {files : Files} (h : ∀ name, p ≠ confFile cwd name) :
    (cmdWrite o time cfg cwd files).2 p = files p := by
  refine runAll_induct (P := fun state : Files => state p = files p) rfl ?_
  intro update hupdate state hstate
  have hnew : p ≠ (confPaths cwd).new := h mbConfNew
  have hconf : p ≠ (confPaths cwd).conf := h mbConf
  have hold : p ≠ (confPaths cwd).old := h mbConfOld
  simp only [WriteOutcome.updates, WriteOutcome.fill, WriteOutcome.swap] at hupdate
  split at hupdate
  · simp only [List.mem_append, List.mem_cons, List.mem_map, List.not_mem_nil, or_false] at hupdate
    rcases hupdate with (rfl | ⟨n, _, rfl⟩) | rfl | rfl
    · rw [Files.write_other hnew, hstate]
    · rw [Files.write_other hnew, hstate]
    · split
      · rw [Files.rename_other hold hconf, hstate]
      · exact hstate
    · split
      · rw [Files.rename_other hconf hnew, hstate]
      · exact hstate
  · cases hupdate

/-! What a save and a reload keep. -/

theorem commentsOnly_confText (time : TimeStr) (cfg : Config) :
    commentsOnly false (confText time cfg) = true := by
  have hcomment : '\n' ∉ " config saved by monoboot at ".toList ++ time.text := by
    rw [List.mem_append, not_or]
    exact ⟨by decide, time.no_newline⟩
  calc
    commentsOnly false (confText time cfg) =
        commentsOnly true ((" config saved by monoboot at ".toList ++ time.text) ++
          '\n' :: ['\n']) := by
      rw [List.append_assoc]
      rfl
    _ = commentsOnly false ['\n'] := commentsOnly_comment hcomment
    _ = true := rfl

/-- Whatever the running configuration was, the file that `cmd_write` puts in place
loads as the declared defaults. -/
theorem loadConfig_cmdWrite (lib : Confuse) (time : TimeStr) (cfg : Config) (cwd : Text)
    (files : Files) :
    loadConfig lib (cmdWrite (.success (confText time cfg)) time cfg cwd files).2
      (confPaths cwd).conf = .ok lib.cfgInit := by
  refine loadConfig_of_comments ?_ (commentsOnly_confText time cfg)
  have hswap := runAll_swap_conf (.success (confText time cfg)) (confPaths cwd)
    (confText time cfg) files
  rw [← runAll_append] at hswap
  simpa [cmdWrite, WriteOutcome.updates, WriteOutcome.success, WriteOutcome.written] using hswap

/-- A save and a reload keep a configuration exactly if it is the one of the declared
defaults. -/
theorem reload_eq_iff (lib : Confuse) (time : TimeStr) (cfg : Config) (cwd : Text)
    (files : Files) :
    loadConfig lib (cmdWrite (.success (confText time cfg)) time cfg cwd files).2
      (confPaths cwd).conf = .ok cfg ↔ cfg = lib.cfgInit := by
  rw [loadConfig_cmdWrite]
  constructor
  · intro h
    exact (Except.ok.inj h).symm
  · rintro rfl
    rfl

/-- A library that reads comments and nothing else. -/
def commentReader : Confuse where
  listDefault _ := []
  cfgParse cfg text := if commentsOnly false text then some cfg else none
  cfgParse_comments cfg text h := by simp [h]

def exampleConf : Config where
  version := 0
  delay := 5
  bootonce := "mental".toList
  tryonce := "no".toList
  default := "funky".toList
  fallback := "safe".toList
  lasttry := "funky".toList
  lastboot := "nil".toList
  images :=
    [⟨"funky".toList, some "funky.img".toList⟩,
     ⟨"safe".toList, some "safe.img".toList⟩,
     ⟨"mental".toList, some "mental.img".toList⟩]
  networks := [⟨"eth0".toList, some "81.187.187.55/24".toList, some "81.187.187.1".toList⟩]
  line := ["ssh".toList, "ttyS0".toList]
  password := "foobar".toList

def exampleTime : TimeStr := ⟨"Thu, 10 Jun 2004 12:00:00 +0100".toList, by decide⟩

theorem reload_exampleConf :
    loadConfig commentReader
        (cmdWrite (.success (confText exampleTime exampleConf)) exampleTime exampleConf []
          fun _ => none).2 (confPaths []).conf ≠ .ok exampleConf := by
  rw [loadConfig_cmdWrite]
  decide

/-! What a failure or a power cut during `cmd_write` leaves of `mb.conf`. -/

inductive Ending where
  | cut (k : Nat)
  | returned
  deriving DecidableEq, Repr

def Keeps (conf old text : Text) (files : Files) : Prop :=
  files conf = some old ∨ files conf = some text

/-- The law of an atomic update, for one ending of one run of `cmd_write`. -/
def AtomicWrite (o : WriteOutcome) (time : TimeStr) (cfg : Config) (cwd : Text) (files : Files)
    (old : Text) : Ending → Prop
  | .cut k =>
    Keeps (confPaths cwd).conf old (confText time cfg)
      (cutAfter (o.updates (confPaths cwd) (confText time cfg)) k files)
  | .returned =>
    let result := cmdWrite o time cfg cwd files
    Keeps (confPaths cwd).conf old (confText time cfg) result.2 ∧
      (result.1 = 0 → result.2 (confPaths cwd).conf = some (confText time cfg))

/-- The outcomes and cuts that do no harm. Between the renames there is no `mb.conf`
unless the first one failed; after them it holds what was written, complete or not,
or nothing if only the second one failed. -/
def WriteOutcome.Safe (o : WriteOutcome) (old text : Text) : Ending → Prop
  | .cut k =>
    o.fopen = false ∨ k ≤ o.flushed.length + 1 ∨
      (k = o.flushed.length + 2 ∧ o.renameOld = false) ∨
      (o.flushed.length + 2 < k ∧
        ((o.renameNew = true ∧ (o.written text = text ∨ o.written text = old)) ∨
          (o.renameNew = false ∧ o.renameOld = false)))
  | .returned =>
    o.fopen = false ∨ (o.renameNew = true ∧ o.written text = text) ∨
      (o.renameNew = false ∧ o.renameOld = false ∧ old = text)

section Endings

variable {o : WriteOutcome} {paths : ConfPaths} {text old : Text} {files : Files}

theorem keeps_cut_fill {k : Nat} (hold : files paths.conf = some old) (hfopen : o.fopen = true)
    (hk : k ≤ o.flushed.length + 1) :
    Keeps paths.conf old text (cutAfter (o.updates paths text) k files) := by
  left
  rw [WriteOutcome.updates, if_pos hfopen,
    cutAfter_append_of_le _ (by rwa [length_fill]), cutAfter_fill_conf, hold]

theorem keeps_cut_between (hold : files paths.conf = some old) (hfopen : o.fopen = true) :
    Keeps paths.conf old text (cutAfter (o.updates paths text) (o.flushed.length + 2) files) ↔
      o.renameOld = false := by
  have hindex : o.flushed.length + 2 = (o.fill paths text).length + 1 := by rw [length_fill]
  rw [WriteOutcome.updates, if_pos hfopen, hindex, cutAfter_append_add]
  simp only [Keeps, cutAfter, WriteOutcome.swap, List.take_succ_cons, List.take_zero, runAll,
    List.foldl_cons, List.foldl_nil]
  by_cases h : o.renameOld
  · simp [h, Files.rename_source paths.old_ne_conf.symm]
  · have hconf := runAll_fill_conf o paths text files
    rw [runAll] at hconf
    simp [h, hconf, hold]

theorem conf_after_renames (hold : files paths.conf = some old) (hfopen : o.fopen = true) :
    runAll (o.updates paths text) files paths.conf =
      if o.renameNew then some (o.written text) else if o.renameOld then none else some old := by
  rw [WriteOutcome.updates, if_pos hfopen, runAll_append, runAll_swap_conf, hold]

theorem keeps_renamed (hold : files paths.conf = some old) (hfopen : o.fopen = true) :
    Keeps paths.conf old text (runAll (o.updates paths text) files) ↔
      ((o.renameNew = true ∧ (o.written text = text ∨ o.written text = old)) ∨
        (o.renameNew = false ∧ o.renameOld = false)) := by
  rw [Keeps, conf_after_renames hold hfopen]
  cases o.renameNew <;> cases o.renameOld <;> simp [or_comm]

end Endings

/-- A run of `cmd_write` keeps the law of an atomic update exactly if its outcomes and its
ending are safe. -/
theorem atomicWrite_iff {o : WriteOutcome} {time : TimeStr} {cfg : Config} {cwd : Text}
    {files : Files} {old : Text} (hold : files (confPaths cwd).conf = some old)
    (ending : Ending) :
    AtomicWrite o time cfg cwd files old ending ↔ o.Safe old (confText time cfg) ending := by
  cases hfopen : o.fopen with
  | false =>
    cases ending <;>
      simp [AtomicWrite, WriteOutcome.Safe, cmdWrite, WriteOutcome.updates, hfopen, Keeps,
        cutAfter, runAll, hold]
  | true =>
    cases ending with
    | returned =>
      simp only [AtomicWrite, WriteOutcome.Safe, cmdWrite, hfopen, if_true, forall_const,
        keeps_renamed hold hfopen, conf_after_renames hold hfopen]
      cases o.renameNew <;> cases o.renameOld <;> simp +contextual
    | cut k =>
      simp only [AtomicWrite, WriteOutcome.Safe, hfopen, Bool.true_eq_false, false_or]
      rcases Nat.lt_trichotomy k (o.flushed.length + 2) with hk | rfl | hk
      · have hsafe : k ≤ o.flushed.length + 1 := by omega
        simp only [hsafe, true_or, iff_true]
        exact keeps_cut_fill hold hfopen hsafe
      · rw [keeps_cut_between hold hfopen]
        simp
      · -- past both renames the cut comes too late to matter
        have hall : (o.updates (confPaths cwd) (confText time cfg)).length ≤ k := by
          simp only [WriteOutcome.updates, hfopen, if_true, List.length_append, length_fill,
            WriteOutcome.swap, List.length_cons, List.length_nil]
          omega
        rw [cutAfter, List.take_of_length_le hall, keeps_renamed hold hfopen]
        simp only [show ¬ k ≤ o.flushed.length + 1 by omega,
          show k ≠ o.flushed.length + 2 by omega, hk, false_and, false_or, true_and]

def exampleFiles : Files := fun _ => some "delay = 5\n".toList

theorem atomicWrite_success :
    AtomicWrite (.success (confText exampleTime exampleConf)) exampleTime exampleConf []
      exampleFiles "delay = 5\n".toList .returned := by
  have hold : exampleFiles (confPaths []).conf = some "delay = 5\n".toList := rfl
  apply (atomicWrite_iff hold .returned).mpr
  right
  left
  exact ⟨rfl, List.take_length⟩

/-- Everything succeeds, and the power goes between the two renames. -/
theorem not_atomicWrite_between_renames :
    ¬ AtomicWrite (.success (confText exampleTime exampleConf)) exampleTime exampleConf []
      exampleFiles "delay = 5\n".toList (.cut 3) := by
  have hold : exampleFiles (confPaths []).conf = some "delay = 5\n".toList := rfl
  intro h
  have hrename := (keeps_cut_between hold rfl).mp h
  exact absurd hrename (by decide)

end Monoimage.Boot
