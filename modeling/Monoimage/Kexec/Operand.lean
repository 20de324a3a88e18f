import Monoimage.Kexec.Monoimage

/-! The image is looked for twice: `my_load` takes the word at the index that the first pass
over the options has left, and `monoimage_load` the first word that names a file. -/
namespace Monoimage.Kexec

open Clib

/-- The words of the loop in `monoimage_load`, in the order that its own pass leaves them. -/
def imageWords (argv : List Text) : List Text :=
  ((getoptLong monoimageTable argv).argv argv).tail

/-- `argv[fileind]`, which `my_load` reads the image from. -/
def Passes.operand (passes : Passes) : Option Text := passes.argv[passes.fileind]?

/-- The loop ends with that file, and what `stat` says of it. -/
def PicksOperand (env : LoadEnv) (passes : Passes) (operand : Text) (buf : StatBuf) : Prop :=
  findImage env env.imagesBuf (imageWords passes.argv) = .ok (some operand, buf)

instance (env : LoadEnv) (passes : Passes) (operand : Text) (buf : StatBuf) :
    Decidable (PicksOperand env passes operand buf) :=
  inferInstanceAs (Decidable (_ = _))

/-! ## The loop -/

theorem findImage_iff {env : LoadEnv} {unset buf : StatBuf} {operand : Text} {words : List Text}
    (hmem : operand ∈ words) (hstat : env.stat operand = .ok buf) :
    findImage env unset words = .ok (some operand, buf) ↔
      (∀ word ∈ words.takeWhile (· ≠ operand), env.stat word = .error .enoent) ∧
        (words.takeWhile (· ≠ operand) ≠ [] → unset.dev ≠ 0) := by
  induction words with
  | nil => cases hmem
  | cons word rest ih =>
    by_cases hword : word = operand
    · subst hword
      simp [findImage, hstat]
    · have hrest := ih ((List.mem_cons.mp hmem).resolve_left (Ne.symm hword))
      rw [List.takeWhile_cons_of_pos (by simpa using hword), List.forall_mem_cons]
      unfold findImage
      split
      · -- an earlier word names a file
        rename_i found hfound
        simp [hword, hfound]
      · rename_i hother
        simp [hother]
      · rename_i hnoent
        by_cases hdev : unset.dev = 0
        · simp [hdev]
        · rw [if_neg hdev, hrest]
          simp [hnoent, hdev]

/-! ## The operand is one of the words -/

theorem optionPasses_ok {argv : List Text} {passes : Passes} (h : optionPasses argv = .ok passes) :
    passes.fileind = (getoptLong mainTable argv).optind := by
  simp only [optionPasses, bind_eq_ok_iff] at h
  obtain ⟨flags, -, arch, -, hpasses⟩ := h
  rw [← Except.ok.inj hpasses]

theorem mem_tail_of_getElem? {α : Type} {words : List α} {i : Nat} {a : α}
    (h : words[1 + i]? = some a) : a ∈ words.tail := by
  rw [Nat.add_comm, ← List.getElem?_tail] at h
  exact List.mem_of_getElem? h

theorem operand_mem_imageWords {argv : List Text} {passes : Passes} {operand : Text}
    (hpasses : optionPasses argv = .ok passes) (hoperand : passes.operand = some operand) :
    operand ∈ imageWords passes.argv := by
  rw [Passes.operand, optionPasses_ok hpasses] at hoperand
  exact (tail_argv_perm monoimageTable passes.argv).mem_iff.mpr (mem_tail_of_getElem? hoperand)

/-- The two agree exactly if no file has the name of a word in front of the operand, nothing
but ENOENT comes from these words, and the buffer that is tested then is not zero by chance. -/
theorem picksOperand_iff {env : LoadEnv} {argv : List Text} {passes : Passes} {operand : Text}
    {buf : StatBuf} (hpasses : optionPasses argv = .ok passes)
    (hoperand : passes.operand = some operand) (hstat : env.stat operand = .ok buf) :
    PicksOperand env passes operand buf ↔
      (∀ word ∈ (imageWords passes.argv).takeWhile (· ≠ operand),
        env.stat word = .error .enoent) ∧
        ((imageWords passes.argv).takeWhile (· ≠ operand) ≠ [] → env.imagesBuf.dev ≠ 0) :=
  findImage_iff (operand_mem_imageWords hpasses hoperand) hstat

def examplePasses : Passes := ⟨{ doShutdown := false }, {}, 3, exampleArgv⟩

theorem optionPasses_exampleArgv : optionPasses exampleArgv = .ok examplePasses := by
  decide +kernel

theorem picksOperand_exampleArgv :
    PicksOperand exampleEnv examplePasses "/images/funky.img".toList ⟨0x303, 0, false⟩ :=
  (picksOperand_iff optionPasses_exampleArgv (by decide) (by decide)).mpr
    ⟨by decide +kernel, by decide +kernel⟩

/-- A machine on which no name is longer than 255 characters. -/
def shortNamesEnv : LoadEnv :=
  { exampleEnv with
    stat := fun path =>
      if 255 < path.length ∧ '/' ∉ path then .error .other else exampleEnv.stat path }

/-- A kernel command line of 250 characters. -/
def longArgv : List Text :=
  ["kexec".toList, "--append=".toList ++ List.replicate 250 'x', "--config=mb.conf".toList,
    "-l".toList, "/images/funky.img".toList]

/-- The option with that command line is no name at all, and the load ends there. -/
theorem not_picksOperand_longArgv :
    ∃ passes, optionPasses longArgv = .ok passes ∧
      passes.operand = some "/images/funky.img".toList ∧
      shortNamesEnv.stat "/images/funky.img".toList = .ok ⟨0x303, 0, false⟩ ∧
      findImage shortNamesEnv shortNamesEnv.imagesBuf (imageWords passes.argv) =
        .error (.returned (-1)) ∧
      ¬ PicksOperand shortNamesEnv passes "/images/funky.img".toList ⟨0x303, 0, false⟩ := by
  have hpasses : optionPasses longArgv = .ok ⟨{ doShutdown := false }, {}, 4, longArgv⟩ := by
    decide +kernel
  exact ⟨_, hpasses, by decide +kernel, by decide +kernel, by decide +kernel, by decide +kernel⟩

end Monoimage.Kexec
