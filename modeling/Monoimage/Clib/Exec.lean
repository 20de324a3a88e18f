import Monoimage.Clib.Text

/-! Programs that run one after the other: their argument lists, and the state that each of
them changes. -/
namespace Monoimage.Clib

/-- The arguments of a variadic call, up to the first NULL. -/
def uptoNull : List (Option Text) → List Text
  | some arg :: rest => arg :: uptoNull rest
  | _ => []

section Commands

variable {σ κ : Type} (run : κ → σ → σ × Bool)

def runEach (commands : List κ) (s : σ) : σ :=
  commands.foldl (fun s command => (run command s).1) s

/-- Each command succeeds on the state that the ones before it leave. -/
def allSucceed : List κ → σ → Bool
  | [], _ => true
  | command :: rest, s => (run command s).2 && allSucceed rest (run command s).1

variable {run}

theorem runEach_append (commands more : List κ) (s : σ) :
    runEach run (commands ++ more) s = runEach run more (runEach run commands s) :=
  List.foldl_append

theorem allSucceed_append {commands more : List κ} {s : σ} :
    allSucceed run (commands ++ more) s = true ↔
      allSucceed run commands s = true ∧ allSucceed run more (runEach run commands s) = true := by
  induction commands generalizing s with
  | nil => simp [allSucceed, runEach]
  | cons command rest ih =>
    simp only [List.cons_append, allSucceed, Bool.and_eq_true, ih, and_assoc]
    rfl

/-- A sum of exit codes adds nothing for commands that succeed. -/
theorem foldl_of_allSucceed {ρ : Type} {commands : List κ} {s : σ} {ret : ρ} {add : ρ → Bool → ρ}
    (h : allSucceed run commands s = true) (hadd : ∀ ret, add ret true = ret) :
    commands.foldl (fun acc command => ((run command acc.1).1, add acc.2 (run command acc.1).2))
      (s, ret) = (runEach run commands s, ret) := by
  induction commands generalizing s with
  | nil => rfl
  | cons command rest ih =>
    rw [allSucceed, Bool.and_eq_true] at h
    rw [List.foldl_cons, h.1, hadd, ih h.2]
    rfl

end Commands

end Monoimage.Clib
