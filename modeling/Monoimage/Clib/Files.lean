import Monoimage.Clib.Text

/-! Files by absolute path, and what a power cut leaves of a sequence of updates.
An update is atomic; a write that can be cut half way is several updates. -/
namespace Monoimage.Clib

abbrev Files := Text → Option Text

/-- A relative path starts at the working directory, given without a trailing slash. -/
def resolve (cwd path : Text) : Text :=
  if path.head? = some '/' then path else cwd ++ '/' :: path

namespace Files

def write (path contents : Text) (files : Files) : Files :=
  fun p => if p = path then some contents else files p

def rename (source target : Text) (files : Files) : Files :=
  fun p => if p = target then files source else if p = source then none else files p

@[simp] theorem write_same (path contents : Text) (files : Files) :
    files.write path contents path = some contents := by
  simp [write]

theorem write_other {p path contents : Text} {files : Files} (h : p ≠ path) :
    files.write path contents p = files p := by
  simp [write, h]

@[simp] theorem rename_target (source target : Text) (files : Files) :
    files.rename source target target = files source := by
  simp [rename]

theorem rename_source {source target : Text} {files : Files} (h : source ≠ target) :
    files.rename source target source = none := by
  simp [rename, h]

theorem rename_other {p source target : Text} {files : Files} (ht : p ≠ target)
    (hs : p ≠ source) : files.rename source target p = files p := by
  simp [rename, ht, hs]

end Files

section Crash

variable {σ : Type}

def runAll (updates : List (σ → σ)) (start : σ) : σ :=
  updates.foldl (fun state update => update state) start

/-- The state that a power cut after `k` updates leaves. -/
def cutAfter (updates : List (σ → σ)) (k : Nat) (start : σ) : σ :=
  runAll (updates.take k) start

theorem runAll_append (first second : List (σ → σ)) (start : σ) :
    runAll (first ++ second) start = runAll second (runAll first start) := by
  simp [runAll, List.foldl_append]

theorem cutAfter_append_of_le {first second : List (σ → σ)} {k : Nat} (start : σ)
    (h : k ≤ first.length) : cutAfter (first ++ second) k start = cutAfter first k start := by
  rw [cutAfter, List.take_append_of_le_length h, cutAfter]

theorem cutAfter_append_add (first second : List (σ → σ)) (k : Nat) (start : σ) :
    cutAfter (first ++ second) (first.length + k) start =
      cutAfter second k (runAll first start) := by
  rw [cutAfter, List.take_length_add_append, runAll_append, cutAfter]

theorem runAll_induct {updates : List (σ → σ)} {P : σ → Prop} {start : σ} (hstart : P start)
    (hkeep : ∀ update ∈ updates, ∀ state, P state → P (update state)) :
    P (runAll updates start) := by
  induction updates generalizing start with
  | nil => exact hstart
  | cons update rest ih =>
    exact ih (hkeep update List.mem_cons_self start hstart)
      (fun u hu => hkeep u (List.mem_cons_of_mem _ hu))

theorem cutAfter_induct {updates : List (σ → σ)} {P : σ → Prop} {start : σ} (k : Nat)
    (hstart : P start) (hkeep : ∀ update ∈ updates, ∀ state, P state → P (update state)) :
    P (cutAfter updates k start) :=
  runAll_induct hstart (fun update hu => hkeep update (List.mem_of_mem_take hu))

end Crash

end Monoimage.Clib
