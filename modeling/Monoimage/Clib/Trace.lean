import Monoimage.Clib.Text

/-! Computations that leave a trace of events and may end before they have a result. -/
namespace Monoimage.Clib

structure Traced (ω ε α : Type) where
  trace : List ω
  result : Except ε α

namespace Traced

variable {ω ε α β : Type}

/-- What was done before an early end stays done. -/
instance : Monad (Traced ω ε) where
  pure a := ⟨[], .ok a⟩
  bind x f :=
    match x.result with
    | .error e => ⟨x.trace, .error e⟩
    | .ok a => ⟨x.trace ++ (f a).trace, (f a).result⟩

def emit (event : ω) : Traced ω ε Unit := ⟨[event], .ok ()⟩

def stop (e : ε) : Traced ω ε α := ⟨[], .error e⟩

/-- A computation without events. -/
def silent (x : Except ε α) : Traced ω ε α := ⟨[], x⟩

@[simp] theorem result_pure (a : α) : (pure a : Traced ω ε α).result = .ok a := rfl

@[simp] theorem result_emit (event : ω) : (emit event : Traced ω ε Unit).result = .ok () := rfl

@[simp] theorem result_stop (e : ε) : (stop e : Traced ω ε α).result = .error e := rfl

@[simp] theorem result_silent (x : Except ε α) : (silent x : Traced ω ε α).result = x := rfl

@[simp] theorem trace_pure (a : α) : (pure a : Traced ω ε α).trace = [] := rfl

@[simp] theorem trace_emit (event : ω) : (emit event : Traced ω ε Unit).trace = [event] := rfl

section Bind

variable {x : Traced ω ε α} {f : α → Traced ω ε β}

theorem bind_of_ok {a : α} (h : x.result = .ok a) :
    (x >>= f) = ⟨x.trace ++ (f a).trace, (f a).result⟩ := by
  simp only [bind, h]

theorem bind_of_error {e : ε} (h : x.result = .error e) : (x >>= f) = ⟨x.trace, .error e⟩ := by
  simp only [bind, h]

theorem result_bind_ok_iff {b : β} :
    (x >>= f).result = .ok b ↔ ∃ a, x.result = .ok a ∧ (f a).result = .ok b := by
  cases h : x.result with
  | error e => simp [bind_of_error h]
  | ok a => simp [bind_of_ok h]

theorem result_bind_error_iff {e : ε} :
    (x >>= f).result = .error e ↔
      x.result = .error e ∨ ∃ a, x.result = .ok a ∧ (f a).result = .error e := by
  cases h : x.result with
  | error e' => simp [bind_of_error h]
  | ok a => simp [bind_of_ok h]

theorem mem_trace_bind_iff {event : ω} :
    event ∈ (x >>= f).trace ↔
      event ∈ x.trace ∨ ∃ a, x.result = .ok a ∧ event ∈ (f a).trace := by
  cases h : x.result with
  | error e => simp [bind_of_error h]
  | ok a => simp [bind_of_ok h]

end Bind

end Traced

/-! ## Two machines on the same inputs -/

section StepsTogether

variable {σ τ ι : Type} {R : σ → τ → Prop} {f : σ → ι → σ} {g : τ → ι → τ} {s : σ} {t : τ}

/-- Started in `s` and `t`, the two are related after every part of the inputs. -/
def StepsTogether (R : σ → τ → Prop) (f : σ → ι → σ) (g : τ → ι → τ) (s : σ) (t : τ)
    (inputs : List ι) : Prop :=
  ∀ before, before <+: inputs → R (before.foldl f s) (before.foldl g t)

theorem stepsTogether_nil_iff : StepsTogether R f g s t [] ↔ R s t := by
  simp [StepsTogether]

theorem stepsTogether_cons_iff {input : ι} {rest : List ι} :
    StepsTogether R f g s t (input :: rest) ↔
      R s t ∧ StepsTogether R f g (f s input) (g t input) rest := by
  unfold StepsTogether
  constructor
  · intro h
    refine ⟨h [] List.nil_prefix, fun before hbefore => ?_⟩
    exact h (input :: before) (List.cons_prefix_cons.mpr ⟨rfl, hbefore⟩)
  · rintro ⟨hstart, hrest⟩ before hbefore
    cases before with
    | nil => exact hstart
    | cons first before =>
      obtain ⟨rfl, htail⟩ := List.cons_prefix_cons.mp hbefore
      exact hrest before htail

/-- Where one step keeps the relation exactly if it is not one of those that part the
machines, a run keeps it exactly if it comes to none of them. -/
theorem stepsTogether_iff {Parts : τ → ι → Prop} {inputs : List ι} (hstart : R s t)
    (hstep : ∀ s t input, R s t → (R (f s input) (g t input) ↔ ¬ Parts t input)) :
    StepsTogether R f g s t inputs ↔
      ∀ before input after, inputs = before ++ input :: after →
        ¬ Parts (before.foldl g t) input := by
  induction inputs generalizing s t with
  | nil => simp [stepsTogether_nil_iff, hstart]
  | cons input rest ih =>
    rw [stepsTogether_cons_iff]
    constructor
    · rintro ⟨-, htogether⟩ before input' after hsplit
      have hnext : R (f s input) (g t input) := htogether [] List.nil_prefix
      cases before with
      | nil =>
        obtain ⟨rfl, rfl⟩ := List.cons.inj hsplit
        exact (hstep s t input hstart).mp hnext
      | cons first before =>
        obtain ⟨rfl, rfl⟩ := List.cons.inj hsplit
        exact (ih hnext).mp htogether before input' after rfl
    · intro h
      have hnext := (hstep s t input hstart).mpr (h [] input rest rfl)
      refine ⟨hstart, (ih hnext).mpr fun before input' after hsplit => ?_⟩
      exact h (input :: before) input' after (by rw [hsplit]; rfl)

end StepsTogether

end Monoimage.Clib
