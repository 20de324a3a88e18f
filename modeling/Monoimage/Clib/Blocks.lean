import Mathlib.Data.List.Basic

/-! A stream that is processed in blocks of `n`: the state that the whole blocks lead to, and
what is left for the next block. -/
namespace Monoimage.Clib

section Blocks

variable {α σ : Type} (n : Nat) (process : σ → List α → σ)

/-- `while (length >= n)`, with a bound on the rounds. -/
def absorbFuel : Nat → σ → List α → σ × List α
  | 0, s, xs => (s, xs)
  | fuel + 1, s, xs =>
    if n ≤ xs.length then absorbFuel fuel (process s (xs.take n)) (xs.drop n) else (s, xs)

def absorb (s : σ) (xs : List α) : σ × List α := absorbFuel n process xs.length s xs

variable {n process}

theorem absorb_of_lt {s : σ} {xs : List α} (h : xs.length < n) :
    absorb n process s xs = (s, xs) := by
  unfold absorb
  cases xs.length with
  | zero => rfl
  | succ fuel =>
    unfold absorbFuel
    rw [if_neg (by omega)]

/-- Only whole blocks are processed. -/
theorem absorb_congr {process' : σ → List α → σ}
    (h : ∀ s block, block.length = n → process s block = process' s block) (s : σ) (xs : List α) :
    absorb n process s xs = absorb n process' s xs := by
  have hfuel (fuel : Nat) (s : σ) (xs : List α) :
      absorbFuel n process fuel s xs = absorbFuel n process' fuel s xs := by
    induction fuel generalizing s xs with
    | zero => rfl
    | succ fuel ih =>
      unfold absorbFuel
      split
      · rename_i hlength
        rw [h s _ (List.length_take_of_le hlength)]
        exact ih _ _
      · rfl
  exact hfuel xs.length s xs

variable (hn : 0 < n)

include hn

/-- Rounds beyond the length change nothing. -/
theorem absorbFuel_congr {fuel fuel' : Nat} {s : σ} {xs : List α} (h : xs.length ≤ fuel)
    (h' : xs.length ≤ fuel') :
    absorbFuel n process fuel s xs = absorbFuel n process fuel' s xs := by
  have hnil (fuel : Nat) (s : σ) : absorbFuel n process fuel s [] = (s, []) := by
    cases fuel with
    | zero => rfl
    | succ fuel => rw [absorbFuel, if_neg (by simp; omega)]
  induction fuel generalizing fuel' s xs with
  | zero =>
    rw [List.eq_nil_of_length_eq_zero (Nat.le_zero.mp h), hnil, hnil]
  | succ fuel ih =>
    cases fuel' with
    | zero => rw [List.eq_nil_of_length_eq_zero (Nat.le_zero.mp h'), hnil, hnil]
    | succ fuel' =>
      unfold absorbFuel
      split
      · have hdrop : (xs.drop n).length = xs.length - n := List.length_drop
        exact ih (by omega) (by omega)
      · rfl

theorem absorb_step {s : σ} {xs : List α} (h : n ≤ xs.length) :
    absorb n process s xs = absorb n process (process s (xs.take n)) (xs.drop n) := by
  have hdrop : (xs.drop n).length = xs.length - n := List.length_drop
  unfold absorb
  rw [absorbFuel_congr hn (Nat.le_refl _) (Nat.le_succ xs.length)]
  rw [absorbFuel, if_pos h]
  exact absorbFuel_congr hn (by omega) (Nat.le_refl _)

/-- A whole block goes in first. -/
theorem absorb_block {s : σ} {block xs : List α} (h : block.length = n) :
    absorb n process s (block ++ xs) = absorb n process (process s block) xs := by
  rw [absorb_step hn (by rw [List.length_append]; omega), List.take_left' h, List.drop_left' h]

/-- The induction of this section is on a bound of the length. -/
theorem absorb_append (s : σ) (xs ys : List α) :
    absorb n process s (xs ++ ys) =
      absorb n process (absorb n process s xs).1 ((absorb n process s xs).2 ++ ys) := by
  generalize hlength : xs.length = m
  induction m using Nat.strongRecOn generalizing s xs with
  | ind m ih =>
    by_cases h : n ≤ xs.length
    · have hdrop : (xs.drop n).length = xs.length - n := List.length_drop
      have htake : (xs.take n).length = n := List.length_take_of_le h
      rw [absorb_step hn h, ← ih _ (by omega) _ _ hdrop, ← absorb_block hn htake,
        ← List.append_assoc, List.take_append_drop]
    · have hshort : xs.length < n := by omega
      rw [absorb_of_lt hshort]

/-- What is left is the end of the stream behind the whole blocks. -/
theorem absorb_rest (s : σ) (xs : List α) :
    (absorb n process s xs).2 = xs.drop (xs.length / n * n) := by
  generalize hlength : xs.length = m
  induction m using Nat.strongRecOn generalizing s xs with
  | ind m ih =>
    by_cases h : n ≤ xs.length
    · have hdrop : (xs.drop n).length = xs.length - n := List.length_drop
      have hdiv : m / n = (m - n) / n + 1 := by
        rw [← Nat.add_div_right _ hn]
        congr 1
        omega
      rw [absorb_step hn h, ih _ (by omega) _ _ hdrop, List.drop_drop, hlength, hdiv, Nat.add_mul,
        Nat.one_mul, Nat.add_comm n]
    · rw [absorb_of_lt (by omega), Nat.div_eq_of_lt (by omega), Nat.zero_mul, List.drop_zero]

theorem length_absorb_rest (s : σ) (xs : List α) :
    (absorb n process s xs).2.length = xs.length % n := by
  have hsplit := Nat.div_add_mod xs.length n
  rw [Nat.mul_comm] at hsplit
  rw [absorb_rest hn, List.length_drop]
  omega

theorem absorb_rest_lt (s : σ) (xs : List α) : (absorb n process s xs).2.length < n := by
  rw [length_absorb_rest hn]
  exact Nat.mod_lt _ hn

/-- A stream of whole blocks leaves nothing. -/
theorem absorb_of_dvd {s : σ} {xs : List α} (h : n ∣ xs.length) :
    (absorb n process s xs).2 = [] := by
  apply List.eq_nil_of_length_eq_zero
  rw [length_absorb_rest hn, Nat.mod_eq_zero_of_dvd h]

end Blocks

end Monoimage.Clib
