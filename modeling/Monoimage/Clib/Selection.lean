import Mathlib.Data.List.Basic
import Mathlib.Order.Lattice

/-! Selection sort as a C program does it in place: the first least element of what is left
is exchanged with the head. -/
namespace Monoimage.Clib

variable {α β : Type} [LinearOrder β] (key : α → β)

/-- The index of the first least element of a list, of which `best` at `tidx` is the least so
far and `j` is the index of the head. -/
def leastFrom (best : α) (tidx j : Nat) : List α → Nat
  | [] => tidx
  | x :: rest =>
    if key x < key best then leastFrom x j (j + 1) rest else leastFrom best tidx (j + 1) rest

def leastIndex : List α → Nat
  | [] => 0
  | x :: rest => leastFrom key x 0 1 rest

/-- The head is exchanged with the element at an index. -/
def exchange : Nat → List α → List α
  | k + 1, x :: rest =>
    match rest[k]? with
    | some y => y :: rest.set k x
    | none => x :: rest
  | _, xs => xs

/-- One round of the outer loop for each element that is left. -/
def selectFirst : Nat → List α → List α
  | 0, xs => xs
  | n + 1, xs =>
    match exchange (leastIndex key xs) xs with
    | [] => []
    | x :: rest => x :: selectFirst n rest

def selectionSort (xs : List α) : List α := selectFirst key xs.length xs

variable {key}

theorem cons_set_perm (x : α) : ∀ {k : Nat} {rest : List α} {y : α}, rest[k]? = some y →
    (y :: rest.set k x).Perm (x :: rest) := by
  intro k rest y h
  induction rest generalizing k with
  | nil => simp at h
  | cons z rest ih =>
    cases k with
    | zero =>
      rw [List.getElem?_cons_zero, Option.some.injEq] at h
      subst h
      exact List.Perm.swap _ _ _
    | succ k =>
      rw [List.getElem?_cons_succ] at h
      rw [List.set_cons_succ]
      calc
        y :: z :: rest.set k x
        _ |>.Perm (z :: y :: rest.set k x) := List.Perm.swap _ _ _
        _ |>.Perm (z :: x :: rest) := (ih h).cons z
        _ |>.Perm (x :: z :: rest) := List.Perm.swap _ _ _

theorem exchange_perm (k : Nat) (xs : List α) : (exchange k xs).Perm xs := by
  unfold exchange
  split
  · split
    · rename_i h
      exact cons_set_perm _ h
    · rfl
  · rfl

/-- What the scan has passed, with the head of the scan behind it. -/
theorem leastFrom_spec {before rest : List α} {best : α} {tidx : Nat}
    (hbest : before[tidx]? = some best) (hleast : ∀ x ∈ before, key best ≤ key x) :
    ∃ y, (before ++ rest)[leastFrom key best tidx before.length rest]? = some y ∧
      ∀ x ∈ before ++ rest, key y ≤ key x := by
  induction rest generalizing before best tidx with
  | nil => exact ⟨best, by simpa [leastFrom] using hbest, by simpa using hleast⟩
  | cons z rest ih =>
    have hlength : (before ++ [z]).length = before.length + 1 := by simp
    have happend : before ++ z :: rest = (before ++ [z]) ++ rest := by simp
    have hlt : tidx < before.length := (List.getElem?_eq_some_iff.mp hbest).1
    rw [happend, leastFrom, ← hlength]
    split
    · rename_i hz
      apply ih
      · simp
      · intro x hx
        rcases List.mem_append.mp hx with hx | hx
        · exact le_of_lt (lt_of_lt_of_le hz (hleast x hx))
        · rw [List.mem_singleton.mp hx]
    · rename_i hz
      apply ih
      · rw [List.getElem?_append_left hlt, hbest]
      · intro x hx
        rcases List.mem_append.mp hx with hx | hx
        · exact hleast x hx
        · rw [List.mem_singleton.mp hx]
          exact not_lt.mp hz

/-- The head after the exchange is a least element. -/
theorem exchange_least {xs : List α} {x : α} {rest : List α}
    (h : exchange (leastIndex key xs) xs = x :: rest) : ∀ y ∈ rest, key x ≤ key y := by
  cases xs with
  | nil => simp [leastIndex, exchange] at h
  | cons head tail =>
    obtain ⟨least, hget, hleast⟩ : ∃ y, ([head] ++ tail)[leastFrom key head 0 1 tail]? = some y ∧
        ∀ x ∈ [head] ++ tail, key y ≤ key x :=
      leastFrom_spec rfl (by simp)
    have hx : x = least := by
      simp only [leastIndex, List.singleton_append] at h hget
      cases hk : leastFrom key head 0 1 tail with
      | zero =>
        rw [hk] at h hget
        simp only [exchange, List.cons.injEq] at h
        rw [List.getElem?_cons_zero, Option.some.injEq] at hget
        exact h.1.symm.trans hget
      | succ k =>
        rw [hk] at h hget
        rw [List.getElem?_cons_succ] at hget
        simp only [exchange, hget, List.cons.injEq] at h
        exact h.1.symm
    have hperm := exchange_perm (leastIndex key (head :: tail)) (head :: tail)
    rw [h] at hperm
    intro y hy
    rw [hx]
    exact hleast y (hperm.subset (List.mem_cons_of_mem x hy))

theorem selectFirst_perm (n : Nat) (xs : List α) : (selectFirst key n xs).Perm xs := by
  induction n generalizing xs with
  | zero => rfl
  | succ n ih =>
    have hperm := exchange_perm (leastIndex key xs) xs
    unfold selectFirst
    split
    · rename_i h
      rwa [h] at hperm
    · rename_i x rest h
      rw [h] at hperm
      exact ((ih rest).cons x).trans hperm

theorem selectFirst_sorted {n : Nat} {xs : List α} (hn : xs.length ≤ n) :
    (selectFirst key n xs).Pairwise fun x y => key x ≤ key y := by
  induction n generalizing xs with
  | zero =>
    rw [List.eq_nil_of_length_eq_zero (Nat.le_zero.mp hn)]
    exact List.Pairwise.nil
  | succ n ih =>
    have hlength := (exchange_perm (leastIndex key xs) xs).length_eq
    unfold selectFirst
    split
    · exact List.Pairwise.nil
    · rename_i x rest h
      rw [h, List.length_cons] at hlength
      apply List.Pairwise.cons
      · intro y hy
        exact exchange_least h y ((selectFirst_perm n rest).subset hy)
      · exact ih (by omega)

theorem selectionSort_perm (xs : List α) : (selectionSort key xs).Perm xs :=
  selectFirst_perm _ _

theorem selectionSort_sorted (xs : List α) :
    (selectionSort key xs).Pairwise fun x y => key x ≤ key y :=
  selectFirst_sorted (Nat.le_refl _)

end Monoimage.Clib
