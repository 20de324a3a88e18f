import Monoimage.Clib.Align

/-! Items in a row, each at the next multiple of its alignment. -/
namespace Monoimage.Clib

/-- `(x + (align - 1)) & ~(align - 1)` with an `unsigned long`. -/
def alignUp (x align : Nat) : Nat := ulong (x + align + (2 ^ 32 - 1)) &&& alignMask align

theorem alignUp_eq {x align : Nat} (halign : PowerOfTwo align) (h : x + align ≤ 2 ^ 32) :
    alignUp x align = roundUp x align := by
  have hpos := halign.pos
  have hwrap : ulong (x + align + (2 ^ 32 - 1)) = x + align - 1 := by
    unfold ulong
    omega
  rw [alignUp, and_alignMask halign (ulong_lt _), hwrap]
  rfl

theorem roundUp_lt {align : Nat} (hpos : 0 < align) (x : Nat) : roundUp x align < x + align := by
  have := alignDown_le align (x + align - 1)
  unfold alignDown at this
  unfold roundUp
  omega

theorem roundUp_of_dvd {x align : Nat} (hpos : 0 < align) (h : align ∣ x) :
    roundUp x align = x :=
  Nat.le_antisymm (roundUp_le hpos h (Nat.le_refl x)) (le_roundUp hpos x)

/-- A multiple in front stays in front. -/
theorem roundUp_add {base align : Nat} (hpos : 0 < align) (h : align ∣ base) (x : Nat) :
    roundUp (base + x) align = base + roundUp x align := by
  have hlow := le_roundUp hpos (base + x)
  have hdvd : align ∣ base + roundUp x align := (Nat.dvd_add_right h).mpr (dvd_roundUp x align)
  have hdvd' : align ∣ roundUp (base + x) align - base :=
    Nat.dvd_sub (dvd_roundUp _ _) h
  apply Nat.le_antisymm
  · exact roundUp_le hpos hdvd (Nat.add_le_add_left (le_roundUp hpos x) base)
  · have := roundUp_le hpos hdvd' (show x ≤ _ by omega)
    omega

section Pack

variable {ι : Type} (align size : ι → Nat)

def pack (pos : Nat) : List ι → List (ι × Nat)
  | [] => []
  | x :: rest =>
    let start := roundUp pos (align x)
    (x, start) :: pack (start + size x) rest

/-- The end of the last item. -/
def packEnd (pos : Nat) : List ι → Nat
  | [] => pos
  | x :: rest => packEnd (roundUp pos (align x) + size x) rest

variable {align size} {xs : List ι}

theorem map_fst_pack (pos : Nat) : (pack align size pos xs).map Prod.fst = xs := by
  induction xs generalizing pos with
  | nil => rfl
  | cons x rest ih =>
    rw [pack, List.map_cons, ih]

theorem pack_aligned {pos : Nat} : ∀ p ∈ pack align size pos xs, align p.1 ∣ p.2 := by
  induction xs generalizing pos with
  | nil => simp [pack]
  | cons x rest ih =>
    rw [pack, List.forall_mem_cons]
    exact ⟨dvd_roundUp _ _, ih⟩

variable (hpos : ∀ x ∈ xs, 0 < align x)

include hpos

theorem le_packEnd (pos : Nat) : pos ≤ packEnd align size pos xs := by
  induction xs generalizing pos with
  | nil => exact Nat.le_refl pos
  | cons x rest ih =>
    rw [List.forall_mem_cons] at hpos
    have hstart := le_roundUp hpos.1 pos
    have hrest := ih hpos.2 (roundUp pos (align x) + size x)
    rw [packEnd]
    omega

/-- A row takes the sizes and at most the alignments. -/
theorem packEnd_le (pos : Nat) :
    packEnd align size pos xs ≤ pos + (xs.map fun x => size x + align x).sum := by
  induction xs generalizing pos with
  | nil => exact Nat.le_refl pos
  | cons x rest ih =>
    rw [List.forall_mem_cons] at hpos
    have hstart := roundUp_lt hpos.1 pos
    have hrest := ih hpos.2 (roundUp pos (align x) + size x)
    rw [packEnd, List.map_cons, List.sum_cons]
    omega

/-- Each item starts behind the ones before it, and all of them lie between the two ends. -/
theorem pack_ordered (pos : Nat) :
    (pack align size pos xs).Pairwise (fun p q => p.2 + size p.1 ≤ q.2) ∧
      ∀ p ∈ pack align size pos xs, pos ≤ p.2 ∧ p.2 + size p.1 ≤ packEnd align size pos xs := by
  induction xs generalizing pos with
  | nil => exact ⟨List.Pairwise.nil, by simp [pack]⟩
  | cons x rest ih =>
    rw [List.forall_mem_cons] at hpos
    have hstart := le_roundUp hpos.1 pos
    obtain ⟨hpairwise, hbetween⟩ := ih hpos.2 (roundUp pos (align x) + size x)
    rw [pack, packEnd]
    constructor
    · exact List.Pairwise.cons (fun q hq => (hbetween q hq).1) hpairwise
    · rw [List.forall_mem_cons]
      refine ⟨⟨hstart, le_packEnd hpos.2 _⟩, ?_⟩
      intro p hp
      have := hbetween p hp
      omega

/-- A row that starts at a common multiple of the alignments is the row from 0 on, moved. -/
theorem pack_add {base : Nat} (hbase : ∀ x ∈ xs, align x ∣ base) (pos : Nat) :
    pack align size (base + pos) xs =
        (pack align size pos xs).map (fun p => (p.1, base + p.2)) ∧
      packEnd align size (base + pos) xs = base + packEnd align size pos xs := by
  induction xs generalizing pos with
  | nil => exact ⟨rfl, rfl⟩
  | cons x rest ih =>
    rw [List.forall_mem_cons] at hpos hbase
    have hrest := ih hpos.2 hbase.2 (roundUp pos (align x) + size x)
    rw [pack, pack, packEnd, packEnd, roundUp_add hpos.1 hbase.1, Nat.add_assoc, hrest.1, hrest.2]
    exact ⟨rfl, rfl⟩

end Pack

/-- A list whose elements of each of two kinds, and those of different kinds, are related. -/
theorem pairwise_of_kinds {α : Type} {r : α → α → Prop} (hsymm : ∀ {x y}, r x y → r y x)
    {p q : α → Bool} {xs : List α} (hp : (xs.filter p).Pairwise r) (hq : (xs.filter q).Pairwise r)
    (hpq : ∀ x ∈ xs, ∀ y ∈ xs, p x → q y → r x y) :
    (xs.filter fun x => p x || q x).Pairwise r := by
  rw [List.pairwise_filter] at *
  refine (hp.and hq).imp_of_mem ?_
  rintro x y hx hy ⟨hxy, hxy'⟩ hkind hkind'
  rw [Bool.or_eq_true] at hkind hkind'
  rcases hkind with hpx | hqx
  · rcases hkind' with hpy | hqy
    · exact hxy hpx hpy
    · exact hpq x hx y hy hpx hqy
  · rcases hkind' with hpy | hqy
    · exact hsymm (hpq y hy x hx hpy hqx)
    · exact hxy' hqx hqy

end Monoimage.Clib
