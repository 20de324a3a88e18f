import Mathlib.Data.List.Basic

/-! What a row of blocks leaves free of a row of spans. A block takes what lies from its
start up to, and without, the address that is next after it; the ends of a span belong to
it. -/
namespace Monoimage.Clib

structure Span where
  first : Nat
  last : Nat
  deriving DecidableEq, Repr

/-- The addresses from `b` to `e`, both included, lie in the span. -/
def Span.Holds (span : Span) (b e : Nat) : Prop := span.first ≤ b ∧ e ≤ span.last

/-- Spans in ascending order, none of them empty, with something between any two. -/
structure Separated (spans : List Span) : Prop where
  order : spans.Pairwise fun x y => x.last < y.first
  proper : ∀ span ∈ spans, span.first ≤ span.last

section Gaps

variable {α : Type} (start next : α → Nat)

def gapUpTo (first last : Nat) : List Span := if first ≤ last then [⟨first, last⟩] else []

/-- The gaps from `first` to `last`, and the blocks that start behind `last`. -/
def gapsWithin (last : Nat) : Nat → List α → List Span × List α
  | first, [] => (gapUpTo first last, [])
  | first, x :: rest =>
    if start x ≤ last then
      let found := gapsWithin last (next x) rest
      (if first < start x then ⟨first, start x - 1⟩ :: found.1 else found.1, found.2)
    else (gapUpTo first last, x :: rest)

/-- The blocks that start behind a span are left to the spans after it. -/
def gaps : List Span → List α → List Span
  | [], _ => []
  | span :: spans, blocks =>
    let found := gapsWithin start next span.last span.first blocks
    found.1 ++ gaps spans found.2

/-- Blocks in ascending order, none of them empty. -/
structure Ordered (blocks : List α) : Prop where
  order : blocks.Pairwise fun x y => next x ≤ start y
  proper : ∀ x ∈ blocks, start x < next x

variable {start next}

theorem Ordered.tail {x : α} {rest : List α} (h : Ordered start next (x :: rest)) :
    Ordered start next rest :=
  ⟨h.order.of_cons, fun y hy => h.proper y (List.mem_cons_of_mem x hy)⟩

theorem Ordered.next_le {x : α} {rest : List α} (h : Ordered start next (x :: rest)) :
    ∀ y ∈ rest, next x ≤ start y :=
  fun _ hy => List.rel_of_pairwise_cons h.order hy

theorem Separated.tail {span : Span} {spans : List Span} (h : Separated (span :: spans)) :
    Separated spans :=
  ⟨h.order.of_cons, fun x hx => h.proper x (List.mem_cons_of_mem span hx)⟩

theorem Separated.last_lt {span : Span} {spans : List Span} (h : Separated (span :: spans)) :
    ∀ x ∈ spans, span.last < x.first :=
  fun _ hx => List.rel_of_pairwise_cons h.order hx

theorem mem_gapUpTo {first last : Nat} {gap : Span} :
    gap ∈ gapUpTo first last ↔ first ≤ last ∧ gap = ⟨first, last⟩ := by
  unfold gapUpTo
  split
  · rename_i h
    simp [h]
  · rename_i h
    simp [h]

theorem exists_gapUpTo_iff {first last b e : Nat} (hbe : b ≤ e) :
    (∃ gap ∈ gapUpTo first last, gap.Holds b e) ↔ first ≤ b ∧ e ≤ last := by
  simp only [mem_gapUpTo]
  constructor
  · rintro ⟨gap, ⟨-, rfl⟩, h⟩
    exact h
  · rintro ⟨hfirst, hlast⟩
    exact ⟨_, ⟨by omega, rfl⟩, hfirst, hlast⟩

section Within

variable (last : Nat)

theorem gapsWithin_snd (first : Nat) (blocks : List α) :
    (gapsWithin start next last first blocks).2 = blocks.dropWhile (start · ≤ last) := by
  induction blocks generalizing first with
  | nil => rfl
  | cons x rest ih =>
    unfold gapsWithin
    split
    · rename_i h
      rw [List.dropWhile_cons_of_pos (by simpa using h)]
      exact ih (next x)
    · rename_i h
      rw [List.dropWhile_cons_of_neg (by simpa using h)]

/-- A run of addresses is in a gap if and only if it keeps clear of every block. -/
theorem exists_gapsWithin_iff {first : Nat} {blocks : List α} (hblocks : Ordered start next blocks)
    (hfirst : ∀ x ∈ blocks, first ≤ start x) {b e : Nat} (hbe : b ≤ e) :
    (∃ gap ∈ (gapsWithin start next last first blocks).1, gap.Holds b e) ↔
      first ≤ b ∧ e ≤ last ∧ ∀ x ∈ blocks, next x ≤ b ∨ e < start x := by
  induction blocks generalizing first with
  | nil => simpa [gapsWithin] using exists_gapUpTo_iff hbe
  | cons x rest ih =>
    have hx := hfirst x List.mem_cons_self
    have hproper := hblocks.proper x List.mem_cons_self
    have hnext := hblocks.next_le
    unfold gapsWithin
    split
    · have hrest := ih hblocks.tail hnext
      have hcons : (∃ gap ∈ (if first < start x then
            ⟨first, start x - 1⟩ :: (gapsWithin start next last (next x) rest).1
          else (gapsWithin start next last (next x) rest).1), gap.Holds b e) ↔
          (first ≤ b ∧ e < start x) ∨
            ∃ gap ∈ (gapsWithin start next last (next x) rest).1, gap.Holds b e := by
        split
        · simp only [List.exists_mem_cons_iff]
          refine or_congr_left ?_
          simp only [Span.Holds]
          omega
        · rw [iff_or_self]
          omega
      rw [hcons, hrest, List.forall_mem_cons]
      constructor
      · rintro (⟨hb, he⟩ | ⟨hb, he, hclear⟩)
        · refine ⟨hb, by omega, .inr he, ?_⟩
          intro y hy
          have := hnext y hy
          omega
        · exact ⟨by omega, he, .inl hb, hclear⟩
      · rintro ⟨hb, he, hclear | hclear, hrest⟩
        · exact .inr ⟨hclear, he, hrest⟩
        · exact .inl ⟨hb, hclear⟩
    · rename_i hlast
      rw [exists_gapUpTo_iff hbe, List.forall_mem_cons]
      constructor
      · rintro ⟨hb, he⟩
        refine ⟨hb, he, .inr (by omega), ?_⟩
        intro y hy
        have := hnext y hy
        omega
      · rintro ⟨hb, he, -⟩
        exact ⟨hb, he⟩

/-- The gaps of a span are in order and lie in it. -/
theorem gapsWithin_separated {first : Nat} {blocks : List α} (hblocks : Ordered start next blocks)
    (hfirst : ∀ x ∈ blocks, first ≤ start x) :
    Separated (gapsWithin start next last first blocks).1 ∧
      ∀ gap ∈ (gapsWithin start next last first blocks).1, first ≤ gap.first ∧ gap.last ≤ last := by
  have hend (first : Nat) : Separated (gapUpTo first last) ∧
      ∀ gap ∈ gapUpTo first last, first ≤ gap.first ∧ gap.last ≤ last := by
    refine ⟨⟨?_, ?_⟩, ?_⟩
    · unfold gapUpTo
      split
      · exact List.pairwise_singleton _ _
      · exact List.Pairwise.nil
    · intro gap hgap
      obtain ⟨h, rfl⟩ := mem_gapUpTo.mp hgap
      exact h
    · intro gap hgap
      obtain ⟨-, rfl⟩ := mem_gapUpTo.mp hgap
      exact ⟨Nat.le_refl _, Nat.le_refl _⟩
  induction blocks generalizing first with
  | nil => exact hend first
  | cons x rest ih =>
    have hx := hfirst x List.mem_cons_self
    have hproper := hblocks.proper x List.mem_cons_self
    unfold gapsWithin
    split
    · obtain ⟨hsep, hin⟩ := ih hblocks.tail hblocks.next_le
      have hin' : ∀ gap ∈ (gapsWithin start next last (next x) rest).1,
          first ≤ gap.first ∧ gap.last ≤ last := by
        intro gap hgap
        have := hin gap hgap
        omega
      split
      · refine ⟨⟨?_, ?_⟩, ?_⟩
        · apply List.Pairwise.cons _ hsep.order
          intro gap hgap
          have := hin gap hgap
          dsimp only
          omega
        · rw [List.forall_mem_cons]
          exact ⟨by dsimp only; omega, hsep.proper⟩
        · rw [List.forall_mem_cons]
          exact ⟨by dsimp only; omega, hin'⟩
      · exact ⟨hsep, hin'⟩
    · exact hend first

theorem length_gapUpTo (first last : Nat) : (gapUpTo first last).length ≤ 1 := by
  unfold gapUpTo
  split
  · exact Nat.le_refl _
  · exact Nat.zero_le _

theorem length_gapsWithin (first : Nat) (blocks : List α) :
    (gapsWithin start next last first blocks).1.length +
      (gapsWithin start next last first blocks).2.length ≤ blocks.length + 1 := by
  induction blocks generalizing first with
  | nil => exact length_gapUpTo first last
  | cons x rest ih =>
    unfold gapsWithin
    split
    · have := ih (next x)
      split
      · simp only [List.length_cons]
        omega
      · simp only [List.length_cons]
        omega
    · have := length_gapUpTo first last
      simp only [List.length_cons]
      omega

end Within

/-- Every block lies in one of the spans. -/
def Inside (start next : α → Nat) (spans : List Span) (blocks : List α) : Prop :=
  ∀ x ∈ blocks, ∃ span ∈ spans, span.first ≤ start x ∧ next x ≤ span.last + 1

/-- Of blocks in a row of spans, those behind the first span lie in the others. -/
theorem Inside.tail {span : Span} {spans : List Span} {blocks : List α}
    (hspans : Separated (span :: spans)) (hblocks : Ordered start next blocks)
    (h : Inside start next (span :: spans) blocks) {x : α} (hx : x ∈ blocks) :
    (start x ≤ span.last ∧ span.first ≤ start x ∧ next x ≤ span.last + 1) ∨
      (span.last < start x ∧ ∃ other ∈ spans, other.first ≤ start x ∧ next x ≤ other.last + 1) := by
  have hproper := hblocks.proper x hx
  obtain ⟨other, hother, hin⟩ := h x hx
  rcases List.mem_cons.mp hother with rfl | hother
  · exact .inl (by omega)
  · have := hspans.last_lt other hother
    exact .inr ⟨by omega, other, hother, hin⟩

theorem mem_dropWhile_iff {last : Nat} {blocks : List α} (hblocks : Ordered start next blocks)
    {x : α} : x ∈ blocks.dropWhile (start · ≤ last) ↔ x ∈ blocks ∧ last < start x := by
  induction blocks with
  | nil => simp
  | cons y rest ih =>
    by_cases h : start y ≤ last
    · rw [List.dropWhile_cons_of_pos (by simpa using h), ih hblocks.tail, List.mem_cons]
      constructor
      · rintro ⟨hx, hlast⟩
        exact ⟨.inr hx, hlast⟩
      · rintro ⟨rfl | hx, hlast⟩
        · omega
        · exact ⟨hx, hlast⟩
    · rw [List.dropWhile_cons_of_neg (by simpa using h), iff_self_and]
      intro hx
      rcases List.mem_cons.mp hx with rfl | hx
      · omega
      · have := hblocks.next_le x hx
        have := hblocks.proper y List.mem_cons_self
        omega

theorem Ordered.dropWhile {p : α → Bool} {blocks : List α} (h : Ordered start next blocks) :
    Ordered start next (blocks.dropWhile p) :=
  ⟨h.order.sublist (List.dropWhile_sublist p),
    fun x hx => h.proper x ((List.dropWhile_sublist p).subset hx)⟩

/-- The blocks that the first span leaves, against those that the others see. -/
theorem inside_dropWhile {span : Span} {spans : List Span} {blocks : List α}
    (hspans : Separated (span :: spans)) (hblocks : Ordered start next blocks)
    (hinside : Inside start next (span :: spans) blocks) :
    Inside start next spans (blocks.dropWhile (start · ≤ span.last)) := by
  intro x hx
  obtain ⟨hx, hlast⟩ := (mem_dropWhile_iff hblocks).mp hx
  rcases hinside.tail hspans hblocks hx with h | h
  · omega
  · exact h.2

/-- A run of addresses is in a gap if and only if it is in a span and keeps clear of every
block. -/
theorem exists_gaps_iff {spans : List Span} {blocks : List α} (hspans : Separated spans)
    (hblocks : Ordered start next blocks) (hinside : Inside start next spans blocks)
    {b e : Nat} (hbe : b ≤ e) :
    (∃ gap ∈ gaps start next spans blocks, gap.Holds b e) ↔
      (∃ span ∈ spans, span.Holds b e) ∧ ∀ x ∈ blocks, next x ≤ b ∨ e < start x := by
  induction spans generalizing blocks with
  | nil => simp [gaps]
  | cons span spans ih =>
    have hproper := hspans.proper span List.mem_cons_self
    have hleft := hblocks.dropWhile (p := (start · ≤ span.last))
    have hfirst : ∀ x ∈ blocks, span.first ≤ start x := by
      intro x hx
      rcases hinside.tail hspans hblocks hx with h | h
      · exact h.2.1
      · omega
    have hrest := ih hspans.tail hleft (inside_dropWhile hspans hblocks hinside)
    simp only [mem_dropWhile_iff hblocks] at hrest
    have hhere := exists_gapsWithin_iff span.last hblocks hfirst hbe
    have happend : (∃ gap ∈ gaps start next (span :: spans) blocks, gap.Holds b e) ↔
        (∃ gap ∈ (gapsWithin start next span.last span.first blocks).1, gap.Holds b e) ∨
          ∃ gap ∈ gaps start next spans (blocks.dropWhile (start · ≤ span.last)),
            gap.Holds b e := by
      simp only [gaps, gapsWithin_snd, List.mem_append, or_and_right, exists_or]
    rw [happend, hhere, hrest, List.exists_mem_cons_iff]
    constructor
    · rintro (⟨hb, he, hclear⟩ | ⟨⟨other, hother, hb, he⟩, hclear⟩)
      · exact ⟨.inl ⟨hb, he⟩, hclear⟩
      · refine ⟨.inr ⟨other, hother, hb, he⟩, ?_⟩
        intro x hx
        have hlt := hspans.last_lt other hother
        rcases hinside.tail hspans hblocks hx with h | h
        · exact .inl (by omega)
        · exact hclear x ⟨hx, h.1⟩
    · rintro ⟨⟨hb, he⟩ | hother, hclear⟩
      · exact .inl ⟨hb, he, hclear⟩
      · exact .inr ⟨hother, fun x hx => hclear x hx.1⟩

theorem gaps_separated {spans : List Span} {blocks : List α} (hspans : Separated spans)
    (hblocks : Ordered start next blocks) (hinside : Inside start next spans blocks) :
    Separated (gaps start next spans blocks) ∧
      ∀ gap ∈ gaps start next spans blocks, ∃ span ∈ spans, span.Holds gap.first gap.last := by
  induction spans generalizing blocks with
  | nil => exact ⟨⟨List.Pairwise.nil, by simp [gaps]⟩, by simp [gaps]⟩
  | cons span spans ih =>
    have hfirst : ∀ x ∈ blocks, span.first ≤ start x := by
      intro x hx
      have := hspans.proper span List.mem_cons_self
      rcases hinside.tail hspans hblocks hx with h | h
      · exact h.2.1
      · omega
    have hinside' := inside_dropWhile hspans hblocks hinside
    obtain ⟨hrest, hin⟩ := ih hspans.tail (hblocks.dropWhile (p := (start · ≤ span.last))) hinside'
    obtain ⟨hhere, hwithin⟩ := gapsWithin_separated span.last hblocks hfirst
    simp only [gaps, gapsWithin_snd]
    refine ⟨⟨?_, ?_⟩, ?_⟩
    · refine List.pairwise_append.mpr ⟨hhere.order, hrest.order, ?_⟩
      intro x hx y hy
      obtain ⟨other, hother, hholds⟩ := hin y hy
      have := hspans.last_lt other hother
      have := hwithin x hx
      have := hholds.1
      omega
    · intro gap hgap
      rcases List.mem_append.mp hgap with hgap | hgap
      · exact hhere.proper gap hgap
      · exact hrest.proper gap hgap
    · intro gap hgap
      rcases List.mem_append.mp hgap with hgap | hgap
      · exact ⟨span, List.mem_cons_self, hwithin gap hgap⟩
      · obtain ⟨other, hother, hholds⟩ := hin gap hgap
        exact ⟨other, List.mem_cons_of_mem _ hother, hholds⟩

/-- At most one gap in front of each block and one at the end of each span. -/
theorem length_gaps (spans : List Span) (blocks : List α) :
    (gaps start next spans blocks).length ≤ spans.length + blocks.length := by
  induction spans generalizing blocks with
  | nil => exact Nat.zero_le _
  | cons span spans ih =>
    have hwithin : (gapsWithin start next span.last span.first blocks).1.length +
        (gapsWithin start next span.last span.first blocks).2.length ≤ blocks.length + 1 :=
      length_gapsWithin span.last span.first blocks
    have hrest := ih (gapsWithin start next span.last span.first blocks).2
    simp only [gaps, List.length_append, List.length_cons]
    omega

end Gaps

end Monoimage.Clib
