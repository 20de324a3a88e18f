import Mathlib.Data.List.Forall2
import Mathlib.Data.List.Pairwise
import Monoimage.Clib.Align
import Monoimage.Clib.Text

/-! Writes into a buffer at offsets, and what is read back from it. -/
namespace Monoimage.Clib

def slice (buffer : Bytes) (offset size : Nat) : Bytes := (buffer.drop offset).take size

/-- `memcpy` to an offset. -/
def overwrite (buffer : Bytes) (offset : Nat) (bytes : Bytes) : Bytes :=
  buffer.take offset ++ bytes ++ buffer.drop (offset + bytes.length)

structure Poke where
  offset : Nat
  bytes : Bytes
  deriving DecidableEq, Repr

def Poke.stop (poke : Poke) : Nat := poke.offset + poke.bytes.length

/-- The writes one after the other, up to one that does not end in the buffer. -/
def applyPokes : List Poke → Bytes → Except Fault Bytes
  | [], buffer => .ok buffer
  | poke :: rest, buffer =>
    if poke.stop ≤ buffer.length then
      applyPokes rest (overwrite buffer poke.offset poke.bytes)
    else .error .outOfBounds

theorem slice_take {buffer : Bytes} {size p n : Nat} (h : p + n ≤ size) :
    slice (buffer.take size) p n = slice buffer p n := by
  unfold slice
  rw [List.drop_take, List.take_take, Nat.min_eq_left (by omega)]

theorem slice_append {front back : Bytes} {p n : Nat} (h : p + n ≤ front.length) :
    slice (front ++ back) p n = slice front p n := by
  unfold slice
  rw [List.drop_append_of_le_length (by omega),
    List.take_append_of_le_length (by rw [List.length_drop]; omega)]

theorem slice_append_right {front : Bytes} {k : Nat} (h : front.length = k) (back : Bytes)
    (p n : Nat) : slice (front ++ back) (k + p) n = slice back p n := by
  unfold slice
  rw [← h, List.drop_append, List.drop_eq_nil_of_le (Nat.le_add_right _ _), List.nil_append,
    Nat.add_sub_cancel_left]

theorem slice_all (bytes : Bytes) {n : Nat} (h : bytes.length = n) : slice bytes 0 n = bytes := by
  rw [slice, List.drop_zero, List.take_of_length_le (Nat.le_of_eq h)]

theorem slice_slice {buffer : Bytes} {offset size p n : Nat} (h : p + n ≤ size) :
    slice (slice buffer offset size) p n = slice buffer (offset + p) n := by
  have hinner : slice buffer offset size = (buffer.drop offset).take size := rfl
  rw [hinner, slice_take h, slice, slice, List.drop_drop]

theorem slice_add (buffer : Bytes) (p m n : Nat) :
    slice buffer p (m + n) = slice buffer p m ++ slice buffer (p + m) n := by
  unfold slice
  rw [List.take_add, List.drop_drop]

section Rows

variable {α β : Type} {S : α → β → Prop} {xs : List α} {ys : List β}

theorem exists_of_forall₂ (h : List.Forall₂ S xs ys) {x : α} (hx : x ∈ xs) :
    ∃ y ∈ ys, S x y := by
  induction h with
  | nil => cases hx
  | cons hhead _ ih =>
    rcases List.mem_cons.mp hx with rfl | hx
    · exact ⟨_, List.mem_cons_self, hhead⟩
    · obtain ⟨y, hy, hxy⟩ := ih hx
      exact ⟨y, List.mem_cons_of_mem _ hy, hxy⟩

/-- What holds between any two of a row goes over to a row that matches it. -/
theorem pairwise_of_forall₂ {R : α → α → Prop} {T : β → β → Prop} (h : List.Forall₂ S xs ys)
    (hpairwise : xs.Pairwise R)
    (himp : ∀ x y x' y', S x y → S x' y' → R x x' → T y y') : ys.Pairwise T := by
  induction h with
  | nil => exact List.Pairwise.nil
  | cons hhead htail ih =>
    rw [List.pairwise_cons] at hpairwise ⊢
    refine ⟨?_, ih hpairwise.2⟩
    intro y' hy'
    obtain ⟨x', hx', hxy⟩ := exists_of_forall₂ htail.flip hy'
    exact himp _ _ _ _ hhead hxy (hpairwise.1 x' hx')

end Rows

section Overwrite

variable {buffer bytes : Bytes} {offset : Nat}

theorem length_overwrite (h : offset + bytes.length ≤ buffer.length) :
    (overwrite buffer offset bytes).length = buffer.length := by
  simp only [overwrite, List.length_append, List.length_take, List.length_drop]
  omega

theorem take_overwrite (h : offset ≤ buffer.length) :
    (overwrite buffer offset bytes).take (offset + bytes.length) = buffer.take offset ++ bytes := by
  rw [overwrite]
  apply List.take_left'
  rw [List.length_append, List.length_take_of_le h]

theorem slice_overwrite_same (h : offset ≤ buffer.length) :
    slice (overwrite buffer offset bytes) offset bytes.length = bytes := by
  rw [slice, overwrite, List.append_assoc, List.drop_left' (List.length_take_of_le h),
    List.take_left' rfl]

/-- A write leaves alone what lies before it or behind it. -/
theorem slice_overwrite_of_apart {p size : Nat} (hfits : offset + bytes.length ≤ buffer.length)
    (h : p + size ≤ offset ∨ offset + bytes.length ≤ p) :
    slice (overwrite buffer offset bytes) p size = slice buffer p size := by
  have htake : (buffer.take offset).length = offset := List.length_take_of_le (by omega)
  unfold slice overwrite
  rcases h with h | h
  · rw [List.append_assoc, List.drop_append_of_le_length (by omega),
      List.take_append_of_le_length (by rw [List.length_drop]; omega), List.drop_take,
      List.take_take, Nat.min_eq_left (by omega)]
  · have hfront : (buffer.take offset ++ bytes).length = offset + bytes.length := by
      rw [List.length_append, htake]
    rw [List.drop_append, List.drop_eq_nil_of_le (by omega), List.nil_append, hfront,
      List.drop_drop, Nat.add_sub_cancel' h]

end Overwrite

section Pokes

variable {pokes : List Poke} {buffer result : Bytes}

theorem applyPokes_append (before after : List Poke) (buffer : Bytes) :
    applyPokes (before ++ after) buffer = (applyPokes before buffer).bind (applyPokes after) := by
  induction before generalizing buffer with
  | nil => rfl
  | cons poke rest ih =>
    simp only [List.cons_append, applyPokes]
    split
    · exact ih _
    · rfl

theorem applyPokes_cons_eq_ok {poke : Poke} (h : applyPokes (poke :: pokes) buffer = .ok result) :
    poke.stop ≤ buffer.length ∧
      applyPokes pokes (overwrite buffer poke.offset poke.bytes) = .ok result := by
  unfold applyPokes at h
  split at h
  · rename_i hstop
    exact ⟨hstop, h⟩
  · cases h

theorem applyPokes_singleton_iff {poke : Poke} :
    applyPokes [poke] buffer = .ok result ↔
      poke.stop ≤ buffer.length ∧ result = overwrite buffer poke.offset poke.bytes := by
  unfold applyPokes
  split
  · rename_i h
    simp only [applyPokes, Except.ok.injEq, h, true_and]
    exact eq_comm
  · rename_i h
    simp [h]

theorem length_applyPokes (h : applyPokes pokes buffer = .ok result) :
    result.length = buffer.length := by
  induction pokes generalizing buffer with
  | nil => rw [← Except.ok.inj h]
  | cons poke rest ih =>
    obtain ⟨hstop, hrest⟩ := applyPokes_cons_eq_ok h
    rw [ih hrest, length_overwrite hstop]

theorem exists_applyPokes (h : ∀ poke ∈ pokes, poke.stop ≤ buffer.length) :
    ∃ result, applyPokes pokes buffer = .ok result := by
  induction pokes generalizing buffer with
  | nil => exact ⟨buffer, rfl⟩
  | cons poke rest ih =>
    rw [List.forall_mem_cons] at h
    unfold applyPokes
    rw [if_pos h.1]
    apply ih
    rw [length_overwrite h.1]
    exact h.2

theorem slice_applyPokes_of_apart {p size : Nat} (h : applyPokes pokes buffer = .ok result)
    (hapart : ∀ poke ∈ pokes, p + size ≤ poke.offset ∨ poke.stop ≤ p) :
    slice result p size = slice buffer p size := by
  induction pokes generalizing buffer with
  | nil => rw [← Except.ok.inj h]
  | cons poke rest ih =>
    obtain ⟨hstop, hrest⟩ := applyPokes_cons_eq_ok h
    rw [List.forall_mem_cons] at hapart
    rw [ih hrest hapart.2]
    exact slice_overwrite_of_apart hstop hapart.1

/-- Bytes that are not written again are those of the last write to them. -/
theorem slice_applyPokes_part {before after : List Poke} {poke : Poke} {p n : Nat}
    (h : applyPokes (before ++ poke :: after) buffer = .ok result) (hp : p + n ≤ poke.bytes.length)
    (hapart : ∀ later ∈ after,
      poke.offset + p + n ≤ later.offset ∨ later.stop ≤ poke.offset + p) :
    slice result (poke.offset + p) n = slice poke.bytes p n := by
  rw [applyPokes_append] at h
  cases hbefore : applyPokes before buffer with
  | error f =>
    rw [hbefore] at h
    cases h
  | ok middle =>
    rw [hbefore] at h
    obtain ⟨hstop, hafter⟩ := applyPokes_cons_eq_ok h
    unfold Poke.stop at hstop
    rw [slice_applyPokes_of_apart hafter hapart, ← slice_slice hp,
      slice_overwrite_same (by omega)]

/-- The last write to a place is what is read from it. -/
theorem slice_applyPokes_last {before after : List Poke} {poke : Poke}
    (h : applyPokes (before ++ poke :: after) buffer = .ok result)
    (hapart : ∀ later ∈ after, poke.stop ≤ later.offset ∨ later.stop ≤ poke.offset) :
    slice result poke.offset poke.bytes.length = poke.bytes := by
  have hpart := slice_applyPokes_part h (Nat.le_of_eq (Nat.zero_add _)) hapart
  rwa [Nat.add_zero, slice, slice, List.drop_zero, List.take_length] at hpart

def Poke.Apart (poke other : Poke) : Prop := poke.stop ≤ other.offset ∨ other.stop ≤ poke.offset

theorem Poke.Apart.symm {poke other : Poke} (h : poke.Apart other) : other.Apart poke := Or.symm h

/-- Writes that stay clear of each other can all be read back. -/
theorem slice_applyPokes_of_mem {poke : Poke} (h : applyPokes pokes buffer = .ok result)
    (hapart : pokes.Pairwise Poke.Apart) (hmem : poke ∈ pokes) :
    slice result poke.offset poke.bytes.length = poke.bytes := by
  obtain ⟨before, after, rfl⟩ := List.append_of_mem hmem
  apply slice_applyPokes_last h
  exact (List.pairwise_cons.mp (List.pairwise_append.mp hapart).2.1).1

end Pokes

/-! ## Words that are added to -/

/-- `*location += delta` for a word of 32 bits. -/
structure Fixup where
  offset : Nat
  delta : Nat
  deriving DecidableEq, Repr

def Fixup.poke (fixup : Fixup) (buffer : Bytes) : Poke :=
  ⟨fixup.offset, putLE 4 (ulong (getLE (slice buffer fixup.offset 4) + fixup.delta))⟩

def applyFixups : List Fixup → Bytes → Except Fault Bytes
  | [], buffer => .ok buffer
  | fixup :: rest, buffer =>
    if fixup.offset + 4 ≤ buffer.length then
      let poke := fixup.poke buffer
      applyFixups rest (overwrite buffer poke.offset poke.bytes)
    else .error .outOfBounds

def Fixup.Apart (fixup other : Fixup) : Prop :=
  fixup.offset + 4 ≤ other.offset ∨ other.offset + 4 ≤ fixup.offset

section Fixups

variable {fixups : List Fixup} {buffer result : Bytes}

theorem applyFixups_append_iff {rest : List Fixup} :
    applyFixups (fixups ++ rest) buffer = .ok result ↔
      ∃ middle, applyFixups fixups buffer = .ok middle ∧
        applyFixups rest middle = .ok result := by
  induction fixups generalizing buffer with
  | nil => simp [applyFixups]
  | cons fixup before ih =>
    simp only [List.cons_append, applyFixups]
    split
    · exact ih
    · simp

theorem applyFixups_cons_iff {fixup : Fixup} {rest : List Fixup} :
    applyFixups (fixup :: rest) buffer = .ok result ↔
      ∃ middle, applyFixups [fixup] buffer = .ok middle ∧ applyFixups rest middle = .ok result :=
  @applyFixups_append_iff [fixup] buffer result rest

theorem Fixup.stop_poke (fixup : Fixup) (buffer : Bytes) :
    (fixup.poke buffer).stop = fixup.offset + 4 := by
  rw [poke, Poke.stop, length_putLE]

/-- If no two of the words overlap, each of them is written once. -/
theorem applyFixups_eq (hapart : fixups.Pairwise Fixup.Apart) :
    applyFixups fixups buffer = applyPokes (fixups.map (·.poke buffer)) buffer := by
  induction fixups generalizing buffer with
  | nil => rfl
  | cons fixup rest ih =>
    rw [List.pairwise_cons] at hapart
    rw [applyFixups, List.map_cons, applyPokes, fixup.stop_poke]
    dsimp only
    split
    · rename_i hfits
      rw [ih hapart.2]
      congr 1
      apply List.map_congr_left
      intro other hother
      have hclear := hapart.1 other hother
      unfold Fixup.Apart at hclear
      have hslice : slice (overwrite buffer (fixup.poke buffer).offset (fixup.poke buffer).bytes)
          other.offset 4 = slice buffer other.offset 4 := by
        apply slice_overwrite_of_apart
        · simpa [Fixup.poke] using hfits
        · simp only [Fixup.poke, length_putLE]
          omega
      unfold Fixup.poke at hslice ⊢
      rw [hslice]
    · rfl

theorem pairwise_poke (hapart : fixups.Pairwise Fixup.Apart) (buffer : Bytes) :
    (fixups.map (·.poke buffer)).Pairwise Poke.Apart := by
  rw [List.pairwise_map]
  refine hapart.imp ?_
  intro fixup other h
  rw [Poke.Apart, Fixup.stop_poke, Fixup.stop_poke]
  exact h

theorem word_applyFixups {fixup : Fixup} (h : applyFixups fixups buffer = .ok result)
    (hapart : fixups.Pairwise Fixup.Apart) (hmem : fixup ∈ fixups) :
    getLE (slice result fixup.offset 4) =
      ulong (getLE (slice buffer fixup.offset 4) + fixup.delta) := by
  rw [applyFixups_eq hapart] at h
  have hread := slice_applyPokes_of_mem h (pairwise_poke hapart buffer)
    (List.mem_map_of_mem hmem)
  simp only [Fixup.poke, length_putLE] at hread
  rw [hread]
  exact getLE_putLE_of_lt (ulong_lt _)

theorem length_applyFixups (h : applyFixups fixups buffer = .ok result) :
    result.length = buffer.length := by
  induction fixups generalizing buffer with
  | nil => rw [← Except.ok.inj h]
  | cons fixup rest ih =>
    unfold applyFixups at h
    split at h
    · rename_i hfits
      rw [ih h, length_overwrite (by simpa [Fixup.poke] using hfits)]
    · cases h

theorem slice_applyFixups_of_apart {p size : Nat} (h : applyFixups fixups buffer = .ok result)
    (hapart : ∀ fixup ∈ fixups, p + size ≤ fixup.offset ∨ fixup.offset + 4 ≤ p) :
    slice result p size = slice buffer p size := by
  induction fixups generalizing buffer with
  | nil => rw [← Except.ok.inj h]
  | cons fixup rest ih =>
    rw [List.forall_mem_cons] at hapart
    unfold applyFixups at h
    split at h
    · rename_i hfits
      rw [ih h hapart.2]
      apply slice_overwrite_of_apart
      · simpa [Fixup.poke] using hfits
      · simpa [Fixup.poke] using hapart.1
    · cases h

end Fixups

/-! ## Members of a structure -/

namespace Struct

variable {ι : Type} {s : Struct ι}

theorem size_pos (t : CType) : 0 < t.size := by
  cases t <;> decide

/-- Each member starts behind the ones before it. -/
theorem place_ordered (pos : Nat) (s : Struct ι) :
    (place pos s).Pairwise (fun x y => x.2 + x.1.size ≤ y.2) ∧ ∀ x ∈ place pos s, pos ≤ x.2 := by
  induction s generalizing pos with
  | nil => exact ⟨List.Pairwise.nil, by simp [place]⟩
  | cons m rest ih =>
    have hstart := le_roundUp (size_pos m.type) pos
    obtain ⟨hpairwise, hafter⟩ := ih (roundUp pos m.type.size + m.size)
    constructor
    · exact List.Pairwise.cons hafter hpairwise
    · rw [place, List.forall_mem_cons]
      refine ⟨hstart, ?_⟩
      intro x hx
      have := hafter x hx
      omega

variable [DecidableEq ι] {name other : ι} {m m' : Member ι} {start start' : Nat}

theorem member_apart (hname : name ≠ other) (h : s.member name = some (m, start))
    (h' : s.member other = some (m', start')) :
    start + m.size ≤ start' ∨ start' + m'.size ≤ start := by
  have hmem := List.mem_of_find?_eq_some h
  have hmem' := List.mem_of_find?_eq_some h'
  have hm : m.name = name := by simpa using List.find?_some h
  have hm' : m'.name = other := by simpa using List.find?_some h'
  have hne : (m, start) ≠ (m', start') := by
    rintro heq
    rw [Prod.mk.injEq] at heq
    exact hname (by rw [← hm, ← hm', heq.1])
  have hsymm : Std.Symm fun x y : Member ι × Nat =>
      x.2 + x.1.size ≤ y.2 ∨ y.2 + y.1.size ≤ x.2 := ⟨fun _ _ => Or.symm⟩
  have hboth : (place 0 s).Pairwise fun x y =>
      x.2 + x.1.size ≤ y.2 ∨ y.2 + y.1.size ≤ x.2 := (place_ordered 0 s).1.imp Or.inl
  exact hboth.forall hmem hmem' hne

/-- The write of an assignment to a member. -/
def poke (s : Struct ι) (name : ι) (value : Nat) : Poke :=
  match s.member name with
  | some (m, start) => ⟨start, putLE m.size value⟩
  | none => ⟨0, []⟩

def assign (s : Struct ι) (assignments : List (ι × Nat)) : List Poke :=
  assignments.map fun assignment => s.poke assignment.1 assignment.2

theorem poke_eq (h : s.member name = some (m, start)) (value : Nat) :
    s.poke name value = ⟨start, putLE m.size value⟩ := by
  rw [poke, h]

/-- A member keeps clear of assignments to others. -/
theorem poke_apart (hname : name ≠ other) (h : s.member name = some (m, start)) (value : Nat) :
    start + m.size ≤ (s.poke other value).offset ∨ (s.poke other value).stop ≤ start := by
  unfold poke
  split
  · rename_i m' start' h'
    rw [Poke.stop, length_putLE]
    exact member_apart hname h h'
  · exact .inr (Nat.zero_le _)

theorem read_eq_slice (h : s.member name = some (m, start)) (object : Bytes) :
    s.read name object = some (getLE (slice object start m.size)) := by
  rw [read, bytesOf, h]
  rfl

/-- A member that nothing is written over. -/
theorem read_of_clear {pokes : List Poke} {buffer result : Bytes}
    (hmember : s.member name = some (m, start)) (h : applyPokes pokes buffer = .ok result)
    (hclear : ∀ poke ∈ pokes, start + m.size ≤ poke.offset ∨ poke.stop ≤ start) :
    s.read name result = s.read name buffer := by
  rw [read_eq_slice hmember, read_eq_slice hmember, slice_applyPokes_of_apart h hclear]

theorem clear_assign {assignments : List (ι × Nat)} (hmember : s.member name = some (m, start))
    (hname : name ∉ assignments.map Prod.fst) :
    ∀ poke ∈ s.assign assignments, start + m.size ≤ poke.offset ∨ poke.stop ≤ start := by
  intro poke hpoke
  obtain ⟨assignment, hassignment, rfl⟩ := List.mem_map.mp hpoke
  refine poke_apart ?_ hmember _
  rintro rfl
  exact hname (List.mem_map_of_mem hassignment)

/-- A member holds what was assigned to it, if nothing else is written over it. -/
theorem read_assign {assignments : List (ι × Nat)} {rest : List Poke} {value : Nat}
    {buffer result : Bytes} (hmember : s.member name = some (m, start))
    (h : applyPokes (s.assign assignments ++ rest) buffer = .ok result)
    (hmem : (name, value) ∈ assignments) (hnodup : (assignments.map Prod.fst).Nodup)
    (hrest : ∀ poke ∈ rest, start + m.size ≤ poke.offset ∨ poke.stop ≤ start) :
    s.read name result = some (value % 256 ^ m.size) := by
  obtain ⟨before, after, rfl⟩ := List.append_of_mem hmem
  have hafter : name ∉ after.map Prod.fst := by
    rw [List.map_append, List.map_cons] at hnodup
    exact (List.nodup_cons.mp (List.nodup_append.mp hnodup).2.1).1
  have hpoke := poke_eq hmember value
  have hsplit : s.assign (before ++ (name, value) :: after) ++ rest =
      s.assign before ++ s.poke name value :: (s.assign after ++ rest) := by
    simp [assign]
  rw [hsplit] at h
  have hlast := slice_applyPokes_last h (by
    intro later hlater
    rw [hpoke, Poke.stop, length_putLE]
    rcases List.mem_append.mp hlater with hlater | hlater
    · exact clear_assign hmember hafter later hlater
    · exact hrest later hlater)
  rw [hpoke, length_putLE] at hlast
  rw [read_eq_slice hmember, hlast, getLE_putLE]

end Struct

end Monoimage.Clib
