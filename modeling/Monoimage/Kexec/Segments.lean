import Monoimage.Clib.Align
import Monoimage.Clib.Gaps
import Monoimage.Clib.Selection
import Monoimage.Kexec.Options

/-! The segments of a new kernel, and the memory that they may take. -/
namespace Monoimage.Kexec

open Clib

inductive RangeType where
  | ram
  | reserved
  | acpi
  | acpiNvs
  deriving DecidableEq, Repr

/-- `start` and `end` of a `struct memory_range`. -/
structure MemoryRange where
  start : Nat
  stop : Nat
  type : RangeType
  deriving DecidableEq, Repr

/-- `memory_range`, and the bounds of the options `--mem-min` and `--mem-max`. -/
structure Layout where
  ranges : List MemoryRange
  memMin : Nat := 0
  memMax : Nat := ulongMax
  deriving DecidableEq, Repr

/-- A `struct kexec_segment`, with any kind of pointer to its contents. -/
structure Segment (β : Type) where
  buf : β
  bufsz : Nat
  mem : Nat
  memsz : Nat
  deriving DecidableEq, Repr

/-- `base + size - 1`. -/
def lastOf (base size : Nat) : Nat := ulong (base + size + (2 ^ 32 - 1))

def validMemoryRange (layout : Layout) (sstart send : Nat) : Bool :=
  if send < sstart then false
  else if layout.memMax < send ∨ sstart < layout.memMin then false
  else layout.ranges.any fun range =>
    range.type = .ram ∧ ulong range.start ≤ sstart ∧ send ≤ ulong range.stop

variable {β : Type}

def validMemorySegment (layout : Layout) (segment : Segment β) : Bool :=
  validMemoryRange layout segment.mem (lastOf segment.mem segment.memsz)

/-- The second loop of `sort_segments`. -/
def segmentsClear : Nat → List (Segment β) → Bool
  | _, [] => true
  | stop, segment :: rest =>
    if segment.mem < stop then false else segmentsClear (ulong (segment.mem + segment.memsz)) rest

/-- The segments in order, and the value that is returned. -/
def sortSegments (segments : List (Segment β)) : List (Segment β) × Int :=
  let sorted := selectionSort (·.mem) segments
  (sorted, if segmentsClear 0 sorted then 0 else -1)

/-! ## What is valid -/

def pageSize : Nat := 4096

def Layout.ram (layout : Layout) : List MemoryRange := layout.ranges.filter (·.type = .ram)

/-- RAM that an `unsigned long` can address, in ascending order. The end of a range is that of
`/proc/iomem` and one more. -/
structure Layout.Proper (layout : Layout) : Prop where
  order : layout.ram.Pairwise fun r s => r.stop < s.start
  proper : ∀ range ∈ layout.ram, range.start ≤ range.stop
  below : ∀ range ∈ layout.ram, range.stop + pageSize ≤ 2 ^ 32

structure Segment.InRam (segment : Segment β) (layout : Layout) : Prop where
  pos : 0 < segment.memsz
  above : layout.memMin ≤ segment.mem
  below : segment.mem + segment.memsz ≤ layout.memMax + 1
  ram : ∃ range ∈ layout.ram, range.start ≤ segment.mem ∧
    segment.mem + segment.memsz ≤ range.stop + 1

def Segment.Apart (s t : Segment β) : Prop := s.mem + s.memsz ≤ t.mem ∨ t.mem + t.memsz ≤ s.mem

theorem Segment.Apart.symm {s t : Segment β} (h : s.Apart t) : t.Apart s := Or.symm h

/-- Each segment of the row ends before the next one starts. -/
def Ascending (segments : List (Segment β)) : Prop :=
  segments.Pairwise fun s t => s.mem + s.memsz ≤ t.mem

theorem mem_ram {layout : Layout} {range : MemoryRange} :
    range ∈ layout.ram ↔ range ∈ layout.ranges ∧ range.type = .ram := by
  rw [Layout.ram, List.mem_filter, decide_eq_true_eq]

/-- A machine with 64 megabytes. -/
def exampleLayout : Layout where
  ranges := [⟨0x100, 0x9fc00, .ram⟩, ⟨0x9fc00, 0xa0000, .reserved⟩, ⟨0xf0000, 0x100000, .reserved⟩,
    ⟨0x100000, 0x4000000, .ram⟩]

theorem proper_exampleLayout : exampleLayout.Proper := ⟨by decide, by decide, by decide⟩

theorem exampleLayout_other : ∃ range ∈ exampleLayout.ranges, range.type ≠ .ram := by decide

section Valid

variable {layout : Layout} (hlayout : layout.Proper)

include hlayout

theorem Layout.Proper.ulong_eq {range : MemoryRange} (hrange : range ∈ layout.ram) :
    ulong range.start = range.start ∧ ulong range.stop = range.stop := by
  have hproper := hlayout.proper range hrange
  have hbelow := hlayout.below range hrange
  unfold pageSize at hbelow
  exact ⟨ulong_of_lt (by omega), ulong_of_lt (by omega)⟩

theorem validMemoryRange_iff {sstart send : Nat} :
    validMemoryRange layout sstart send = true ↔
      sstart ≤ send ∧ layout.memMin ≤ sstart ∧ send ≤ layout.memMax ∧
        ∃ range ∈ layout.ram, range.start ≤ sstart ∧ send ≤ range.stop := by
  have hany : (layout.ranges.any fun range =>
        range.type = .ram ∧ ulong range.start ≤ sstart ∧ send ≤ ulong range.stop) = true ↔
      ∃ range ∈ layout.ram, range.start ≤ sstart ∧ send ≤ range.stop := by
    simp only [List.any_eq_true, decide_eq_true_eq]
    constructor
    · rintro ⟨range, hmem, htype, hin⟩
      have hram := mem_ram.mpr ⟨hmem, htype⟩
      rw [(hlayout.ulong_eq hram).1, (hlayout.ulong_eq hram).2] at hin
      exact ⟨range, hram, hin⟩
    · rintro ⟨range, hram, hin⟩
      rw [← (hlayout.ulong_eq hram).1, ← (hlayout.ulong_eq hram).2] at hin
      obtain ⟨hmem, htype⟩ := mem_ram.mp hram
      exact ⟨range, hmem, htype, hin⟩
  unfold validMemoryRange
  split
  · simp only [Bool.false_eq_true, false_iff]
    omega
  · split
    · simp only [Bool.false_eq_true, false_iff]
      omega
    · rw [hany]
      constructor
      · intro h
        exact ⟨by omega, by omega, by omega, h⟩
      · rintro ⟨-, -, -, h⟩
        exact h

theorem Segment.InRam.stop_lt {segment : Segment β} (h : segment.InRam layout) :
    segment.mem + segment.memsz < 2 ^ 32 := by
  obtain ⟨range, hrange, -, hstop⟩ := h.ram
  have hbelow := hlayout.below range hrange
  unfold pageSize at hbelow
  omega

theorem Segment.InRam.lastOf_eq {segment : Segment β} (h : segment.InRam layout) :
    lastOf segment.mem segment.memsz = segment.mem + segment.memsz - 1 := by
  have hpos := h.pos
  have hlt := h.stop_lt hlayout
  unfold lastOf ulong
  omega

/-- A range that starts before it ends is a segment in RAM. -/
theorem validMemorySegment_iff {segment : Segment β} (hmem : segment.mem < 2 ^ 32)
    (hmemsz : segment.memsz < 2 ^ 32) :
    validMemorySegment layout segment = true ↔ segment.InRam layout := by
  rw [validMemorySegment, validMemoryRange_iff hlayout]
  constructor
  · rintro ⟨horder, habove, hbelow, range, hrange, hstart, hstop⟩
    have hlow := hlayout.below range hrange
    have hlast : 0 < segment.memsz ∧ segment.mem + segment.memsz =
        lastOf segment.mem segment.memsz + 1 := by
      unfold lastOf ulong pageSize at *
      omega
    exact ⟨hlast.1, habove, by omega, range, hrange, hstart, by omega⟩
  · intro h
    have hpos := h.pos
    have hmax := h.below
    obtain ⟨range, hrange, hstart, hstop⟩ := h.ram
    rw [h.lastOf_eq hlayout]
    exact ⟨by omega, h.above, by omega, range, hrange, hstart, by omega⟩

end Valid

/-! ## `sort_segments` -/

theorem sortSegments_perm (segments : List (Segment β)) :
    (sortSegments segments).1.Perm segments :=
  selectionSort_perm segments

theorem sortSegments_sorted (segments : List (Segment β)) :
    (sortSegments segments).1.Pairwise fun s t => s.mem ≤ t.mem :=
  selectionSort_sorted segments

/-- Comparing neighbours is enough. -/
theorem segmentsClear_iff {segments : List (Segment β)}
    (hproper : ∀ s ∈ segments, 0 < s.memsz ∧ s.mem + s.memsz < 2 ^ 32) (stop : Nat) :
    segmentsClear stop segments = true ↔ (∀ s ∈ segments, stop ≤ s.mem) ∧ Ascending segments := by
  induction segments generalizing stop with
  | nil => simp [segmentsClear, Ascending]
  | cons segment rest ih =>
    rw [List.forall_mem_cons] at hproper
    have hrest := ih hproper.2 (segment.mem + segment.memsz)
    rw [segmentsClear, ulong_of_lt hproper.1.2, Ascending, List.pairwise_cons,
      List.forall_mem_cons]
    split
    · simp only [Bool.false_eq_true, false_iff]
      omega
    · rw [hrest]
      constructor
      · rintro ⟨hafter, hascending⟩
        refine ⟨⟨by omega, ?_⟩, hafter, hascending⟩
        intro s hs
        have := hafter s hs
        omega
      · rintro ⟨-, h⟩
        exact h

theorem ascending_iff_of_sorted {segments : List (Segment β)}
    (hsorted : segments.Pairwise fun s t => s.mem ≤ t.mem)
    (hpos : ∀ s ∈ segments, 0 < s.memsz) :
    Ascending segments ↔ segments.Pairwise Segment.Apart := by
  constructor
  · intro h
    exact h.imp Or.inl
  · intro h
    apply (h.and hsorted).imp_of_mem
    rintro s t - ht ⟨hapart, hle⟩
    have := hpos t ht
    rcases hapart with hapart | hapart
    · exact hapart
    · omega

/-- The segments come back in order, and the result tells whether any two overlap. -/
theorem sortSegments_spec {segments : List (Segment β)}
    (hproper : ∀ s ∈ segments, 0 < s.memsz ∧ s.mem + s.memsz < 2 ^ 32) :
    ((sortSegments segments).2 = 0 ∧ segments.Pairwise Segment.Apart ∧
        Ascending (sortSegments segments).1) ∨
      ((sortSegments segments).2 = -1 ∧ ¬ segments.Pairwise Segment.Apart) := by
  have hperm := sortSegments_perm segments
  have hsorted := sortSegments_sorted segments
  have hproper' : ∀ s ∈ (sortSegments segments).1, 0 < s.memsz ∧ s.mem + s.memsz < 2 ^ 32 :=
    fun s hs => hproper s (hperm.subset hs)
  have hclear : segmentsClear 0 (sortSegments segments).1 = true ↔
      Ascending (sortSegments segments).1 := by
    rw [segmentsClear_iff hproper']
    simp
  have hiff : Ascending (sortSegments segments).1 ↔ segments.Pairwise Segment.Apart := by
    rw [ascending_iff_of_sorted hsorted fun s hs => (hproper' s hs).1]
    exact hperm.pairwise_iff Segment.Apart.symm
  by_cases h : segmentsClear 0 (sortSegments segments).1 = true
  · exact .inl ⟨if_pos h, hiff.mp (hclear.mp h), hclear.mp h⟩
  · exact .inr ⟨if_neg h, fun hapart => h (hclear.mpr (hiff.mpr hapart))⟩

end Monoimage.Kexec
