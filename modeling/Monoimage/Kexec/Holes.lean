import Mathlib.Order.Bounds.Basic
import Monoimage.Clib.Text
import Monoimage.Kexec.Segments

/-! `locate_hole`: a place for a buffer, from below or from above. -/
namespace Monoimage.Kexec

open Clib

/-- What `kexec-elf-rel.c` cannot do with a relocatable object. -/
inductive RelError where
  | parseFailed
  | loadFailed
  | sectionNumber
  | undefinedSymbol (name : Bytes)
  | commonSymbol (name : Bytes)
  | invalidSection (shndx : Nat) (name : Bytes)
  | unknownRelocation (type : Nat)
  | notFound (name : Bytes)
  | badSectionIndex (name : Bytes) (shndx : Nat)
  | wrongSize (name : Bytes) (symbolSize size : Nat)
  | inBss (name : Bytes)
  deriving DecidableEq, Repr

/-- The ways in which loading a kernel ends the program. All but the last go through `die`. -/
inductive Death where
  | holeEnd
  | sortFailed
  | locateFailed
  | notAligned (base : Nat)
  | invalidSegment (base last : Nat)
  | setupCode
  | memoryInformation
  | rel (error : RelError)
  | fault (f : Fault)
  deriving DecidableEq, Repr

/-- The arguments of `locate_hole` behind `info`. -/
structure HoleQuery where
  size : Nat
  align : Nat
  min : Nat
  max : Nat
  holeEnd : Int
  deriving DecidableEq, Repr

/-- The alignment that is used: at least that of a page. -/
def HoleQuery.saneAlign (query : HoleQuery) : Nat :=
  let align := if query.align = 0 then 1 else query.align
  if align < pageSize then pageSize else align

variable {β : Type}

/-- `send + 1`. -/
def Segment.next (segment : Segment β) : Nat := ulong (lastOf segment.mem segment.memsz + 1)

def Layout.ramSpans (layout : Layout) : List Span :=
  layout.ram.map fun range => ⟨ulong range.start, ulong range.stop⟩

/-- The merge of the two lists. The segments are sorted. -/
def freeRanges (layout : Layout) (segments : List (Segment β)) : List Span :=
  gaps (·.mem) Segment.next layout.ramSpans segments

/-- A free range through the lens of the bounds and the alignment. -/
def HoleQuery.window (query : HoleQuery) (layout : Layout) (range : Span) : Span where
  first := (Max.max (Max.max range.first layout.memMin) query.min + query.saneAlign - 1) &&&
    alignMask query.saneAlign
  last := Min.min (Min.min range.last layout.memMax) query.max

def HoleQuery.usable (query : HoleQuery) (layout : Layout) (window : Span) : Bool :=
  ¬ (window.last ≤ window.first ∨ layout.memMax ≤ window.first ∨ window.last ≤ layout.memMin) ∧
    query.size ≤ window.last - window.first

/-- The first usable range ends the search from below, the last one counts from above. -/
def findHole (query : HoleQuery) (layout : Layout) : List Span → Nat → Nat
  | [], holeBase => holeBase
  | range :: rest, holeBase =>
    let window := query.window layout range
    if query.usable layout window then
      if 0 < query.holeEnd then window.first
      else findHole query layout rest
        ((window.last - query.size) &&& alignMask query.saneAlign)
    else findHole query layout rest holeBase

/-- The table of free ranges has room for one entry less than there are ranges and segments. -/
def locateHole (layout : Layout) (segments : List (Segment β)) (query : HoleQuery) :
    Except Death Nat :=
  if query.holeEnd = 0 then .error .holeEnd
  else
    let free := freeRanges layout segments
    if layout.ranges.length + segments.length - 1 < free.length then .error (.fault .outOfBounds)
    else
      let holeBase := findHole query layout free ulongMax
      if holeBase = ulongMax then .ok ulongMax
      else if query.max < ulong (holeBase + query.size) then .ok ulongMax
      else .ok holeBase

/-! ## What a hole is -/

/-- A base that the caller can use. The byte behind the hole is free as well. -/
structure Fits (layout : Layout) (segments : List (Segment β)) (query : HoleQuery) (base : Nat) :
    Prop where
  aligned : query.saneAlign ∣ base
  above : layout.memMin ≤ base ∧ query.min ≤ base
  below : base + query.size ≤ layout.memMax ∧ base + query.size ≤ query.max
  ram : ∃ range ∈ layout.ram, range.start ≤ base ∧ base + query.size ≤ range.stop
  free : ∀ segment ∈ segments,
    segment.mem + segment.memsz ≤ base ∨ base + query.size < segment.mem

/-- Segments in RAM, each of them after the ones before it. -/
structure Placed (layout : Layout) (segments : List (Segment β)) : Prop where
  inRam : ∀ segment ∈ segments, segment.InRam layout
  ascending : Ascending segments

/-- What the callers keep to: an alignment that is a power of two, and addresses that do not
wrap when they are rounded up. -/
structure HoleQuery.Proper (query : HoleQuery) (layout : Layout) : Prop where
  align : query.align = 0 ∨ PowerOfTwo query.align
  low : query.min + query.saneAlign ≤ 2 ^ 32
  memMin : layout.memMin + query.saneAlign ≤ 2 ^ 32
  ram : ∀ range ∈ layout.ram, range.stop + query.saneAlign ≤ 2 ^ 32
  holeEnd : query.holeEnd ≠ 0

theorem powerOfTwo_pageSize : PowerOfTwo pageSize := ⟨12, by decide, rfl⟩

theorem HoleQuery.saneAlign_eq (query : HoleQuery) :
    query.saneAlign = if query.align < pageSize then pageSize else query.align := by
  unfold HoleQuery.saneAlign
  by_cases h : query.align = 0
  · simp only [h, if_true]
    rfl
  · simp only [h, if_false]

theorem HoleQuery.Proper.powerOfTwo {query : HoleQuery} {layout : Layout}
    (h : query.Proper layout) : PowerOfTwo query.saneAlign := by
  rw [query.saneAlign_eq]
  split
  · exact powerOfTwo_pageSize
  · rename_i hpage
    apply h.align.resolve_left
    unfold pageSize at hpage
    omega

theorem pageSize_le_saneAlign (query : HoleQuery) : pageSize ≤ query.saneAlign := by
  rw [query.saneAlign_eq]
  split
  · exact Nat.le_refl _
  · omega

/-! ## The free ranges -/

section Free

variable {layout : Layout} (hlayout : layout.Proper)

include hlayout

theorem Segment.InRam.next_eq {segment : Segment β} (h : segment.InRam layout) :
    segment.next = segment.mem + segment.memsz := by
  have hpos := h.pos
  have hlt := h.stop_lt hlayout
  rw [Segment.next, h.lastOf_eq hlayout, ulong_of_lt (by omega)]
  omega

theorem ramSpans_eq :
    layout.ramSpans = layout.ram.map fun range => ⟨range.start, range.stop⟩ := by
  apply List.map_congr_left
  intro range hrange
  rw [(hlayout.ulong_eq hrange).1, (hlayout.ulong_eq hrange).2]

theorem separated_ramSpans : Separated layout.ramSpans := by
  rw [ramSpans_eq hlayout]
  constructor
  · exact List.pairwise_map.mpr hlayout.order
  · intro span hspan
    obtain ⟨range, hrange, rfl⟩ := List.mem_map.mp hspan
    exact hlayout.proper range hrange

variable {segments : List (Segment β)} (hplaced : Placed layout segments)

include hplaced

theorem Placed.ordered : Ordered (·.mem) Segment.next segments := by
  constructor
  · apply hplaced.ascending.imp_of_mem
    intro s t hs _ hle
    rwa [(hplaced.inRam s hs).next_eq hlayout]
  · intro s hs
    have hpos := (hplaced.inRam s hs).pos
    rw [(hplaced.inRam s hs).next_eq hlayout]
    omega

theorem Placed.inside : Inside (·.mem) Segment.next layout.ramSpans segments := by
  intro s hs
  have hin := hplaced.inRam s hs
  obtain ⟨range, hrange, hstart, hstop⟩ := hin.ram
  rw [ramSpans_eq hlayout, hin.next_eq hlayout]
  exact ⟨_, List.mem_map_of_mem hrange, hstart, hstop⟩

/-- A run of addresses is in a free range if and only if it is in RAM and clear of the
segments. -/
theorem exists_freeRanges_iff {b e : Nat} (hbe : b ≤ e) :
    (∃ range ∈ freeRanges layout segments, range.Holds b e) ↔
      (∃ range ∈ layout.ram, range.start ≤ b ∧ e ≤ range.stop) ∧
        ∀ segment ∈ segments, segment.mem + segment.memsz ≤ b ∨ e < segment.mem := by
  have hspans : (∃ span ∈ layout.ramSpans, span.Holds b e) ↔
      ∃ range ∈ layout.ram, range.start ≤ b ∧ e ≤ range.stop := by
    simp [ramSpans_eq hlayout, Span.Holds]
  rw [freeRanges, exists_gaps_iff (separated_ramSpans hlayout) (hplaced.ordered hlayout)
    (hplaced.inside hlayout) hbe, hspans]
  refine and_congr_right fun _ => forall₂_congr fun segment hsegment => ?_
  rw [(hplaced.inRam segment hsegment).next_eq hlayout]

theorem separated_freeRanges : Separated (freeRanges layout segments) :=
  (gaps_separated (separated_ramSpans hlayout) (hplaced.ordered hlayout)
    (hplaced.inside hlayout)).1

theorem freeRanges_in_ram {range : Span} (h : range ∈ freeRanges layout segments) :
    ∃ ram ∈ layout.ram, ram.start ≤ range.first ∧ range.last ≤ ram.stop := by
  obtain ⟨span, hspan, hholds⟩ := (gaps_separated (separated_ramSpans hlayout)
    (hplaced.ordered hlayout) (hplaced.inside hlayout)).2 range h
  rw [ramSpans_eq hlayout] at hspan
  obtain ⟨ram, hram, rfl⟩ := List.mem_map.mp hspan
  exact ⟨ram, hram, hholds⟩

end Free

/-- The table is large enough as soon as one of the ranges is not RAM. -/
theorem length_freeRanges {layout : Layout} (hother : ∃ range ∈ layout.ranges, range.type ≠ .ram)
    (segments : List (Segment β)) :
    (freeRanges layout segments).length ≤ layout.ranges.length + segments.length - 1 := by
  have hlength : (freeRanges layout segments).length ≤
      layout.ramSpans.length + segments.length := length_gaps layout.ramSpans segments
  have hfewer : layout.ram.length < layout.ranges.length := by
    rw [Layout.ram, List.length_filter_lt_length_iff_exists]
    obtain ⟨range, hrange, htype⟩ := hother
    exact ⟨range, hrange, by simpa using htype⟩
  rw [Layout.ramSpans, List.length_map] at hlength
  omega

/-! ## The search -/

/-- A base in a free range that satisfies the query. -/
structure FitsIn (layout : Layout) (query : HoleQuery) (range : Span) (base : Nat) : Prop where
  aligned : query.saneAlign ∣ base
  above : layout.memMin ≤ base ∧ query.min ≤ base
  below : base + query.size ≤ layout.memMax ∧ base + query.size ≤ query.max
  holds : range.Holds base (base + query.size)

section Search

variable {layout : Layout} {query : HoleQuery} (hquery : query.Proper layout) {range : Span}

include hquery

theorem window_first (hlast : range.last + query.saneAlign ≤ 2 ^ 32)
    (hproper : range.first ≤ range.last) :
    (query.window layout range).first =
      roundUp (max (max range.first layout.memMin) query.min) query.saneAlign := by
  have hlow := hquery.low
  have hmin := hquery.memMin
  have hpos := hquery.powerOfTwo.pos
  exact and_alignMask hquery.powerOfTwo (by omega)

/-- A usable range has a base that fits: its first aligned address, and the last one from
which the size is left. -/
theorem usable_spec (hpos : 0 < query.size) (hlast : range.last + query.saneAlign ≤ 2 ^ 32)
    (hproper : range.first ≤ range.last) :
    (query.usable layout (query.window layout range) = true ∧
      IsLeast {b | FitsIn layout query range b} (query.window layout range).first ∧
      IsGreatest {b | FitsIn layout query range b}
        (((query.window layout range).last - query.size) &&& alignMask query.saneAlign)) ∨
    (query.usable layout (query.window layout range) = false ∧
      ∀ b, ¬ FitsIn layout query range b) := by
  have halign := hquery.powerOfTwo
  have hfirst := window_first hquery hlast hproper
  have hlow := le_roundUp halign.pos (max (max range.first layout.memMin) query.min)
  have hdvd := dvd_roundUp (max (max range.first layout.memMin) query.min) query.saneAlign
  have hleast {b : Nat} (hb : FitsIn layout query range b) :
      (query.window layout range).first ≤ b := by
    rw [hfirst]
    apply roundUp_le halign.pos hb.aligned
    have := hb.above
    have := hb.holds.1
    omega
  rw [← hfirst] at hlow hdvd
  have hwindow : (query.window layout range).last =
      min (min range.last layout.memMax) query.max := rfl
  cases husable : query.usable layout (query.window layout range) with
  | false =>
    refine .inr ⟨rfl, ?_⟩
    intro b hb
    have := hleast hb
    have := hb.below
    have := hb.holds.2
    simp only [HoleQuery.usable, decide_eq_false_iff_not] at husable
    omega
  | true =>
    simp only [HoleQuery.usable, decide_eq_true_eq] at husable
    refine .inl ⟨rfl, ⟨⟨hdvd, by omega, by omega, by omega, by omega⟩, fun b hb => hleast hb⟩, ?_⟩
    have hround : ((query.window layout range).last - query.size) &&&
        alignMask query.saneAlign =
        alignDown query.saneAlign ((query.window layout range).last - query.size) :=
      and_alignMask halign (by omega)
    have hdown := alignDown_le query.saneAlign ((query.window layout range).last - query.size)
    have hup := le_alignDown (x := (query.window layout range).last - query.size)
      halign.pos hdvd (by omega)
    rw [hround]
    constructor
    · exact ⟨dvd_alignDown _ _, by omega, by omega, by omega, by omega⟩
    · intro b hb
      have := hb.below
      have := hb.holds.2
      exact le_alignDown halign.pos hb.aligned (by omega)

end Search

/-- The bases that fit in one of the ranges. -/
def candidates (layout : Layout) (query : HoleQuery) (ranges : List Span) : Set Nat :=
  {b | ∃ range ∈ ranges, FitsIn layout query range b}

section Ranges

variable {layout : Layout} {query : HoleQuery} {range : Span} {ranges : List Span}

theorem mem_candidates_cons {b : Nat} :
    b ∈ candidates layout query (range :: ranges) ↔
      FitsIn layout query range b ∨ b ∈ candidates layout query ranges :=
  List.exists_mem_cons_iff _ _ _

theorem candidates_cons_of_none (hnone : ∀ b, ¬ FitsIn layout query range b) :
    candidates layout query (range :: ranges) = candidates layout query ranges := by
  ext b
  rw [mem_candidates_cons, or_iff_right (hnone b)]

/-- The candidates of a range come before those of the ranges after it. -/
theorem lt_of_mem_candidates (hranges : Separated (range :: ranges)) {b c : Nat}
    (hb : FitsIn layout query range b) (hc : c ∈ candidates layout query ranges) : b < c := by
  obtain ⟨other, hother, hfits⟩ := hc
  have hlt := hranges.last_lt other hother
  have hlast := hb.holds.2
  have hfirst := hfits.holds.1
  omega

/-- What a search has found: where there is nothing to find, the value that it was given. -/
def Found (extremal : Set Nat → Nat → Prop) (set : Set Nat) (holeBase result : Nat) : Prop :=
  (result = holeBase ∧ ∀ b, b ∉ set) ∨ extremal set result

variable (hquery : query.Proper layout) (hpos : 0 < query.size) (hranges : Separated ranges)
  (hlast : ∀ range ∈ ranges, range.last + query.saneAlign ≤ 2 ^ 32)

include hquery hpos hranges hlast

theorem findHole_least (hup : 0 < query.holeEnd) (holeBase : Nat) :
    Found IsLeast (candidates layout query ranges) holeBase
      (findHole query layout ranges holeBase) := by
  induction ranges with
  | nil => exact .inl ⟨rfl, fun b hb => by simp [candidates] at hb⟩
  | cons range rest ih =>
    rw [List.forall_mem_cons] at hlast
    unfold findHole
    dsimp only
    rcases usable_spec hquery hpos hlast.1 (hranges.proper range List.mem_cons_self) with
      ⟨husable, hleast, -⟩ | ⟨husable, hnone⟩
    · rw [husable, if_pos rfl, if_pos hup]
      refine .inr ⟨mem_candidates_cons.mpr (.inl hleast.1), ?_⟩
      intro b hb
      rcases mem_candidates_cons.mp hb with hb | hb
      · exact hleast.2 hb
      · exact (lt_of_mem_candidates hranges hleast.1 hb).le
    · rw [husable, if_neg (by decide), candidates_cons_of_none hnone]
      exact ih hranges.tail hlast.2

theorem findHole_greatest (hdown : ¬ 0 < query.holeEnd) (holeBase : Nat) :
    Found IsGreatest (candidates layout query ranges) holeBase
      (findHole query layout ranges holeBase) := by
  induction ranges generalizing holeBase with
  | nil => exact .inl ⟨rfl, fun b hb => by simp [candidates] at hb⟩
  | cons range rest ih =>
    rw [List.forall_mem_cons] at hlast
    unfold findHole
    dsimp only
    rcases usable_spec hquery hpos hlast.1 (hranges.proper range List.mem_cons_self) with
      ⟨husable, -, hgreatest⟩ | ⟨husable, hnone⟩
    · rw [husable, if_pos rfl, if_neg hdown]
      right
      -- the base of this range stands until a later range has one as well
      rcases ih hranges.tail hlast.2
        (((query.window layout range).last - query.size) &&& alignMask query.saneAlign) with
        ⟨heq, hrest⟩ | hrest
      · rw [heq]
        refine ⟨mem_candidates_cons.mpr (.inl hgreatest.1), ?_⟩
        intro b hb
        rcases mem_candidates_cons.mp hb with hb | hb
        · exact hgreatest.2 hb
        · exact absurd hb (hrest b)
      · refine ⟨mem_candidates_cons.mpr (.inr hrest.1), ?_⟩
        intro b hb
        rcases mem_candidates_cons.mp hb with hb | hb
        · exact (lt_of_mem_candidates hranges hb hrest.1).le
        · exact hrest.2 hb
    · rw [husable, if_neg (by decide), candidates_cons_of_none hnone]
      exact ih hranges.tail hlast.2 holeBase

end Ranges

/-! ## `locate_hole` -/

/-- The end of memory that the caller asks for. -/
def HoleQuery.Wanted (query : HoleQuery) (set : Set Nat) (base : Nat) : Prop :=
  (0 < query.holeEnd → IsLeast set base) ∧ (query.holeEnd < 0 → IsGreatest set base)

theorem HoleQuery.Wanted.mem {query : HoleQuery} (hend : query.holeEnd ≠ 0) {set : Set Nat}
    {base : Nat} (h : query.Wanted set base) : base ∈ set := by
  by_cases hup : 0 < query.holeEnd
  · exact (h.1 hup).1
  · exact (h.2 (by omega)).1

theorem HoleQuery.Wanted.unique {query : HoleQuery} (hend : query.holeEnd ≠ 0) {set : Set Nat}
    {b c : Nat} (hb : query.Wanted set b) (hc : query.Wanted set c) : b = c := by
  by_cases hup : 0 < query.holeEnd
  · exact (hb.1 hup).unique (hc.1 hup)
  · exact (hb.2 (by omega)).unique (hc.2 (by omega))

section Locate

variable {layout : Layout} {segments : List (Segment β)} {query : HoleQuery}

theorem candidates_freeRanges (hlayout : layout.Proper) (hplaced : Placed layout segments) :
    candidates layout query (freeRanges layout segments) = {b | Fits layout segments query b} := by
  ext b
  have hfree := exists_freeRanges_iff hlayout hplaced (Nat.le_add_right b query.size)
  constructor
  · rintro ⟨range, hrange, h⟩
    obtain ⟨hram, hclear⟩ := hfree.mp ⟨range, hrange, h.holds⟩
    exact ⟨h.aligned, h.above, h.below, hram, hclear⟩
  · intro h
    obtain ⟨range, hrange, hholds⟩ := hfree.mpr ⟨h.ram, h.free⟩
    exact ⟨range, hrange, h.aligned, h.above, h.below, hholds⟩

/-- A base that fits leaves room behind the hole, so that no later test refuses it. -/
theorem Fits.bounds (hlayout : layout.Proper) {base : Nat}
    (h : Fits layout segments query base) :
    base ≠ ulongMax ∧ ulong (base + query.size) = base + query.size := by
  obtain ⟨range, hrange, hstart, hstop⟩ := h.ram
  have hbelow := hlayout.below range hrange
  unfold pageSize at hbelow
  exact ⟨by unfold ulongMax; omega, ulong_of_lt (by omega)⟩

variable (hlayout : layout.Proper) (hplaced : Placed layout segments)
  (hquery : query.Proper layout) (hpos : 0 < query.size)

include hlayout hplaced hquery hpos

theorem findHole_wanted :
    Found query.Wanted {b | Fits layout segments query b} ulongMax
      (findHole query layout (freeRanges layout segments) ulongMax) := by
  have hranges := separated_freeRanges hlayout hplaced
  have hlast : ∀ range ∈ freeRanges layout segments,
      range.last + query.saneAlign ≤ 2 ^ 32 := by
    intro range hrange
    obtain ⟨ram, hram, -, hstop⟩ := freeRanges_in_ram hlayout hplaced hrange
    have := hquery.ram ram hram
    omega
  rw [← candidates_freeRanges hlayout hplaced]
  have hend := hquery.holeEnd
  by_cases hup : 0 < query.holeEnd
  · refine (findHole_least hquery hpos hranges hlast hup ulongMax).imp_right fun h => ⟨fun _ => h, ?_⟩
    intro hdown
    omega
  · refine (findHole_greatest hquery hpos hranges hlast hup ulongMax).imp_right fun h => ⟨?_, fun _ => h⟩
    intro hup'
    exact absurd hup' hup

/-- The base that is returned is the lowest or the highest one that fits; `ULONG_MAX` is
returned when nothing fits. -/
theorem locateHole_eq_iff (hother : ∃ range ∈ layout.ranges, range.type ≠ .ram) {base : Nat} :
    locateHole layout segments query = .ok base ↔
      query.Wanted {b | Fits layout segments query b} base ∨
        (base = ulongMax ∧ ∀ b, ¬ Fits layout segments query b) := by
  have hend := hquery.holeEnd
  have hlength := length_freeRanges hother segments
  rw [locateHole, if_neg hend]
  dsimp only
  rw [if_neg (by omega)]
  rcases findHole_wanted hlayout hplaced hquery hpos with ⟨hnothing, hnone⟩ | hfound
  · rw [hnothing, if_pos rfl, Except.ok.injEq]
    constructor
    · rintro rfl
      exact .inr ⟨rfl, hnone⟩
    · rintro (h | ⟨rfl, -⟩)
      · exact absurd (h.mem hend) (hnone base)
      · rfl
  · have hfits : Fits layout segments query _ := hfound.mem hend
    obtain ⟨hne, hsum⟩ := hfits.bounds hlayout
    have hbelow := hfits.below
    rw [if_neg hne, hsum, if_neg (by omega), Except.ok.injEq]
    constructor
    · rintro rfl
      exact .inl hfound
    · rintro (h | ⟨-, hnone⟩)
      · exact hfound.unique hend h
      · exact absurd hfits (hnone _)

end Locate

/-- The query of `do_bzImage_load` for the trampoline: as high as possible below 640 KB. -/
def trampolineQuery (size : Nat) : HoleQuery := ⟨size, 4096, 0x3000, 640 * 1024, -1⟩

theorem trampolineQuery_proper (size : Nat) : (trampolineQuery size).Proper exampleLayout where
  align := .inr powerOfTwo_pageSize
  low := (by decide : 0x3000 + 4096 ≤ 2 ^ 32)
  memMin := (by decide : 0 + 4096 ≤ 2 ^ 32)
  ram := (by decide : ∀ range ∈ exampleLayout.ram, range.stop + 4096 ≤ 2 ^ 32)
  holeEnd := (by decide : (-1 : Int) ≠ 0)

example : locateHole exampleLayout ([] : List (Segment Unit)) (trampolineQuery 0x5000) =
    .ok 0x9a000 := by decide +kernel

end Monoimage.Kexec
