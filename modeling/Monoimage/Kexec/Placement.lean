import Mathlib.Data.List.Forall2
import Monoimage.Kexec.Holes

/-! `add_segment` and `add_buffer`, whole runs of them, and the checks of `my_load` on what a
loader leaves. -/
namespace Monoimage.Kexec

open Clib

variable {β : Type}

/-- The size is rounded up to whole pages; a segment without any is forgotten. -/
def addSegment (layout : Layout) (segments : List (Segment β)) (buf : β)
    (bufsz base memsz : Nat) : Except Death (List (Segment β)) :=
  let bufsz := min bufsz memsz
  if memsz = 0 then .ok segments
  else
    let memsz := ulong (memsz + (pageSize - 1)) &&& alignMask pageSize
    if base &&& (pageSize - 1) ≠ 0 then .error (.notAligned base)
    else if validMemoryRange layout base (lastOf base memsz) then
      .ok (segments ++ [⟨buf, bufsz, base, memsz⟩])
    else .error (.invalidSegment base (lastOf base memsz))

/-- The arguments of `add_buffer` behind `info`; the size in memory is that of the hole. -/
structure Request (β : Type) where
  buf : β
  bufsz : Nat
  query : HoleQuery
  deriving DecidableEq, Repr

/-- The base of the buffer, and the segments. -/
def addBuffer (layout : Layout) (segments : List (Segment β)) (request : Request β) :
    Except Death (Nat × List (Segment β)) :=
  let sorted := sortSegments segments
  if sorted.2 < 0 then .error .sortFailed
  else
    match locateHole layout sorted.1 request.query with
    | .error d => .error d
    | .ok base =>
      if base = ulongMax then .error .locateFailed
      else (addSegment layout sorted.1 request.buf request.bufsz base request.query.size).map
        (base, ·)

/-- One `add_buffer` after the other. -/
def addBuffers (layout : Layout) : List (Segment β) → List (Request β) →
    Except Death (List (Segment β))
  | segments, [] => .ok segments
  | segments, request :: rest =>
    match addBuffer layout segments request with
    | .error d => .error d
    | .ok (_, segments) => addBuffers layout segments rest

/-! ## `add_segment` -/

structure Segment.Paged (segment : Segment β) : Prop where
  mem : pageSize ∣ segment.mem
  memsz : pageSize ∣ segment.memsz
  bufsz : segment.bufsz ≤ segment.memsz

/-- The segment that `add_segment` makes. -/
def Segment.paged (buf : β) (bufsz base memsz : Nat) : Segment β :=
  ⟨buf, min bufsz memsz, base, roundUp memsz pageSize⟩

theorem and_page_eq_zero_iff (base : Nat) : base &&& (pageSize - 1) = 0 ↔ pageSize ∣ base := by
  rw [show pageSize - 1 = 2 ^ 12 - 1 from rfl, Nat.and_two_pow_sub_one_eq_mod,
    Nat.dvd_iff_mod_eq_zero]
  rfl

theorem paged_paged {buf : β} {bufsz base memsz : Nat} (h : pageSize ∣ base) :
    (Segment.paged buf bufsz base memsz).Paged := by
  have hle : memsz ≤ roundUp memsz pageSize := le_roundUp (by decide) memsz
  refine ⟨h, dvd_roundUp _ _, ?_⟩
  dsimp only [Segment.paged]
  omega

section Add

variable {layout : Layout} (segments : List (Segment β)) (buf : β) (bufsz : Nat) {base memsz : Nat}

theorem addSegment_zero : addSegment layout segments buf bufsz base 0 = .ok segments := rfl

/-- Rounding does not wrap below the last page, and an aligned base leaves one way to fail. -/
theorem addSegment_eq (hlayout : layout.Proper) (hpos : 0 < memsz)
    (hsize : memsz + pageSize ≤ 2 ^ 32) (hbase : pageSize ∣ base) (hlow : base < 2 ^ 32) :
    addSegment layout segments buf bufsz base memsz = .ok (segments ++
        [Segment.paged buf bufsz base memsz]) ∧
        (Segment.paged buf bufsz base memsz).InRam layout ∨
      (∃ last, addSegment layout segments buf bufsz base memsz =
        .error (.invalidSegment base last)) ∧
        ¬ (Segment.paged buf bufsz base memsz).InRam layout := by
  have hround : ulong (memsz + (pageSize - 1)) &&& alignMask pageSize = roundUp memsz pageSize := by
    unfold pageSize at hsize
    rw [and_alignMask powerOfTwo_pageSize (ulong_lt _), ulong_of_lt (by unfold pageSize; omega)]
    rfl
  have hless : roundUp memsz pageSize < 2 ^ 32 := by
    have := alignDown_le pageSize (memsz + pageSize - 1)
    unfold alignDown at this
    unfold roundUp
    unfold pageSize at *
    omega
  have hvalid : validMemorySegment layout (Segment.paged buf bufsz base memsz) = true ↔ _ :=
    validMemorySegment_iff hlayout hlow hless
  unfold addSegment
  dsimp only
  rw [if_neg (by omega), hround, if_neg (by simpa using (and_page_eq_zero_iff base).mpr hbase)]
  unfold validMemorySegment Segment.paged at hvalid
  split
  · rename_i h
    exact .inl ⟨rfl, hvalid.mp h⟩
  · rename_i h
    exact .inr ⟨⟨_, rfl⟩, fun hin => h (hvalid.mpr hin)⟩

end Add

/-! ## The invariant -/

/-- What a run of `add_buffer` keeps: whole pages in RAM, no two of which overlap. -/
structure Kept (layout : Layout) (segments : List (Segment β)) : Prop where
  inRam : ∀ segment ∈ segments, segment.InRam layout
  paged : ∀ segment ∈ segments, segment.Paged
  apart : segments.Pairwise Segment.Apart

theorem kept_nil (layout : Layout) : Kept layout ([] : List (Segment β)) :=
  ⟨by simp, by simp, List.Pairwise.nil⟩

/-- What the caller asks for: the buffer at an aligned address between the bounds, with at
least the size. -/
structure Serves (request : Request β) (segment : Segment β) : Prop where
  buf : segment.buf = request.buf
  bufsz : segment.bufsz = min request.bufsz request.query.size
  aligned : request.query.saneAlign ∣ segment.mem
  above : request.query.min ≤ segment.mem
  below : segment.mem + request.query.size ≤ request.query.max
  memsz : segment.memsz = roundUp request.query.size pageSize

section Kept

variable {layout : Layout} {segments : List (Segment β)}

theorem Kept.perm {others : List (Segment β)} (h : Kept layout segments)
    (hperm : others.Perm segments) : Kept layout others :=
  ⟨fun s hs => h.inRam s (hperm.subset hs), fun s hs => h.paged s (hperm.subset hs),
    (hperm.pairwise_iff Segment.Apart.symm).mpr h.apart⟩

/-- The rounded segment stays clear of the others: they start on pages. -/
theorem Kept.append {query : HoleQuery} {base : Nat} {buf : β} {bufsz : Nat}
    (h : Kept layout segments) (hfits : Fits layout segments query base)
    (hbase : pageSize ∣ base)
    (hinRam : (Segment.paged buf bufsz base query.size).InRam layout) :
    Kept layout (segments ++ [Segment.paged buf bufsz base query.size]) := by
  constructor
  · intro s hs
    rcases List.mem_append.mp hs with hs | hs
    · exact h.inRam s hs
    · rwa [List.mem_singleton.mp hs]
  · intro s hs
    rcases List.mem_append.mp hs with hs | hs
    · exact h.paged s hs
    · rw [List.mem_singleton.mp hs]
      exact paged_paged hbase
  · rw [List.pairwise_append]
    refine ⟨h.apart, List.pairwise_singleton _ _, ?_⟩
    intro s hs t ht
    rw [List.mem_singleton.mp ht]
    rcases hfits.free s hs with hbefore | hbehind
    · exact .inl hbefore
    · have hround : roundUp query.size pageSize ≤ s.mem - base :=
        roundUp_le (by decide) (Nat.dvd_sub (h.paged s hs).mem hbase) (by omega)
      right
      dsimp only [Segment.paged]
      omega

variable (hlayout : layout.Proper)

include hlayout

theorem sortSegments_inRam (hinRam : ∀ segment ∈ segments, segment.InRam layout) :
    ((sortSegments segments).2 = 0 ∧ segments.Pairwise Segment.Apart ∧
        Placed layout (sortSegments segments).1) ∨
      ((sortSegments segments).2 = -1 ∧ ¬ segments.Pairwise Segment.Apart) := by
  have hproper : ∀ s ∈ segments, 0 < s.memsz ∧ s.mem + s.memsz < 2 ^ 32 :=
    fun s hs => ⟨(hinRam s hs).pos, (hinRam s hs).stop_lt hlayout⟩
  refine (sortSegments_spec hproper).imp_left fun ⟨hzero, hapart, hascending⟩ => ?_
  exact ⟨hzero, hapart, fun s hs => hinRam s ((sortSegments_perm segments).subset hs), hascending⟩

theorem Kept.sorted (h : Kept layout segments) :
    (sortSegments segments).2 = 0 ∧ Placed layout (sortSegments segments).1 := by
  rcases sortSegments_inRam hlayout h.inRam with ⟨hzero, -, hplaced⟩ | ⟨-, hnot⟩
  · exact ⟨hzero, hplaced⟩
  · exact absurd h.apart hnot

end Kept

/-! ## `add_buffer` -/

/-- What the callers of `add_buffer` keep to. -/
structure Request.Proper (request : Request β) (layout : Layout) : Prop where
  query : request.query.Proper layout
  size : request.query.size + pageSize ≤ 2 ^ 32

def trampolineRequest : Request Unit := ⟨(), 0x4f00, trampolineQuery 0x4f00⟩

theorem trampolineRequest_proper : trampolineRequest.Proper exampleLayout :=
  ⟨trampolineQuery_proper _, by decide⟩

section Buffer

variable {layout : Layout} {segments : List (Segment β)} {request : Request β}

theorem Fits.perm {others : List (Segment β)} {query : HoleQuery} {base : Nat}
    (h : Fits layout segments query base) (hperm : others.Perm segments) :
    Fits layout others query base :=
  ⟨h.aligned, h.above, h.below, h.ram, fun s hs => h.free s (hperm.subset hs)⟩

theorem fits_perm_iff {others : List (Segment β)} {query : HoleQuery} {base : Nat}
    (hperm : others.Perm segments) :
    Fits layout others query base ↔ Fits layout segments query base :=
  ⟨fun h => h.perm hperm.symm, fun h => h.perm hperm⟩

variable (hlayout : layout.Proper) (hother : ∃ range ∈ layout.ranges, range.type ≠ .ram)
  (hrequest : request.Proper layout)

include hlayout hother hrequest

/-- The three ends of `add_buffer` for a buffer that takes memory: at the base that the caller
wants, without a base, or at the end of RAM, where the size cannot be rounded up. -/
theorem addBuffer_cases (h : Kept layout segments) (hpos : 0 < request.query.size) :
    (∃ base, request.query.Wanted {b | Fits layout segments request.query b} base ∧
        (Segment.paged request.buf request.bufsz base request.query.size).InRam layout ∧
        addBuffer layout segments request = .ok (base, (sortSegments segments).1 ++
          [Segment.paged request.buf request.bufsz base request.query.size])) ∨
      ((∀ b, ¬ Fits layout segments request.query b) ∧
        addBuffer layout segments request = .error .locateFailed) ∨
      ∃ base last, request.query.Wanted {b | Fits layout segments request.query b} base ∧
        ¬ (Segment.paged request.buf request.bufsz base request.query.size).InRam layout ∧
        addBuffer layout segments request = .error (.invalidSegment base last) := by
  obtain ⟨hzero, hplaced⟩ := h.sorted hlayout
  have hperm := sortSegments_perm segments
  have hlocate (base : Nat) : locateHole layout (sortSegments segments).1 request.query =
      .ok base ↔ _ := locateHole_eq_iff hlayout hplaced hrequest.query hpos hother
  simp only [fits_perm_iff hperm] at hlocate
  unfold addBuffer
  dsimp only
  rw [hzero, if_neg (by decide)]
  by_cases hnone : ∀ b, ¬ Fits layout segments request.query b
  · rw [(hlocate ulongMax).mpr (.inr ⟨rfl, hnone⟩)]
    exact .inr (.inl ⟨hnone, rfl⟩)
  · have hfound : ∃ base, request.query.Wanted {b | Fits layout segments request.query b} base := by
      rcases findHole_wanted hlayout hplaced hrequest.query hpos with ⟨-, hnothing⟩ | hwanted
      · exact absurd (fun b hb => hnothing b ((fits_perm_iff hperm).mpr hb)) hnone
      · simp only [fits_perm_iff hperm] at hwanted
        exact ⟨_, hwanted⟩
    obtain ⟨base, hwanted⟩ := hfound
    have hfits : Fits layout segments request.query base := hwanted.mem hrequest.query.holeEnd
    have hdvd : pageSize ∣ base :=
      (powerOfTwo_pageSize.dvd hrequest.query.powerOfTwo (pageSize_le_saneAlign _)).trans
        hfits.aligned
    have hlow : base < 2 ^ 32 := by
      obtain ⟨range, hrange, -, hstop⟩ := hfits.ram
      have := hlayout.below range hrange
      omega
    rw [(hlocate base).mpr (.inl hwanted)]
    dsimp only
    rw [if_neg (hfits.bounds hlayout).1]
    rcases addSegment_eq (sortSegments segments).1 request.buf request.bufsz hlayout hpos
      hrequest.size hdvd hlow with ⟨hadd, hinRam⟩ | ⟨⟨last, hadd⟩, hnot⟩
    · rw [hadd]
      exact .inl ⟨base, hwanted, hinRam, rfl⟩
    · rw [hadd]
      exact .inr (.inr ⟨base, last, hwanted, hnot, rfl⟩)

omit hlayout in
theorem locateHole_ok (segments : List (Segment β)) :
    ∃ base, locateHole layout segments request.query = .ok base := by
  have hlength := length_freeRanges hother segments
  rw [locateHole, if_neg hrequest.query.holeEnd]
  dsimp only
  rw [if_neg (by omega)]
  split
  · exact ⟨_, rfl⟩
  · split
    · exact ⟨_, rfl⟩
    · exact ⟨_, rfl⟩

/-- The buffer is served and nothing else changes, or the program ends for want of memory. -/
theorem addBuffer_kept (h : Kept layout segments) :
    (∃ base segments', addBuffer layout segments request = .ok (base, segments') ∧
        Kept layout segments' ∧ ∃ added : List (Segment β),
          List.Forall₂ Serves ([request].filter (0 < ·.query.size)) added ∧
            segments'.Perm (segments ++ added)) ∨
      addBuffer layout segments request = .error .locateFailed ∨
      ∃ base last, addBuffer layout segments request = .error (.invalidSegment base last) := by
  have hperm := sortSegments_perm segments
  by_cases hpos : 0 < request.query.size
  · rcases addBuffer_cases hlayout hother hrequest h hpos with
      ⟨base, hwanted, hinRam, hadd⟩ | ⟨-, hadd⟩ | ⟨base, last, -, -, hadd⟩
    · have hfits : Fits layout segments request.query base :=
        hwanted.mem hrequest.query.holeEnd
      have hdvd : pageSize ∣ base :=
        (powerOfTwo_pageSize.dvd hrequest.query.powerOfTwo (pageSize_le_saneAlign _)).trans
          hfits.aligned
      refine .inl ⟨base, _, hadd, ?_, [_], ?_, hperm.append_right _⟩
      · exact (h.perm hperm).append (hfits.perm hperm) hdvd hinRam
      · rw [List.filter_cons_of_pos (by simpa using hpos)]
        exact .cons ⟨rfl, rfl, hfits.aligned, hfits.above.2, hfits.below.2, rfl⟩ .nil
    · exact .inr (.inl hadd)
    · exact .inr (.inr ⟨base, last, hadd⟩)
  · have hzero : request.query.size = 0 := Nat.eq_zero_of_not_pos hpos
    obtain ⟨base, hbase⟩ := locateHole_ok hother hrequest (sortSegments segments).1
    unfold addBuffer
    dsimp only
    rw [(h.sorted hlayout).1, if_neg (by decide), hbase]
    dsimp only
    by_cases hmax : base = ulongMax
    · rw [if_pos hmax]
      exact .inr (.inl rfl)
    · rw [if_neg hmax, hzero, addSegment_zero]
      refine .inl ⟨base, _, rfl, h.perm hperm, [], ?_, ?_⟩
      · rw [List.filter_cons_of_neg (by simpa using hpos)]
        exact .nil
      · rwa [List.append_nil]

/-- What a successful call tells about the base that it returns. -/
theorem addBuffer_served (h : Kept layout segments) (hpos : 0 < request.query.size) {base : Nat}
    {segments' : List (Segment β)}
    (hadd : addBuffer layout segments request = .ok (base, segments')) :
    Fits layout segments request.query base ∧ Kept layout segments' ∧
      segments' = (sortSegments segments).1 ++
        [Segment.paged request.buf request.bufsz base request.query.size] := by
  rcases addBuffer_cases hlayout hother hrequest h hpos with
    ⟨found, hwanted, hinRam, hfound⟩ | ⟨-, hnone⟩ | ⟨_, _, -, -, hnone⟩
  · have hperm := sortSegments_perm segments
    have hfits : Fits layout segments request.query found := hwanted.mem hrequest.query.holeEnd
    have hdvd : pageSize ∣ found :=
      (powerOfTwo_pageSize.dvd hrequest.query.powerOfTwo (pageSize_le_saneAlign _)).trans
        hfits.aligned
    rw [hadd, Except.ok.injEq, Prod.mk.injEq] at hfound
    obtain ⟨rfl, rfl⟩ := hfound
    exact ⟨hfits, (h.perm hperm).append (hfits.perm hperm) hdvd hinRam, rfl⟩
  · rw [hadd] at hnone
    cases hnone
  · rw [hadd] at hnone
    cases hnone

/-- A buffer has its segment, if it has any bytes. -/
def Carries (segments : List (Segment β)) (buf : β) (mem size : Nat) : Prop :=
  size = 0 ∨ ∃ segment ∈ segments, segment.buf = buf ∧ segment.mem = mem ∧
    segment.bufsz = size ∧ size ≤ segment.memsz

omit hlayout hother hrequest in
theorem Carries.mono {segments' : List (Segment β)} {buf : β} {mem size : Nat}
    (h : Carries segments buf mem size) (hsub : segments ⊆ segments') :
    Carries segments' buf mem size := by
  rcases h with h | ⟨segment, hmem, hsegment⟩
  · exact .inl h
  · exact .inr ⟨segment, hsub hmem, hsegment⟩

omit hlayout hother hrequest in
theorem carries_paged (segments : List (Segment β)) (buf : β) (base size : Nat) :
    Carries (segments ++ [Segment.paged buf size base size]) buf base size :=
  .inr ⟨_, List.mem_append_right _ (List.mem_singleton_self _), rfl, rfl, Nat.min_self size,
    le_roundUp (by decide) size⟩

/-- A whole buffer with what came before it, and nothing else. -/
theorem addBuffer_carries (h : Kept layout segments) (hbufsz : request.bufsz = request.query.size)
    {base : Nat} {segments' : List (Segment β)}
    (hadd : addBuffer layout segments request = .ok (base, segments')) :
    Kept layout segments' ∧ segments ⊆ segments' ∧
      Carries segments' request.buf base request.query.size ∧
      ∀ segment ∈ segments', segment ∈ segments ∨ (segment.buf = request.buf ∧
        segment.bufsz = request.query.size ∧ segment.mem = base ∧
        segment.memsz = roundUp request.query.size pageSize ∧ request.query.min ≤ base ∧
        base + request.query.size ≤ request.query.max ∧ pageSize ∣ base) := by
  have hperm := sortSegments_perm segments
  by_cases hpos : 0 < request.query.size
  · obtain ⟨hfits, hkept, rfl⟩ := addBuffer_served hlayout hother hrequest h hpos hadd
    refine ⟨hkept, ?_, ?_, ?_⟩
    · exact fun s hs => List.mem_append_left _ (hperm.symm.subset hs)
    · rw [hbufsz]
      exact carries_paged _ _ _ _
    · intro s hs
      rcases List.mem_append.mp hs with hs | hs
      · exact .inl (hperm.subset hs)
      · rw [List.mem_singleton.mp hs, hbufsz]
        exact .inr ⟨rfl, Nat.min_self _, rfl, rfl, hfits.above.2, hfits.below.2,
          (powerOfTwo_pageSize.dvd hrequest.query.powerOfTwo (pageSize_le_saneAlign _)).trans
            hfits.aligned⟩
  · have hzero : request.query.size = 0 := Nat.eq_zero_of_not_pos hpos
    obtain ⟨found, hfound⟩ := locateHole_ok hother hrequest (sortSegments segments).1
    unfold addBuffer at hadd
    dsimp only at hadd
    rw [(h.sorted hlayout).1, if_neg (by decide), hfound] at hadd
    dsimp only at hadd
    split at hadd
    · cases hadd
    · rw [hzero, addSegment_zero] at hadd
      cases hadd
      exact ⟨h.perm hperm, hperm.symm.subset, .inl hzero, fun s hs => .inl (hperm.subset hs)⟩

/-- The base that `add_buffer` returns is the one that is wanted, of all that fit. -/
theorem addBuffer_eq_ok_iff (h : Kept layout segments) (hpos : 0 < request.query.size)
    {base : Nat} {segments' : List (Segment β)} :
    addBuffer layout segments request = .ok (base, segments') ↔
      request.query.Wanted {b | Fits layout segments request.query b} base ∧
        (Segment.paged request.buf request.bufsz base request.query.size).InRam layout ∧
        segments' = (sortSegments segments).1 ++
          [Segment.paged request.buf request.bufsz base request.query.size] := by
  have hend := hrequest.query.holeEnd
  rcases addBuffer_cases hlayout hother hrequest h hpos with
    ⟨found, hwanted, hinRam, hadd⟩ | ⟨hnone, hadd⟩ | ⟨found, last, hwanted, hnot, hadd⟩
  · rw [hadd, Except.ok.injEq, Prod.mk.injEq]
    constructor
    · rintro ⟨rfl, rfl⟩
      exact ⟨hwanted, hinRam, rfl⟩
    · rintro ⟨hbase, -, rfl⟩
      rw [hwanted.unique hend hbase]
      exact ⟨rfl, rfl⟩
  · rw [hadd]
    constructor
    · rintro ⟨⟩
    · rintro ⟨hbase, -⟩
      exact absurd (hbase.mem hend) (hnone base)
  · rw [hadd]
    constructor
    · rintro ⟨⟩
    · rintro ⟨hbase, hinRam, -⟩
      rw [hbase.unique hend hwanted] at hinRam
      exact absurd hinRam hnot

omit hother hrequest in
/-- A segment at a fixed address, behind the ones there are. -/
theorem addSegment_carries (h : Kept layout segments) {buf : β} {base size : Nat}
    (hbase : pageSize ∣ base) (hlow : base < 2 ^ 32) (hsize : size + pageSize ≤ 2 ^ 32)
    (hbehind : ∀ segment ∈ segments, segment.mem + segment.memsz ≤ base)
    {segments' : List (Segment β)}
    (hadd : addSegment layout segments buf size base size = .ok segments') :
    Kept layout segments' ∧ segments ⊆ segments' ∧ Carries segments' buf base size ∧
      ∀ segment ∈ segments', segment ∈ segments ∨ (segment.buf = buf ∧ segment.bufsz = size) := by
  by_cases hpos : 0 < size
  · rcases addSegment_eq segments buf size hlayout hpos hsize hbase hlow with
      ⟨hadded, hinRam⟩ | ⟨⟨last, hrefused⟩, -⟩
    · rw [hadded] at hadd
      cases hadd
      refine ⟨⟨?_, ?_, ?_⟩, List.subset_append_left _ _, carries_paged _ _ _ _, ?_⟩
      · rw [List.forall_mem_append, List.forall_mem_singleton]
        exact ⟨h.inRam, hinRam⟩
      · rw [List.forall_mem_append, List.forall_mem_singleton]
        exact ⟨h.paged, paged_paged hbase⟩
      · rw [List.pairwise_append]
        refine ⟨h.apart, List.pairwise_singleton _ _, ?_⟩
        intro s hs t ht
        rw [List.mem_singleton.mp ht]
        exact .inl (hbehind s hs)
      · intro s hs
        refine (List.mem_append.mp hs).imp_right fun hs => ?_
        rw [List.mem_singleton.mp hs]
        exact ⟨rfl, Nat.min_self _⟩
    · rw [hrefused] at hadd
      cases hadd
  · have hzero : size = 0 := Nat.eq_zero_of_not_pos hpos
    rw [hzero, addSegment_zero] at hadd
    cases hadd
    exact ⟨h, List.Subset.refl _, .inl hzero, fun s hs => .inl hs⟩

end Buffer

theorem addBuffer_eq_ok_iff_trampoline :
    addBuffer exampleLayout [] trampolineRequest =
        .ok (0x9a000, [⟨(), 0x4f00, 0x9a000, 0x5000⟩]) ↔
      trampolineRequest.query.Wanted
          {b | Fits exampleLayout ([] : List (Segment Unit)) trampolineRequest.query b} 0x9a000 ∧
        (Segment.paged trampolineRequest.buf trampolineRequest.bufsz 0x9a000
          trampolineRequest.query.size).InRam exampleLayout ∧
        [⟨(), 0x4f00, 0x9a000, 0x5000⟩] = (sortSegments []).1 ++
          [Segment.paged trampolineRequest.buf trampolineRequest.bufsz 0x9a000
            trampolineRequest.query.size] :=
  addBuffer_eq_ok_iff proper_exampleLayout exampleLayout_other trampolineRequest_proper
    (kept_nil _) (by decide)

/-! ## Runs -/

/-- Segments that some of the requests got beside those that were there. -/
structure Grown (layout : Layout) (requests : List (Request β))
    (segments segments' : List (Segment β)) : Prop where
  kept : Kept layout segments'
  added : ∃ added, List.Forall₂ Serves (requests.filter (0 < ·.query.size)) added ∧
    segments'.Perm (segments ++ added)

section Runs

variable {layout : Layout} (hlayout : layout.Proper)
  (hother : ∃ range ∈ layout.ranges, range.type ≠ .ram)

include hlayout hother

/-- The induction over the requests, with what the earlier ones left as its start. -/
theorem addBuffers_cases {segments : List (Segment β)} {requests : List (Request β)}
    (h : Kept layout segments) (hrequests : ∀ request ∈ requests, request.Proper layout) :
    (∃ segments', addBuffers layout segments requests = .ok segments' ∧
        Grown layout requests segments segments') ∨
      addBuffers layout segments requests = .error .locateFailed ∨
      ∃ base last, addBuffers layout segments requests = .error (.invalidSegment base last) := by
  induction requests generalizing segments with
  | nil =>
    refine .inl ⟨segments, rfl, h, [], .nil, ?_⟩
    rw [List.append_nil]
  | cons request rest ih =>
    rw [List.forall_mem_cons] at hrequests
    unfold addBuffers
    rcases addBuffer_kept hlayout hother hrequests.1 h with
      ⟨base, next, hadd, hnext, first, hfirst, hperm⟩ | hadd | ⟨base, last, hadd⟩
    · rw [hadd]
      refine (ih hnext hrequests.2).imp_left ?_
      rintro ⟨segments', hrun, hkept, added, hadded, hperm'⟩
      refine ⟨segments', hrun, hkept, first ++ added, ?_, ?_⟩
      · rw [← List.singleton_append, List.filter_append]
        exact List.rel_append hfirst hadded
      · rw [← List.append_assoc]
        exact hperm'.trans (hperm.append_right added)
    · rw [hadd]
      exact .inr (.inl rfl)
    · rw [hadd]
      exact .inr (.inr ⟨base, last, rfl⟩)

end Runs

/-! ## `my_load` -/

/-- What `my_load` does with the segments of a loader: the value that it returns, or those that
`kexec_load` gets. -/
def verifySegments (layout : Layout) (segments : List (Segment β)) :
    Except Int (List (Segment β)) :=
  if segments.all (validMemorySegment layout) then
    let sorted := sortSegments segments
    if sorted.2 < 0 then .error (-1) else .ok sorted.1
  else .error (-1)

/-- The fields of a `struct kexec_segment` are of 32 bits. -/
def Segment.Words (segment : Segment β) : Prop := segment.mem < 2 ^ 32 ∧ segment.memsz < 2 ^ 32

theorem verifySegments_cases {layout : Layout} (hlayout : layout.Proper)
    {segments : List (Segment β)} (hwords : ∀ segment ∈ segments, segment.Words) :
    (verifySegments layout segments = .ok (sortSegments segments).1 ∧
        (∀ segment ∈ segments, segment.InRam layout) ∧ segments.Pairwise Segment.Apart ∧
        Placed layout (sortSegments segments).1) ∨
      (verifySegments layout segments = .error (-1) ∧
        ¬ ((∀ segment ∈ segments, segment.InRam layout) ∧ segments.Pairwise Segment.Apart)) := by
  have hall : segments.all (validMemorySegment layout) = true ↔
      ∀ segment ∈ segments, segment.InRam layout := by
    rw [List.all_eq_true]
    exact forall₂_congr fun segment hsegment =>
      validMemorySegment_iff hlayout (hwords segment hsegment).1 (hwords segment hsegment).2
  unfold verifySegments
  dsimp only
  split
  · rename_i hvalid
    have hinRam := hall.mp hvalid
    rcases sortSegments_inRam hlayout hinRam with ⟨hzero, hapart, hplaced⟩ | ⟨hminus, hnot⟩
    · rw [hzero, if_neg (by decide)]
      exact .inl ⟨rfl, hinRam, hapart, hplaced⟩
    · rw [hminus, if_pos (by decide)]
      exact .inr ⟨rfl, fun h => hnot h.2⟩
  · rename_i hvalid
    exact .inr ⟨rfl, fun h => hvalid (hall.mpr h.1)⟩

/-- The checks let everything through that `add_buffer` and `add_segment` have placed. -/
theorem Kept.verified {layout : Layout} (hlayout : layout.Proper) {segments : List (Segment β)}
    (hkept : Kept layout segments) :
    verifySegments layout segments = .ok (sortSegments segments).1 ∧
      Placed layout (sortSegments segments).1 := by
  have hwords : ∀ segment ∈ segments, segment.Words := by
    intro s hs
    have := (hkept.inRam s hs).stop_lt hlayout
    exact ⟨by omega, by omega⟩
  rcases verifySegments_cases hlayout hwords with ⟨hverify, -, -, hplaced⟩ | ⟨-, hnot⟩
  · exact ⟨hverify, hplaced⟩
  · exact absurd ⟨hkept.inRam, hkept.apart⟩ hnot

/-- Two rows of the same segments in ascending order are the same row. -/
theorem Ascending.eq_of_perm {segments others : List (Segment β)}
    (hpos : ∀ segment ∈ segments, 0 < segment.memsz) (h : Ascending segments)
    (h' : Ascending others) (hperm : segments.Perm others) : segments = others := by
  refine hperm.eq_of_pairwise ?_ h h'
  intro s t hs ht hst hts
  have := hpos s hs
  have := hpos t (hperm.symm.subset ht)
  omega

/-- `kexec_load` gets the segments of the loader in ascending order, if they are in RAM and no
two of them overlap, and nothing otherwise. -/
theorem verifySegments_eq_ok_iff {layout : Layout} (hlayout : layout.Proper)
    {segments : List (Segment β)} (hwords : ∀ segment ∈ segments, segment.Words)
    {handed : List (Segment β)} :
    verifySegments layout segments = .ok handed ↔
      handed.Perm segments ∧ Placed layout handed := by
  have hperm := sortSegments_perm segments
  have hapart {others : List (Segment β)} (h : Ascending others) :
      others.Pairwise Segment.Apart := h.imp Or.inl
  rcases verifySegments_cases hlayout hwords with ⟨hverify, hinRam, -, hplaced⟩ | ⟨hverify, hnot⟩
  · rw [hverify, Except.ok.injEq]
    constructor
    · rintro rfl
      exact ⟨hperm, hplaced⟩
    · rintro ⟨hhanded, hascending⟩
      exact Ascending.eq_of_perm (fun s hs => (hplaced.inRam s hs).pos) hplaced.ascending
        hascending.ascending (hperm.trans hhanded.symm)
  · rw [hverify]
    constructor
    · rintro ⟨⟩
    · rintro ⟨hhanded, h⟩
      refine absurd ⟨fun s hs => h.inRam s (hhanded.symm.subset hs), ?_⟩ hnot
      exact (hhanded.pairwise_iff Segment.Apart.symm).mp (hapart h.ascending)

theorem verifySegments_eq_ok_iff_overlap :
    verifySegments exampleLayout
        [⟨(), 0x1000, 0x200000, 0x2000⟩, ⟨(), 0x1000, 0x201000, 0x1000⟩] = .ok [] ↔
      ([] : List (Segment Unit)).Perm
          [⟨(), 0x1000, 0x200000, 0x2000⟩, ⟨(), 0x1000, 0x201000, 0x1000⟩] ∧
        Placed exampleLayout ([] : List (Segment Unit)) :=
  verifySegments_eq_ok_iff proper_exampleLayout (by simp [Segment.Words])

/-- A loader that gets all its memory from `add_buffer` is never refused: whatever it asks for,
`kexec_load` gets its buffers where it wants them, in ascending order and in RAM. -/
theorem addBuffers_verified {layout : Layout} (hlayout : layout.Proper)
    (hother : ∃ range ∈ layout.ranges, range.type ≠ .ram) (requests : List (Request β))
    (hrequests : ∀ request ∈ requests, request.Proper layout) :
    (∃ segments handed, addBuffers layout [] requests = .ok segments ∧
        verifySegments layout segments = .ok handed ∧ Placed layout handed ∧
        ∃ added, List.Forall₂ Serves (requests.filter (0 < ·.query.size)) added ∧
          handed.Perm added) ∨
      addBuffers layout [] requests = .error .locateFailed ∨
      ∃ base last, addBuffers layout [] requests = .error (.invalidSegment base last) := by
  refine (addBuffers_cases hlayout hother (kept_nil layout) hrequests).imp_left ?_
  rintro ⟨segments, hrun, hkept, added, hadded, hperm⟩
  obtain ⟨hverify, hplaced⟩ := hkept.verified hlayout
  exact ⟨segments, _, hrun, hverify, hplaced, added, hadded,
    (sortSegments_perm segments).trans hperm⟩

/-- Two buffers below 640 KB, and a ramdisk. -/
def exampleRequests : List (Request Unit) :=
  [trampolineRequest, ⟨(), 0x1600, trampolineQuery 0x1600⟩,
   ⟨(), 0x200000, ⟨0x200000, 4096, 0x1000000, 0x37ffffff, -1⟩⟩]

theorem exampleRequests_proper :
    ∀ request ∈ exampleRequests, request.Proper exampleLayout := by
  unfold exampleRequests
  rw [List.forall_mem_cons, List.forall_mem_cons, List.forall_mem_singleton]
  exact ⟨trampolineRequest_proper, ⟨trampolineQuery_proper _, by decide⟩,
    ⟨.inr powerOfTwo_pageSize, by decide, by decide, by decide, by decide⟩, by decide⟩

theorem addBuffers_verified_example :
    (∃ segments handed, addBuffers exampleLayout [] exampleRequests = .ok segments ∧
        verifySegments exampleLayout segments = .ok handed ∧ Placed exampleLayout handed ∧
        ∃ added, List.Forall₂ Serves (exampleRequests.filter (0 < ·.query.size)) added ∧
          handed.Perm added) ∨
      addBuffers exampleLayout [] exampleRequests = .error .locateFailed ∨
      ∃ base last,
        addBuffers exampleLayout [] exampleRequests = .error (.invalidSegment base last) :=
  addBuffers_verified proper_exampleLayout exampleLayout_other exampleRequests
    exampleRequests_proper

example : addBuffers exampleLayout [] exampleRequests =
    .ok [⟨(), 0x1600, 0x98000, 0x2000⟩, ⟨(), 0x4f00, 0x9a000, 0x5000⟩,
      ⟨(), 0x200000, 0x3e00000, 0x200000⟩] := by
  decide +kernel

end Monoimage.Kexec
