import Monoimage.Clib.Pokes
import Monoimage.Kexec.Digest
import Monoimage.Kexec.Placement

/-! The digest that `update_purgatory` takes of the segments, and the check of it that
`purgatory.c` makes before the new kernel starts. -/
namespace Monoimage.Kexec

open Clib Sha2

/-! ## `update_purgatory` -/

def sha256Regions : Nat := 8

/-- A `struct sha256_region`. -/
structure Region where
  start : Nat
  len : Nat
  deriving DecidableEq, Repr

/-- The loop over `null_buf`, with a bound on its rounds. -/
def hashNulls : Nat → Sha256Context → Nat → Sha256Context
  | 0, ctx, _ => ctx
  | fuel + 1, ctx, nullsz =>
    if nullsz = 0 then ctx
    else
      let bytes := if 256 < nullsz then 256 else nullsz
      hashNulls fuel (sha256Update ctx (List.replicate bytes 0)) (nullsz - bytes)

/-- The segment's buffer is as long as `bufsz` says, or longer. -/
def hashSegment (ctx : Sha256Context) (segment : Segment Bytes) : Sha256Context :=
  let nullsz := segment.memsz - segment.bufsz
  hashNulls nullsz (sha256Update ctx (segment.buf.take segment.bufsz)) nullsz

/-- The segments but for that of the purgatory. -/
def hashed (relAddr : Nat) (segments : List (Segment Bytes)) : List (Segment Bytes) :=
  segments.filter (·.mem ≠ relAddr)

/-- The values of `sha256_regions` and `sha256_digest`. The context on the stack is `ctx`, and
the table of regions is not checked for its end. -/
def updatePurgatory (ctx : Sha256Context) (relAddr : Nat) (segments : List (Segment Bytes)) :
    Except Fault (List Region × Bytes) :=
  let segments := hashed relAddr segments
  if sha256Regions < segments.length then .error .outOfBounds
  else
    .ok (segments.map (fun segment => ⟨segment.mem, segment.memsz⟩) ++
        List.replicate (sha256Regions - segments.length) ⟨0, 0⟩,
      sha256Finish (segments.foldl hashSegment (sha256Starts ctx)))

/-! ## The memory -/

abbrev Memory := Nat → UInt8

def readMemory (memory : Memory) (region : Region) : Bytes :=
  (List.range region.len).map fun i => memory (region.start + i)

/-- `verify_sha256_digest`; where it is false the function does not return. -/
def verifySha256Digest (memory : Memory) (ctx : Sha256Context) (regions : List Region)
    (digest : Bytes) : Bool :=
  sha256Finish (regions.foldl (fun ctx region => sha256Update ctx (readMemory memory region))
    (sha256Starts ctx)) = digest

/-- What the kernel makes of a segment: the buffer, and zeros behind it. -/
def Segment.contents (segment : Segment Bytes) : Bytes :=
  segment.buf.take segment.bufsz ++ List.replicate (segment.memsz - segment.bufsz) 0

def Segment.region {β : Type} (segment : Segment β) : Region := ⟨segment.mem, segment.memsz⟩

def copySegment (memory : Memory) (segment : Segment Bytes) : Memory := fun address =>
  if segment.mem ≤ address ∧ address < segment.mem + segment.memsz then
    segment.contents.getD (address - segment.mem) 0
  else memory address

/-- The kernel copies the segments to their places before it jumps to the purgatory. -/
def copySegments (memory : Memory) (segments : List (Segment Bytes)) : Memory :=
  segments.foldl copySegment memory

/-- A buffer with the bytes that its segment announces. -/
structure Segment.Backed (segment : Segment Bytes) : Prop where
  buf : segment.bufsz ≤ segment.buf.length
  memsz : segment.bufsz ≤ segment.memsz

theorem Segment.Backed.length_contents {segment : Segment Bytes} (h : segment.Backed) :
    segment.contents.length = segment.memsz := by
  have hbuf := h.buf
  have hmemsz := h.memsz
  rw [contents, List.length_append, List.length_take_of_le hbuf, List.length_replicate]
  omega

@[simp] theorem length_readMemory (memory : Memory) (region : Region) :
    (readMemory memory region).length = region.len := by
  simp [readMemory]

section Copy

variable {segment : Segment Bytes}

theorem readMemory_copySegment (h : segment.Backed) (memory : Memory) :
    readMemory (copySegment memory segment) segment.region = segment.contents := by
  have hlength := h.length_contents
  apply List.ext_getElem
  · rw [length_readMemory, hlength]
    rfl
  · intro i hi hi'
    rw [length_readMemory] at hi
    have hin : i < segment.memsz := hi
    have hwithin : segment.mem ≤ segment.mem + i ∧ segment.mem + i < segment.mem + segment.memsz := by
      omega
    simp only [readMemory, List.getElem_map, List.getElem_range, Segment.region, copySegment]
    rw [if_pos hwithin, Nat.add_sub_cancel_left, List.getD_eq_getElem _ _ hi']

/-- A copy leaves the places of other segments alone. -/
theorem readMemory_copySegment_of_apart {other : Segment Bytes} (h : segment.Apart other)
    (memory : Memory) :
    readMemory (copySegment memory other) segment.region = readMemory memory segment.region := by
  unfold readMemory
  apply List.map_congr_left
  intro i hi
  have hlen : i < segment.memsz := List.mem_range.mp hi
  have hout : ¬ (other.mem ≤ segment.mem + i ∧ segment.mem + i < other.mem + other.memsz) := by
    rcases h with h | h
    · omega
    · omega
  exact if_neg hout

theorem readMemory_copySegments_of_apart {others : List (Segment Bytes)}
    (h : ∀ other ∈ others, segment.Apart other) (memory : Memory) :
    readMemory (copySegments memory others) segment.region =
      readMemory memory segment.region := by
  induction others generalizing memory with
  | nil => rfl
  | cons other rest ih =>
    rw [List.forall_mem_cons] at h
    rw [copySegments, List.foldl_cons]
    exact (ih h.2 _).trans (readMemory_copySegment_of_apart h.1 memory)

/-- Segments that lie apart are all there after the copies, whatever the order. -/
theorem readMemory_copySegments {segments : List (Segment Bytes)}
    (hapart : segments.Pairwise Segment.Apart) (hsegment : segment ∈ segments)
    (h : segment.Backed) (memory : Memory) :
    readMemory (copySegments memory segments) segment.region = segment.contents := by
  obtain ⟨before, after, rfl⟩ := List.append_of_mem hsegment
  have hafter := (List.pairwise_cons.mp (List.pairwise_append.mp hapart).2.1).1
  rw [copySegments, List.foldl_append, List.foldl_cons]
  exact (readMemory_copySegments_of_apart hafter _).trans (readMemory_copySegment h _)

theorem readMemory_slice {start len p n : Nat} (h : p + n ≤ len) (memory : Memory) :
    readMemory memory ⟨start + p, n⟩ = slice (readMemory memory ⟨start, len⟩) p n := by
  apply List.ext_getElem
  · rw [slice, List.length_take, List.length_drop, length_readMemory, length_readMemory]
    dsimp only
    omega
  · intro i hi hi'
    simp [readMemory, slice, Nat.add_assoc]

/-- The bytes of a buffer are where its segment was copied to. -/
theorem readMemory_buffer {segments : List (Segment Bytes)}
    (hapart : segments.Pairwise Segment.Apart) (hsegment : segment ∈ segments)
    (h : segment.Backed) (memory : Memory) {p n : Nat} (hp : p + n ≤ segment.bufsz) :
    readMemory (copySegments memory segments) ⟨segment.mem + p, n⟩ = slice segment.buf p n := by
  have hbuf := h.buf
  have hmemsz := h.memsz
  have hcontents := readMemory_copySegments hapart hsegment h memory
  unfold Segment.region at hcontents
  rw [readMemory_slice (show p + n ≤ segment.memsz by omega), hcontents, Segment.contents,
    slice_append (by rw [List.length_take]; omega), slice_take hp]

end Copy

/-! ## The pieces -/

/-- The zeros behind a buffer, in pieces of at most 256. -/
def nullPieces : Nat → Nat → List Bytes
  | 0, _ => []
  | fuel + 1, nullsz =>
    if nullsz = 0 then []
    else
      let bytes := if 256 < nullsz then 256 else nullsz
      List.replicate bytes 0 :: nullPieces fuel (nullsz - bytes)

theorem hashNulls_eq (fuel : Nat) (ctx : Sha256Context) (nullsz : Nat) :
    hashNulls fuel ctx nullsz = (nullPieces fuel nullsz).foldl sha256Update ctx := by
  induction fuel generalizing ctx nullsz with
  | zero => rfl
  | succ fuel ih =>
    unfold hashNulls nullPieces
    split
    · rfl
    · exact ih _ _

theorem nullPieces_spec {fuel nullsz : Nat} (h : nullsz ≤ fuel) :
    (nullPieces fuel nullsz).flatten = List.replicate nullsz 0 ∧
      ∀ piece ∈ nullPieces fuel nullsz, piece.length ≤ 256 := by
  induction fuel generalizing nullsz with
  | zero =>
    rw [Nat.le_zero.mp h]
    exact ⟨rfl, by simp [nullPieces]⟩
  | succ fuel ih =>
    unfold nullPieces
    split
    · rename_i hzero
      rw [hzero]
      exact ⟨rfl, by simp⟩
    · dsimp only
      have hless : nullsz - (if 256 < nullsz then 256 else nullsz) ≤ fuel := by
        split
        · omega
        · omega
      obtain ⟨hflatten, hpieces⟩ := ih hless
      constructor
      · rw [List.flatten_cons, hflatten, List.replicate_append_replicate]
        congr 1
        split
        · omega
        · omega
      · rw [List.forall_mem_cons, List.length_replicate]
        refine ⟨?_, hpieces⟩
        split
        · exact Nat.le_refl _
        · omega

def Segment.pieces (segment : Segment Bytes) : List Bytes :=
  segment.buf.take segment.bufsz ::
    nullPieces (segment.memsz - segment.bufsz) (segment.memsz - segment.bufsz)

theorem hashSegment_eq (ctx : Sha256Context) (segment : Segment Bytes) :
    hashSegment ctx segment = segment.pieces.foldl sha256Update ctx := hashNulls_eq _ _ _

theorem flatten_pieces (segment : Segment Bytes) : segment.pieces.flatten = segment.contents := by
  rw [Segment.pieces, List.flatten_cons, (nullPieces_spec (Nat.le_refl _)).1]
  rfl

theorem foldl_hashSegment (ctx : Sha256Context) (segments : List (Segment Bytes)) :
    segments.foldl hashSegment ctx = (segments.flatMap Segment.pieces).foldl sha256Update ctx := by
  induction segments generalizing ctx with
  | nil => rfl
  | cons segment rest ih =>
    rw [List.foldl_cons, List.flatMap_cons, List.foldl_append, ih, hashSegment_eq]

theorem flatten_flatMap_pieces (segments : List (Segment Bytes)) :
    (segments.flatMap Segment.pieces).flatten = segments.flatMap Segment.contents := by
  induction segments with
  | nil => rfl
  | cons segment rest ih =>
    rw [List.flatMap_cons, List.flatten_append, ih, flatten_pieces, List.flatMap_cons]

section Lengths

variable {γ : Type} {f g : γ → Bytes} {xs : List γ}

theorem length_flatMap_le {bound : Nat} (h : ∀ x ∈ xs, (f x).length ≤ bound) :
    (xs.flatMap f).length ≤ xs.length * bound := by
  induction xs with
  | nil => simp
  | cons x rest ih =>
    rw [List.forall_mem_cons] at h
    have := ih h.2
    rw [List.flatMap_cons, List.length_append, List.length_cons, Nat.succ_mul]
    omega

theorem length_flatMap_congr (h : ∀ x ∈ xs, (f x).length = (g x).length) :
    (xs.flatMap f).length = (xs.flatMap g).length := by
  rw [List.length_flatMap, List.length_flatMap]
  exact congrArg List.sum (List.map_congr_left h)

/-- Rows of pieces of the same lengths agree only piece by piece. -/
theorem eq_of_flatMap_eq (hlength : ∀ x ∈ xs, (f x).length = (g x).length)
    (h : xs.flatMap f = xs.flatMap g) : ∀ x ∈ xs, f x = g x := by
  induction xs with
  | nil => simp
  | cons x rest ih =>
    rw [List.forall_mem_cons] at hlength
    rw [List.flatMap_cons, List.flatMap_cons] at h
    obtain ⟨hhead, htail⟩ := List.append_inj h hlength.1
    exact List.forall_mem_cons.mpr ⟨hhead, ih hlength.2 htail⟩

end Lengths

section Digest

variable {ctx : Sha256Context} (hctx : ctx.buffer.length = 64)

include hctx

/-- The digest of `update_purgatory` is that of the contents in a row. -/
theorem sha256_segments {segments : List (Segment Bytes)}
    (hwords : ∀ segment ∈ segments, segment.bufsz < 2 ^ 32)
    (hlength : (segments.flatMap Segment.contents).length < 2 ^ 61) :
    sha256Finish (segments.foldl hashSegment (sha256Starts ctx)) =
      sha256 (segments.flatMap Segment.contents) := by
  rw [foldl_hashSegment, ← flatten_flatMap_pieces] at *
  refine ((represents_starts hctx).updates ?_).finish hlength
  intro piece hpiece
  obtain ⟨segment, hsegment, hpiece⟩ := List.mem_flatMap.mp hpiece
  have hword := hwords segment hsegment
  rcases List.mem_cons.mp hpiece with rfl | hpiece
  · rw [List.length_take]
    omega
  · have := (nullPieces_spec (Nat.le_refl _)).2 piece hpiece
    omega

theorem verifySha256Digest_iff {memory : Memory} {regions : List Region} {digest : Bytes}
    (hwords : ∀ region ∈ regions, region.len < 2 ^ 32)
    (hlength : (regions.flatMap (readMemory memory)).length < 2 ^ 61) :
    verifySha256Digest memory ctx regions digest = true ↔
      sha256 (regions.flatMap (readMemory memory)) = digest := by
  have hfold : regions.foldl (fun ctx region => sha256Update ctx (readMemory memory region))
      (sha256Starts ctx) = (regions.map (readMemory memory)).foldl sha256Update (sha256Starts ctx) :=
    List.foldl_map.symm
  have hpieces : ∀ piece ∈ regions.map (readMemory memory), piece.length < 2 ^ 32 := by
    intro piece hpiece
    obtain ⟨region, hregion, rfl⟩ := List.mem_map.mp hpiece
    rw [length_readMemory]
    exact hwords region hregion
  have hrun := ((represents_starts hctx).updates hpieces).finish
    (by rwa [List.nil_append, ← List.flatMap_def])
  rw [verifySha256Digest, decide_eq_true_eq, hfold, hrun, List.nil_append, ← List.flatMap_def]

end Digest

/-! ## The check -/

section Check

variable {ctx ctx' : Sha256Context} {relAddr : Nat} {segments : List (Segment Bytes)}
  {regions : List Region} {digest : Bytes}

theorem updatePurgatory_eq_ok_iff :
    updatePurgatory ctx relAddr segments = .ok (regions, digest) ↔
      (hashed relAddr segments).length ≤ sha256Regions ∧
        regions = (hashed relAddr segments).map Segment.region ++
          List.replicate (sha256Regions - (hashed relAddr segments).length) ⟨0, 0⟩ ∧
        digest = sha256Finish ((hashed relAddr segments).foldl hashSegment (sha256Starts ctx)) := by
  unfold updatePurgatory
  dsimp only
  split
  · simp only [reduceCtorEq, false_iff]
    omega
  · rw [Except.ok.injEq, Prod.mk.injEq]
    constructor
    · rintro ⟨rfl, rfl⟩
      exact ⟨by omega, rfl, rfl⟩
    · rintro ⟨-, rfl, rfl⟩
      exact ⟨rfl, rfl⟩

/-- Entries of the table that are not filled in add nothing. -/
theorem flatMap_regions (memory : Memory) (k : Nat) (segments : List (Segment Bytes)) :
    (segments.map Segment.region ++ List.replicate k (⟨0, 0⟩ : Region)).flatMap (readMemory memory) =
      segments.flatMap fun segment => readMemory memory segment.region := by
  rw [List.flatMap_append, List.flatMap_map]
  have hempty : (List.replicate k (⟨0, 0⟩ : Region)).flatMap (readMemory memory) = [] := by
    rw [List.flatMap_eq_nil_iff]
    intro region hregion
    rw [List.eq_of_mem_replicate hregion]
    rfl
  rw [hempty, List.append_nil]

variable (hctx : ctx.buffer.length = 64) (hctx' : ctx'.buffer.length = 64)
  (hbacked : ∀ segment ∈ segments, segment.Backed) (hwords : ∀ segment ∈ segments, segment.Words)
  (hupdate : updatePurgatory ctx relAddr segments = .ok (regions, digest))

include hctx hctx' hbacked hwords hupdate

/-- The check compares the digest of the memory with that of the contents. -/
theorem verifySha256Digest_eq (memory : Memory) :
    verifySha256Digest memory ctx' regions digest = true ↔
      sha256 ((hashed relAddr segments).flatMap fun segment =>
          readMemory memory segment.region) =
        sha256 ((hashed relAddr segments).flatMap Segment.contents) := by
  obtain ⟨hcount, rfl, rfl⟩ := updatePurgatory_eq_ok_iff.mp hupdate
  have hmem {segment : Segment Bytes} (h : segment ∈ hashed relAddr segments) :
      segment ∈ segments := List.mem_of_mem_filter h
  have hsize {segment : Segment Bytes} (h : segment ∈ hashed relAddr segments) :
      segment.memsz < 2 ^ 32 := (hwords segment (hmem h)).2
  have hmemory : ((hashed relAddr segments).flatMap fun segment =>
      readMemory memory segment.region).length ≤ (hashed relAddr segments).length * 2 ^ 32 := by
    apply length_flatMap_le
    intro segment h
    rw [length_readMemory]
    exact (hsize h).le
  have hcontents : ((hashed relAddr segments).flatMap Segment.contents).length ≤
      (hashed relAddr segments).length * 2 ^ 32 := by
    apply length_flatMap_le
    intro segment h
    rw [(hbacked segment (hmem h)).length_contents]
    exact (hsize h).le
  unfold sha256Regions at hcount
  rw [verifySha256Digest_iff hctx', flatMap_regions, sha256_segments hctx]
  · intro segment h
    have := (hbacked segment (hmem h)).memsz
    have := hsize h
    omega
  · omega
  · intro region hregion
    rcases List.mem_append.mp hregion with h | h
    · obtain ⟨segment, hsegment, rfl⟩ := List.mem_map.mp h
      exact hsize hsegment
    · rw [List.eq_of_mem_replicate h]
      decide
  · rw [flatMap_regions]
    omega

end Check

/-- A kernel, and the purgatory below it. -/
def exampleSegments : List (Segment Bytes) :=
  [⟨[0x50, 0x55, 0x52], 3, 0x9a000, 4⟩, ⟨[0x4b, 0x45, 0x52, 0x4e], 4, 0x100000, 6⟩]

def exampleRegions : List Region := ⟨0x100000, 6⟩ :: List.replicate 7 ⟨0, 0⟩

theorem length_stackContext : stackContext.buffer.length = 64 := by decide

def exampleDigest : Bytes :=
  sha256Finish ((hashed 0x9a000 exampleSegments).foldl hashSegment (sha256Starts stackContext))

theorem updatePurgatory_example :
    updatePurgatory stackContext 0x9a000 exampleSegments = .ok (exampleRegions, exampleDigest) :=
  updatePurgatory_eq_ok_iff.mpr ⟨by decide, by decide, rfl⟩

theorem backed_exampleSegments : ∀ segment ∈ exampleSegments, segment.Backed := by
  unfold exampleSegments
  rw [List.forall_mem_cons, List.forall_mem_singleton]
  exact ⟨⟨by decide, by decide⟩, ⟨by decide, by decide⟩⟩

theorem words_exampleSegments : ∀ segment ∈ exampleSegments, segment.Words := by
  simp [exampleSegments, Segment.Words]

/-- The digest goes into the segment of the purgatory after it was taken. -/
structure Patched (relAddr : Nat) (segment patched : Segment Bytes) : Prop where
  mem : patched.mem = segment.mem
  memsz : patched.memsz = segment.memsz
  other : segment.mem ≠ relAddr → patched = segment

section Patched

variable {relAddr : Nat} {segments patched : List (Segment Bytes)}

theorem pairwise_of_patched (h : List.Forall₂ (Patched relAddr) segments patched)
    (hapart : segments.Pairwise Segment.Apart) : patched.Pairwise Segment.Apart := by
  refine pairwise_of_forall₂ h hapart ?_
  intro s s' t t' hs ht hst
  unfold Segment.Apart at *
  rwa [hs.mem, hs.memsz, ht.mem, ht.memsz]

theorem mem_of_patched (h : List.Forall₂ (Patched relAddr) segments patched)
    {segment : Segment Bytes} (hsegment : segment ∈ segments) (hother : segment.mem ≠ relAddr) :
    segment ∈ patched := by
  induction h with
  | nil => cases hsegment
  | cons hhead _ ih =>
    rcases List.mem_cons.mp hsegment with rfl | hsegment
    · rw [hhead.other hother]
      exact List.mem_cons_self
    · exact List.mem_cons_of_mem _ (ih hsegment)

end Patched

/-- The memory before the check: the kernel's copies, with changes of the purgatory to its own
segment. -/
def CopiedBut (relAddr : Nat) (segments : List (Segment Bytes)) (before after : Memory) : Prop :=
  ∀ address, (∀ segment ∈ segments, segment.mem = relAddr →
    address < segment.mem ∨ segment.mem + segment.memsz ≤ address) →
    after address = copySegments before segments address

/-- Segments that lie apart pass the check after the copies, whatever the purgatory has done to
its own. -/
theorem verify_of_copied {ctx ctx' : Sha256Context} (hctx : ctx.buffer.length = 64)
    (hctx' : ctx'.buffer.length = 64) {handed patched : List (Segment Bytes)}
    (hapart : handed.Pairwise Segment.Apart) (hbacked : ∀ segment ∈ handed, segment.Backed)
    (hwords : ∀ segment ∈ handed, segment.Words) {relAddr : Nat} {regions : List Region}
    {digest : Bytes} (hupdate : updatePurgatory ctx relAddr handed = .ok (regions, digest))
    (hpatched : List.Forall₂ (Patched relAddr) handed patched) {before after : Memory}
    (hcopied : CopiedBut relAddr patched before after) :
    verifySha256Digest after ctx' regions digest = true := by
  rw [verifySha256Digest_eq hctx hctx' hbacked hwords hupdate]
  congr 1
  apply List.flatMap_congr
  intro segment hsegment
  obtain ⟨hmem, hother⟩ := List.mem_filter.mp hsegment
  rw [decide_eq_true_eq] at hother
  have hin := mem_of_patched hpatched hmem hother
  have hpairwise := pairwise_of_patched hpatched hapart
  rw [← readMemory_copySegments hpairwise hin (hbacked segment hmem) before]
  -- the bytes of this segment are not the purgatory's to change
  apply List.map_congr_left
  intro i hi
  have hlen : i < segment.memsz := List.mem_range.mp hi
  apply hcopied
  intro own hown hrel
  have hne : segment ≠ own := by
    rintro rfl
    exact hother hrel
  have : Std.Symm (@Segment.Apart Bytes) := ⟨fun _ _ => Segment.Apart.symm⟩
  rcases hpairwise.forall hin hown hne with h | h
  · exact .inl (by dsimp only [Segment.region]; omega)
  · exact .inr (by dsimp only [Segment.region]; omega)

theorem verifySegments_example :
    verifySegments exampleLayout exampleSegments = .ok exampleSegments := by
  decide +kernel

/-- The purgatory with its digest. -/
def patchedSegments : List (Segment Bytes) :=
  [⟨[1, 2, 3], 3, 0x9a000, 4⟩, ⟨[0x4b, 0x45, 0x52, 0x4e], 4, 0x100000, 6⟩]

theorem patched_example : List.Forall₂ (Patched 0x9a000) exampleSegments patchedSegments :=
  .cons ⟨rfl, rfl, fun h => absurd rfl h⟩ (.cons ⟨rfl, rfl, fun _ => rfl⟩ .nil)

end Monoimage.Kexec
