import Monoimage.Kexec.Sections

/-! The relocations of `elf_rel_load`, and what a load leaves in memory. -/
namespace Monoimage.Kexec

open Clib

/-! ## The relocations as a list of words to add to -/

def machineDelta (type address value : Nat) : Except Death Nat :=
  if type = r386_32 then .ok value
  else if type = r386_pc32 then .ok (ulongSub value address)
  else .error (.rel (.unknownRelocation type))

def Ehdr.fixup (ehdr : Ehdr) (target symtab : Shdr) (strtab : SectionData) (rel : MemRela) :
    Except Death Fixup := do
  let sym ← elfSym (ehdr.bytesAt (symtab.data.add (rel.sym * elf32Sym.sizeof)))
  let base ← secBase ehdr strtab sym
  let delta ← machineDelta rel.type (ulong (target.addr + rel.offset))
    (ulong (sym.value + base + rel.addend))
  match target.data.add rel.offset with
  | .file _ => .error (.fault .outOfBounds)
  | .buffer offset => pure ⟨offset, delta⟩

def Ehdr.entryFixups (ehdr : Ehdr) (shdr target symtab : Shdr) (strtab : SectionData) :
    Nat → SectionData → Except Death (List Fixup)
  | 0, _ => .ok []
  | count + 1, ptr => do
    let rel ← elfRel (shdr.type = .rela) (ehdr.bytesAt ptr)
    let fixup ← ehdr.fixup target symtab strtab rel
    let rest ← ehdr.entryFixups shdr target symtab strtab count (ptr.add shdr.relSize)
    pure (fixup :: rest)

def Ehdr.sectionFixups (ehdr : Ehdr) (shdr : Shdr) : Except Death (List Fixup) := do
  match ← relTables ehdr shdr with
  | none => pure []
  | some (target, symtab, strtab) =>
    ehdr.entryFixups shdr target symtab strtab.data shdr.relCount shdr.data

def Ehdr.sectionsFixups (ehdr : Ehdr) : List Shdr → Except Death (List Fixup)
  | [] => .ok []
  | shdr :: rest => do
    let fixups ← ehdr.sectionFixups shdr
    let others ← ehdr.sectionsFixups rest
    pure (fixups ++ others)

/-- What the relocation sections of an object ask for, once its sections have their addresses. -/
def Ehdr.fixups (ehdr : Ehdr) : Except Death (List Fixup) := ehdr.sectionsFixups ehdr.shdrs

def SectionData.InFile (data : SectionData) : Prop := ∃ offset, data = .file offset

/-- The relocations, symbols and names are not among what is loaded. -/
def Shdr.Separate (shdr : Shdr) (ehdr : Ehdr) : Prop :=
  shdr.type = .rel ∨ shdr.type = .rela → shdr.data.InFile ∧
    ∀ symtab, ehdr.shdrs[shdr.link]? = some symtab → symtab.data.InFile ∧
      ∀ strtab, ehdr.shdrs[symtab.link]? = some strtab → strtab.data.InFile

def Ehdr.withBuffer (ehdr : Ehdr) (buffer : Bytes) : Ehdr := { ehdr with buffer }

@[simp] theorem Ehdr.withBuffer_buffer (ehdr : Ehdr) (buffer : Bytes) :
    (ehdr.withBuffer buffer).buffer = buffer := rfl

@[simp] theorem Ehdr.withBuffer_withBuffer (ehdr : Ehdr) (buffer buffer' : Bytes) :
    (ehdr.withBuffer buffer).withBuffer buffer' = ehdr.withBuffer buffer' := rfl

theorem SectionData.InFile.add {data : SectionData} (h : data.InFile) (n : Nat) :
    (data.add n).InFile := by
  obtain ⟨offset, rfl⟩ := h
  exact ⟨offset + n, rfl⟩

theorem Ehdr.bytesAt_withBuffer {data : SectionData} (h : data.InFile) (ehdr : Ehdr)
    (buffer : Bytes) : (ehdr.withBuffer buffer).bytesAt data = ehdr.bytesAt data := by
  obtain ⟨offset, rfl⟩ := h
  rfl

theorem shdr_eq_ok_iff {ehdr : Ehdr} {i : Nat} {shdr : Shdr} :
    ehdr.shdr i = .ok shdr ↔ ehdr.shdrs[i]? = some shdr := by
  unfold Ehdr.shdr
  split
  · rename_i h
    simp [h]
  · rename_i h
    simp [h]

section Fixups

variable {ehdr loaded : Ehdr} {shdr target symtab : Shdr} {strtab : SectionData}

theorem addTo_eq_ok_iff {offset delta : Nat} :
    ehdr.addTo (.buffer offset) delta = .ok loaded ↔
      ∃ buffer, applyFixups [⟨offset, delta⟩] ehdr.buffer = .ok buffer ∧
        loaded = ehdr.withBuffer buffer := by
  simp only [Ehdr.addTo, applyFixups]
  split
  · simp only [Except.ok.injEq, exists_eq_left']
    exact eq_comm
  · simp

theorem relocate_eq_ok_iff {rel : MemRela} :
    relocate ehdr target symtab strtab rel = .ok loaded ↔
      ∃ fixup, ehdr.fixup target symtab strtab rel = .ok fixup ∧
        ∃ buffer, applyFixups [fixup] ehdr.buffer = .ok buffer ∧
          loaded = ehdr.withBuffer buffer := by
  have happly {type address value : Nat} {location : SectionData} :
      machineApplyElfRel ehdr type location address value = .ok loaded ↔
        ∃ delta, machineDelta type address value = .ok delta ∧
          ehdr.addTo location delta = .ok loaded := by
    unfold machineApplyElfRel machineDelta
    split
    · simp
    · split
      · simp
      · simp
  simp only [relocate, Ehdr.fixup, bind_eq_ok_iff, happly]
  cases target.data.add rel.offset with
  | file offset => simp [Ehdr.addTo]
  | buffer offset =>
    simp only [addTo_eq_ok_iff, pure, Except.pure, Except.ok.injEq]
    constructor
    · rintro ⟨sym, hsym, base, hbase, delta, hdelta, hbuffer⟩
      exact ⟨_, ⟨sym, hsym, base, hbase, delta, hdelta, rfl⟩, hbuffer⟩
    · rintro ⟨_, ⟨sym, hsym, base, hbase, delta, hdelta, rfl⟩, hbuffer⟩
      exact ⟨sym, hsym, base, hbase, delta, hdelta, hbuffer⟩

theorem fixup_withBuffer (hsymtab : symtab.data.InFile) (hstrtab : strtab.InFile)
    (buffer : Bytes) (rel : MemRela) :
    (ehdr.withBuffer buffer).fixup target symtab strtab rel =
      ehdr.fixup target symtab strtab rel := by
  have hbase (sym : MemSym) : secBase (ehdr.withBuffer buffer) strtab sym =
      secBase ehdr strtab sym := by
    unfold secBase
    rw [Ehdr.bytesAt_withBuffer (hstrtab.add _)]
    rfl
  unfold Ehdr.fixup
  rw [Ehdr.bytesAt_withBuffer (hsymtab.add _)]
  simp only [hbase]

theorem entryFixups_withBuffer (hsymtab : symtab.data.InFile) (hstrtab : strtab.InFile)
    {ptr : SectionData} (hptr : ptr.InFile) (buffer : Bytes) (count : Nat) :
    (ehdr.withBuffer buffer).entryFixups shdr target symtab strtab count ptr =
      ehdr.entryFixups shdr target symtab strtab count ptr := by
  induction count generalizing ptr with
  | zero => rfl
  | succ count ih =>
    unfold Ehdr.entryFixups
    rw [Ehdr.bytesAt_withBuffer hptr]
    simp only [fixup_withBuffer hsymtab hstrtab, ih (hptr.add _)]

/-- The entries of a section, read before any of them is applied. -/
theorem relocateEntries_eq_ok_iff (hsymtab : symtab.data.InFile) (hstrtab : strtab.InFile)
    {ptr : SectionData} (hptr : ptr.InFile) (count : Nat) :
    relocateEntries shdr target symtab strtab count ptr ehdr = .ok loaded ↔
      ∃ fixups, ehdr.entryFixups shdr target symtab strtab count ptr = .ok fixups ∧
        ∃ buffer, applyFixups fixups ehdr.buffer = .ok buffer ∧
          loaded = ehdr.withBuffer buffer := by
  induction count generalizing ehdr ptr with
  | zero =>
    simp only [relocateEntries, Ehdr.entryFixups, Except.ok.injEq, exists_eq_left', applyFixups]
    exact eq_comm
  | succ count ih =>
    simp only [relocateEntries, Ehdr.entryFixups, bind_eq_ok_iff, relocate_eq_ok_iff,
      pure, Except.pure, Except.ok.injEq]
    constructor
    · rintro ⟨rel, hrel, _, ⟨fixup, hfixup, middle, hmiddle, rfl⟩, hrest⟩
      obtain ⟨rest, hentries, buffer, hbuffer, rfl⟩ := (ih (hptr.add _)).mp hrest
      rw [entryFixups_withBuffer hsymtab hstrtab (hptr.add _)] at hentries
      exact ⟨_, ⟨rel, hrel, fixup, hfixup, rest, hentries, rfl⟩, buffer,
        applyFixups_cons_iff.mpr ⟨middle, hmiddle, hbuffer⟩, rfl⟩
    · rintro ⟨_, ⟨rel, hrel, fixup, hfixup, rest, hentries, rfl⟩, buffer, hbuffer, rfl⟩
      obtain ⟨middle, hmiddle, hbuffer⟩ := applyFixups_cons_iff.mp hbuffer
      refine ⟨rel, hrel, _, ⟨fixup, hfixup, middle, hmiddle, rfl⟩, (ih (hptr.add _)).mpr ?_⟩
      rw [entryFixups_withBuffer hsymtab hstrtab (hptr.add _)]
      exact ⟨rest, hentries, buffer, hbuffer, rfl⟩

theorem relTables_some {strtab : Shdr}
    (h : relTables ehdr shdr = .ok (some (target, symtab, strtab))) :
    (shdr.type = .rel ∨ shdr.type = .rela) ∧ ehdr.shdrs[shdr.link]? = some symtab ∧
      ehdr.shdrs[symtab.link]? = some strtab := by
  unfold relTables at h
  split at h
  · cases h
  · rename_i htype
    split at h
    · cases h
    · simp only [bind_eq_ok_iff, shdr_eq_ok_iff] at h
      obtain ⟨target', -, symtab', hsymtab, h⟩ := h
      split at h
      · cases h
      · split at h
        · cases h
        · obtain ⟨strtab', hstrtab, h⟩ := bind_eq_ok_iff.mp h
          cases h
          refine ⟨?_, hsymtab, shdr_eq_ok_iff.mp hstrtab⟩
          by_contra hnot
          exact htype ⟨fun h => hnot (.inr h), fun h => hnot (.inl h)⟩

theorem Shdr.Separate.tables {strtab : Shdr} (hseparate : shdr.Separate ehdr)
    (h : relTables ehdr shdr = .ok (some (target, symtab, strtab))) :
    shdr.data.InFile ∧ symtab.data.InFile ∧ strtab.data.InFile := by
  obtain ⟨htype, hsymtab, hstrtab⟩ := relTables_some h
  obtain ⟨hdata, htables⟩ := hseparate htype
  exact ⟨hdata, (htables symtab hsymtab).1, (htables symtab hsymtab).2 strtab hstrtab⟩

theorem sectionFixups_withBuffer (hseparate : shdr.Separate ehdr) (buffer : Bytes) :
    (ehdr.withBuffer buffer).sectionFixups shdr = ehdr.sectionFixups shdr := by
  have htables : relTables (ehdr.withBuffer buffer) shdr = relTables ehdr shdr := rfl
  unfold Ehdr.sectionFixups
  rw [htables]
  cases h : relTables ehdr shdr with
  | error d => rfl
  | ok tables =>
    match tables with
    | none => rfl
    | some (target, symtab, strtab) =>
      obtain ⟨hdata, hsymtab, hstrtab⟩ := hseparate.tables h
      exact entryFixups_withBuffer hsymtab hstrtab hdata buffer _

theorem relocateSection_eq_ok_iff (hseparate : shdr.Separate ehdr) :
    relocateSection ehdr shdr = .ok loaded ↔
      ∃ fixups, ehdr.sectionFixups shdr = .ok fixups ∧
        ∃ buffer, applyFixups fixups ehdr.buffer = .ok buffer ∧
          loaded = ehdr.withBuffer buffer := by
  unfold relocateSection Ehdr.sectionFixups
  simp only [bind_eq_ok_iff]
  cases h : relTables ehdr shdr with
  | error d => simp
  | ok tables =>
    simp only [Except.ok.injEq, exists_eq_left']
    cases tables with
    | none =>
      simp only [pure, Except.pure, Except.ok.injEq, exists_eq_left', applyFixups]
      exact eq_comm
    | some tables =>
      obtain ⟨target, symtab, strtab⟩ := tables
      obtain ⟨hdata, hsymtab, hstrtab⟩ := hseparate.tables h
      exact relocateEntries_eq_ok_iff hsymtab hstrtab hdata _

theorem sectionsFixups_withBuffer {shdrs : List Shdr}
    (hseparate : ∀ shdr ∈ shdrs, shdr.Separate ehdr) (buffer : Bytes) :
    (ehdr.withBuffer buffer).sectionsFixups shdrs = ehdr.sectionsFixups shdrs := by
  induction shdrs with
  | nil => rfl
  | cons shdr rest ih =>
    rw [List.forall_mem_cons] at hseparate
    simp only [Ehdr.sectionsFixups, sectionFixups_withBuffer hseparate.1, ih hseparate.2]

/-- All the entries can be read before the first of them is applied. -/
theorem relocateSections_eq_ok_iff {shdrs : List Shdr}
    (hseparate : ∀ shdr ∈ shdrs, shdr.Separate ehdr) :
    relocateSections shdrs ehdr = .ok loaded ↔
      ∃ fixups, ehdr.sectionsFixups shdrs = .ok fixups ∧
        ∃ buffer, applyFixups fixups ehdr.buffer = .ok buffer ∧
          loaded = ehdr.withBuffer buffer := by
  induction shdrs generalizing ehdr with
  | nil =>
    simp only [relocateSections, Ehdr.sectionsFixups, Except.ok.injEq, exists_eq_left',
      applyFixups]
    exact eq_comm
  | cons shdr rest ih =>
    rw [List.forall_mem_cons] at hseparate
    have hrest (middle : Bytes) :
        relocateSections rest (ehdr.withBuffer middle) = .ok loaded ↔ _ :=
      @ih (ehdr.withBuffer middle) hseparate.2
    simp only [sectionsFixups_withBuffer hseparate.2] at hrest
    simp only [relocateSections, Ehdr.sectionsFixups, bind_eq_ok_iff,
      relocateSection_eq_ok_iff hseparate.1, pure, Except.pure, Except.ok.injEq]
    constructor
    · rintro ⟨_, ⟨fixups, hfixups, middle, hmiddle, rfl⟩, h⟩
      obtain ⟨others, hothers, buffer, hbuffer, rfl⟩ := (hrest middle).mp h
      exact ⟨_, ⟨fixups, hfixups, others, hothers, rfl⟩, buffer,
        applyFixups_append_iff.mpr ⟨middle, hmiddle, hbuffer⟩, rfl⟩
    · rintro ⟨_, ⟨fixups, hfixups, others, hothers, rfl⟩, buffer, hbuffer, rfl⟩
      obtain ⟨middle, hmiddle, hbuffer⟩ := applyFixups_append_iff.mp hbuffer
      exact ⟨_, ⟨fixups, hfixups, middle, hmiddle, rfl⟩,
        (hrest middle).mpr ⟨others, hothers, buffer, hbuffer, rfl⟩⟩

end Fixups

/-- How the bytes of a section in the file become those from `offset` on in the buffer. -/
structure Shdr.Relocated (shdr : Shdr) (ehdr loaded : Ehdr) (fixups : List Fixup) (offset : Nat) :
    Prop where
  word : ∀ r delta, r + 4 ≤ shdr.size → ⟨offset + r, delta⟩ ∈ fixups →
    getLE (slice loaded.buffer (offset + r) 4) =
      ulong (getLE (slice (ehdr.bytesAt shdr.data) r 4) + delta)
  rest : ∀ r n, r + n ≤ shdr.size →
    (∀ fixup ∈ fixups, offset + r + n ≤ fixup.offset ∨ fixup.offset + 4 ≤ offset + r) →
    slice loaded.buffer (offset + r) n = slice (ehdr.bytesAt shdr.data) r n

section Load

variable {ehdr placed : Ehdr} {fresh : Nat → UInt8} {base bssAddr bufsz relSize : Nat}

/-- A section of the loaded object is one of the file's. -/
theorem placeIn_index (h : ehdr.placeIn fresh base bssAddr bufsz relSize = .ok placed) {i : Nat}
    {shdr : Shdr} (hshdr : placed.shdrs[i]? = some shdr) :
    ∃ original addr, ehdr.shdrs[i]? = some original ∧ shdr = original.placedAt base addr ∧
      (original, addr) ∈ placeSections base bssAddr ehdr.shdrs := by
  obtain ⟨-, hshdrs, -, -⟩ := placeIn_eq_ok h
  rw [hshdrs, List.getElem?_map, Option.map_eq_some_iff] at hshdr
  obtain ⟨p, hp, rfl⟩ := hshdr
  refine ⟨p.1, p.2, ?_, rfl, List.mem_of_getElem? hp⟩
  have hfst := congrArg (·[i]?) (map_fst_placeSections base bssAddr ehdr.shdrs)
  rw [List.getElem?_map, hp] at hfst
  exact hfst.symm

theorem placeIn_separate (hproper : ehdr.Proper)
    (h : ehdr.placeIn fresh base bssAddr bufsz relSize = .ok placed) :
    ∀ shdr ∈ placed.shdrs, shdr.Separate placed := by
  have hfile (original : Shdr) (addr : Nat) (hmem : original ∈ ehdr.shdrs)
      (hcopied : ¬ original.copied) : (original.placedAt base addr).data.InFile := by
    obtain ⟨offset, hdata, -⟩ := hproper.data original hmem
    exact ⟨offset, (if_neg hcopied).trans hdata⟩
  intro shdr hshdr htype
  obtain ⟨i, hi⟩ := List.getElem?_of_mem hshdr
  obtain ⟨original, addr, horiginal, rfl, -⟩ := placeIn_index h hi
  have hmem := List.mem_of_getElem? horiginal
  obtain ⟨hcopied, htables⟩ := hproper.tables original hmem htype
  refine ⟨hfile original addr hmem hcopied, ?_⟩
  intro symtab hsymtab
  obtain ⟨original', addr', horiginal', rfl, -⟩ := placeIn_index h hsymtab
  obtain ⟨hcopied', htables'⟩ := htables original' horiginal'
  refine ⟨hfile original' addr' (List.mem_of_getElem? horiginal') hcopied', ?_⟩
  intro strtab hstrtab
  obtain ⟨original'', addr'', horiginal'', rfl, -⟩ := placeIn_index h hstrtab
  exact hfile original'' addr'' (List.mem_of_getElem? horiginal'') (htables' _ horiginal'')

variable {β : Type} {layout : Layout} (hlayout : layout.Proper)
  (hother : ∃ range ∈ layout.ranges, range.type ≠ .ram) {segments segments' : List (Segment β)}
  (hkept : Kept layout segments) {loaded : Ehdr} (hproper : ehdr.Proper)
  (hsize : ∃ shdr ∈ ehdr.shdrs, shdr.alloc ∧ 0 < shdr.size) {name : β} {min max : Nat}
  {holeEnd : Int} (hrequest : (relRequest ehdr.shdrs name min max holeEnd).Proper layout)
  (hload : elfRelLoad fresh layout segments name ehdr min max holeEnd = .ok (loaded, segments'))

include hlayout hother hkept hproper hsize hrequest hload

/-- The steps of a load that goes through. -/
theorem elfRelLoad_elim :
    ∃ base align placed,
      Fits layout segments (relRequest ehdr.shdrs name min max holeEnd).query base ∧
      ehdr.FitsAt base align ∧ Kept layout segments' ∧
      segments' = (sortSegments segments).1 ++ [Segment.paged name (dataEnd 0 ehdr.shdrs) base
        (bssEnd (bssStart ehdr.shdrs) ehdr.shdrs)] ∧
      ehdr.placeIn fresh base (base + bssStart ehdr.shdrs) (dataEnd 0 ehdr.shdrs)
        (bssEnd (bssStart ehdr.shdrs) ehdr.shdrs) = .ok placed ∧
      relocateSections placed.shdrs placed = .ok loaded := by
  obtain ⟨hquery, hpow, hle⟩ := relRequest_spec hproper name min max holeEnd
  obtain ⟨hdata, hbss⟩ := hproper.footprints_of
  obtain ⟨hstart, hend⟩ := hproper.starts_le
  have hpad : dataEnd 0 ehdr.shdrs +
      bssPad (dataEnd 0 ehdr.shdrs) (footprints ehdr.shdrs).2.align = bssStart ehdr.shdrs :=
    roundUp_eq_add_bssPad hbss.powerOfTwo _
  have hpos : 0 < (relRequest ehdr.shdrs name min max holeEnd).query.size := by
    rw [hquery]
    exact hproper.bssEnd_pos hsize
  unfold elfRelLoad at hload
  split at hload
  · cases hload
  · dsimp only at hload
    obtain ⟨⟨base, segments''⟩, hadd, hload⟩ := bind_eq_ok_iff.mp hload
    obtain ⟨placed, hplaced, hload⟩ := bind_eq_ok_iff.mp hload
    obtain ⟨loaded', hrelocate, hload⟩ := bind_eq_ok_iff.mp hload
    cases hload
    obtain ⟨hfits, hkept', rfl⟩ := addBuffer_served hlayout hother hrequest hkept hpos hadd
    obtain ⟨range, hrange, -, hstop⟩ := hfits.ram
    have hram := hrequest.query.ram range hrange
    have halign : (relRequest ehdr.shdrs name min max holeEnd).query.align ≤
        (relRequest ehdr.shdrs name min max holeEnd).query.saneAlign := by
      rw [HoleQuery.saneAlign_eq]
      split
      · omega
      · exact Nat.le_refl _
    rw [hquery] at hstop
    have hbound := hpow.pos
    have hfitsAt : ehdr.FitsAt base (relRequest ehdr.shdrs name min max holeEnd).query.align :=
      ⟨hpow, hle, (hpow.dvd hrequest.query.powerOfTwo halign).trans hfits.aligned, by omega⟩
    rw [mapError_eq_ok_iff, hdata.size, Nat.add_assoc, hpad, ulong_of_lt (by omega),
      hquery] at hplaced
    refine ⟨base, _, placed, hfits, hfitsAt, hkept', ?_, hplaced, hrelocate⟩
    have hbufsz : (relRequest ehdr.shdrs name min max holeEnd).bufsz = dataEnd 0 ehdr.shdrs :=
      hdata.size
    rw [hquery, hbufsz]
    rfl

/-- The relocations change words of the buffer and nothing else. -/
theorem elfRelLoad_placed :
    ∃ base align placed fixups,
      Fits layout segments (relRequest ehdr.shdrs name min max holeEnd).query base ∧
      ehdr.FitsAt base align ∧ Kept layout segments' ∧
      segments' = (sortSegments segments).1 ++ [Segment.paged name (dataEnd 0 ehdr.shdrs) base
        (bssEnd (bssStart ehdr.shdrs) ehdr.shdrs)] ∧
      ehdr.placeIn fresh base (base + bssStart ehdr.shdrs) (dataEnd 0 ehdr.shdrs)
        (bssEnd (bssStart ehdr.shdrs) ehdr.shdrs) = .ok placed ∧
      loaded.fixups = .ok fixups ∧ applyFixups fixups placed.buffer = .ok loaded.buffer ∧
      loaded = placed.withBuffer loaded.buffer := by
  obtain ⟨base, align, placed, hfits, hfitsAt, hkept', hsegments, hplaced, hrelocate⟩ :=
    elfRelLoad_elim hlayout hother hkept hproper hsize hrequest hload
  have hseparate := placeIn_separate hproper hplaced
  obtain ⟨fixups, hfixups, buffer, hbuffer, rfl⟩ :=
    (relocateSections_eq_ok_iff hseparate).mp hrelocate
  refine ⟨base, align, placed, fixups, hfits, hfitsAt, hkept', hsegments, hplaced, ?_, hbuffer,
    rfl⟩
  exact (sectionsFixups_withBuffer hseparate buffer).trans hfixups

/-- The segment of the object is its buffer, and the bss behind it. -/
theorem elfRelLoad_segment :
    loaded.InPlace ∧ Kept layout segments' ∧
      Fits layout segments (relRequest ehdr.shdrs name min max holeEnd).query loaded.relAddr ∧
      (relRequest ehdr.shdrs name min max holeEnd).query.size = loaded.relSize ∧
      segments' = (sortSegments segments).1 ++
        [Segment.paged name loaded.buffer.length loaded.relAddr loaded.relSize] := by
  obtain ⟨base, align, placed, fixups, hfits, hfitsAt, hkept', rfl, hplaced, -, hbuffer,
    hloaded⟩ := elfRelLoad_placed hlayout hother hkept hproper hsize hrequest hload
  obtain ⟨hpokes, -, haddr, hrelSize⟩ := placeIn_eq_ok hplaced
  have hinPlace := placeIn_inPlace hproper hfitsAt hplaced
  have hlength := length_applyFixups hbuffer
  have hbufsz : placed.buffer.length = dataEnd 0 ehdr.shdrs := by
    rw [length_applyPokes hpokes, length_malloc]
  have haddr' : loaded.relAddr = base := by
    rw [hloaded]
    exact haddr
  have hsize' : loaded.relSize = bssEnd (bssStart ehdr.shdrs) ehdr.shdrs := by
    rw [hloaded]
    exact hrelSize
  rw [haddr', hsize', hlength, hbufsz]
  refine ⟨?_, hkept', hfits, (relRequest_spec hproper name min max holeEnd).1, rfl⟩
  rw [hloaded]
  refine ⟨hinPlace.aligned, hinPlace.inside, hinPlace.apart, ?_, ?_⟩
  · rw [Ehdr.withBuffer_buffer, hlength]
    exact hinPlace.data
  · rw [Ehdr.withBuffer_buffer, hlength]
    exact hinPlace.buffer

/-- A load that goes through has given every section a place of its own, in a segment that stays
clear of the others. -/
theorem elfRelLoad_inPlace :
    loaded.InPlace ∧ Kept layout segments' ∧ ∃ segment, segments'.Perm (segments ++ [segment]) ∧
      segment.buf = name ∧ segment.mem = loaded.relAddr ∧
      segment.bufsz = loaded.buffer.length ∧ loaded.relSize ≤ segment.memsz := by
  obtain ⟨hinPlace, hkept', -, -, rfl⟩ :=
    elfRelLoad_segment hlayout hother hkept hproper hsize hrequest hload
  exact ⟨hinPlace, hkept', _, (sortSegments_perm segments).append_right _, rfl, rfl,
    Nat.min_eq_left hinPlace.buffer, le_roundUp (by decide) _⟩

/-- Every section that was copied is as in the file, but for the words that the relocations
are for. -/
theorem elfRelLoad_relocated {fixups : List Fixup} (hfixups : loaded.fixups = .ok fixups)
    (hapart : fixups.Pairwise Fixup.Apart) {i : Nat} {shdr shdr' : Shdr}
    (hi : ehdr.shdrs[i]? = some shdr) (hi' : loaded.shdrs[i]? = some shdr')
    (hcopied : shdr.copied) :
    shdr.Relocated ehdr loaded fixups (shdr'.addr - loaded.relAddr) := by
  obtain ⟨base, align, placed, fixups', -, hfitsAt, -, -, hplaced, hfixups', hbuffer, hloaded⟩ :=
    elfRelLoad_placed hlayout hother hkept hproper hsize hrequest hload
  obtain rfl : fixups = fixups' := Except.ok.inj (hfixups.symm.trans hfixups')
  have hcontents := placeIn_contents hproper hfitsAt hplaced
  obtain ⟨-, -, haddr, -⟩ := placeIn_eq_ok hplaced
  have hbase : loaded.relAddr = base := by
    rw [hloaded]
    exact haddr
  have hshdrs : loaded.shdrs = placed.shdrs := by
    rw [hloaded]
    rfl
  rw [hshdrs] at hi'
  obtain ⟨original, addr, horiginal, rfl, hmem⟩ := placeIn_index hplaced hi'
  obtain rfl : shdr = original := Option.some.inj (hi.symm.trans horiginal)
  have hsection := hcontents _ hmem hcopied
  have hsame (r n : Nat) (hr : r + n ≤ shdr.size) :
      slice placed.buffer (addr - base + r) n = slice (ehdr.bytesAt shdr.data) r n := by
    rw [← slice_slice hr, hsection]
    exact slice_take hr
  have hplace : (shdr.placedAt base addr).addr = addr := rfl
  rw [hbase, hplace]
  constructor
  · intro r delta hr hfixup
    rw [word_applyFixups hbuffer hapart hfixup, hsame r 4 hr]
  · intro r n hr hclear
    rw [slice_applyFixups_of_apart hbuffer hclear, hsame r n hr]

end Load

/-- A call to a function and a pointer, both into the bss, where the symbol `buf` is. -/
def exampleObject : Ehdr where
  file := [0xe8, 0xfc, 0xff, 0xff, 0xff, 0xb8, 1, 0, 0, 0, 0xf4, 0x90] ++
    (putLE 4 1 ++ putLE 4 0x102 ++ putLE 4 6 ++ putLE 4 0x101) ++
    (List.replicate 16 0 ++ (putLE 4 1 ++ putLE 4 4 ++ putLE 4 8 ++ [0x10, 0] ++ putLE 2 2)) ++
    [0, 0x62, 0x75, 0x66, 0]
  entry := 0
  shdrs :=
    [⟨.other, true, true, 0, 12, 0, 0, 4, .file 0⟩, ⟨.rel, false, false, 0, 16, 3, 0, 4, .file 12⟩,
     ⟨.nobits, true, false, 0, 0x4ef0, 0, 0, 16, .file 12⟩,
     ⟨.symtab, false, false, 0, 32, 4, 1, 4, .file 28⟩,
     ⟨.other, false, false, 0, 5, 0, 0, 1, .file 60⟩]

theorem proper_exampleObject : exampleObject.Proper where
  data := by
    unfold exampleObject
    simp [Shdr.copied, length_putLE]
  align := by
    unfold exampleObject
    simp only [List.forall_mem_cons, Bool.false_eq_true, false_imp_iff, true_and]
    exact ⟨fun _ => ⟨2, by decide, rfl⟩, fun _ => ⟨4, by decide, rfl⟩, by simp⟩
  room := by decide
  tables := by
    unfold exampleObject
    simp [Shdr.copied]

/-- The object in the example layout. -/
def exampleLoaded : Ehdr :=
  { exampleObject with
    entry := 0x9a000
    shdrs :=
      [⟨.other, true, true, 0x9a000, 12, 0, 0, 4, .buffer 0⟩,
       ⟨.rel, false, false, 0, 16, 3, 0, 4, .file 12⟩,
       ⟨.nobits, true, false, 0x9a010, 0x4ef0, 0, 0, 16, .file 12⟩,
       ⟨.symtab, false, false, 0, 32, 4, 1, 4, .file 28⟩,
       ⟨.other, false, false, 0, 5, 0, 0, 1, .file 60⟩]
    buffer := [0xe8, 0x0f, 0, 0, 0, 0xb8, 0x15, 0xa0, 0x09, 0, 0xf4, 0x90]
    relAddr := 0x9a000
    relSize := 0x4f00 }

theorem elfRelLoad_exampleObject :
    elfRelLoad (fun _ => 0xaa) exampleLayout [] () exampleObject 0x3000 (640 * 1024) (-1) =
      .ok (exampleLoaded, [⟨(), 12, 0x9a000, 0x5000⟩]) := by
  decide +kernel

theorem relRequest_exampleObject :
    (relRequest exampleObject.shdrs () 0x3000 (640 * 1024) (-1)).Proper exampleLayout :=
  ⟨⟨.inr ⟨4, by decide, by decide⟩, by decide, by decide, by decide, by decide⟩, by decide⟩

theorem elfRelLoad_inPlace_exampleObject :
    exampleLoaded.InPlace ∧ Kept exampleLayout [⟨(), 12, 0x9a000, 0x5000⟩] ∧
      ∃ segment : Segment Unit, [⟨(), 12, 0x9a000, 0x5000⟩].Perm ([] ++ [segment]) ∧
        segment.buf = () ∧ segment.mem = exampleLoaded.relAddr ∧
        segment.bufsz = exampleLoaded.buffer.length ∧ exampleLoaded.relSize ≤ segment.memsz :=
  elfRelLoad_inPlace proper_exampleLayout exampleLayout_other (kept_nil _) proper_exampleObject
    (by decide) relRequest_exampleObject elfRelLoad_exampleObject

theorem fixups_exampleLoaded : exampleLoaded.fixups = .ok [⟨1, 0x13⟩, ⟨6, 0x9a014⟩] := by
  decide +kernel

def exampleText : Shdr := ⟨.other, true, true, 0, 12, 0, 0, 4, .file 0⟩

theorem exampleLoaded_text : exampleObject.shdrs[0]? = some exampleText ∧
    exampleLoaded.shdrs[0]? = some (exampleText.placedAt 0x9a000 0x9a000) := ⟨rfl, rfl⟩

theorem elfRelLoad_relocated_exampleObject :
    exampleText.Relocated exampleObject exampleLoaded [⟨1, 0x13⟩, ⟨6, 0x9a014⟩]
      ((exampleText.placedAt 0x9a000 0x9a000).addr - exampleLoaded.relAddr) :=
  elfRelLoad_relocated proper_exampleLayout exampleLayout_other (kept_nil _) proper_exampleObject
    (by decide) relRequest_exampleObject elfRelLoad_exampleObject fixups_exampleLoaded
    (by simp [Fixup.Apart]) exampleLoaded_text.1 exampleLoaded_text.2 rfl

end Monoimage.Kexec
