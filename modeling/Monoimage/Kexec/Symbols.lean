import Monoimage.Kexec.Relocations

/-! The symbols of a loaded object: where they are, and how they are set. -/
namespace Monoimage.Kexec

open Clib

/-- `strcmp(memory, name) == 0`, for a name without its NUL. -/
def strcmpEq : Bytes → Bytes → Except Death Bool
  | [], _ => .error (.fault .outOfBounds)
  | b :: _, [] => .ok (b = 0)
  | b :: memory, c :: name => if b = c then strcmpEq memory name else .ok false

def stbGlobal : Nat := 1

/-- The first global symbol of the name in a table, `count` entries from a pointer on. -/
def findInTable (ehdr : Ehdr) (strtab : SectionData) (name : Bytes) :
    Nat → SectionData → Except Death (Option MemSym)
  | 0, _ => .ok none
  | count + 1, ptr => do
    let sym ← elfSym (ehdr.bytesAt ptr)
    let rest := findInTable ehdr strtab name count (ptr.add elf32Sym.sizeof)
    if sym.info / 16 ≠ stbGlobal then rest
    else
      let same ← strcmpEq (ehdr.bytesAt (strtab.add sym.name)) name
      if ¬ same then rest
      else if sym.shndx = shnUndef ∨ ehdr.shnum < sym.shndx then
        .error (.rel (.badSectionIndex name sym.shndx))
      else pure (some sym)

/-- The walk over the symbol tables. -/
def findInSections (ehdr : Ehdr) (name : Bytes) : List Shdr → Except Death (Option MemSym)
  | [] => .ok none
  | shdr :: rest => do
    if shdr.type ≠ .symtab ∨ ehdr.shnum < shdr.link then findInSections ehdr name rest
    else
      let strtab ← ehdr.shdr shdr.link
      let count := (shdr.size + elf32Sym.sizeof - 1) / elf32Sym.sizeof
      match ← findInTable ehdr strtab.data name count shdr.data with
      | some sym => pure (some sym)
      | none => findInSections ehdr name rest

def elfRelFindSymbol (ehdr : Ehdr) (name : Bytes) : Except Death (Option MemSym) :=
  findInSections ehdr name ehdr.shdrs

/-- The symbol and its section. -/
def findSymbol (ehdr : Ehdr) (name : Bytes) : Except Death (MemSym × Shdr) := do
  match ← elfRelFindSymbol ehdr name with
  | none => .error (.rel (.notFound name))
  | some sym =>
    let shdr ← ehdr.shdr sym.shndx
    pure (sym, shdr)

def elfRelGetAddr (ehdr : Ehdr) (name : Bytes) : Except Death Nat := do
  let (sym, shdr) ← findSymbol ehdr name
  pure (ulong (shdr.addr + sym.value))

/-- Where the bytes of a symbol of the size are. -/
def symbolData (ehdr : Ehdr) (name : Bytes) (size : Nat) : Except Death SectionData := do
  match ← elfRelFindSymbol ehdr name with
  | none => .error (.rel (.notFound name))
  | some sym =>
    if sym.size ≠ size then .error (.rel (.wrongSize name sym.size size))
    else
      let shdr ← ehdr.shdr sym.shndx
      if shdr.type = .nobits then .error (.rel (.inBss name))
      else pure (shdr.data.add sym.value)

/-- The object file is read only. -/
def elfRelSetSymbol (ehdr : Ehdr) (name : Bytes) (bytes : Bytes) : Except Death Ehdr := do
  match ← symbolData ehdr name bytes.length with
  | .file _ => .error (.fault .outOfBounds)
  | .buffer offset =>
    let buffer ← (applyPokes [⟨offset, bytes⟩] ehdr.buffer).mapError .fault
    pure { ehdr with buffer }

def elfRelGetSymbol (ehdr : Ehdr) (name : Bytes) (size : Nat) : Except Death Bytes := do
  let data ← symbolData ehdr name size
  if size ≤ (ehdr.bytesAt data).length then pure ((ehdr.bytesAt data).take size)
  else .error (.fault .outOfBounds)

/-- Calls of `elf_rel_set_symbol` in a row. -/
def setSymbols : List (Bytes × Bytes) → Ehdr → Except Death Ehdr
  | [], ehdr => .ok ehdr
  | (name, bytes) :: rest, ehdr => do
    let ehdr ← elfRelSetSymbol ehdr name bytes
    setSymbols rest ehdr

/-! ## Finding a symbol -/

/-- The symbols and their names are in the object file, and not among what is loaded. -/
def Ehdr.SymbolTables (ehdr : Ehdr) : Prop :=
  ∀ shdr ∈ ehdr.shdrs, shdr.type = .symtab → (shdr.data.InFile ∧ ¬ shdr.copied) ∧
    ∀ strtab, ehdr.shdrs[shdr.link]? = some strtab → strtab.data.InFile ∧ ¬ strtab.copied

/-- Two states of a section between which it is given its place. -/
structure Shdr.Moved (shdr shdr' : Shdr) : Prop where
  type : shdr'.type = shdr.type
  alloc : shdr'.alloc = shdr.alloc
  size : shdr'.size = shdr.size
  link : shdr'.link = shdr.link
  data : ¬ shdr.copied → shdr'.data = shdr.data

theorem Shdr.Moved.copied {shdr shdr' : Shdr} (h : shdr.Moved shdr') :
    shdr'.copied = shdr.copied := by
  rw [Shdr.copied, Shdr.copied, h.type, h.alloc]

theorem Shdr.moved_refl (shdr : Shdr) : shdr.Moved shdr := ⟨rfl, rfl, rfl, rfl, fun _ => rfl⟩

/-- Two states of an object between which its sections are given their places. -/
structure Ehdr.Moved (ehdr ehdr' : Ehdr) : Prop where
  file : ehdr'.file = ehdr.file
  shdrs : List.Forall₂ Shdr.Moved ehdr.shdrs ehdr'.shdrs

theorem Ehdr.moved_withBuffer (ehdr : Ehdr) (buffer : Bytes) :
    ehdr.Moved (ehdr.withBuffer buffer) :=
  ⟨rfl, List.forall₂_same.mpr fun shdr _ => shdr.moved_refl⟩

section Moved

variable {ehdr ehdr' : Ehdr} (hmoved : ehdr.Moved ehdr')

include hmoved

theorem Ehdr.Moved.getElem? {i : Nat} {shdr' : Shdr} (h : ehdr'.shdrs[i]? = some shdr') :
    ∃ shdr, ehdr.shdrs[i]? = some shdr ∧ shdr.Moved shdr' := by
  obtain ⟨hlength, hget⟩ := List.forall₂_iff_get.mp hmoved.shdrs
  obtain ⟨hi, rfl⟩ := List.getElem?_eq_some_iff.mp h
  exact ⟨_, List.getElem?_eq_getElem (hlength ▸ hi), hget i (hlength ▸ hi) hi⟩

theorem Ehdr.Moved.shnum : ehdr'.shnum = ehdr.shnum := hmoved.shdrs.length_eq.symm

theorem Ehdr.Moved.bytesAt {data : SectionData} (h : data.InFile) :
    ehdr'.bytesAt data = ehdr.bytesAt data := by
  obtain ⟨offset, rfl⟩ := h
  rw [Ehdr.bytesAt, Ehdr.bytesAt, hmoved.file]

theorem Ehdr.Moved.findInTable_eq {strtab ptr : SectionData} (hstrtab : strtab.InFile)
    (hptr : ptr.InFile) (name : Bytes) (count : Nat) :
    findInTable ehdr' strtab name count ptr = findInTable ehdr strtab name count ptr := by
  induction count generalizing ptr with
  | zero => rfl
  | succ count ih =>
    unfold findInTable
    rw [hmoved.bytesAt hptr]
    simp only [hmoved.bytesAt (hstrtab.add _), ih (hptr.add _), hmoved.shnum]

variable (htables : ehdr.SymbolTables)

include htables

theorem Ehdr.Moved.symbolTables : ehdr'.SymbolTables := by
  intro shdr' hshdr' htype
  obtain ⟨i, hi⟩ := List.getElem?_of_mem hshdr'
  obtain ⟨shdr, hshdr, h⟩ := hmoved.getElem? hi
  rw [h.type] at htype
  obtain ⟨⟨hdata, hcopied⟩, hstrtab⟩ := htables shdr (List.mem_of_getElem? hshdr) htype
  refine ⟨⟨?_, ?_⟩, ?_⟩
  · rwa [h.data hcopied]
  · rwa [h.copied]
  · intro strtab' hstrtab'
    obtain ⟨strtab, hstrtab'', h'⟩ := hmoved.getElem? hstrtab'
    rw [h.link] at hstrtab''
    obtain ⟨hdata', hcopied'⟩ := hstrtab strtab hstrtab''
    rw [h'.data hcopied', h'.copied]
    exact ⟨hdata', hcopied'⟩

/-- The symbols of an object are found before and after its sections got their places. -/
theorem Ehdr.Moved.find_eq (name : Bytes) :
    elfRelFindSymbol ehdr' name = elfRelFindSymbol ehdr name := by
  have hrow {shdrs shdrs' : List Shdr} (hrows : List.Forall₂ Shdr.Moved shdrs shdrs')
      (hsub : ∀ shdr ∈ shdrs, shdr ∈ ehdr.shdrs) :
      findInSections ehdr' name shdrs' = findInSections ehdr name shdrs := by
    induction hrows with
    | nil => rfl
    | @cons shdr shdr' rest rest' h _ ih =>
      rw [List.forall_mem_cons] at hsub
      unfold findInSections
      rw [ih hsub.2, hmoved.shnum, h.type, h.link, h.size]
      split
      · rfl
      · rename_i htype
        have hsymtab : shdr.type = .symtab := by
          by_contra hnot
          exact htype (.inl hnot)
        obtain ⟨⟨hdata, hcopied⟩, hstrtab⟩ := htables shdr hsub.1 hsymtab
        rw [h.data hcopied]
        cases hlink : ehdr'.shdrs[shdr.link]? with
        | none =>
          have hnone : ehdr.shdrs[shdr.link]? = none := by
            rw [List.getElem?_eq_none_iff] at hlink ⊢
            rwa [hmoved.shdrs.length_eq]
          rw [Ehdr.shdr, Ehdr.shdr, hlink, hnone]
          rfl
        | some strtab' =>
          obtain ⟨strtab, hfound, h'⟩ := hmoved.getElem? hlink
          obtain ⟨hdata', hcopied'⟩ := hstrtab strtab hfound
          rw [shdr_eq_ok_iff.mpr hlink, shdr_eq_ok_iff.mpr hfound]
          simp only [bind, Except.bind, h'.data hcopied', hmoved.findInTable_eq hdata' hdata]
  exact hrow hmoved.shdrs fun _ h => h

end Moved

/-! ## Setting symbols -/

section Buffer

variable {ehdr : Ehdr} (htables : ehdr.SymbolTables) (name buffer : Bytes)

include htables

theorem symbolData_withBuffer (size : Nat) :
    symbolData (ehdr.withBuffer buffer) name size = symbolData ehdr name size := by
  unfold symbolData
  rw [(ehdr.moved_withBuffer buffer).find_eq htables]
  rfl

theorem getAddr_withBuffer :
    elfRelGetAddr (ehdr.withBuffer buffer) name = elfRelGetAddr ehdr name := by
  unfold elfRelGetAddr findSymbol
  rw [(ehdr.moved_withBuffer buffer).find_eq htables]
  rfl

end Buffer

section Set

variable {ehdr ehdr' : Ehdr} {name bytes : Bytes}

theorem setSymbol_eq_ok_iff :
    elfRelSetSymbol ehdr name bytes = .ok ehdr' ↔
      ∃ offset, symbolData ehdr name bytes.length = .ok (.buffer offset) ∧
        offset + bytes.length ≤ ehdr.buffer.length ∧
        ehdr' = ehdr.withBuffer (overwrite ehdr.buffer offset bytes) := by
  simp only [elfRelSetSymbol, bind_eq_ok_iff]
  constructor
  · rintro ⟨data, hdata, hset⟩
    cases data with
    | file offset => cases hset
    | buffer offset =>
      simp only [bind_eq_ok_iff, mapError_eq_ok_iff, applyPokes_singleton_iff] at hset
      obtain ⟨buffer, ⟨hfits, rfl⟩, hset⟩ := hset
      cases hset
      exact ⟨offset, hdata, hfits, rfl⟩
  · rintro ⟨offset, hdata, hfits, rfl⟩
    refine ⟨.buffer offset, hdata, ?_⟩
    simp only [bind_eq_ok_iff, mapError_eq_ok_iff, applyPokes_singleton_iff]
    exact ⟨_, ⟨hfits, rfl⟩, rfl⟩

theorem getSymbol_eq_ok_iff {size : Nat} {value : Bytes} :
    elfRelGetSymbol ehdr name size = .ok value ↔
      ∃ data, symbolData ehdr name size = .ok data ∧ size ≤ (ehdr.bytesAt data).length ∧
        value = (ehdr.bytesAt data).take size := by
  simp only [elfRelGetSymbol, bind_eq_ok_iff]
  constructor
  · rintro ⟨data, hdata, hget⟩
    split at hget
    · rename_i hsize
      cases hget
      exact ⟨data, hdata, hsize, rfl⟩
    · cases hget
  · rintro ⟨data, hdata, hsize, rfl⟩
    refine ⟨data, hdata, ?_⟩
    rw [if_pos hsize]
    rfl

end Set

/-! ## Symbols that are set in a row -/

/-- Where the bytes of a symbol go. -/
def Assigned (ehdr : Ehdr) (assignment : Bytes × Bytes) (poke : Poke) : Prop :=
  symbolData ehdr assignment.1 assignment.2.length = .ok (.buffer poke.offset) ∧
    poke.bytes = assignment.2

theorem setSymbols_append_iff {ehdr ehdr' : Ehdr} {before after : List (Bytes × Bytes)} :
    setSymbols (before ++ after) ehdr = .ok ehdr' ↔
      ∃ middle, setSymbols before ehdr = .ok middle ∧ setSymbols after middle = .ok ehdr' := by
  induction before generalizing ehdr with
  | nil => simp [setSymbols]
  | cons assignment rest ih =>
    simp only [List.cons_append, setSymbols, bind_eq_ok_iff, ih]
    constructor
    · rintro ⟨first, hfirst, middle, hmiddle, h⟩
      exact ⟨middle, ⟨first, hfirst, hmiddle⟩, h⟩
    · rintro ⟨middle, ⟨first, hfirst, hmiddle⟩, h⟩
      exact ⟨first, hfirst, middle, hmiddle, h⟩

theorem setSymbols_singleton (name bytes : Bytes) (ehdr : Ehdr) :
    setSymbols [(name, bytes)] ehdr = elfRelSetSymbol ehdr name bytes := by
  unfold setSymbols
  cases elfRelSetSymbol ehdr name bytes with
  | error d => rfl
  | ok ehdr' => rfl

/-- Symbols that are set are writes into the buffer of the object. -/
theorem setSymbols_eq_ok_iff {ehdr ehdr' : Ehdr} (htables : ehdr.SymbolTables)
    {assignments : List (Bytes × Bytes)} :
    setSymbols assignments ehdr = .ok ehdr' ↔
      ∃ pokes buffer, List.Forall₂ (Assigned ehdr) assignments pokes ∧
        applyPokes pokes ehdr.buffer = .ok buffer ∧ ehdr' = ehdr.withBuffer buffer := by
  induction assignments generalizing ehdr with
  | nil =>
    constructor
    · rintro ⟨⟩
      exact ⟨[], _, .nil, rfl, rfl⟩
    · rintro ⟨_, _, ⟨⟩, ⟨⟩, rfl⟩
      rfl
  | cons assignment rest ih =>
    have hassigned {buffer : Bytes} : Assigned (ehdr.withBuffer buffer) = Assigned ehdr := by
      funext assignment poke
      rw [Assigned, Assigned, symbolData_withBuffer htables]
    have hrest (buffer : Bytes) := @ih (ehdr.withBuffer buffer)
      ((ehdr.moved_withBuffer buffer).symbolTables htables)
    simp only [setSymbols, bind_eq_ok_iff, setSymbol_eq_ok_iff]
    constructor
    · rintro ⟨_, ⟨offset, hdata, hfits, rfl⟩, hset⟩
      obtain ⟨pokes, buffer, hpokes, hbuffer, rfl⟩ := (hrest _).mp hset
      rw [hassigned] at hpokes
      refine ⟨⟨offset, assignment.2⟩ :: pokes, buffer, .cons ⟨hdata, rfl⟩ hpokes, ?_, rfl⟩
      exact (if_pos hfits).trans hbuffer
    · rintro ⟨_, buffer, ⟨⟩, hbuffer, rfl⟩
      rename_i poke pokes hpoke hpokes
      obtain ⟨hstop, hbuffer⟩ := applyPokes_cons_eq_ok hbuffer
      rw [Poke.stop, hpoke.2] at hstop
      rw [hpoke.2] at hbuffer
      refine ⟨_, ⟨poke.offset, hpoke.1, hstop, rfl⟩, (hrest _).mpr ?_⟩
      rw [hassigned]
      exact ⟨pokes, buffer, hpokes, hbuffer, rfl⟩

/-! ## Where symbols are -/

def MemSym.Apart (s t : MemSym) : Prop :=
  s.shndx = t.shndx → s.value + s.size ≤ t.value ∨ t.value + t.size ≤ s.value

instance (s t : MemSym) : Decidable (s.Apart t) := inferInstanceAs (Decidable (_ → _))

def Ehdr.foundSymbols (ehdr : Ehdr) (names : List Bytes) : List MemSym :=
  names.filterMap fun name => (elfRelFindSymbol ehdr name).toOption.join

/-- Symbols of their own bytes in their sections. -/
structure Ehdr.SymbolsApart (ehdr : Ehdr) (names : List Bytes) : Prop where
  inside : ∀ sym ∈ ehdr.foundSymbols names, ∀ shdr ∈ ehdr.shdrs[sym.shndx]?,
    sym.value + sym.size ≤ shdr.size
  apart : (ehdr.foundSymbols names).Pairwise MemSym.Apart

theorem Ehdr.Moved.symbolsApart {ehdr ehdr' : Ehdr} (hmoved : ehdr.Moved ehdr')
    (htables : ehdr.SymbolTables) {names : List Bytes} (h : ehdr.SymbolsApart names) :
    ehdr'.SymbolsApart names := by
  have hfound : ehdr'.foundSymbols names = ehdr.foundSymbols names := by
    unfold Ehdr.foundSymbols
    simp only [hmoved.find_eq htables]
  constructor
  · rw [hfound]
    intro sym hsym shdr' hshdr'
    obtain ⟨shdr, hshdr, hsame⟩ := hmoved.getElem? hshdr'
    rw [hsame.size]
    exact h.inside sym hsym shdr hshdr
  · rw [hfound]
    exact h.apart

/-- Only what is loaded is in the buffer. -/
def Ehdr.OnlyCopied (ehdr : Ehdr) : Prop :=
  ∀ shdr ∈ ehdr.shdrs, ¬ shdr.copied → shdr.data.InFile

/-- The place of a symbol whose bytes are in the buffer. -/
structure SymbolAt (ehdr : Ehdr) (name : Bytes) (sym : MemSym) (shdr : Shdr) (offset : Nat) :
    Prop where
  found : elfRelFindSymbol ehdr name = .ok (some sym)
  home : ehdr.shdrs[sym.shndx]? = some shdr
  copied : shdr.copied
  offset : offset = shdr.addr - ehdr.relAddr + sym.value

section Where

variable {ehdr : Ehdr} (hinPlace : ehdr.InPlace) (honly : ehdr.OnlyCopied) {name : Bytes}
  {size offset : Nat}

include hinPlace honly

theorem symbolAt_of_data (h : symbolData ehdr name size = .ok (.buffer offset)) :
    ∃ sym shdr, SymbolAt ehdr name sym shdr offset ∧ sym.size = size := by
  obtain ⟨found, hfound, h⟩ := bind_eq_ok_iff.mp h
  cases found with
  | none => cases h
  | some sym =>
    dsimp only at h
    split at h
    · cases h
    · rename_i hsize
      obtain ⟨shdr, hshdr, h⟩ := bind_eq_ok_iff.mp h
      rw [shdr_eq_ok_iff] at hshdr
      have hmem := List.mem_of_getElem? hshdr
      split at h
      · cases h
      · have hdata : shdr.data.add sym.value = .buffer offset := Except.ok.inj h
        have hcopied : shdr.copied := by
          by_contra hnot
          obtain ⟨place, hplace⟩ := honly shdr hmem hnot
          rw [hplace] at hdata
          cases hdata
        rw [(hinPlace.data shdr hmem hcopied).1] at hdata
        cases hdata
        exact ⟨sym, shdr, ⟨hfound, hshdr, hcopied, rfl⟩, not_not.mp hsize⟩

omit honly

theorem InPlace.apart_of_ne {i j : Nat} (hne : i ≠ j) {s t : Shdr} (hs : ehdr.shdrs[i]? = some s)
    (ht : ehdr.shdrs[j]? = some t) (hsa : s.alloc) (hta : t.alloc) : s.Apart t := by
  have hpairwise := hinPlace.apart
  rw [List.pairwise_filter, List.pairwise_iff_getElem] at hpairwise
  obtain ⟨hi, rfl⟩ := List.getElem?_eq_some_iff.mp hs
  obtain ⟨hj, rfl⟩ := List.getElem?_eq_some_iff.mp ht
  rcases Nat.lt_or_gt_of_ne hne with h | h
  · exact hpairwise i j hi hj h hsa hta
  · exact (hpairwise j i hj hi h hta hsa).symm

variable {sym : MemSym} {shdr : Shdr} (hat : SymbolAt ehdr name sym shdr offset)

include hat

theorem SymbolAt.address : elfRelGetAddr ehdr name = .ok (ulong (ehdr.relAddr + offset)) := by
  have habove := (hinPlace.inside shdr (List.mem_of_getElem? hat.home)
    (shdr.alloc_of_copied hat.copied)).1
  have haddr : shdr.addr + sym.value = ehdr.relAddr + offset := by
    rw [hat.offset]
    omega
  unfold elfRelGetAddr findSymbol
  rw [hat.found, ← haddr]
  simp only [bind, Except.bind, shdr_eq_ok_iff.mpr hat.home]
  rfl

omit hinPlace in
theorem SymbolAt.mem_found {names : List Bytes} (hname : name ∈ names) :
    sym ∈ ehdr.foundSymbols names := by
  refine List.mem_filterMap.mpr ⟨name, hname, ?_⟩
  rw [hat.found]
  rfl

variable {names : List Bytes} (hsymbols : ehdr.SymbolsApart names) (hname : name ∈ names)

include hsymbols hname

theorem SymbolAt.inside : offset + sym.size ≤ ehdr.buffer.length := by
  have hin := hsymbols.inside sym (hat.mem_found hname) shdr hat.home
  have hdata := (hinPlace.data shdr (List.mem_of_getElem? hat.home) hat.copied).2
  have habove := (hinPlace.inside shdr (List.mem_of_getElem? hat.home)
    (shdr.alloc_of_copied hat.copied)).1
  rw [hat.offset]
  omega

/-- Symbols of two names keep clear of each other, in one section or in two. -/
theorem SymbolAt.apart {other : Bytes} {sym' : MemSym} {shdr' : Shdr} {offset' : Nat}
    (hat' : SymbolAt ehdr other sym' shdr' offset') (hother : other ∈ names)
    (hne : name ≠ other) : offset + sym.size ≤ offset' ∨ offset' + sym'.size ≤ offset := by
  have hin := hsymbols.inside sym (hat.mem_found hname) shdr hat.home
  have hin' := hsymbols.inside sym' (hat'.mem_found hother) shdr' hat'.home
  have habove := (hinPlace.inside shdr (List.mem_of_getElem? hat.home)
    (shdr.alloc_of_copied hat.copied)).1
  have habove' := (hinPlace.inside shdr' (List.mem_of_getElem? hat'.home)
    (shdr'.alloc_of_copied hat'.copied)).1
  rw [hat.offset, hat'.offset]
  by_cases hsame : sym.shndx = sym'.shndx
  · have hshdr : shdr = shdr' := by
      have hhome := hat.home
      rw [hsame, hat'.home, Option.some.injEq] at hhome
      exact hhome.symm
    have hfound {name : Bytes} {sym : MemSym} {shdr : Shdr} {offset : Nat}
        (hat : SymbolAt ehdr name sym shdr offset) :
        (elfRelFindSymbol ehdr name).toOption.join = some sym := by
      rw [hat.found]
      rfl
    have hpairwise := hsymbols.apart
    unfold Ehdr.foundSymbols at hpairwise
    rw [List.pairwise_filterMap] at hpairwise
    have hsymm : Std.Symm fun n n' => ∀ s, (elfRelFindSymbol ehdr n).toOption.join = some s →
        ∀ t, (elfRelFindSymbol ehdr n').toOption.join = some t → s.Apart t := by
      refine ⟨fun n n' h s hs t ht heq => ?_⟩
      exact (h t ht s hs heq.symm).symm
    have hapart := hpairwise.forall hname hother hne sym (hfound hat) sym' (hfound hat') hsame
    rw [hshdr]
    omega
  · have hsections := InPlace.apart_of_ne hinPlace hsame hat.home hat'.home
      (shdr.alloc_of_copied hat.copied) (shdr'.alloc_of_copied hat'.copied)
    unfold Shdr.Apart at hsections
    omega

end Where

/-- Bytes that a buffer has where a symbol is. -/
def HoldsSymbol (ehdr : Ehdr) (name bytes : Bytes) : Prop :=
  ∃ offset, elfRelGetAddr ehdr name = .ok (ulong (ehdr.relAddr + offset)) ∧
    offset + bytes.length ≤ ehdr.buffer.length ∧ slice ehdr.buffer offset bytes.length = bytes

/-- Symbols that are set in a row are all there in the end. -/
theorem setSymbols_holds {ehdr ehdr' : Ehdr} (hinPlace : ehdr.InPlace) (honly : ehdr.OnlyCopied)
    (htables : ehdr.SymbolTables) {names : List Bytes} (hsymbols : ehdr.SymbolsApart names)
    {assignments : List (Bytes × Bytes)} (hnames : ∀ assignment ∈ assignments,
      assignment.1 ∈ names) (hnodup : (assignments.map Prod.fst).Nodup)
    (hset : setSymbols assignments ehdr = .ok ehdr') :
    (∃ buffer, ehdr' = ehdr.withBuffer buffer ∧ buffer.length = ehdr.buffer.length) ∧
      ∀ assignment ∈ assignments, HoldsSymbol ehdr' assignment.1 assignment.2 := by
  obtain ⟨pokes, buffer, hpokes, hbuffer, rfl⟩ := (setSymbols_eq_ok_iff htables).mp hset
  have hlength := length_applyPokes hbuffer
  refine ⟨⟨buffer, rfl, hlength⟩, ?_⟩
  have hapart : pokes.Pairwise Poke.Apart := by
    rw [List.Nodup, List.pairwise_map] at hnodup
    refine pairwise_of_forall₂ hpokes (hnodup.imp_of_mem fun ha hb hne =>
      And.intro (hnames _ ha) (And.intro (hnames _ hb) hne)) ?_
    rintro a p b q ⟨hp, hpb⟩ ⟨hq, hqb⟩ ⟨ha, hb, hne⟩
    obtain ⟨sym, shdr, hat, hsize⟩ := symbolAt_of_data hinPlace honly hp
    obtain ⟨sym', shdr', hat', hsize'⟩ := symbolAt_of_data hinPlace honly hq
    have := hat.apart hinPlace hsymbols ha hat' hb hne
    rw [Poke.Apart, Poke.stop, Poke.stop, hpb, hqb]
    omega
  intro assignment hassignment
  obtain ⟨poke, hpoke, hdata, hbytes⟩ := exists_of_forall₂ hpokes hassignment
  obtain ⟨sym, shdr, hat, hsize⟩ := symbolAt_of_data hinPlace honly hdata
  refine ⟨poke.offset, ?_, ?_, ?_⟩
  · rw [getAddr_withBuffer htables]
    exact hat.address hinPlace
  · have := hat.inside hinPlace hsymbols (hnames _ hassignment)
    rw [Ehdr.withBuffer_buffer, hlength]
    omega
  · have hread := slice_applyPokes_of_mem hbuffer hapart hpoke
    rw [hbytes] at hread
    exact hread

section Load

variable {ehdr placed : Ehdr} {fresh : Nat → UInt8} {base bssAddr bufsz relSize : Nat}

theorem moved_placeIn (h : ehdr.placeIn fresh base bssAddr bufsz relSize = .ok placed) :
    ehdr.Moved placed := by
  obtain ⟨-, hshdrs, -, -⟩ := placeIn_eq_ok h
  constructor
  · obtain ⟨buffer, -, hplaced⟩ := bind_eq_ok_iff.mp h
    cases hplaced
    rfl
  · have hfst := map_fst_placeSections base bssAddr ehdr.shdrs
    rw [hshdrs]
    nth_rewrite 1 [← hfst]
    rw [List.forall₂_map_left_iff, List.forall₂_map_right_iff, List.forall₂_same]
    intro p _
    exact ⟨rfl, rfl, rfl, rfl, fun hnot => if_neg hnot⟩

theorem Ehdr.Moved.onlyCopied (hproper : ehdr.Proper) (hmoved : ehdr.Moved placed) :
    placed.OnlyCopied := by
  intro shdr' hshdr' hnot
  obtain ⟨i, hi⟩ := List.getElem?_of_mem hshdr'
  obtain ⟨shdr, hshdr, hsame⟩ := hmoved.getElem? hi
  rw [hsame.copied] at hnot
  obtain ⟨offset, hdata, -⟩ := hproper.data shdr (List.mem_of_getElem? hshdr)
  exact ⟨offset, (hsame.data hnot).trans hdata⟩

variable {β : Type} {layout : Layout} (hlayout : layout.Proper)
  (hother : ∃ range ∈ layout.ranges, range.type ≠ .ram) {segments segments' : List (Segment β)}
  (hkept : Kept layout segments) {loaded : Ehdr} (hproper : ehdr.Proper)
  (hsize : ∃ shdr ∈ ehdr.shdrs, shdr.alloc ∧ 0 < shdr.size) {name : β} {min max : Nat}
  {holeEnd : Int} (hrequest : (relRequest ehdr.shdrs name min max holeEnd).Proper layout)
  (hload : elfRelLoad fresh layout segments name ehdr min max holeEnd = .ok (loaded, segments'))

include hlayout hother hkept hproper hsize hrequest hload

theorem elfRelLoad_moved : ehdr.Moved loaded := by
  obtain ⟨base, align, placed, fixups, -, -, -, -, hplaced, -, -, hloaded⟩ :=
    elfRelLoad_placed hlayout hother hkept hproper hsize hrequest hload
  have hmoved := moved_placeIn hplaced
  rw [hloaded]
  exact ⟨hmoved.file, hmoved.shdrs⟩

end Load

/-! ## An object with symbols -/

/-- The bytes of a name in a program. -/
def asciiBytes (name : String) : Bytes := name.toList.map fun c => UInt8.ofNat c.toNat

/-- The entries of a table of global symbols, with their names from an offset on. -/
def symtabBytes : Nat → List (String × Nat × Nat × Nat) → Bytes
  | _, [] => []
  | start, (name, value, size, shndx) :: rest =>
    putLE 4 start ++ putLE 4 value ++ putLE 4 size ++ [0x10, 0] ++ putLE 2 shndx ++
      symtabBytes (start + name.length + 1) rest

def strtabBytes (symbols : List (String × Nat × Nat × Nat)) : Bytes :=
  symbols.flatMap fun symbol => asciiBytes symbol.1 ++ [0]

/-- The symbols of a purgatory without its hooks for debugging. -/
def purgatoryTable : List (String × Nat × Nat × Nat) :=
  [("", 0, 0, 0), ("entry32_regs", 0, 36, 1), ("entry16_regs", 36, 48, 1),
   ("entry16_debug_regs", 84, 48, 1), ("sha256_regions", 132, 64, 1),
   ("sha256_digest", 196, 32, 1), ("serial_base", 228, 2, 1), ("reset_vga", 230, 1, 1),
   ("console_vga", 231, 1, 1), ("serial_baud", 232, 4, 1), ("console_serial", 236, 1, 1),
   ("stack_end", 0x4e10, 0, 2)]

/-- Its data, its stack and its symbols. -/
def examplePurgatory : Ehdr where
  file := List.replicate 240 0 ++ symtabBytes 0 purgatoryTable ++ strtabBytes purgatoryTable
  entry := 0
  shdrs :=
    [⟨.other, false, false, 0, 0, 0, 0, 0, .file 0⟩,
     ⟨.other, true, false, 0, 240, 0, 0, 4, .file 0⟩,
     ⟨.nobits, true, false, 0, 0x4e10, 0, 0, 16, .file 240⟩,
     ⟨.symtab, false, false, 0, 192, 4, 1, 4, .file 240⟩,
     ⟨.other, false, false, 0, 146, 0, 0, 1, .file 432⟩]

theorem tables_examplePurgatory : examplePurgatory.SymbolTables := by
  unfold Ehdr.SymbolTables examplePurgatory
  simp [Shdr.copied, SectionData.InFile]

/-- The object in the example layout. -/
def loadedPurgatory : Ehdr :=
  { examplePurgatory with
    shdrs :=
      [⟨.other, false, false, 0, 0, 0, 0, 0, .file 0⟩,
       ⟨.other, true, false, 0x9a000, 240, 0, 0, 4, .buffer 0⟩,
       ⟨.nobits, true, false, 0x9a0f0, 0x4e10, 0, 0, 16, .file 240⟩,
       ⟨.symtab, false, false, 0, 192, 4, 1, 4, .file 240⟩,
       ⟨.other, false, false, 0, 146, 0, 0, 1, .file 432⟩]
    buffer := List.replicate 240 0
    relAddr := 0x9a000
    relSize := 0x4f00 }

theorem tables_loadedPurgatory : loadedPurgatory.SymbolTables := by
  unfold Ehdr.SymbolTables loadedPurgatory
  simp [Shdr.copied, SectionData.InFile]

theorem setSymbol_loadedPurgatory :
    elfRelSetSymbol loadedPurgatory (asciiBytes "serial_baud") (putLE 4 9600) =
      .ok (loadedPurgatory.withBuffer (overwrite loadedPurgatory.buffer 232 (putLE 4 9600))) := by
  decide +kernel

section Spec

variable {ehdr ehdr' : Ehdr} {name bytes : Bytes}

variable (htables : ehdr.SymbolTables) (hset : elfRelSetSymbol ehdr name bytes = .ok ehdr')

include htables hset

/-- A symbol that was set is read back, every symbol keeps its address, and one that lies clear
of the bytes keeps its value. -/
theorem setSymbol_spec :
    elfRelGetSymbol ehdr' name bytes.length = .ok bytes ∧
      (∀ other, elfRelGetAddr ehdr' other = elfRelGetAddr ehdr other) ∧
      ∀ other size place place', symbolData ehdr name bytes.length = .ok (.buffer place) →
        symbolData ehdr other size = .ok (.buffer place') →
        place' + size ≤ place ∨ place + bytes.length ≤ place' →
        elfRelGetSymbol ehdr' other size = elfRelGetSymbol ehdr other size := by
  obtain ⟨offset, hdata, hfits, rfl⟩ := setSymbol_eq_ok_iff.mp hset
  have hlength := length_overwrite hfits
  refine ⟨?_, fun other => getAddr_withBuffer htables other _, ?_⟩
  · have hsame : slice (overwrite ehdr.buffer offset bytes) offset bytes.length = bytes :=
      slice_overwrite_same (by omega)
    rw [getSymbol_eq_ok_iff]
    refine ⟨.buffer offset, ?_, ?_, hsame.symm⟩
    · rw [symbolData_withBuffer htables]
      exact hdata
    · rw [Ehdr.bytesAt, Ehdr.withBuffer_buffer, List.length_drop, hlength]
      omega
  · intro other size place place' hplace hplace' hclear
    obtain rfl : offset = place := by
      rw [hdata] at hplace
      cases hplace
      rfl
    have hsame := slice_overwrite_of_apart hfits hclear
    unfold slice at hsame
    unfold elfRelGetSymbol
    rw [symbolData_withBuffer htables, hplace']
    simp only [bind, Except.bind, Ehdr.bytesAt, Ehdr.withBuffer_buffer, List.length_drop, hlength,
      hsame]

end Spec

theorem setSymbol_spec_loadedPurgatory :
    let ehdr := loadedPurgatory.withBuffer (overwrite loadedPurgatory.buffer 232 (putLE 4 9600))
    elfRelGetSymbol ehdr (asciiBytes "serial_baud") (putLE 4 9600).length = .ok (putLE 4 9600) ∧
      (∀ other, elfRelGetAddr ehdr other = elfRelGetAddr loadedPurgatory other) ∧
      ∀ other size place place',
        symbolData loadedPurgatory (asciiBytes "serial_baud") (putLE 4 9600).length =
          .ok (.buffer place) →
        symbolData loadedPurgatory other size = .ok (.buffer place') →
        place' + size ≤ place ∨ place + (putLE 4 9600).length ≤ place' →
        elfRelGetSymbol ehdr other size = elfRelGetSymbol loadedPurgatory other size :=
  setSymbol_spec tables_loadedPurgatory setSymbol_loadedPurgatory

end Monoimage.Kexec
