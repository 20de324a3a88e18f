import Monoimage.Clib.Pack
import Monoimage.Clib.Pokes
import Monoimage.Kexec.Placement

/-! `elf_rel_load`, which puts the sections of a relocatable object into one buffer, and the
symbols of the object after that. -/
namespace Monoimage.Kexec

open Clib

/-- The values of `sh_type` that are told apart. -/
inductive SectionType where
  | nobits
  | rel
  | rela
  | symtab
  | other
  deriving DecidableEq, Repr

/-- What `sh_data` points into: the object file, or the buffer of the loaded sections. -/
inductive SectionData where
  | file (offset : Nat)
  | buffer (offset : Nat)
  deriving DecidableEq, Repr

/-- A `struct mem_shdr`, with the flags `SHF_ALLOC` and `SHF_EXECINSTR`. -/
structure Shdr where
  type : SectionType
  alloc : Bool
  execinstr : Bool
  addr : Nat
  size : Nat
  link : Nat
  info : Nat
  addralign : Nat
  data : SectionData
  deriving DecidableEq, Repr

/-- A `struct mem_ehdr` of a 32 bit object, and the bytes that its sections point into. -/
structure Ehdr where
  file : Bytes
  entry : Nat
  shdrs : List Shdr
  buffer : Bytes := []
  relAddr : Nat := 0
  relSize : Nat := 0
  deriving DecidableEq, Repr

def Ehdr.shnum (ehdr : Ehdr) : Nat := ehdr.shdrs.length

/-- The bytes from a pointer on. -/
def Ehdr.bytesAt (ehdr : Ehdr) : SectionData → Bytes
  | .file offset => ehdr.file.drop offset
  | .buffer offset => ehdr.buffer.drop offset

def SectionData.add (data : SectionData) (n : Nat) : SectionData :=
  match data with
  | .file offset => .file (offset + n)
  | .buffer offset => .buffer (offset + n)

/-- `a - b` of two `unsigned long`. -/
def ulongSub (a b : Nat) : Nat := ulong (a + (2 ^ 32 - b))

def Ehdr.shdr (ehdr : Ehdr) (i : Nat) : Except Death Shdr :=
  match ehdr.shdrs[i]? with
  | none => .error (.fault .outOfBounds)
  | some shdr => .ok shdr

/-! ## The footprint -/

/-- `buf_align` and `bufsz`, or `bss_align` and `bsssz`. -/
structure Footprint where
  align : Nat := 1
  size : Nat := 0
  deriving DecidableEq, Repr

def Footprint.add (footprint : Footprint) (shdr : Shdr) : Footprint where
  align := if footprint.align < shdr.addralign then shdr.addralign else footprint.align
  size := ulong (alignUp footprint.size shdr.addralign + shdr.size)

/-- The buffer, and the bss behind it. -/
def addFootprint (footprints : Footprint × Footprint) (shdr : Shdr) : Footprint × Footprint :=
  if ¬ shdr.alloc then footprints
  else if shdr.type ≠ .nobits then (footprints.1.add shdr, footprints.2)
  else (footprints.1, footprints.2.add shdr)

def footprints (shdrs : List Shdr) : Footprint × Footprint := shdrs.foldl addFootprint ({}, {})

def bssPad (bufsz bssAlign : Nat) : Nat :=
  if bufsz &&& (bssAlign - 1) ≠ 0 then bssAlign - (bufsz &&& (bssAlign - 1)) else 0

/-! ## Addresses -/

/-- Each section with its `sh_addr`, from `data_addr` and `bss_addr`. -/
def placeSections : Nat → Nat → List Shdr → List (Shdr × Nat)
  | _, _, [] => []
  | dataAddr, bssAddr, shdr :: rest =>
    if ¬ shdr.alloc then (shdr, shdr.addr) :: placeSections dataAddr bssAddr rest
    else if shdr.type ≠ .nobits then
      let addr := alignUp dataAddr shdr.addralign
      (shdr, addr) :: placeSections (ulong (addr + shdr.size)) bssAddr rest
    else
      let addr := alignUp bssAddr shdr.addralign
      (shdr, addr) :: placeSections dataAddr (ulong (addr + shdr.size)) rest

def Shdr.copied (shdr : Shdr) : Bool := shdr.alloc && shdr.type ≠ .nobits

def Shdr.placedAt (bufAddr : Nat) (shdr : Shdr) (addr : Nat) : Shdr :=
  { shdr with
    addr := addr
    data := if shdr.copied then .buffer (ulongSub addr bufAddr) else shdr.data }

/-- The `memcpy` of a section. -/
def Ehdr.copySection (ehdr : Ehdr) (bufAddr : Nat) (shdr : Shdr) (addr : Nat) : Poke :=
  ⟨ulongSub addr bufAddr, (ehdr.bytesAt shdr.data).take shdr.size⟩

/-- The section that the entry point is in. -/
def entryShdr (ehdr : Ehdr) : Option (Shdr × Nat) :=
  ehdr.shdrs.zipIdx.find? fun (shdr, _) => shdr.alloc && shdr.execinstr &&
    shdr.addr ≤ ehdr.entry && ehdr.entry < ulong (shdr.addr + shdr.size)

/-! ## Relocations -/

inductive SymField where
  | name
  | value
  | size
  | info
  | other
  | shndx
  deriving DecidableEq, Repr

/-- `Elf32_Sym`. -/
def elf32Sym : Struct SymField :=
  [⟨.name, .uint32, 1⟩, ⟨.value, .uint32, 1⟩, ⟨.size, .uint32, 1⟩, ⟨.info, .uint8, 1⟩,
   ⟨.other, .uint8, 1⟩, ⟨.shndx, .uint16, 1⟩]

inductive RelField where
  | offset
  | info
  | addend
  deriving DecidableEq, Repr

def elf32Rel : Struct RelField := [⟨.offset, .uint32, 1⟩, ⟨.info, .uint32, 1⟩]

def elf32Rela : Struct RelField :=
  [⟨.offset, .uint32, 1⟩, ⟨.info, .uint32, 1⟩, ⟨.addend, .uint32, 1⟩]

structure MemSym where
  name : Nat
  value : Nat
  size : Nat
  info : Nat
  shndx : Nat
  deriving DecidableEq, Repr

structure MemRela where
  offset : Nat
  sym : Nat
  type : Nat
  addend : Nat
  deriving DecidableEq, Repr

/-- An object of `memcpy` that ends outside of the file or the buffer. -/
def orFault {α : Type} : Option α → Except Death α
  | none => .error (.fault .outOfBounds)
  | some a => .ok a

def elfSym (bytes : Bytes) : Except Death MemSym := do
  let lsym ← orFault (elf32Sym.fread bytes)
  let name ← orFault (elf32Sym.read .name lsym)
  let value ← orFault (elf32Sym.read .value lsym)
  let size ← orFault (elf32Sym.read .size lsym)
  let info ← orFault (elf32Sym.read .info lsym)
  let shndx ← orFault (elf32Sym.read .shndx lsym)
  pure ⟨name, value, size, info, shndx⟩

/-- `elf_rel`, and with an addend `elf_rela`. -/
def elfRel (addend : Bool) (bytes : Bytes) : Except Death MemRela := do
  let entry := if addend then elf32Rela else elf32Rel
  let lrel ← orFault (entry.fread bytes)
  let offset ← orFault (entry.read .offset lrel)
  let info ← orFault (entry.read .info lrel)
  pure ⟨offset, info / 256, info % 256, if addend then (entry.read .addend lrel).getD 0 else 0⟩

/-- `*location += delta`. The object file is read only. -/
def Ehdr.addTo (ehdr : Ehdr) (location : SectionData) (delta : Nat) : Except Death Ehdr :=
  match location with
  | .file _ => .error (.fault .outOfBounds)
  | .buffer offset =>
    if offset + 4 ≤ ehdr.buffer.length then
      let word := getLE (slice ehdr.buffer offset 4)
      .ok { ehdr with buffer := overwrite ehdr.buffer offset (putLE 4 (ulong (word + delta))) }
    else .error (.fault .outOfBounds)

def r386_32 : Nat := 1

def r386_pc32 : Nat := 2

def machineApplyElfRel (ehdr : Ehdr) (type : Nat) (location : SectionData)
    (address value : Nat) : Except Death Ehdr :=
  if type = r386_32 then ehdr.addTo location value
  else if type = r386_pc32 then ehdr.addTo location (ulongSub value address)
  else .error (.rel (.unknownRelocation type))

def shnUndef : Nat := 0

def shnAbs : Nat := 0xfff1

def shnCommon : Nat := 0xfff2

/-- The text up to a NUL. -/
def cText (bytes : Bytes) : Bytes := bytes.takeWhile (· ≠ 0)

/-- `sec_base`: what the value of a symbol counts from. -/
def secBase (ehdr : Ehdr) (strtab : SectionData) (sym : MemSym) : Except Death Nat :=
  let name := cText (ehdr.bytesAt (strtab.add sym.name))
  if sym.shndx = shnUndef then .error (.rel (.undefinedSymbol name))
  else if sym.shndx = shnCommon then .error (.rel (.commonSymbol name))
  else if sym.shndx = shnAbs then .ok 0
  else if ehdr.shnum < sym.shndx then .error (.rel (.invalidSection sym.shndx name))
  else (ehdr.shdr sym.shndx).map (·.addr)

/-- One entry of a relocation section. -/
def relocate (ehdr : Ehdr) (target symtab : Shdr) (strtab : SectionData) (rel : MemRela) :
    Except Death Ehdr := do
  let sym ← elfSym (ehdr.bytesAt (symtab.data.add (rel.sym * elf32Sym.sizeof)))
  let base ← secBase ehdr strtab sym
  machineApplyElfRel ehdr rel.type (target.data.add rel.offset)
    (ulong (target.addr + rel.offset)) (ulong (sym.value + base + rel.addend))

/-- The section that a section of relocations is for, the symbols and their names. None for a
section of another kind, and none where the relocations are for a section that is not loaded. -/
def relTables (ehdr : Ehdr) (shdr : Shdr) : Except Death (Option (Shdr × Shdr × Shdr)) := do
  if shdr.type ≠ .rela ∧ shdr.type ≠ .rel then pure none
  else if ehdr.shnum < shdr.info ∨ ehdr.shnum < shdr.link then .error (.rel .sectionNumber)
  else
    let target ← ehdr.shdr shdr.info
    let symtab ← ehdr.shdr shdr.link
    if ¬ target.alloc then pure none
    else if ehdr.shnum < symtab.link then pure none
    else
      let strtab ← ehdr.shdr symtab.link
      pure (some (target, symtab, strtab))

/-- `rel_size`. -/
def Shdr.relSize (shdr : Shdr) : Nat :=
  if shdr.type = .rela then elf32Rela.sizeof else elf32Rel.sizeof

/-- The rounds of the loop from `sh_data` to `rel_end`. -/
def Shdr.relCount (shdr : Shdr) : Nat := (shdr.size + shdr.relSize - 1) / shdr.relSize

/-- The entries from a pointer on, `count` of them. -/
def relocateEntries (shdr target symtab : Shdr) (strtab : SectionData) :
    Nat → SectionData → Ehdr → Except Death Ehdr
  | 0, _, ehdr => .ok ehdr
  | count + 1, ptr, ehdr => do
    let rel ← elfRel (shdr.type = .rela) (ehdr.bytesAt ptr)
    let ehdr ← relocate ehdr target symtab strtab rel
    relocateEntries shdr target symtab strtab count (ptr.add shdr.relSize) ehdr

def relocateSection (ehdr : Ehdr) (shdr : Shdr) : Except Death Ehdr := do
  match ← relTables ehdr shdr with
  | none => pure ehdr
  | some (target, symtab, strtab) =>
    relocateEntries shdr target symtab strtab.data shdr.relCount shdr.data ehdr

def relocateSections : List Shdr → Ehdr → Except Death Ehdr
  | [], ehdr => .ok ehdr
  | shdr :: rest, ehdr => do
    let ehdr ← relocateSection ehdr shdr
    relocateSections rest ehdr

/-! ## `elf_rel_load` -/

/-- Memory of `malloc`, with whatever is in it. -/
def malloc (fresh : Nat → UInt8) (size : Nat) : Bytes := (List.range size).map fresh

/-- The object with its sections in place, before the relocations. -/
def Ehdr.placeIn (ehdr : Ehdr) (fresh : Nat → UInt8) (bufAddr bssAddr bufsz relSize : Nat) :
    Except Fault Ehdr := do
  let placed := placeSections bufAddr bssAddr ehdr.shdrs
  let copied := placed.filter fun (shdr, _) => shdr.copied
  let buffer ← applyPokes (copied.map fun (shdr, addr) => ehdr.copySection bufAddr shdr addr)
    (malloc fresh bufsz)
  let shdrs := placed.map fun (shdr, addr) => shdr.placedAt bufAddr addr
  let entry := match entryShdr ehdr with
    | none => ehdr.entry
    | some (shdr, i) => ulong (ehdr.entry - shdr.addr + (shdrs[i]?.map (·.addr)).getD 0)
  pure { ehdr with entry, shdrs, buffer, relAddr := bufAddr, relSize }

variable {β : Type}

/-- The arguments of `add_buffer`. -/
def relRequest (shdrs : List Shdr) (name : β) (min max : Nat) (holeEnd : Int) : Request β :=
  let (buf, bss) := footprints shdrs
  let align := if buf.align < bss.align then bss.align else buf.align
  ⟨name, buf.size,
    ⟨ulong (buf.size + bssPad buf.size bss.align + bss.size), align, min, max, holeEnd⟩⟩

/-- The loaded object, whose entry is that of the new kernel, and the segments. `name` stands
for the buffer. -/
def elfRelLoad (fresh : Nat → UInt8) (layout : Layout) (segments : List (Segment β)) (name : β)
    (ehdr : Ehdr) (min max : Nat) (holeEnd : Int) :
    Except Death (Ehdr × List (Segment β)) := do
  if ehdr.shdrs = [] then .error (.rel .loadFailed)
  else
    let (buf, bss) := footprints ehdr.shdrs
    let request := relRequest ehdr.shdrs name min max holeEnd
    let (bufAddr, segments) ← addBuffer layout segments request
    let bssAddr := ulong (bufAddr + buf.size + bssPad buf.size bss.align)
    let placed ← (ehdr.placeIn fresh bufAddr bssAddr buf.size request.query.size).mapError .fault
    let loaded ← relocateSections placed.shdrs placed
    pure (loaded, segments)

end Monoimage.Kexec
