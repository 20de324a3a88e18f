import Mathlib.Algebra.Order.BigOperators.Group.List
import Monoimage.Kexec.ElfRel

/-! Where `elf_rel_load` puts the sections of an object. -/
namespace Monoimage.Kexec

open Clib

def Shdr.bss (shdr : Shdr) : Bool := shdr.alloc && shdr.type = .nobits

/-- The sizes and alignments of the sections that are loaded. -/
def Ehdr.room (ehdr : Ehdr) : Nat :=
  (ehdr.shdrs.map fun shdr => if shdr.alloc then shdr.size + shdr.addralign else 0).sum

/-- What `build_elf_rel_info` has checked of the sections, and what it leaves to the object: no
section that is loaded asks for an alignment of 0, they take less than a gigabyte, and the
tables of the relocations are not among them. -/
structure Ehdr.Proper (ehdr : Ehdr) : Prop where
  data : ∀ shdr ∈ ehdr.shdrs, ∃ offset, shdr.data = .file offset ∧
    (shdr.copied → offset + shdr.size ≤ ehdr.file.length)
  align : ∀ shdr ∈ ehdr.shdrs, shdr.alloc → PowerOfTwo shdr.addralign
  room : ehdr.room < 2 ^ 30
  tables : ∀ shdr ∈ ehdr.shdrs, shdr.type = .rel ∨ shdr.type = .rela → ¬ shdr.copied ∧
    ∀ symtab, ehdr.shdrs[shdr.link]? = some symtab → ¬ symtab.copied ∧
      ∀ strtab, ehdr.shdrs[symtab.link]? = some strtab → ¬ strtab.copied

def Shdr.Apart (s t : Shdr) : Prop := s.addr + s.size ≤ t.addr ∨ t.addr + t.size ≤ s.addr

theorem ulongSub_of_le {a b : Nat} (h : b ≤ a) (ha : a < 2 ^ 32) : ulongSub a b = a - b := by
  unfold ulongSub ulong
  omega

theorem Footprint.add_align (footprint : Footprint) (shdr : Shdr) :
    (footprint.add shdr).align = max footprint.align shdr.addralign := by
  unfold add
  dsimp only
  split
  · omega
  · omega

theorem Shdr.alloc_cases (shdr : Shdr) :
    (shdr.alloc = false ∧ shdr.copied = false ∧ shdr.bss = false) ∨
      (shdr.alloc = true ∧ shdr.type ≠ .nobits ∧ shdr.copied = true ∧ shdr.bss = false) ∨
      (shdr.alloc = true ∧ shdr.type = .nobits ∧ shdr.copied = false ∧ shdr.bss = true) := by
  unfold copied bss
  cases shdr.alloc
  · simp
  · by_cases h : shdr.type = .nobits
    · simp [h]
    · simp [h]

/-- The two accumulators do not depend on each other. -/
theorem foldl_addFootprint (shdrs : List Shdr) (buf bss : Footprint) :
    shdrs.foldl addFootprint (buf, bss) = ((shdrs.filter (·.copied)).foldl Footprint.add buf,
      (shdrs.filter (·.bss)).foldl Footprint.add bss) := by
  induction shdrs generalizing buf bss with
  | nil => rfl
  | cons shdr rest ih =>
    rw [List.foldl_cons]
    rcases shdr.alloc_cases with ⟨ha, hc, hb⟩ | ⟨ha, ht, hc, hb⟩ | ⟨ha, ht, hc, hb⟩
    · simp [addFootprint, ha, hc, hb, ih]
    · simp [addFootprint, ha, ht, hc, hb, ih]
    · simp [addFootprint, ha, ht, hc, hb, ih]

/-- The end of the sections that are copied, and that of the others, from an address on. -/
def dataEnd (pos : Nat) (shdrs : List Shdr) : Nat :=
  packEnd Shdr.addralign Shdr.size pos (shdrs.filter (·.copied))

def bssEnd (pos : Nat) (shdrs : List Shdr) : Nat :=
  packEnd Shdr.addralign Shdr.size pos (shdrs.filter (·.bss))

section Footprint

variable {shdrs : List Shdr} (halign : ∀ shdr ∈ shdrs, PowerOfTwo shdr.addralign)

theorem Footprint.le_foldl_align (footprint : Footprint) :
    footprint.align ≤ (shdrs.foldl add footprint).align ∧
      ∀ shdr ∈ shdrs, shdr.addralign ≤ (shdrs.foldl add footprint).align := by
  induction shdrs generalizing footprint with
  | nil => simp
  | cons shdr rest ih =>
    obtain ⟨hstart, hrest⟩ := ih (footprint.add shdr)
    have hadd := footprint.add_align shdr
    rw [List.foldl_cons, List.forall_mem_cons]
    exact ⟨by omega, by omega, hrest⟩

theorem Footprint.foldl_align_le {bound : Nat} {footprint : Footprint}
    (h : footprint.align ≤ bound) (hbound : ∀ shdr ∈ shdrs, shdr.addralign ≤ bound) :
    (shdrs.foldl add footprint).align ≤ bound := by
  induction shdrs generalizing footprint with
  | nil => exact h
  | cons shdr rest ih =>
    rw [List.forall_mem_cons] at hbound
    have hadd := footprint.add_align shdr
    rw [List.foldl_cons]
    exact ih (by omega) hbound.2

include halign

theorem Footprint.powerOfTwo_foldl {footprint : Footprint} (h : PowerOfTwo footprint.align) :
    PowerOfTwo (shdrs.foldl add footprint).align := by
  induction shdrs generalizing footprint with
  | nil => exact h
  | cons shdr rest ih =>
    rw [List.forall_mem_cons] at halign
    rw [List.foldl_cons]
    apply ih halign.2
    unfold add
    dsimp only
    split
    · exact halign.1
    · exact h

/-- As long as nothing wraps, the size of a footprint is the end of the sections in a row. -/
theorem Footprint.foldl_size {bound : Nat} (hbound : ∀ shdr ∈ shdrs, shdr.addralign ≤ bound)
    (footprint : Footprint)
    (hfits : packEnd Shdr.addralign Shdr.size footprint.size shdrs + bound ≤ 2 ^ 32) :
    (shdrs.foldl add footprint).size =
      packEnd Shdr.addralign Shdr.size footprint.size shdrs := by
  induction shdrs generalizing footprint with
  | nil => rfl
  | cons shdr rest ih =>
    rw [List.forall_mem_cons] at halign hbound
    have hpos := halign.1.pos
    have hstart := le_roundUp hpos footprint.size
    have hend := @le_packEnd _ _ Shdr.size _ (fun s hs => (halign.2 s hs).pos)
      (roundUp footprint.size shdr.addralign + shdr.size)
    rw [packEnd] at hfits ⊢
    have hsize : (footprint.add shdr).size =
        roundUp footprint.size shdr.addralign + shdr.size := by
      unfold add
      dsimp only
      rw [alignUp_eq halign.1 (by omega), ulong_of_lt (by omega)]
    rw [List.foldl_cons, ih halign.2 hbound.2 (footprint.add shdr) (by rwa [hsize]), hsize]

end Footprint

/-- A section between the two addresses, on a multiple of its alignment. -/
structure LiesIn (first last : Nat) (p : Shdr × Nat) : Prop where
  aligned : p.1.addralign ∣ p.2
  above : first ≤ p.2
  below : p.2 + p.1.size ≤ last

theorem liesIn_pack {shdrs : List Shdr} (hpos : ∀ shdr ∈ shdrs, 0 < shdr.addralign) (pos : Nat) :
    ∀ p ∈ pack Shdr.addralign Shdr.size pos shdrs,
      LiesIn pos (packEnd Shdr.addralign Shdr.size pos shdrs) p := by
  intro p hp
  obtain ⟨habove, hbelow⟩ := (pack_ordered hpos pos).2 p hp
  exact ⟨pack_aligned p hp, habove, hbelow⟩

section Place

variable {shdrs : List Shdr} {bound : Nat}
  (halign : ∀ shdr ∈ shdrs, shdr.alloc → PowerOfTwo shdr.addralign ∧ shdr.addralign ≤ bound)

include halign

theorem addralign_pos (f : Shdr → Bool) (hf : ∀ shdr, f shdr → shdr.alloc) :
    ∀ shdr ∈ shdrs.filter f, 0 < shdr.addralign := by
  intro shdr hshdr
  obtain ⟨hmem, hpass⟩ := List.mem_filter.mp hshdr
  exact (halign shdr hmem (hf shdr hpass)).1.pos

omit halign in
theorem Shdr.alloc_of_copied (shdr : Shdr) (h : shdr.copied) : shdr.alloc := by
  unfold copied at h
  simp_all

omit halign in
theorem Shdr.alloc_of_bss (shdr : Shdr) (h : shdr.bss) : shdr.alloc := by
  unfold bss at h
  simp_all

/-- As long as nothing wraps, the sections of each kind are a row of their own. -/
theorem placeSections_filter {dataAddr bssAddr : Nat}
    (hdata : dataEnd dataAddr shdrs + bound ≤ 2 ^ 32)
    (hbss : bssEnd bssAddr shdrs + bound ≤ 2 ^ 32) :
    (placeSections dataAddr bssAddr shdrs).filter (·.1.copied) =
        pack Shdr.addralign Shdr.size dataAddr (shdrs.filter (·.copied)) ∧
      (placeSections dataAddr bssAddr shdrs).filter (·.1.bss) =
        pack Shdr.addralign Shdr.size bssAddr (shdrs.filter (·.bss)) := by
  unfold dataEnd at hdata
  unfold bssEnd at hbss
  induction shdrs generalizing dataAddr bssAddr with
  | nil => exact ⟨rfl, rfl⟩
  | cons shdr rest ih =>
    have hrest : ∀ s ∈ rest, s.alloc → PowerOfTwo s.addralign ∧ s.addralign ≤ bound :=
      fun s hs => halign s (List.mem_cons_of_mem _ hs)
    have hhead := halign shdr List.mem_cons_self
    rcases shdr.alloc_cases with ⟨ha, hc, hb⟩ | ⟨ha, ht, hc, hb⟩ | ⟨ha, ht, hc, hb⟩
    · simp only [hc, hb, List.filter_cons, Bool.false_eq_true, if_false] at hdata hbss
      simpa [placeSections, ha, hc, hb] using ih hrest hdata hbss
    · obtain ⟨hpow, hle⟩ := hhead ha
      simp only [hc, hb, List.filter_cons, Bool.false_eq_true, if_false, if_true, packEnd]
        at hdata hbss
      have hup := @le_packEnd _ _ Shdr.size _
        (addralign_pos hrest (·.copied) Shdr.alloc_of_copied) (roundUp dataAddr shdr.addralign + shdr.size)
      have hpos := hpow.pos
      have hstart := le_roundUp hpos dataAddr
      have haddr := alignUp_eq (x := dataAddr) hpow (by omega)
      have hnext : ulong (roundUp dataAddr shdr.addralign + shdr.size) =
          roundUp dataAddr shdr.addralign + shdr.size :=
        ulong_of_lt (by omega)
      simpa [placeSections, pack, ha, ht, hc, hb, haddr, hnext] using ih hrest hdata hbss
    · obtain ⟨hpow, hle⟩ := hhead ha
      simp only [hc, hb, List.filter_cons, Bool.false_eq_true, if_false, if_true, packEnd]
        at hdata hbss
      have hup := @le_packEnd _ _ Shdr.size _
        (addralign_pos hrest (·.bss) Shdr.alloc_of_bss) (roundUp bssAddr shdr.addralign + shdr.size)
      have hpos := hpow.pos
      have hstart := le_roundUp hpos bssAddr
      have haddr := alignUp_eq (x := bssAddr) hpow (by omega)
      have hnext : ulong (roundUp bssAddr shdr.addralign + shdr.size) =
          roundUp bssAddr shdr.addralign + shdr.size :=
        ulong_of_lt (by omega)
      simpa [placeSections, pack, ha, ht, hc, hb, haddr, hnext] using ih hrest hdata hbss

end Place

theorem roundUp_eq_add_bssPad {align : Nat} (halign : PowerOfTwo align) (bufsz : Nat) :
    bufsz + bssPad bufsz align = roundUp bufsz align := by
  have hpos := halign.pos
  have hmod : bufsz &&& (align - 1) = bufsz % align := by
    obtain ⟨k, -, rfl⟩ := halign
    exact Nat.and_two_pow_sub_one_eq_mod _ _
  have hsplit := Nat.div_add_mod bufsz align
  have hlt := Nat.mod_lt bufsz hpos
  unfold bssPad
  rw [hmod]
  split
  · rename_i h
    have hdvd : align ∣ bufsz + (align - bufsz % align) := by
      refine ⟨bufsz / align + 1, ?_⟩
      rw [Nat.mul_add]
      omega
    have hup := roundUp_le hpos hdvd (Nat.le_add_right _ _)
    have hlow := le_roundUp hpos bufsz
    obtain ⟨m, hm⟩ := dvd_roundUp bufsz align
    -- a multiple from `bufsz` on lies behind the quotient
    have hquot : bufsz / align < m := by
      by_contra hle
      have := Nat.mul_le_mul_left align (Nat.le_of_not_lt hle)
      omega
    have := Nat.mul_le_mul_left align hquot
    rw [Nat.mul_succ] at this
    omega
  · rename_i h
    rw [roundUp_of_dvd hpos (Nat.dvd_of_mod_eq_zero (by omega))]
    rfl

/-- Where the bss starts in the loaded object. -/
def bssStart (shdrs : List Shdr) : Nat := roundUp (dataEnd 0 shdrs) (footprints shdrs).2.align

section Request

variable {ehdr : Ehdr} (hproper : ehdr.Proper)

theorem room_eq (shdrs : List Shdr) :
    (shdrs.map fun shdr => if shdr.alloc then shdr.size + shdr.addralign else 0).sum =
      ((shdrs.filter (·.copied)).map fun shdr => shdr.size + shdr.addralign).sum +
        ((shdrs.filter (·.bss)).map fun shdr => shdr.size + shdr.addralign).sum := by
  induction shdrs with
  | nil => rfl
  | cons shdr rest ih =>
    rcases shdr.alloc_cases with ⟨ha, hc, hb⟩ | ⟨ha, -, hc, hb⟩ | ⟨ha, -, hc, hb⟩
    · simp [ha, hc, hb, ih]
    · simp [ha, hc, hb, ih, Nat.add_assoc]
    · simp [ha, hc, hb, ih, Nat.add_left_comm]

include hproper

theorem Ehdr.Proper.align_copied :
    ∀ shdr ∈ ehdr.shdrs.filter (·.copied), PowerOfTwo shdr.addralign := by
  intro shdr h
  obtain ⟨hmem, hcopied⟩ := List.mem_filter.mp h
  exact hproper.align shdr hmem (shdr.alloc_of_copied hcopied)

theorem Ehdr.Proper.align_bss :
    ∀ shdr ∈ ehdr.shdrs.filter (·.bss), PowerOfTwo shdr.addralign := by
  intro shdr h
  obtain ⟨hmem, hbss⟩ := List.mem_filter.mp h
  exact hproper.align shdr hmem (shdr.alloc_of_bss hbss)

theorem Ehdr.Proper.addralign_lt {shdr : Shdr} (hmem : shdr ∈ ehdr.shdrs) (halloc : shdr.alloc) :
    shdr.addralign < 2 ^ 30 := by
  have hle : shdr.size + shdr.addralign ≤ ehdr.room := by
    apply List.le_sum_of_mem
    exact List.mem_map.mpr ⟨shdr, hmem, if_pos halloc⟩
  have := hproper.room
  omega

theorem Ehdr.Proper.ends_lt : dataEnd 0 ehdr.shdrs + bssEnd 0 ehdr.shdrs < 2 ^ 30 := by
  have hroom := hproper.room
  unfold Ehdr.room at hroom
  rw [room_eq] at hroom
  have hdata := @packEnd_le _ _ Shdr.size _ (fun s hs => (hproper.align_copied s hs).pos) 0
  have hbss := @packEnd_le _ _ Shdr.size _ (fun s hs => (hproper.align_bss s hs).pos) 0
  unfold dataEnd bssEnd
  omega

/-- What is known of a footprint of the sections `shdrs` that ends at `stop`. -/
structure Footprint.Of (footprint : Footprint) (shdrs : List Shdr) (stop : Nat) : Prop where
  size : footprint.size = stop
  powerOfTwo : PowerOfTwo footprint.align
  align_le : footprint.align ≤ 2 ^ 30
  le_align : ∀ shdr ∈ shdrs, shdr.addralign ≤ footprint.align

omit hproper in
theorem Footprint.of_foldl {shdrs : List Shdr}
    (halign : ∀ shdr ∈ shdrs, PowerOfTwo shdr.addralign ∧ shdr.addralign < 2 ^ 30)
    (hfits : packEnd Shdr.addralign Shdr.size 0 shdrs < 2 ^ 30) :
    (shdrs.foldl Footprint.add {}).Of shdrs (packEnd Shdr.addralign Shdr.size 0 shdrs) := by
  have hpow : ∀ shdr ∈ shdrs, PowerOfTwo shdr.addralign := fun s hs => (halign s hs).1
  have hle : ∀ shdr ∈ shdrs, shdr.addralign ≤ 2 ^ 30 := fun s hs => (halign s hs).2.le
  constructor
  · apply foldl_size hpow hle
    dsimp only
    omega
  · exact powerOfTwo_foldl hpow ⟨0, by decide, rfl⟩
  · exact foldl_align_le (by decide) hle
  · exact (le_foldl_align {}).2

theorem Ehdr.Proper.footprints_of :
    (footprints ehdr.shdrs).1.Of (ehdr.shdrs.filter (·.copied)) (dataEnd 0 ehdr.shdrs) ∧
      (footprints ehdr.shdrs).2.Of (ehdr.shdrs.filter (·.bss)) (bssEnd 0 ehdr.shdrs) := by
  have hends := hproper.ends_lt
  unfold dataEnd bssEnd at *
  rw [footprints, foldl_addFootprint]
  constructor
  · apply Footprint.of_foldl _ (by omega)
    intro shdr h
    obtain ⟨hmem, hcopied⟩ := List.mem_filter.mp h
    exact ⟨hproper.align_copied shdr h, hproper.addralign_lt hmem (shdr.alloc_of_copied hcopied)⟩
  · apply Footprint.of_foldl _ (by omega)
    intro shdr h
    obtain ⟨hmem, hbss⟩ := List.mem_filter.mp h
    exact ⟨hproper.align_bss shdr h, hproper.addralign_lt hmem (shdr.alloc_of_bss hbss)⟩

theorem Ehdr.Proper.dvd_bssStart : ∀ shdr ∈ ehdr.shdrs.filter (·.bss),
    shdr.addralign ∣ bssStart ehdr.shdrs := by
  intro shdr h
  have hbss := hproper.footprints_of.2
  exact ((hproper.align_bss shdr h).dvd hbss.powerOfTwo (hbss.le_align shdr h)).trans
    (dvd_roundUp _ _)

/-- The sections of the bss from its start on. -/
theorem Ehdr.Proper.bssEnd_eq :
    bssEnd (bssStart ehdr.shdrs) ehdr.shdrs = bssStart ehdr.shdrs + bssEnd 0 ehdr.shdrs :=
  (pack_add (fun s hs => (hproper.align_bss s hs).pos) hproper.dvd_bssStart 0).2

theorem Ehdr.Proper.starts_le : dataEnd 0 ehdr.shdrs ≤ bssStart ehdr.shdrs ∧
    bssStart ehdr.shdrs ≤ bssEnd (bssStart ehdr.shdrs) ehdr.shdrs :=
  ⟨le_roundUp hproper.footprints_of.2.powerOfTwo.pos _,
    le_packEnd (fun s hs => (hproper.align_bss s hs).pos) _⟩

/-- A section that takes memory keeps the object from being empty. -/
theorem Ehdr.Proper.bssEnd_pos
    (hsize : ∃ shdr ∈ ehdr.shdrs, shdr.alloc ∧ 0 < shdr.size) :
    0 < bssEnd (bssStart ehdr.shdrs) ehdr.shdrs := by
  obtain ⟨shdr, hmem, halloc, hpos⟩ := hsize
  have hend {f : Shdr → Bool} (hf : f shdr)
      (hpow : ∀ s ∈ ehdr.shdrs.filter f, PowerOfTwo s.addralign) (pos : Nat) :
      0 < packEnd Shdr.addralign Shdr.size pos (ehdr.shdrs.filter f) := by
    have hin : shdr ∈ (pack Shdr.addralign Shdr.size pos (ehdr.shdrs.filter f)).map Prod.fst := by
      rw [map_fst_pack]
      exact List.mem_filter.mpr ⟨hmem, hf⟩
    obtain ⟨p, hp, rfl⟩ := List.mem_map.mp hin
    have := ((pack_ordered (fun s hs => (hpow s hs).pos) pos).2 p hp).2
    omega
  obtain ⟨hstart, hend'⟩ := hproper.starts_le
  rcases shdr.alloc_cases with ⟨ha, -, -⟩ | ⟨-, -, hc, -⟩ | ⟨-, -, -, hb⟩
  · rw [ha] at halloc
    cases halloc
  · have : 0 < dataEnd 0 ehdr.shdrs := hend hc hproper.align_copied 0
    omega
  · exact hend hb hproper.align_bss _

variable {β : Type} (name : β) (min max : Nat) (holeEnd : Int)

/-- The buffer asks for the end of the bss, and for the largest alignment. -/
theorem relRequest_spec :
    let query := (relRequest ehdr.shdrs name min max holeEnd).query
    query.size = bssEnd (bssStart ehdr.shdrs) ehdr.shdrs ∧ PowerOfTwo query.align ∧
      ∀ shdr ∈ ehdr.shdrs, shdr.alloc → shdr.addralign ≤ query.align := by
  obtain ⟨hdata, hbss⟩ := hproper.footprints_of
  have hends := hproper.ends_lt
  have hpad := roundUp_eq_add_bssPad hbss.powerOfTwo (dataEnd 0 ehdr.shdrs)
  have hhigh := roundUp_lt hbss.powerOfTwo.pos (dataEnd 0 ehdr.shdrs)
  have hle := hbss.align_le
  rw [hproper.bssEnd_eq]
  unfold bssStart relRequest
  dsimp only
  rw [hdata.size, hbss.size]
  refine ⟨?_, ?_, ?_⟩
  · rw [hpad]
    exact ulong_of_lt (by omega)
  · split
    · exact hbss.powerOfTwo
    · exact hdata.powerOfTwo
  · intro shdr hmem halloc
    rcases shdr.alloc_cases with ⟨ha, -, -⟩ | ⟨-, -, hc, -⟩ | ⟨-, -, -, hb⟩
    · rw [ha] at halloc
      cases halloc
    · have := hdata.le_align shdr (List.mem_filter.mpr ⟨hmem, hc⟩)
      split
      · omega
      · omega
    · have := hbss.le_align shdr (List.mem_filter.mpr ⟨hmem, hb⟩)
      split
      · omega
      · omega

end Request

/-- A base on which the sections have room. -/
structure Ehdr.FitsAt (ehdr : Ehdr) (base align : Nat) : Prop where
  powerOfTwo : PowerOfTwo align
  le_align : ∀ shdr ∈ ehdr.shdrs, shdr.alloc → shdr.addralign ≤ align
  dvd : align ∣ base
  stop : base + bssEnd (bssStart ehdr.shdrs) ehdr.shdrs + align ≤ 2 ^ 32

section Placed

variable {ehdr : Ehdr} (hproper : ehdr.Proper) {base align : Nat} (hfits : ehdr.FitsAt base align)

include hproper hfits

/-- The two rows, moved to the base of the buffer. -/
theorem Ehdr.Proper.ends_at :
    dataEnd base ehdr.shdrs = base + dataEnd 0 ehdr.shdrs ∧
      bssEnd (base + bssStart ehdr.shdrs) ehdr.shdrs =
        base + bssEnd (bssStart ehdr.shdrs) ehdr.shdrs := by
  have hdvd : ∀ shdr ∈ ehdr.shdrs, shdr.alloc → shdr.addralign ∣ base := fun shdr hmem halloc =>
    ((hproper.align shdr hmem halloc).dvd hfits.powerOfTwo
      (hfits.le_align shdr hmem halloc)).trans hfits.dvd
  constructor
  · refine (pack_add (fun s hs => (hproper.align_copied s hs).pos) ?_ 0).2
    intro shdr h
    obtain ⟨hmem, hcopied⟩ := List.mem_filter.mp h
    exact hdvd shdr hmem (shdr.alloc_of_copied hcopied)
  · refine (pack_add (fun s hs => (hproper.align_bss s hs).pos) ?_ _).2
    intro shdr h
    obtain ⟨hmem, hbss⟩ := List.mem_filter.mp h
    exact hdvd shdr hmem (shdr.alloc_of_bss hbss)

/-- The sections that are copied lie in the buffer and the others behind it, and no two of them
overlap. -/
theorem placeSections_spec :
    let placed := placeSections base (base + bssStart ehdr.shdrs) ehdr.shdrs
    (∀ p ∈ placed, (p.1.copied → LiesIn base (base + dataEnd 0 ehdr.shdrs) p) ∧
        (p.1.bss → LiesIn (base + bssStart ehdr.shdrs)
          (base + bssEnd (bssStart ehdr.shdrs) ehdr.shdrs) p)) ∧
      (placed.filter fun p => p.1.copied || p.1.bss).Pairwise fun p q =>
        p.2 + p.1.size ≤ q.2 ∨ q.2 + q.1.size ≤ p.2 := by
  intro placed
  obtain ⟨hdata, hbss⟩ := hproper.ends_at hfits
  obtain ⟨hstart, hend⟩ := hproper.starts_le
  have hstop := hfits.stop
  obtain ⟨hfilter, hfilter'⟩ := placeSections_filter
    (fun s hs ha => ⟨hproper.align s hs ha, hfits.le_align s hs ha⟩)
    (show dataEnd base ehdr.shdrs + align ≤ 2 ^ 32 by omega)
    (show bssEnd (base + bssStart ehdr.shdrs) ehdr.shdrs + align ≤ 2 ^ 32 by omega)
  have hpos := fun s hs => (hproper.align_copied s hs).pos
  have hpos' := fun s hs => (hproper.align_bss s hs).pos
  have hcopied : ∀ p ∈ placed, p.1.copied → LiesIn base (base + dataEnd 0 ehdr.shdrs) p := by
    intro p hp h
    have hmem : p ∈ placed.filter (·.1.copied) := List.mem_filter.mpr ⟨hp, h⟩
    rw [hfilter] at hmem
    rw [← hdata]
    exact liesIn_pack hpos base p hmem
  have hbehind : ∀ p ∈ placed, p.1.bss → LiesIn (base + bssStart ehdr.shdrs)
      (base + bssEnd (bssStart ehdr.shdrs) ehdr.shdrs) p := by
    intro p hp h
    have hmem : p ∈ placed.filter (·.1.bss) := List.mem_filter.mpr ⟨hp, h⟩
    rw [hfilter'] at hmem
    rw [← hbss]
    exact liesIn_pack hpos' _ p hmem
  refine ⟨fun p hp => ⟨hcopied p hp, hbehind p hp⟩, ?_⟩
  apply pairwise_of_kinds Or.symm
  · rw [hfilter]
    exact (pack_ordered hpos base).1.imp Or.inl
  · rw [hfilter']
    exact (pack_ordered hpos' _).1.imp Or.inl
  · intro p hp q hq hpc hqb
    have := (hcopied p hp hpc).below
    have := (hbehind q hq hqb).above
    exact .inl (by omega)

end Placed

/-- Every section that is loaded has a place of its own in the memory of the object. -/
structure Ehdr.InPlace (ehdr : Ehdr) : Prop where
  aligned : ∀ shdr ∈ ehdr.shdrs, shdr.alloc → shdr.addralign ∣ shdr.addr
  inside : ∀ shdr ∈ ehdr.shdrs, shdr.alloc →
    ehdr.relAddr ≤ shdr.addr ∧ shdr.addr + shdr.size ≤ ehdr.relAddr + ehdr.relSize
  apart : (ehdr.shdrs.filter (·.alloc)).Pairwise Shdr.Apart
  data : ∀ shdr ∈ ehdr.shdrs, shdr.copied → shdr.data = .buffer (shdr.addr - ehdr.relAddr) ∧
    shdr.addr + shdr.size ≤ ehdr.relAddr + ehdr.buffer.length
  buffer : ehdr.buffer.length ≤ ehdr.relSize

theorem map_fst_placeSections (dataAddr bssAddr : Nat) (shdrs : List Shdr) :
    (placeSections dataAddr bssAddr shdrs).map Prod.fst = shdrs := by
  induction shdrs generalizing dataAddr bssAddr with
  | nil => rfl
  | cons shdr rest ih =>
    unfold placeSections
    split
    · rw [List.map_cons, ih]
    · split
      · rw [List.map_cons, ih]
      · rw [List.map_cons, ih]

theorem length_malloc (fresh : Nat → UInt8) (size : Nat) : (malloc fresh size).length = size := by
  rw [malloc, List.length_map, List.length_range]

section Loaded

variable {ehdr placed : Ehdr} {fresh : Nat → UInt8} {base bssAddr bufsz relSize : Nat}

theorem placeIn_eq_ok (h : ehdr.placeIn fresh base bssAddr bufsz relSize = .ok placed) :
    applyPokes (((placeSections base bssAddr ehdr.shdrs).filter fun p => p.1.copied).map
        fun p => ehdr.copySection base p.1 p.2) (malloc fresh bufsz) = .ok placed.buffer ∧
      placed.shdrs = (placeSections base bssAddr ehdr.shdrs).map
        (fun p => p.1.placedAt base p.2) ∧
      placed.relAddr = base ∧ placed.relSize = relSize := by
  obtain ⟨buffer, hbuffer, hplaced⟩ := bind_eq_ok_iff.mp h
  cases hplaced
  exact ⟨hbuffer, rfl, rfl, rfl⟩

variable (hproper : ehdr.Proper) {align : Nat} (hfits : ehdr.FitsAt base align)
  (h : ehdr.placeIn fresh base (base + bssStart ehdr.shdrs) (dataEnd 0 ehdr.shdrs)
    (bssEnd (bssStart ehdr.shdrs) ehdr.shdrs) = .ok placed)

include hproper hfits h

theorem placeIn_inPlace : placed.InPlace := by
  obtain ⟨hbuffer, hshdrs, haddr, hsize⟩ := placeIn_eq_ok h
  obtain ⟨hlies, hapart⟩ := placeSections_spec hproper hfits
  have hlength : placed.buffer.length = dataEnd 0 ehdr.shdrs := by
    rw [length_applyPokes hbuffer, length_malloc]
  obtain ⟨hstart, hend⟩ := hproper.starts_le
  have hstop := hfits.stop
  have hpos := hfits.powerOfTwo.pos
  have hkind (shdr : Shdr) : (shdr.copied || shdr.bss) = shdr.alloc := by
    rcases shdr.alloc_cases with ⟨ha, hc, hb⟩ | ⟨ha, -, hc, hb⟩ | ⟨ha, -, hc, hb⟩
    · rw [ha, hc, hb]; rfl
    · rw [ha, hc, hb]; rfl
    · rw [ha, hc, hb]; rfl
  have hin : ∀ p ∈ placeSections base (base + bssStart ehdr.shdrs) ehdr.shdrs, p.1.alloc →
      LiesIn base (base + bssEnd (bssStart ehdr.shdrs) ehdr.shdrs) p := by
    intro p hp ha
    rw [← hkind, Bool.or_eq_true] at ha
    rcases ha with hc | hb
    · have hlie := (hlies p hp).1 hc
      exact ⟨hlie.aligned, hlie.above, hlie.below.trans (by omega)⟩
    · have hlie := (hlies p hp).2 hb
      exact ⟨hlie.aligned, (Nat.le_add_right _ _).trans hlie.above, hlie.below⟩
  have hmem : ∀ shdr ∈ placed.shdrs, ∃ p ∈ placeSections base (base + bssStart ehdr.shdrs)
      ehdr.shdrs, p.1.placedAt base p.2 = shdr := by
    rw [hshdrs]
    exact fun shdr hshdr => List.mem_map.mp hshdr
  constructor
  · intro shdr hshdr ha
    obtain ⟨p, hp, rfl⟩ := hmem shdr hshdr
    exact (hin p hp ha).aligned
  · intro shdr hshdr ha
    obtain ⟨p, hp, rfl⟩ := hmem shdr hshdr
    rw [haddr, hsize]
    exact ⟨(hin p hp ha).above, (hin p hp ha).below⟩
  · rw [hshdrs, List.filter_map, List.pairwise_map]
    simp only [hkind] at hapart
    exact hapart
  · intro shdr hshdr hc
    obtain ⟨p, hp, rfl⟩ := hmem shdr hshdr
    have hlie := (hlies p hp).1 hc
    have habove := hlie.above
    have hbelow := hlie.below
    have hcopied : p.1.copied = true := hc
    have hdata : (p.1.placedAt base p.2).data = .buffer (ulongSub p.2 base) := if_pos hcopied
    rw [hdata, haddr, hlength, ulongSub_of_le habove (by omega)]
    exact ⟨rfl, hbelow⟩
  · rw [hlength, hsize]
    omega

/-- The bytes of every section that is copied are those of the file. -/
theorem placeIn_contents : ∀ p ∈ placeSections base (base + bssStart ehdr.shdrs) ehdr.shdrs,
    p.1.copied → slice placed.buffer (p.2 - base) p.1.size =
      (ehdr.bytesAt p.1.data).take p.1.size := by
  obtain ⟨hbuffer, -, -, -⟩ := placeIn_eq_ok h
  obtain ⟨hlies, hapart⟩ := placeSections_spec hproper hfits
  obtain ⟨hstart, hend⟩ := hproper.starts_le
  have hstop := hfits.stop
  have hpos := hfits.powerOfTwo.pos
  have hpoke : ∀ p ∈ placeSections base (base + bssStart ehdr.shdrs) ehdr.shdrs, p.1.copied →
      ehdr.copySection base p.1 p.2 =
          ⟨p.2 - base, (ehdr.bytesAt p.1.data).take p.1.size⟩ ∧
        ((ehdr.bytesAt p.1.data).take p.1.size).length = p.1.size ∧ base ≤ p.2 := by
    intro p hp hc
    have hlie := (hlies p hp).1 hc
    have hbelow := hlie.below
    have hmem : p.1 ∈ ehdr.shdrs := by
      rw [← map_fst_placeSections base (base + bssStart ehdr.shdrs) ehdr.shdrs]
      exact List.mem_map_of_mem hp
    obtain ⟨offset, hdata, hinside⟩ := hproper.data p.1 hmem
    refine ⟨?_, ?_, hlie.above⟩
    · rw [Ehdr.copySection, ulongSub_of_le hlie.above (by omega)]
    · have := hinside hc
      rw [hdata, Ehdr.bytesAt, List.length_take, List.length_drop]
      omega
  intro p hp hc
  obtain ⟨heq, hlength, -⟩ := hpoke p hp hc
  have hmem : ehdr.copySection base p.1 p.2 ∈ ((placeSections base (base + bssStart ehdr.shdrs)
      ehdr.shdrs).filter fun p => p.1.copied).map fun p => ehdr.copySection base p.1 p.2 :=
    List.mem_map_of_mem (List.mem_filter.mpr ⟨hp, hc⟩)
  have hread := slice_applyPokes_of_mem hbuffer ?_ hmem
  · rw [heq, hlength] at hread
    exact hread
  · rw [List.pairwise_map, List.pairwise_filter]
    rw [List.pairwise_filter] at hapart
    refine hapart.imp_of_mem ?_
    intro q r hq hr hqr hqc hrc
    obtain ⟨hqe, hql, hqb⟩ := hpoke q hq hqc
    obtain ⟨hre, hrl, hrb⟩ := hpoke r hr hrc
    have := hqr (by rw [hqc, Bool.true_or]) (by rw [hrc, Bool.true_or])
    rw [Poke.Apart, Poke.stop, Poke.stop, hqe, hre, hql, hrl]
    dsimp only
    omega

end Loaded

end Monoimage.Kexec
