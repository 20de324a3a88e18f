import Monoimage.Linuxrc.Success

/-! The offset of the root file system on its way from the header, a `uint32_t`, through an
`off_t` and the `int` parameter of `set_loop`, to the `__u64` of the loop device. -/
namespace Monoimage.Linuxrc

open Clib CommandLine Device Image

section Calls

variable {env : LinuxrcEnv} {device : Text} {lo : Nat} {done : Bool}

theorem loopSetStatus_mem_setLoop {target file : Text} {offset : Int}
    (h : .loopSetStatus device lo done ∈ (setLoop env target file offset).trace) :
    lo = loOffset offset := by
  rw [trace_setLoop] at h
  split at h
  · rcases List.mem_cons.mp h with hcall | h
    · cases hcall
    · split at h
      · rcases List.mem_cons.mp h with hcall | h
        · obtain ⟨-, hlo, -⟩ := Call.loopSetStatus.inj hcall
          exact hlo
        · -- only the call that detaches the file comes after it
          split at h
          · cases h
          · cases List.mem_singleton.mp h
      · cases h
  · cases h

/-- The one call with an offset is that of `set_loop`. -/
theorem loopSetStatus_mem_main {vars : Vars} {file : Text} {offset : Nat}
    (hreaches : Reaches env vars file offset)
    (hcall : .loopSetStatus device lo done ∈ (main env).trace) :
    lo = loOffset (wrap32 (wrap32 offset)) := by
  rw [main_of_ok (findRootfs_ok_iff.mpr ⟨vars, hreaches⟩)] at hcall
  rcases List.mem_append.mp hcall with hfind | hloop
  · obtain hearly | ⟨path, o, -, hheader⟩ := mem_findRootfs hfind
    · cases hearly
    · cases hheader
  · exact loopSetStatus_mem_setLoop hloop

end Calls

/-- Whatever runs get to a header with this offset, the loop device is given this offset. -/
def PassesOn (offset : Nat) : Prop :=
  ∀ env vars file device lo done, Reaches env vars file offset →
    .loopSetStatus device lo done ∈ (main env).trace → lo = offset

/-! ## A run for every offset -/

/-- A file of one header, as `linuxrc` lays it out. -/
def headerWith (offset : Nat) : Bytes := miMagic ++ (putLE 4 20 ++ (putLE 4 20 ++ putLE 4 offset))

theorem readRootfsOffset_headerWith {offset : Nat} (h : offset < 2 ^ 32) :
    readRootfsOffset (headerWith offset) = some offset := by
  have hinside : 12 + Member.size (⟨.rootfsOffset, .uint32, 1⟩ : Member HeaderField) ≤
      linuxrcHeader.sizeof := by
    decide
  have hsplit : headerWith offset = (miMagic ++ (putLE 4 20 ++ putLE 4 20)) ++
      (putLE (Member.size (⟨.rootfsOffset, .uint32, 1⟩ : Member HeaderField)) offset ++ []) := by
    simp [headerWith, Member.size, CType.size]
  rw [hsplit]
  apply Struct.readFrom_append linuxrcHeader_rootfsOffset hinside
  · decide
  · exact h
  · rw [← hsplit]
    simp [headerWith, miMagic, show linuxrcHeader.sizeof = 16 by decide]

/-- A machine whose loop device works. -/
def loopEnv (offset : Nat) : LinuxrcEnv :=
  { noLoopEnv with openLoop := true, image := some (headerWith offset) }

theorem reaches_loopEnv {offset : Nat} (h : offset < 2 ^ 32) :
    ∃ vars file, Reaches (loopEnv offset) vars file offset := by
  have hfind : (findRootfs noLoopEnv).result = .ok ("/images/funky.img".toList, 22) := by
    decide +kernel
  obtain ⟨vars, hreaches⟩ := findRootfs_ok_iff.mp hfind
  exact ⟨vars, vars.imagefile, hreaches.mounted, hreaches.reads, hreaches.walked, .requested rfl,
    readRootfsOffset_headerWith h⟩

theorem loopSetStatus_mem_loopEnv {offset : Nat} (h : offset < 2 ^ 32) :
    .loopSetStatus loopDev (loOffset (wrap32 (wrap32 offset))) true ∈
      (main (loopEnv offset)).trace := by
  obtain ⟨vars, file, hreaches⟩ := reaches_loopEnv h
  rw [main_of_ok (findRootfs_ok_iff.mpr ⟨vars, hreaches⟩)]
  apply List.mem_append_right
  exact loopSetStatus_mem_setLoop_iff.mpr ⟨⟨rfl, rfl, rfl, rfl⟩, rfl⟩

/-- The offsets that pass through the signed types unchanged are the ones below 2 GiB. -/
theorem passesOn_iff {offset : Nat} (h : offset < 2 ^ 32) : PassesOn offset ↔ offset < 2 ^ 31 := by
  rw [← loOffset_eq_iff h]
  constructor
  · intro hpasses
    obtain ⟨vars, file, hreaches⟩ := reaches_loopEnv h
    exact hpasses _ _ _ _ _ _ hreaches (loopSetStatus_mem_loopEnv h)
  · intro hlo env vars file device lo done hreaches hcall
    rw [loopSetStatus_mem_main hreaches hcall, hlo]

theorem passesOn_header : PassesOn 20 :=
  (passesOn_iff (by decide)).mpr (by decide)

/-- A root file system at 2 GiB is looked for at the far end of the 64 bits. -/
theorem not_passesOn_two_gib :
    .loopSetStatus loopDev 18446744071562067968 true ∈ (main (loopEnv 2147483648)).trace ∧
      ¬ PassesOn 2147483648 := by
  have hsmall : 2147483648 < 2 ^ 32 := by decide
  have hcall := loopSetStatus_mem_loopEnv hsmall
  have hlo : loOffset (wrap32 (wrap32 (2147483648 : Nat))) = 18446744071562067968 := by
    decide
  rw [hlo] at hcall
  refine ⟨hcall, fun hpasses => ?_⟩
  obtain ⟨vars, file, hreaches⟩ := reaches_loopEnv hsmall
  exact absurd (hpasses _ _ _ _ _ _ hreaches hcall) (by decide)

end Monoimage.Linuxrc
