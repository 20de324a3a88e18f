import Monoimage.Device.Uuid

/-! The walk of `linuxrc` over `/dev` for the device that kexec named by the UUID of its
file system. -/
namespace Monoimage.Device

open Clib

/-- An entry of `/dev`: `block` is whether its `stat` succeeds as a block device, and
`superblock` the UUID that `ext2fs_open` finds there, or its error. -/
structure DevEntry where
  name : Text
  block : Bool
  superblock : Option Uuid
  deriving DecidableEq, Repr

/-- `ext2_uuid` of `linuxrc.c`. -/
def ext2Uuid (superblock : Option Uuid) : Text :=
  match superblock with
  | none => noneUuid
  | some uu => uuid2str uu

/-- `ext2_uuid` of kexec-tools, which goes on with an unset `fs` after an error. -/
def kexecExt2Uuid (superblock : Option Uuid) : Except Fault Text :=
  match superblock with
  | none => .error .uninitialised
  | some uu => .ok (uuid2str uu)

def bufMax : Nat := 256

def devPath (name : Text) : Text := "/dev/".toList ++ name

/-- The entry that is mounted on `/images`: the first block device with the text that was
asked for. -/
def walkDev (imageuuid : Text) : List DevEntry → Except Fault (Option DevEntry)
  | [] => .ok none
  | dev :: rest => do
    let _ ← store bufMax (devPath dev.name)
    if dev.block then
      let uuid ← store bufMax (ext2Uuid dev.superblock)
      if imageuuid = uuid then .ok (some dev) else walkDev imageuuid rest
    else walkDev imageuuid rest

def DevEntry.Fits (dev : DevEntry) : Prop :=
  (devPath dev.name).length < bufMax

/-- A block device to which `ext2_uuid` gives the text of an unreadable one. -/
def DevEntry.Nameless (dev : DevEntry) : Prop :=
  dev.block = true ∧ ∀ uu, dev.superblock = some uu → firstByte uu = 0

theorem length_ext2Uuid_lt (superblock : Option Uuid) :
    (ext2Uuid superblock).length < bufMax := by
  cases superblock with
  | none => decide
  | some uu =>
    simp only [ext2Uuid, uuid2str]
    split
    · decide
    · rw [length_uuidToStr]
      decide

theorem uuid2str_eq_iff_of_ne {u v : Uuid} (h : v ≠ u) :
    uuid2str u = uuid2str v ↔ firstByte u = 0 ∧ firstByte v = 0 := by
  constructor
  · intro heq
    by_cases hu : firstByte u = 0
    · rw [uuid2str_eq_noneUuid_iff.mpr hu] at heq
      exact ⟨hu, uuid2str_eq_noneUuid_iff.mp heq.symm⟩
    · have hv : firstByte v ≠ 0 := by
        intro hv
        rw [uuid2str_eq_noneUuid_iff.mpr hv] at heq
        exact hu (uuid2str_eq_noneUuid_iff.mp heq)
      rw [uuid2str, if_neg (by rwa [isNullUuid_iff]), uuid2str,
        if_neg (by rwa [isNullUuid_iff])] at heq
      exact absurd (uuidToStr_injective heq).symm h
  · rintro ⟨hu, hv⟩
    rw [uuid2str_eq_noneUuid_iff.mpr hu, uuid2str_eq_noneUuid_iff.mpr hv]

theorem uuid2str_eq_ext2Uuid_iff {u : Uuid} {dev : DevEntry} (hblock : dev.block = true)
    (hother : dev.superblock ≠ some u) :
    uuid2str u = ext2Uuid dev.superblock ↔ firstByte u = 0 ∧ dev.Nameless := by
  cases hsuper : dev.superblock with
  | none => simp [ext2Uuid, DevEntry.Nameless, hblock, hsuper, uuid2str_eq_noneUuid_iff]
  | some v =>
    have hv : v ≠ u := fun h => hother (by rw [hsuper, h])
    simp [ext2Uuid, DevEntry.Nameless, hblock, hsuper, uuid2str_eq_iff_of_ne hv]

section Walk

variable {imageuuid : Text} {dev : DevEntry} {rest : List DevEntry}

theorem walkDev_overflow (h : ¬ dev.Fits) :
    walkDev imageuuid (dev :: rest) = .error .overflow := by
  rw [walkDev, store_of_le (Nat.le_of_not_lt h)]
  rfl

theorem walkDev_hit (hfits : dev.Fits) (hblock : dev.block = true)
    (huuid : imageuuid = ext2Uuid dev.superblock) :
    walkDev imageuuid (dev :: rest) = .ok (some dev) := by
  rw [walkDev, store_of_lt hfits, hblock, store_of_lt (length_ext2Uuid_lt _), huuid]
  simp [bind, Except.bind]

theorem walkDev_pass (hfits : dev.Fits)
    (huuid : dev.block = true → imageuuid ≠ ext2Uuid dev.superblock) :
    walkDev imageuuid (dev :: rest) = walkDev imageuuid rest := by
  rw [walkDev, store_of_lt hfits]
  cases hblock : dev.block with
  | false => rfl
  | true =>
    rw [store_of_lt (length_ext2Uuid_lt _)]
    simp [bind, Except.bind, huuid hblock]

end Walk

theorem walkDev_append_iff {u : Uuid} {image : DevEntry} {before after : List DevEntry}
    (hblock : image.block = true) (himage : image.superblock = some u)
    (hother : ∀ dev ∈ before, dev.block = true → dev.superblock ≠ some u) :
    walkDev (uuid2str u) (before ++ image :: after) = .ok (some image) ↔
      (∀ dev ∈ before ++ [image], dev.Fits) ∧
        (firstByte u ≠ 0 ∨ ∀ dev ∈ before, ¬ dev.Nameless) := by
  induction before with
  | nil =>
    simp only [List.nil_append, List.mem_singleton, forall_eq, List.not_mem_nil, false_implies,
      implies_true, or_true, and_true]
    by_cases hfits : image.Fits
    · simp [walkDev_hit hfits hblock (show uuid2str u = ext2Uuid image.superblock by
        rw [himage, ext2Uuid]), hfits]
    · simp [walkDev_overflow hfits, hfits]
  | cons dev before ih =>
    have ih := ih (fun d hd => hother d (List.mem_cons_of_mem _ hd))
    simp only [List.cons_append, List.forall_mem_cons]
    by_cases hfits : dev.Fits
    · by_cases hhit : dev.block = true ∧ uuid2str u = ext2Uuid dev.superblock
      · obtain ⟨hdev, huuid⟩ := hhit
        have hsuper := hother dev List.mem_cons_self hdev
        have hne : dev ≠ image := fun h => hsuper (h ▸ himage)
        obtain ⟨hzero, hnameless⟩ := (uuid2str_eq_ext2Uuid_iff hdev hsuper).mp huuid
        rw [walkDev_hit hfits hdev huuid]
        simp [hne, hzero, hnameless]
      · have hpass : dev.block = true → uuid2str u ≠ ext2Uuid dev.superblock :=
          fun hdev huuid => hhit ⟨hdev, huuid⟩
        have hnot : firstByte u = 0 → ¬ dev.Nameless := by
          intro hzero hnameless
          have hsuper := hother dev List.mem_cons_self hnameless.1
          exact hpass hnameless.1
            ((uuid2str_eq_ext2Uuid_iff hnameless.1 hsuper).mpr ⟨hzero, hnameless⟩)
        rw [walkDev_pass hfits hpass, ih]
        by_cases hzero : firstByte u = 0
        · simp [hfits, hzero, hnot hzero]
        · simp [hfits, hzero]
    · simp [walkDev_overflow hfits, hfits]

def uuids (devs : List DevEntry) : List Uuid :=
  (devs.filter (·.block)).filterMap (·.superblock)

/-- Among devices with distinct UUIDs, `linuxrc` mounts the device that kexec recorded
exactly if the first byte of its UUID is not zero or no nameless device is listed before it,
and the names up to it fit their buffer. -/
theorem walkDev_eq_image_iff (before after : List DevEntry) {image : DevEntry} {u : Uuid}
    {text : Text} (hdistinct : (uuids (before ++ image :: after)).Nodup)
    (hblock : image.block = true) (himage : image.superblock = some u)
    (htext : kexecExt2Uuid image.superblock = .ok text) :
    walkDev text (before ++ image :: after) = .ok (some image) ↔
      (∀ dev ∈ before ++ [image], dev.Fits) ∧
        (firstByte u ≠ 0 ∨ ∀ dev ∈ before, ¬ dev.Nameless) := by
  rw [himage, kexecExt2Uuid] at htext
  cases htext
  apply walkDev_append_iff hblock himage
  intro dev hdev hdevBlock hdevSuper
  have hsplit : uuids (before ++ image :: after) = uuids before ++ u :: uuids after := by
    simp [uuids, List.filter_append, List.filterMap_append, hblock, himage]
  have hmem : u ∈ uuids before :=
    List.mem_filterMap.mpr ⟨dev, List.mem_filter.mpr ⟨hdev, hdevBlock⟩, hdevSuper⟩
  rw [hsplit, List.nodup_append] at hdistinct
  exact hdistinct.2.2 u hmem u List.mem_cons_self rfl

/-! A disk without a file system of its own, and an images partition on it. -/

def wholeDisk : DevEntry := ⟨"hda".toList, true, none⟩

def imagesPartition (first : UInt8) : DevEntry where
  name := "hda3".toList
  block := true
  superblock := some #v[first, 1, 2, 3, 4, 5, 6, 7, 8, 9, 10, 11, 12, 13, 14, 15]

theorem walkDev_imagesPartition :
    (∀ dev ∈ [wholeDisk, imagesPartition 255], dev.Fits) ∧
      walkDev (ext2Uuid (imagesPartition 255).superblock) [wholeDisk, imagesPartition 255] =
        .ok (some (imagesPartition 255)) := by
  have hfits : ∀ dev ∈ [wholeDisk] ++ [imagesPartition 255], dev.Fits := by
    unfold DevEntry.Fits
    decide
  refine ⟨hfits, ?_⟩
  exact (walkDev_eq_image_iff [wholeDisk] [] (by decide) rfl rfl rfl).mpr
    ⟨hfits, Or.inl (by decide)⟩

/-- A UUID that starts with a zero byte: the whole disk is taken for the partition. -/
theorem walkDev_wholeDisk :
    (uuids [wholeDisk, imagesPartition 0]).Nodup ∧
      (imagesPartition 0).superblock ≠ some (Vector.replicate 16 0) ∧
      kexecExt2Uuid (imagesPartition 0).superblock = .ok noneUuid ∧
      walkDev noneUuid [wholeDisk, imagesPartition 0] = .ok (some wholeDisk) ∧
      walkDev noneUuid [wholeDisk, imagesPartition 0] ≠ .ok (some (imagesPartition 0)) := by
  have hwalk : walkDev noneUuid [wholeDisk, imagesPartition 0] = .ok (some wholeDisk) :=
    walkDev_hit (show (devPath wholeDisk.name).length < bufMax by decide) rfl rfl
  refine ⟨by decide, by decide, by decide, hwalk, ?_⟩
  rw [hwalk]
  decide

end Monoimage.Device
