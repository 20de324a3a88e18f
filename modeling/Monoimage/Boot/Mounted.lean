import Monoimage.Clib.Lines

/-! `check_mounted`, which looks for a mount point in `/proc/mounts`. -/
namespace Monoimage.Boot

open Clib

/-- `MB_CM_YES`, `MB_CM_NO` and `MB_CM_FAIL`. -/
inductive CheckMounted where
  | yes
  | no
  | fail
  deriving DecidableEq, Repr

def mbCmMax : Nat := 32

/-- `mounts` is `none` if the file cannot be opened. -/
def checkMounted (mounts : Option Text) (mountpoint : Text) : CheckMounted :=
  match mounts with
  | none => .fail
  | some stream =>
    if (fgetsAll mbCmMax stream).any fun readbuf => (strstr readbuf mountpoint).isSome then .yes
    else .no

/-! ## What it is for -/

def secondField (line : Text) : Option Text :=
  ((line.takeWhile (· ≠ '\n')).splitOn ' ')[1]?

/-- Some line has the path for its mount point. -/
def Mounted (contents path : Text) : Prop :=
  ∃ line ∈ lines contents, secondField line = some path

instance (contents path : Text) : Decidable (Mounted contents path) :=
  inferInstanceAs (Decidable (∃ line ∈ lines contents, secondField line = some path))

def TellsMounted (contents path : Text) : Prop :=
  checkMounted (some contents) path = if Mounted contents path then .yes else .no

instance (contents path : Text) : Decidable (TellsMounted contents path) :=
  inferInstanceAs (Decidable (_ = _))

/-- Some line has the path, as a part of whatever field, on one side of every boundary
between the pieces of 31 characters. -/
def Sighted (contents path : Text) : Prop :=
  ∃ line ∈ lines contents, Within 31 path line

theorem checkMounted_eq_yes_iff {contents path : Text} :
    checkMounted (some contents) path = .yes ↔ Sighted contents path := by
  have hany : (fgetsAll mbCmMax contents).any (fun readbuf => (strstr readbuf path).isSome) = true ↔
      Sighted contents path := by
    rw [List.any_eq_true, Sighted, ← exists_piece_iff (by decide), mbCmMax]
    refine exists_congr fun piece => and_congr_right fun _ => ?_
    rw [← not_iff_not, Bool.not_eq_true, Option.isSome_eq_false_iff, Option.isNone_iff_eq_none,
      strstr_eq_none_iff]
  rw [← hany, checkMounted]
  split
  · simp [*]
  · simp [*]

theorem checkMounted_eq_no_iff {contents path : Text} :
    checkMounted (some contents) path = .no ↔ ¬ Sighted contents path := by
  rw [← checkMounted_eq_yes_iff, checkMounted]
  split
  · simp
  · simp

/-- The answer is right exactly where sighting the path is the same as its being mounted. -/
theorem tellsMounted_iff (contents path : Text) :
    TellsMounted contents path ↔ (Mounted contents path ↔ Sighted contents path) := by
  unfold TellsMounted
  split
  · rename_i hmounted
    simp only [checkMounted_eq_yes_iff, hmounted, true_iff]
  · rename_i hmounted
    simp only [checkMounted_eq_no_iff, hmounted, false_iff]

/-- A backup of the images that is mounted counts for the images, and from a device with a long
name they are not seen. -/
theorem not_tellsMounted_backup :
    (¬ Mounted "/dev/hda3 /images.old ext3 rw 0 0\n".toList "/images".toList ∧
      checkMounted (some "/dev/hda3 /images.old ext3 rw 0 0\n".toList) "/images".toList = .yes ∧
      ¬ TellsMounted "/dev/hda3 /images.old ext3 rw 0 0\n".toList "/images".toList) ∧
    (Mounted "/dev/mapper/flash-partition /images ext3 rw 0 0\n".toList "/images".toList ∧
      checkMounted (some "/dev/mapper/flash-partition /images ext3 rw 0 0\n".toList)
        "/images".toList = .no ∧
      ¬ TellsMounted "/dev/mapper/flash-partition /images ext3 rw 0 0\n".toList
        "/images".toList) := by
  decide

end Monoimage.Boot
