import Monoimage.Clib.Lines
import Monoimage.Kexec.Devices

/-! The mount point of the images device, which `monoimage_load` takes from `/proc/mounts`. -/
namespace Monoimage.Kexec

open Clib Device

/-! ## The file -/

def mountText (device mountpoint type options : Text) : Text :=
  device ++ ' ' :: (mountpoint ++ ' ' :: (type ++ ' ' :: (options ++ " 0 0".toList)))

/-- A line of `/proc/mounts`. The kernel escapes the blanks and the newlines in a field. -/
structure MountLine where
  device : Text
  mountpoint : Text
  type : Text
  options : Text
  plain : ∀ field ∈ [device, mountpoint, type, options], field ≠ [] ∧ ' ' ∉ field ∧ '\n' ∉ field
  short : (mountText device mountpoint type options).length < 256

namespace MountLine

def text (line : MountLine) : Text :=
  mountText line.device line.mountpoint line.type line.options

theorem device_plain (line : MountLine) :
    line.device ≠ [] ∧ ' ' ∉ line.device ∧ '\n' ∉ line.device :=
  line.plain _ (by simp)

theorem mountpoint_blank (line : MountLine) : ' ' ∉ line.mountpoint :=
  (line.plain _ (by simp)).2.1

theorem newline_notMem (line : MountLine) : '\n' ∉ line.text := by
  have hplain := line.plain
  simp only [List.mem_cons, List.not_mem_nil, or_false, forall_eq_or_imp, forall_eq] at hplain
  obtain ⟨⟨-, -, hdevice⟩, ⟨-, -, hmountpoint⟩, ⟨-, -, htype⟩, -, -, hoptions⟩ := hplain
  simp [text, mountText, hdevice, hmountpoint, htype, hoptions]

/-- The text that stands one character behind the name on this line, up to a blank. -/
def behind (line : MountLine) (dev : Text) : Text :=
  match line.device.drop dev.length with
  | [] => line.mountpoint
  | _ :: more => more

/-- The scan for the end of the field finds a blank of the line. -/
theorem scan_behind {line : MountLine} {dev : Text} (h : dev <+: line.device) (tail : Text) :
    ' ' ∈ (line.text ++ tail).drop (dev.length + 1) ∧
      ((line.text ++ tail).drop (dev.length + 1)).takeWhile (· ≠ ' ') = line.behind dev := by
  obtain ⟨more, hdevice⟩ := h
  have hdrop : (line.text ++ tail).drop (dev.length + 1) =
      (more ++ ' ' :: (line.mountpoint ++ ' ' ::
        (line.type ++ ' ' :: (line.options ++ " 0 0".toList) ++ tail))).drop 1 := by
    rw [text, mountText, ← hdevice, ← List.drop_drop]
    simp only [List.append_assoc, List.cons_append, List.drop_left]
  rw [hdrop, behind, ← hdevice, List.drop_left]
  cases more with
  | nil => exact ⟨by simp, takeWhile_ne_append line.mountpoint_blank⟩
  | cons c more =>
    have hmore : ' ' ∉ more := fun h => line.device_plain.2.1 (hdevice ▸ by simp [h])
    exact ⟨by simp, takeWhile_ne_append hmore⟩

end MountLine

def mountsText (mounts : List MountLine) : Text :=
  mounts.flatMap fun line => line.text ++ ['\n']

/-! ## The scan -/

section Scan

variable {dev : Text}

theorem strncmpEq_text {line : MountLine} (hblank : ' ' ∉ dev) (tail : Text) :
    strncmpEq (line.text ++ tail) dev dev.length = true ↔ dev <+: line.device := by
  rw [strncmpEq_length_right, MountLine.text, mountText, List.append_assoc, List.cons_append,
    prefix_append_sep_iff hblank]

/-- A line of 255 characters leaves its newline for another piece. -/
theorem fgetsAll_mountsText_cons (line : MountLine) (rest : List MountLine) :
    ∃ tail pieces, fgetsAll 256 (mountsText (line :: rest)) =
        (line.text ++ tail) :: (pieces ++ fgetsAll 256 (mountsText rest)) ∧
      ∀ piece ∈ pieces, piece = ['\n'] := by
  have hsplit : mountsText (line :: rest) = line.text ++ '\n' :: mountsText rest := by
    simp [mountsText]
  have hshort : line.text.length < 256 := line.short
  rw [hsplit]
  by_cases hlen : line.text.length < 255
  · exact ⟨['\n'], [], fgetsAll_newline line.newline_notMem hlen, by simp⟩
  · have hnewline : fgetsAll 256 ('\n' :: mountsText rest) =
        ['\n'] :: fgetsAll 256 (mountsText rest) :=
      fgetsAll_newline List.not_mem_nil (by decide)
    refine ⟨[], [['\n']], ?_, by simp⟩
    rw [fgetsAll_full (by decide) line.newline_notMem (by omega), hnewline, List.append_nil]
    rfl

theorem strncmpEq_newline (hne : dev ≠ []) (hnewline : '\n' ∉ dev) :
    strncmpEq ['\n'] dev dev.length = false := by
  rw [Bool.eq_false_iff, ne_eq, strncmpEq_length_right]
  rintro ⟨tail, htail⟩
  cases dev with
  | nil => exact hne rfl
  | cons c dev =>
    obtain ⟨rfl, -⟩ := List.cons.inj htail
    exact hnewline List.mem_cons_self

/-- The piece that the loop stops at is that of the first line whose device the name starts;
the newline may come in a piece of its own. -/
theorem find_piece {mounts : List MountLine} (hne : dev ≠ []) (hblank : ' ' ∉ dev)
    (hnewline : '\n' ∉ dev) :
    match mounts.find? fun line => dev <+: line.device with
    | none => (fgetsAll 256 (mountsText mounts)).find?
        (fun piece => strncmpEq piece dev dev.length) = none
    | some line => ∃ tail, (fgetsAll 256 (mountsText mounts)).find?
        (fun piece => strncmpEq piece dev dev.length) = some (line.text ++ tail) := by
  induction mounts with
  | nil => rfl
  | cons line rest ih =>
    obtain ⟨tail, pieces, hpieces, halone⟩ := fgetsAll_mountsText_cons line rest
    by_cases hline : dev <+: line.device
    · rw [List.find?_cons_of_pos (by simpa using hline), hpieces]
      exact ⟨tail, List.find?_cons_of_pos ((strncmpEq_text hblank tail).mpr hline)⟩
    · have hfirst : strncmpEq (line.text ++ tail) dev dev.length = false := by
        rw [Bool.eq_false_iff, ne_eq, strncmpEq_text hblank]
        exact hline
      have hnone : pieces.find? (fun piece => strncmpEq piece dev dev.length) = none := by
        rw [List.find?_eq_none]
        intro piece hpiece
        rw [halone piece hpiece, strncmpEq_newline hne hnewline]
        exact Bool.false_ne_true
      have hrest : (fgetsAll 256 (mountsText (line :: rest))).find?
          (fun piece => strncmpEq piece dev dev.length) = (fgetsAll 256 (mountsText rest)).find?
            (fun piece => strncmpEq piece dev dev.length) := by
        simp only [hpieces, List.find?_cons, hfirst, List.find?_append, hnone, Option.none_or]
      rw [List.find?_cons_of_neg (by simpa using hline), hrest]
      exact ih

theorem findMountPoint_eq {mounts : List MountLine} (hne : dev ≠ []) (hblank : ' ' ∉ dev)
    (hnewline : '\n' ∉ dev) :
    findMountPoint (some (mountsText mounts)) dev =
      match mounts.find? fun line => dev <+: line.device with
      | none => .error (.fault .uninitialised)
      | some line => .ok (line.behind dev) := by
  have hpiece := @find_piece dev mounts hne hblank hnewline
  cases hfind : mounts.find? fun line => dev <+: line.device with
  | none =>
    rw [hfind] at hpiece
    dsimp only at hpiece
    rw [findMountPoint, hpiece]
  | some line =>
    rw [hfind] at hpiece
    obtain ⟨tail, hpiece⟩ := hpiece
    have hprefix : dev <+: line.device := by simpa using List.find?_some hfind
    obtain ⟨hmem, htake⟩ := line.scan_behind hprefix tail
    simp only [findMountPoint, hpiece, if_pos hmem, htake]

end Scan

/-! ## What the scan is for -/

/-- `monoimage_load` has come to `/proc/mounts`: the walk and the UUIDs have gone well. -/
structure AtMounts (env : LoadEnv) (argv : List Text) (dev : Text) (mounts : List MountLine) :
    Prop where
  walked : ∃ options image imagesNumber configNumber names found configDev uuids,
    AtWalk env argv options image imagesNumber configNumber names ∧
      findDevices env imagesNumber configNumber names env.devbuf ⟨none, none⟩ = .ok found ∧
      found.images = some dev ∧ found.config = some configDev ∧
      findUuids env dev configDev = .ok uuids
  mounts : env.mounts = some (mountsText mounts)

/-- The mount point is that of the first line for the device; where there is none, the load is
refused. -/
def FindsMountPoint (env : LoadEnv) (argv : List Text) (dev : Text) (mounts : List MountLine) :
    Prop :=
  match mounts.find? (·.device = dev) with
  | some line => findMountPoint env.mounts dev = .ok line.mountpoint
  | none => ∀ buf, (monoimageLoad env argv buf).finish = .returned (-1)

/-- The first line whose device starts with the name is one for the device itself. Another
line would do only if the mount point stood in its device, one character behind the name. -/
def FirstDecides (dev : Text) (mounts : List MountLine) : Prop :=
  ∃ line hit, mounts.find? (·.device = dev) = some line ∧
    (mounts.find? fun line => dev <+: line.device) = some hit ∧
    (hit.device = dev ∨ ∃ c, hit.device = dev ++ c :: line.mountpoint)

theorem AtMounts.ne_returned {env : LoadEnv} {argv : List Text} {dev : Text}
    {mounts : List MountLine} (h : AtMounts env argv dev mounts) (buf : Bytes) (code : Int) :
    (monoimageLoad env argv buf).finish ≠ .returned code := by
  obtain ⟨options, image, _, _, names, found, _, _, hwalk, hfound, -⟩ := h.walked
  apply monoimageLoad_ne_returned
  rw [hwalk.prepare_eq, hfound]
  exact noReturn_afterWalk env options image found

/-- The first line that the name starts is, if it is one for the device, the first of these. -/
theorem find_prefix_eq {mounts : List MountLine} {dev : Text} {hit : MountLine}
    (hhit : (mounts.find? fun line => dev <+: line.device) = some hit)
    (hdevice : hit.device = dev) :
    mounts.find? (·.device = dev) = some hit := by
  rw [List.find?_eq_some_iff_append] at hhit ⊢
  obtain ⟨-, before, after, hsplit, hbefore⟩ := hhit
  refine ⟨by simpa using hdevice, before, after, hsplit, fun line hline => ?_⟩
  have hskip := hbefore line hline
  simp only [Bool.not_eq_true', decide_eq_false_iff_not] at hskip ⊢
  exact fun h => hskip (h ▸ List.prefix_refl _)

theorem behind_eq_iff {hit line : MountLine} {dev : Text} {mounts : List MountLine}
    (hline : mounts.find? (·.device = dev) = some line)
    (hhit : (mounts.find? fun line => dev <+: line.device) = some hit) :
    hit.behind dev = line.mountpoint ↔
      hit.device = dev ∨ ∃ c, hit.device = dev ++ c :: line.mountpoint := by
  have hprefix : dev <+: hit.device := by simpa using List.find?_some hhit
  obtain ⟨more, hmore⟩ := hprefix
  rw [MountLine.behind, ← hmore, List.drop_left]
  cases more with
  | nil =>
    rw [List.append_nil] at hmore
    obtain rfl : hit = line :=
      Option.some.inj ((find_prefix_eq hhit hmore.symm).symm.trans hline)
    simp
  | cons c more => simp

/-- The mount point is found exactly if the first line that the name starts decides it. -/
theorem findsMountPoint_iff {env : LoadEnv} {argv : List Text} {dev : Text}
    {mounts : List MountLine} (h : AtMounts env argv dev mounts) :
    FindsMountPoint env argv dev mounts ↔ FirstDecides dev mounts := by
  unfold FindsMountPoint FirstDecides
  cases hline : mounts.find? (·.device = dev) with
  | none =>
    have hnever := h.ne_returned [] (-1)
    simp only [reduceCtorEq, false_and, exists_false, iff_false, not_forall]
    exact ⟨[], hnever⟩
  | some line =>
    obtain rfl : line.device = dev := by simpa using List.find?_some hline
    obtain ⟨hne, hblank, hnewline⟩ := line.device_plain
    have hsome : (mounts.find? fun l => line.device <+: l.device).isSome := by
      rw [List.find?_isSome]
      exact ⟨line, List.mem_of_find?_eq_some hline, by simp⟩
    obtain ⟨hit, hhit⟩ := Option.isSome_iff_exists.mp hsome
    dsimp only
    rw [h.mounts, findMountPoint_eq hne hblank hnewline, hhit]
    dsimp only
    rw [Except.ok.injEq, behind_eq_iff hline hhit]
    simp

/-! An images partition on `/images`, and a boot partition whose name goes on where that of
the images partition ends. -/

def imagesMount : MountLine :=
  ⟨"/dev/hda3".toList, "/images".toList, "ext3".toList, "rw".toList, by decide, by decide⟩

def bootMount : MountLine :=
  ⟨"/dev/hda30".toList, "/boot".toList, "ext3".toList, "rw".toList, by decide, by decide⟩

theorem atMounts_example {mounts : List MountLine} :
    AtMounts { exampleEnv with mounts := some (mountsText mounts) } exampleArgv "/dev/hda3".toList
      mounts := by
  exact ⟨⟨_, _, 0x303, 0x303, ["hda3".toList], ⟨some "/dev/hda3".toList, some "/dev/hda3".toList⟩,
    "/dev/hda3".toList, (uuid2str CommandLine.exampleUuid, uuid2str CommandLine.exampleUuid),
    ⟨atWalk_exampleArgv.accepted, atWalk_exampleArgv.image, atWalk_exampleArgv.config, rfl⟩,
    rfl, rfl, rfl, rfl⟩, rfl⟩

theorem findsMountPoint_example :
    FindsMountPoint { exampleEnv with mounts := some (mountsText [imagesMount, bootMount]) }
      exampleArgv "/dev/hda3".toList [imagesMount, bootMount] := by
  apply (findsMountPoint_iff atMounts_example).mpr
  exact ⟨imagesMount, imagesMount, rfl, rfl, Or.inl rfl⟩

/-- In the other order, the mount point is the empty text behind the longer name. -/
theorem not_findsMountPoint_example :
    AtMounts { exampleEnv with mounts := some (mountsText [bootMount, imagesMount]) } exampleArgv
        "/dev/hda3".toList [bootMount, imagesMount] ∧
      findMountPoint (some (mountsText [bootMount, imagesMount])) "/dev/hda3".toList = .ok [] ∧
      ¬ FindsMountPoint { exampleEnv with mounts := some (mountsText [bootMount, imagesMount]) }
        exampleArgv "/dev/hda3".toList [bootMount, imagesMount] := by
  have hfind : findMountPoint (some (mountsText [bootMount, imagesMount])) "/dev/hda3".toList =
      .ok [] := by
    decide +kernel
  have hline : [bootMount, imagesMount].find? (·.device = "/dev/hda3".toList) =
      some imagesMount := rfl
  refine ⟨atMounts_example, hfind, ?_⟩
  rw [FindsMountPoint, hline]
  dsimp only
  rw [hfind]
  intro h
  cases h

end Monoimage.Kexec
