import Monoimage.Linuxrc.Stages

/-! The calls that stand before the success exit of `linuxrc`. -/
namespace Monoimage.Linuxrc

open Clib CommandLine Device Image

/-! ## The calls -/

theorem trace_parseVars (env : LinuxrcEnv) (line : Text) : (parseVars env line).trace = [] := by
  rw [List.eq_nil_iff_forall_not_mem]
  intro call
  simp [parseVars, Traced.mem_trace_bind_iff]

theorem mem_mountImages {env : LinuxrcEnv} {imageuuid : Text} {call : Call}
    (h : call ∈ (mountImages env imageuuid).trace) : ∃ source target done,
      call = .mount source target done := by
  obtain ⟨found, hfound⟩ : ∃ found, call ∈ (mountDev env found).trace := by
    simp only [mountImages, Traced.mem_trace_bind_iff, trace_mustFind, trace_defined,
      List.not_mem_nil, false_or] at h
    obtain ⟨devs, -, found, -, hmem⟩ := h
    exact ⟨found, hmem⟩
  cases found with
  | none => simp [mountDev] at hfound
  | some dev =>
    simp only [mountDev, Traced.mem_trace_bind_iff, Traced.trace_emit, trace_must,
      List.mem_singleton, List.not_mem_nil, and_false, exists_false, or_false] at hfound
    exact ⟨_, _, _, hfound⟩

/-- The calls of the stages before the header: mounts and `stat`s. -/
def Call.early : Call → Bool
  | .mount _ _ _ => true
  | .umount _ _ => true
  | .stat _ _ => true
  | _ => false

theorem mem_chooseImage {env : LinuxrcEnv} {requested : Text} {call : Call}
    (h : call ∈ (chooseImage env requested).trace) : call.early = true := by
  simp only [chooseImage, Traced.mem_trace_bind_iff, Traced.trace_emit, List.mem_singleton] at h
  rcases h with rfl | ⟨-, -, h⟩
  · rfl
  · split at h
    · cases h
    · -- the calls of the second path, up to the first that fails
      simp only [Traced.mem_trace_bind_iff, Traced.trace_emit, trace_must, Traced.trace_pure,
        List.mem_singleton, List.not_mem_nil, false_or, or_false, and_false, exists_false] at h
      rcases h with rfl | ⟨-, -, rfl | ⟨-, -, -, -, rfl⟩⟩
      · rfl
      · rfl
      · rfl

theorem mem_readHeader_iff {env : LinuxrcEnv} {imagefile : Text} {call : Call} :
    call ∈ (readHeader env imagefile).trace ↔
      ∃ offset, env.image.bind readRootfsOffset = some offset ∧
        call = .readHeader imagefile offset := by
  simp only [readHeader, Traced.mem_trace_bind_iff, trace_mustFind, mustFind_ok_iff,
    Traced.trace_emit, Traced.trace_pure, List.not_mem_nil, List.mem_singleton, false_or, or_false,
    and_false, exists_false, Option.bind_eq_some_iff]
  constructor
  · rintro ⟨bytes, hbytes, offset, hoffset, rfl⟩
    exact ⟨offset, ⟨bytes, hbytes, hoffset⟩, rfl⟩
  · rintro ⟨offset, ⟨bytes, hbytes, hoffset⟩, rfl⟩
    exact ⟨bytes, hbytes, offset, hoffset, rfl⟩

theorem mem_findRootfs {env : LinuxrcEnv} {call : Call} (h : call ∈ (findRootfs env).trace) :
    call.early = true ∨ ∃ file offset, env.image.bind readRootfsOffset = some offset ∧
      call = .readHeader file offset := by
  simp only [findRootfs, Traced.mem_trace_bind_iff, Traced.trace_emit, trace_must, trace_mustFind,
    trace_parseVars, Traced.trace_pure, mem_readHeader_iff, List.not_mem_nil, List.mem_singleton,
    false_or, or_false, and_false, exists_false] at h
  rcases h with rfl | ⟨-, -, -, -, _, -, vars, -, hmount | ⟨-, -, hchoose | ⟨file, -, offset, h⟩⟩⟩
  · exact Or.inl rfl
  · obtain ⟨source, target, done, rfl⟩ := mem_mountImages hmount
    exact Or.inl rfl
  · exact Or.inl (mem_chooseImage hchoose)
  · exact Or.inr ⟨file, offset, h⟩

theorem mem_findRootfs_of_reaches {env : LinuxrcEnv} {vars : Vars} {imagefile : Text}
    {offset : Nat} (h : Reaches env vars imagefile offset) {call : Call}
    (hcall : call ∈ (chooseImage env vars.imagefile).trace ∨ call = .readHeader imagefile offset) :
    call ∈ (findRootfs env).trace := by
  obtain ⟨line, value, hline, hreads⟩ := h.reads
  have hvars : (parseVars env line).result = .ok vars :=
    (parseVars_ok_iff (length_line hline)).mpr ⟨value, hreads⟩
  simp only [findRootfs, Traced.mem_trace_bind_iff, Traced.result_emit, must_ok_iff,
    mustFind_ok_iff, chooseImage_ok_iff, mem_readHeader_iff, mountImages_ok_iff]
  refine Or.inr ⟨(), trivial, Or.inr ⟨(), h.mounted, Or.inr ⟨line, hline, Or.inr ⟨vars, hvars,
    Or.inr ⟨(), h.walked, ?_⟩⟩⟩⟩⟩
  rcases hcall with hchoose | hheader
  · exact Or.inl hchoose
  · exact Or.inr ⟨imagefile, h.chosen, Or.inl ⟨offset, h.header, hheader⟩⟩

/-! ## `set_loop` -/

/-- Both files can be opened, and both calls on the loop device succeed. -/
structure LoopWorks (env : LinuxrcEnv) : Prop where
  openImage : env.openImage = true
  openLoop : env.openLoop = true
  loopSetFd : env.loopSetFd = true
  loopSetStatus : env.loopSetStatus = true

section SetLoop

variable {env : LinuxrcEnv} {device file : Text} {offset : Int}

/-- Every result passes the test of `main` for a negative one. -/
theorem setLoop_result (env : LinuxrcEnv) (device file : Text) (offset : Int) :
    ∃ ret, (setLoop env device file offset).result = .ok ret ∧ 0 ≤ ret := by
  unfold setLoop
  cases env.openImage with
  | false => exact ⟨1, rfl, by decide⟩
  | true =>
    cases env.openLoop with
    | false => exact ⟨1, rfl, by decide⟩
    | true =>
      cases env.loopSetFd with
      | false => exact ⟨1, rfl, by decide⟩
      | true =>
        cases env.loopSetStatus with
        | false => exact ⟨1, rfl, by decide⟩
        | true => exact ⟨0, rfl, by decide⟩

theorem trace_setLoop : (setLoop env device file offset).trace =
    if env.openImage && env.openLoop then
      .loopSetFd device file env.loopSetFd ::
        if env.loopSetFd then
          .loopSetStatus device (loOffset offset) env.loopSetStatus ::
            if env.loopSetStatus then [] else [.loopClrFd device]
        else []
    else [] := by
  unfold setLoop
  cases env.openImage <;> cases env.openLoop <;> cases env.loopSetFd <;>
    cases env.loopSetStatus <;> rfl

def Call.onLoop : Call → Bool
  | .loopSetFd _ _ _ => true
  | .loopSetStatus _ _ _ => true
  | .loopClrFd _ => true
  | _ => false

theorem mem_setLoop {call : Call} (h : call ∈ (setLoop env device file offset).trace) :
    call.onLoop = true := by
  rw [trace_setLoop] at h
  split at h
  · rcases List.mem_cons.mp h with rfl | h
    · rfl
    · split at h
      · rcases List.mem_cons.mp h with rfl | h
        · rfl
        · split at h
          · cases h
          · obtain rfl := List.mem_singleton.mp h
            rfl
      · cases h
  · cases h

theorem loopSetStatus_mem_setLoop_iff {lo : Nat} :
    .loopSetStatus device lo true ∈ (setLoop env device file offset).trace ↔
      LoopWorks env ∧ lo = loOffset offset := by
  rw [trace_setLoop]
  constructor
  · intro h
    split at h
    · rename_i hopen
      rw [Bool.and_eq_true] at hopen
      split at h
      · rename_i hfd
        cases hstatus : env.loopSetStatus with
        | false => simp [hstatus] at h
        | true =>
          obtain rfl : lo = loOffset offset := by simpa [hstatus] using h
          exact ⟨⟨hopen.1, hopen.2, hfd, hstatus⟩, rfl⟩
      · simp at h
    · cases h
  · rintro ⟨h, rfl⟩
    simp [h.openImage, h.openLoop, h.loopSetFd, h.loopSetStatus]

theorem loopSetFd_mem_setLoop (h : LoopWorks env) :
    .loopSetFd device file true ∈ (setLoop env device file offset).trace := by
  rw [trace_setLoop, h.openImage, h.openLoop, h.loopSetFd]
  exact List.mem_cons_self

end SetLoop

theorem loOffset_eq_iff {offset : Nat} (h : offset < 2 ^ 32) :
    loOffset (wrap32 (wrap32 offset)) = offset ↔ offset < 2 ^ 31 := by
  obtain ⟨k, hk, hge, hlt⟩ := wrap32_cases offset
  have htwice : wrap32 (wrap32 offset) = wrap32 offset := wrap32_of_lt hge hlt
  rw [htwice, loOffset, hk]
  rw [hk] at hge hlt
  omega

/-! ## The success exit -/

/-- The loop device has been set up: with the file that the command line asks for, or with
the failsafe image after that one was not found, at the offset of its header. -/
structure SetUp (env : LinuxrcEnv) (calls : List Call) (requested file : Text) (offset : Nat) :
    Prop where
  asked : ∃ line value, env.line = some line ∧
    getCmdlineVar line "F".toList = .ok (some value) ∧ requested = imagesDir ++ value
  found : .stat file true ∈ calls
  which : file = requested ∨ file = failsafe ∧ .stat requested false ∈ calls
  header : .readHeader file offset ∈ calls
  setFd : .loopSetFd loopDev file true ∈ calls
  setStatus : .loopSetStatus loopDev offset true ∈ calls

/-- The success exit comes after the loop device has been set up, and every other end is
one through `DIE`. -/
def Sound (env : LinuxrcEnv) : Prop :=
  match (main env).result with
  | .ok () => ∃ requested file offset, SetUp env (main env).trace requested file offset
  | .error (.died _) => True
  | .error (.fault _) => False

theorem main_of_ok {env : LinuxrcEnv} {file : Text} {offset : Nat}
    (h : (findRootfs env).result = .ok (file, offset)) :
    main env = ⟨(findRootfs env).trace ++
      (setLoop env loopDev file (wrap32 (wrap32 offset))).trace, .ok ()⟩ := by
  obtain ⟨ret, hret, hpos⟩ := setLoop_result env loopDev file (wrap32 (wrap32 offset))
  rw [main, Traced.bind_of_ok h]
  dsimp only
  rw [Traced.bind_of_ok hret, if_neg (Int.not_lt.mpr hpos)]
  simp

theorem main_of_error {env : LinuxrcEnv} {e : Ending} (h : (findRootfs env).result = .error e) :
    (main env).result = .error e := by
  rw [main, Traced.bind_of_error h]

theorem Chosen.stat_mem {env : LinuxrcEnv} {requested file : Text} (h : Chosen env requested file) :
    .stat file true ∈ (chooseImage env requested).trace := by
  cases h with
  | requested hstat => simp [chooseImage, Traced.mem_trace_bind_iff, hstat]
  | failsafe hstat hmount hfound =>
    simp [chooseImage, Traced.mem_trace_bind_iff, hstat, hmount, hfound]

theorem Chosen.eq_or_failsafe {env : LinuxrcEnv} {requested file : Text}
    (h : Chosen env requested file) : file = requested ∨
      file = Linuxrc.failsafe ∧ .stat requested false ∈ (chooseImage env requested).trace := by
  cases h with
  | requested hstat => exact Or.inl rfl
  | failsafe hstat hmount hfound =>
    refine Or.inr ⟨rfl, ?_⟩
    simp [chooseImage, Traced.mem_trace_bind_iff, hstat]

theorem setUp_iff {env : LinuxrcEnv} {vars : Vars} {file : Text} {offset : Nat}
    (h : Reaches env vars file offset) :
    (∃ requested file offset, SetUp env (main env).trace requested file offset) ↔
      LoopWorks env ∧ offset < 2 ^ 31 := by
  have hsmall : offset < 2 ^ 32 := by
    obtain ⟨bytes, -, hoffset⟩ := Option.bind_eq_some_iff.mp h.header
    exact readRootfsOffset_lt hoffset
  rw [main_of_ok (findRootfs_ok_iff.mpr ⟨vars, h⟩)]
  constructor
  · rintro ⟨requested, file', offset', hsetup⟩
    have hheader : offset' = offset := by
      rcases List.mem_append.mp hsetup.header with hfind | hloop
      · obtain hearly | ⟨path, o, hread, hcall⟩ := mem_findRootfs hfind
        · cases hearly
        · obtain ⟨-, rfl⟩ := Call.readHeader.inj hcall
          exact Option.some.inj (hread.symm.trans h.header)
      · cases mem_setLoop hloop
    have hstatus := (List.mem_append.mp hsetup.setStatus).resolve_left fun hfind => by
      obtain hearly | ⟨path, o, -, hcall⟩ := mem_findRootfs hfind
      · cases hearly
      · cases hcall
    obtain ⟨hworks, hlo⟩ := loopSetStatus_mem_setLoop_iff.mp hstatus
    exact ⟨hworks, (loOffset_eq_iff hsmall).mp (hlo.symm.trans hheader)⟩
  · rintro ⟨hworks, hlow⟩
    obtain ⟨line, value, hline, hreads⟩ := h.reads
    have hfind {call : Call} (hcall : call ∈ (chooseImage env vars.imagefile).trace ∨
        call = .readHeader file offset) := mem_findRootfs_of_reaches h hcall
    refine ⟨vars.imagefile, file, offset, ⟨line, value, hline, hreads.image, hreads.imagefile⟩,
      ?_, ?_, ?_, ?_, ?_⟩
    · exact List.mem_append_left _ (hfind (Or.inl h.chosen.stat_mem))
    · rcases h.chosen.eq_or_failsafe with hfile | ⟨hfile, hstat⟩
      · exact Or.inl hfile
      · exact Or.inr ⟨hfile, List.mem_append_left _ (hfind (Or.inl hstat))⟩
    · exact List.mem_append_left _ (hfind (Or.inr rfl))
    · exact List.mem_append_right _ (loopSetFd_mem_setLoop hworks)
    · apply List.mem_append_right
      exact loopSetStatus_mem_setLoop_iff.mpr ⟨hworks, ((loOffset_eq_iff hsmall).mpr hlow).symm⟩

/-- `linuxrc` is sound exactly if its line and its walk stay within their buffers, and
nothing fails once it has come to the loop device. -/
theorem sound_iff (env : LinuxrcEnv) :
    Sound env ↔ ¬ Derails env ∧ ∀ vars file offset, Reaches env vars file offset →
      LoopWorks env ∧ offset < 2 ^ 31 := by
  rw [← faults_findRootfs_iff]
  unfold Sound
  cases hfind : (findRootfs env).result with
  | ok found =>
    obtain ⟨file, offset⟩ := found
    obtain ⟨vars, hreaches⟩ := findRootfs_ok_iff.mp hfind
    have hresult : (main env).result = .ok () := by rw [main_of_ok hfind]
    have hnot : ¬ Faults (findRootfs env) := by simp [Faults, hfind]
    rw [hresult]
    dsimp only
    rw [setUp_iff hreaches]
    constructor
    · intro h
      refine ⟨hnot, fun vars' file' offset' hreaches' => ?_⟩
      have hsame := hfind.symm.trans (findRootfs_ok_iff.mpr ⟨vars', hreaches'⟩)
      obtain ⟨-, rfl⟩ := Prod.mk.inj (Except.ok.inj hsame)
      exact h
    · rintro ⟨-, h⟩
      exact h vars file offset hreaches
  | error e =>
    have hnone : ∀ vars file offset, ¬ Reaches env vars file offset := by
      intro vars file offset hreaches
      rw [findRootfs_ok_iff.mpr ⟨vars, hreaches⟩] at hfind
      cases hfind
    rw [main_of_error hfind]
    cases e with
    | died reboot => simp [Faults, hfind, hnone]
    | fault f => simp [Faults, hfind]

/-- A machine without a loop device, where everything else is well. -/
def noLoopEnv : LinuxrcEnv where
  mountProc := true
  procCmdline := some ("F=funky.img I=".toList ++
    (ext2Uuid (imagesPartition 255).superblock ++ " C=none\n".toList))
  dev := some [wholeDisk, imagesPartition 255]
  mountImages _ := true
  statImage := true
  umountImages := true
  mountFailsafe := true
  statFailsafe := true
  image := some (miMagic ++ packHeader 1 0 0 20 22 23)
  openImage := true
  openLoop := false
  loopSetFd := true
  loopSetStatus := true
  reboot := true

/-- `set_loop` returns 1 where `main` looks for a negative number, and the exit code says
success. -/
theorem not_sound_noLoopEnv : (main noLoopEnv).result = .ok () ∧ ¬ Sound noLoopEnv := by
  have hresult : (main noLoopEnv).result = .ok () := by decide +kernel
  have hcalls : ∀ call ∈ (main noLoopEnv).trace, call.onLoop = false := by decide +kernel
  refine ⟨hresult, fun h => ?_⟩
  rw [Sound, hresult] at h
  obtain ⟨requested, file, offset, hsetup⟩ := h
  cases hcalls _ hsetup.setStatus

end Monoimage.Linuxrc
