import Monoimage.Linuxrc.Main

/-! What each stage of `linuxrc` gives, and where it leaves the defined behaviour. -/
namespace Monoimage.Linuxrc

open Clib CommandLine Device Image

/-! ## The command line -/

theorem length_line {env : LinuxrcEnv} {line : Text} (h : env.line = some line) :
    line.length < bufMax := by
  unfold LinuxrcEnv.line at h
  obtain ⟨stream, -, h⟩ := Option.bind_eq_some_iff.mp h
  obtain ⟨⟨line', rest⟩, hfgets, rfl⟩ := Option.map_eq_some_iff.mp h
  unfold fgets at hfgets
  split at hfgets
  · cases hfgets
  · have hle := length_readLine_le (bufMax - 1) stream
    rw [Option.some.inj hfgets] at hle
    exact Nat.lt_of_le_of_lt hle (by decide)

/-- What the three variables give. -/
structure Reads (line : Text) (value : Text) (vars : Vars) : Prop where
  image : getCmdlineVar line "F".toList = .ok (some value)
  imagefile : vars.imagefile = imagesDir ++ value
  fits : (imagesDir ++ value).length < bufMax
  imageuuid : getCmdlineVar line "I".toList = .ok (some vars.imageuuid)
  configuuid : getCmdlineVar line "C".toList = .ok (some vars.configuuid)

/-- A name at the end of the line, or an image name that is too long for its buffer. The
variables are taken in turn. -/
inductive LineDerails (line : Text) : Prop
  | imageAtEnd (hend : AtEnd line "F".toList)
  | imageTooLong {value : Text} (himage : getCmdlineVar line "F".toList = .ok (some value))
      (hlong : bufMax ≤ (imagesDir ++ value).length)
  | uuidAtEnd {value : Text} (himage : getCmdlineVar line "F".toList = .ok (some value))
      (hend : AtEnd line "I".toList)
  | configAtEnd {value uuid : Text} (himage : getCmdlineVar line "F".toList = .ok (some value))
      (huuid : getCmdlineVar line "I".toList = .ok (some uuid)) (hend : AtEnd line "C".toList)

theorem parseVars_ok_iff {env : LinuxrcEnv} {line : Text} {vars : Vars}
    (hline : line.length < bufMax) :
    (parseVars env line).result = .ok vars ↔ ∃ value, Reads line value vars := by
  simp only [parseVars, Traced.result_bind_ok_iff, defined_ok_iff, mustFind_ok_iff,
    Traced.result_pure, store_eq_ok_iff]
  constructor
  · rintro ⟨_, himage, value, rfl, _, ⟨hfits, rfl⟩, _, huuid, uuid, rfl, _, ⟨-, rfl⟩, _, hconfig,
      config, rfl, _, ⟨-, rfl⟩, hvars⟩
    obtain rfl := Except.ok.inj hvars
    exact ⟨value, himage, rfl, hfits, huuid, hconfig⟩
  · rintro ⟨value, h⟩
    refine ⟨_, h.image, value, rfl, _, ⟨h.fits, rfl⟩, _, h.imageuuid, _, rfl, _, ⟨?_, rfl⟩, _,
      h.configuuid, _, rfl, _, ⟨?_, rfl⟩, ?_⟩
    · exact (length_getCmdlineVar h.imageuuid).trans_lt hline
    · exact (length_getCmdlineVar h.configuuid).trans_lt hline
    · rw [← h.imagefile]

theorem faults_parseVars_iff {env : LinuxrcEnv} {line : Text} (hline : line.length < bufMax) :
    Faults (parseVars env line) ↔ LineDerails line := by
  simp only [parseVars, faults_bind_iff, defined_ok_iff, mustFind_ok_iff, faults_defined_iff,
    not_faults_mustFind, not_faults_pure, false_or, or_false, and_false, exists_false,
    getCmdlineVar_error_iff, store_error_iff]
  constructor
  · rintro (hend | ⟨_, himage, value, rfl, hlong | ⟨_, -, hend | ⟨_, huuid, uuid, rfl, hlong |
      ⟨_, -, hend | ⟨_, hconfig, config, rfl, hlong⟩⟩⟩⟩⟩)
    · exact .imageAtEnd hend
    · exact .imageTooLong himage hlong
    · exact .uuidAtEnd himage hend
    · exact absurd ((length_getCmdlineVar huuid).trans_lt hline) (Nat.not_lt.mpr hlong)
    · exact .configAtEnd himage huuid hend
    · exact absurd ((length_getCmdlineVar hconfig).trans_lt hline) (Nat.not_lt.mpr hlong)
  · intro h
    cases h with
    | imageAtEnd hend => exact Or.inl hend
    | imageTooLong himage hlong => exact Or.inr ⟨_, himage, _, rfl, Or.inl hlong⟩
    | uuidAtEnd himage hend =>
      rename_i value
      refine Or.inr ⟨_, himage, value, rfl, ?_⟩
      by_cases hfits : (imagesDir ++ value).length < bufMax
      · exact Or.inr ⟨_, store_of_lt hfits, Or.inl hend⟩
      · exact Or.inl (Nat.not_lt.mp hfits)
    | configAtEnd himage huuid hend =>
      rename_i value uuid
      refine Or.inr ⟨_, himage, value, rfl, ?_⟩
      by_cases hfits : (imagesDir ++ value).length < bufMax
      · have huuidFits := (length_getCmdlineVar huuid).trans_lt hline
        exact Or.inr ⟨_, store_of_lt hfits, Or.inr ⟨_, huuid, uuid, rfl,
          Or.inr ⟨_, store_of_lt huuidFits, Or.inl hend⟩⟩⟩
      · exact Or.inl (Nat.not_lt.mp hfits)

/-! ## The images device -/

def Hit (imageuuid : Text) (dev : DevEntry) : Prop :=
  dev.block = true ∧ imageuuid = ext2Uuid dev.superblock

/-- The walk gets to an entry whose name is too long. -/
def WalkDerails (imageuuid : Text) (devs : List DevEntry) : Prop :=
  ∃ before dev after, devs = before ++ dev :: after ∧ (∀ d ∈ before, ¬ Hit imageuuid d) ∧ ¬ dev.Fits

theorem walkDerails_cons_iff {imageuuid : Text} {dev : DevEntry} {rest : List DevEntry} :
    WalkDerails imageuuid (dev :: rest) ↔
      ¬ dev.Fits ∨ ¬ Hit imageuuid dev ∧ WalkDerails imageuuid rest := by
  constructor
  · rintro ⟨before, long, after, hsplit, hpass, hlong⟩
    cases before with
    | nil =>
      obtain ⟨rfl, rfl⟩ := List.cons.inj hsplit
      exact Or.inl hlong
    | cons first before =>
      obtain ⟨rfl, rfl⟩ := List.cons.inj hsplit
      rw [List.forall_mem_cons] at hpass
      exact Or.inr ⟨hpass.1, before, long, after, rfl, hpass.2, hlong⟩
  · rintro (hlong | ⟨hpass, before, long, after, rfl, hrest, hlong⟩)
    · exact ⟨[], dev, rest, rfl, by simp, hlong⟩
    · exact ⟨dev :: before, long, after, rfl, List.forall_mem_cons.mpr ⟨hpass, hrest⟩, hlong⟩

theorem walkDev_error_iff {imageuuid : Text} {devs : List DevEntry} :
    (∃ f, walkDev imageuuid devs = .error f) ↔ WalkDerails imageuuid devs := by
  induction devs with
  | nil => simp [walkDev, WalkDerails]
  | cons dev rest ih =>
    rw [walkDerails_cons_iff]
    by_cases hfits : dev.Fits
    · by_cases hhit : Hit imageuuid dev
      · rw [walkDev_hit hfits hhit.1 hhit.2]
        simp [hfits, hhit]
      · rw [walkDev_pass hfits fun hblock huuid => hhit ⟨hblock, huuid⟩, ih]
        simp [hfits, hhit]
    · rw [walkDev_overflow hfits]
      simp [hfits]

theorem mountDev_ok_iff {env : LinuxrcEnv} {found : Option DevEntry} {u : Unit} :
    (mountDev env found).result = .ok u ↔ ∀ dev, found = some dev → env.mountImages dev = true := by
  cases found with
  | none => simp [mountDev]
  | some dev => simp [mountDev, Traced.result_bind_ok_iff]

@[simp] theorem not_faults_mountDev {env : LinuxrcEnv} (found : Option DevEntry) :
    ¬ Faults (mountDev env found) := by
  cases found with
  | none => simp [mountDev]
  | some dev => simp [mountDev, faults_bind_iff]

theorem mountImages_ok_iff {env : LinuxrcEnv} {imageuuid : Text} {u : Unit} :
    (mountImages env imageuuid).result = .ok u ↔
      ∃ devs, env.dev = some devs ∧ ∃ found, walkDev imageuuid devs = .ok found ∧
        ∀ dev, found = some dev → env.mountImages dev = true := by
  simp only [mountImages, Traced.result_bind_ok_iff, defined_ok_iff, mustFind_ok_iff,
    mountDev_ok_iff]

theorem faults_mountImages_iff {env : LinuxrcEnv} {imageuuid : Text} :
    Faults (mountImages env imageuuid) ↔
      ∃ devs, env.dev = some devs ∧ WalkDerails imageuuid devs := by
  simp only [mountImages, faults_bind_iff, not_faults_mustFind, not_faults_mountDev, false_or,
    or_false, and_false, exists_false, mustFind_ok_iff, faults_defined_iff, walkDev_error_iff]

/-! ## The image -/

/-- The file that the header is read from. -/
inductive Chosen (env : LinuxrcEnv) (requested : Text) : Text → Prop
  | requested (hstat : env.statImage = true) : Chosen env requested requested
  | failsafe (hstat : env.statImage = false) (hmount : env.mountFailsafe = true)
      (hfound : env.statFailsafe = true) : Chosen env requested failsafe

theorem chooseImage_ok_iff {env : LinuxrcEnv} {requested imagefile : Text} :
    (chooseImage env requested).result = .ok imagefile ↔ Chosen env requested imagefile := by
  constructor
  · intro h
    cases hstat : env.statImage with
    | true =>
      obtain rfl : requested = imagefile := by
        simpa [chooseImage, Traced.result_bind_ok_iff, hstat] using h
      exact .requested hstat
    | false =>
      obtain ⟨hmount, hfound, rfl⟩ : env.mountFailsafe = true ∧ env.statFailsafe = true ∧
          failsafe = imagefile := by
        simpa [chooseImage, Traced.result_bind_ok_iff, hstat] using h
      exact .failsafe hstat hmount hfound
  · intro h
    cases h with
    | requested hstat => simp [chooseImage, Traced.result_bind_ok_iff, hstat]
    | failsafe hstat hmount hfound =>
      simp [chooseImage, Traced.result_bind_ok_iff, hstat, hmount, hfound]

@[simp] theorem not_faults_chooseImage {env : LinuxrcEnv} (requested : Text) :
    ¬ Faults (chooseImage env requested) := by
  cases hstat : env.statImage <;> simp [chooseImage, faults_bind_iff, hstat]

theorem readHeader_ok_iff {env : LinuxrcEnv} {imagefile : Text} {offset : Nat} :
    (readHeader env imagefile).result = .ok offset ↔
      env.image.bind readRootfsOffset = some offset := by
  simp [readHeader, Traced.result_bind_ok_iff, Option.bind_eq_some_iff]

@[simp] theorem not_faults_readHeader {env : LinuxrcEnv} (imagefile : Text) :
    ¬ Faults (readHeader env imagefile) := by
  simp [readHeader, faults_bind_iff]

/-! ## Up to `set_loop` -/

/-- What has gone well by then. -/
structure Reaches (env : LinuxrcEnv) (vars : Vars) (imagefile : Text) (offset : Nat) : Prop where
  mounted : env.mountProc = true
  reads : ∃ line value, env.line = some line ∧ Reads line value vars
  walked : ∃ devs, env.dev = some devs ∧ ∃ found, walkDev vars.imageuuid devs = .ok found ∧
    ∀ dev, found = some dev → env.mountImages dev = true
  chosen : Chosen env vars.imagefile imagefile
  header : env.image.bind readRootfsOffset = some offset

/-- The line or the walk leaves the defined behaviour. -/
def Derails (env : LinuxrcEnv) : Prop :=
  env.mountProc = true ∧ ∃ line, env.line = some line ∧
    (LineDerails line ∨ ∃ value vars devs, Reads line value vars ∧ env.dev = some devs ∧
      WalkDerails vars.imageuuid devs)

theorem findRootfs_ok_iff {env : LinuxrcEnv} {imagefile : Text} {offset : Nat} :
    (findRootfs env).result = .ok (imagefile, offset) ↔
      ∃ vars, Reaches env vars imagefile offset := by
  simp only [findRootfs, Traced.result_bind_ok_iff, Traced.result_emit, Traced.result_pure,
    must_ok_iff, mustFind_ok_iff, mountImages_ok_iff, chooseImage_ok_iff, readHeader_ok_iff]
  constructor
  · rintro ⟨-, -, -, hproc, line, hline, vars, hvars, -, hwalked, file, hchosen, o, hheader,
      hresult⟩
    obtain ⟨rfl, rfl⟩ := Prod.mk.inj (Except.ok.inj hresult)
    obtain ⟨value, hreads⟩ := (parseVars_ok_iff (length_line hline)).mp hvars
    exact ⟨vars, hproc, ⟨line, value, hline, hreads⟩, hwalked, hchosen, hheader⟩
  · rintro ⟨vars, h⟩
    obtain ⟨line, value, hline, hreads⟩ := h.reads
    exact ⟨(), trivial, (), h.mounted, line, hline, vars,
      (parseVars_ok_iff (length_line hline)).mpr ⟨value, hreads⟩, (), h.walked, imagefile, h.chosen,
      offset, h.header, rfl⟩

theorem faults_findRootfs_iff {env : LinuxrcEnv} : Faults (findRootfs env) ↔ Derails env := by
  simp only [findRootfs, faults_bind_iff, Traced.result_emit, must_ok_iff, mustFind_ok_iff,
    not_faults_emit, not_faults_must, not_faults_mustFind, not_faults_chooseImage,
    not_faults_readHeader, not_faults_pure, faults_mountImages_iff, false_or, or_false, and_false,
    exists_false]
  constructor
  · rintro ⟨-, -, -, hproc, line, hline, hfaults | ⟨vars, hvars, devs, hdevs, hwalk⟩⟩
    · exact ⟨hproc, line, hline, Or.inl ((faults_parseVars_iff (length_line hline)).mp hfaults)⟩
    · obtain ⟨value, hreads⟩ := (parseVars_ok_iff (length_line hline)).mp hvars
      exact ⟨hproc, line, hline, Or.inr ⟨value, vars, devs, hreads, hdevs, hwalk⟩⟩
  · rintro ⟨hproc, line, hline, hderails | ⟨value, vars, devs, hreads, hdevs, hwalk⟩⟩
    · exact ⟨(), trivial, (), hproc, line, hline,
        Or.inl ((faults_parseVars_iff (length_line hline)).mpr hderails)⟩
    · exact ⟨(), trivial, (), hproc, line, hline,
        Or.inr ⟨vars, (parseVars_ok_iff (length_line hline)).mpr ⟨value, hreads⟩, devs, hdevs,
          hwalk⟩⟩

end Monoimage.Linuxrc
