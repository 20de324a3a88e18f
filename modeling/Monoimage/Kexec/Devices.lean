import Monoimage.Kexec.Monoimage

/-! The walk of `monoimage_load` over `/dev`, which looks for the devices of the image and of
the configuration file by their numbers. -/
namespace Monoimage.Kexec

open Clib Device CommandLine

/-! ## From the walk on -/

/-- `monoimage_load` has come to the walk: it has the options, has chosen the image, and
knows the numbers of the two devices. -/
structure AtWalk (env : LoadEnv) (argv : List Text) (options : MonoimageOptions)
    (image : Option Text) (imagesDev configDev : Nat) (names : List Text) : Prop where
  accepted : monoimageOptions argv = .ok options
  image : ∃ buf, findImage env env.imagesBuf ((getoptLong monoimageTable argv).argv argv).tail =
    .ok (image, buf) ∧ buf.dev = imagesDev
  config : ∃ buf, env.stat (options.configfile.getD []) = .ok buf ∧ buf.dev = configDev
  names : env.dev = some names

/-- What is left to prepare once the walk is over. -/
def afterWalk (env : LoadEnv) (options : MonoimageOptions) (image : Option Text)
    (found : Devices) : Except Stop Loading := do
  let imagesDev ← deviceName found.images
  let configDev ← deviceName found.config
  let (imagesUuid, configUuid) ← findUuids env imagesDev configDev
  let mpoint ← findMountPoint env.mounts imagesDev
  match image with
  | none => throw (.fault .nullPointer)
  | some image =>
    let path ← liftFault (relativePath mpoint image)
    let commandLine ← liftFault
      (composeCommandLine options.commandLineAppend path imagesUuid configUuid)
    pure ⟨options, commandLine⟩

theorem AtWalk.prepare_eq {env : LoadEnv} {argv : List Text} {options : MonoimageOptions}
    {image : Option Text} {imagesDev configDev : Nat} {names : List Text}
    (h : AtWalk env argv options image imagesDev configDev names) :
    prepare env argv = findDevices env imagesDev configDev names env.devbuf ⟨none, none⟩ >>=
      afterWalk env options image := by
  obtain ⟨imagesBuf, himage, rfl⟩ := h.image
  obtain ⟨configBuf, hconfig, rfl⟩ := h.config
  rw [prepare, h.accepted]
  dsimp only [Except.mapError, bind, Except.bind]
  rw [himage]
  dsimp only
  rw [hconfig]
  dsimp only
  rw [h.names]
  rfl

/-! No stage behind the walk ends with a return. -/

def NoReturn {α : Type} (x : Except Stop α) : Prop := ∀ code, x ≠ .error (.returned code)

section NoReturn

variable {α β : Type}

theorem noReturn_ok (a : α) : NoReturn (.ok a) := by
  intro code h
  cases h

theorem noReturn_fault (f : Fault) : NoReturn (.error (.fault f) : Except Stop α) := by
  intro code h
  cases h

theorem noReturn_liftFault (x : Except Fault α) : NoReturn (liftFault x) := by
  cases x with
  | error f => exact noReturn_fault f
  | ok a => exact noReturn_ok a

theorem NoReturn.bind {x : Except Stop α} {f : α → Except Stop β} (hx : NoReturn x)
    (hf : ∀ a, NoReturn (f a)) : NoReturn (x >>= f) := by
  cases x with
  | error stop =>
    intro code h
    exact hx code (congrArg Except.error (Except.error.inj h))
  | ok a => exact hf a

theorem noReturn_deviceName (found : Option Text) : NoReturn (deviceName found) := by
  cases found with
  | none => exact noReturn_fault _
  | some name => exact noReturn_ok name

theorem noReturn_findUuids (env : LoadEnv) (imagesDev configDev : Text) :
    NoReturn (findUuids env imagesDev configDev) := by
  unfold findUuids
  apply (noReturn_liftFault _).bind
  intro imagesUuid
  split
  · exact noReturn_ok _
  · exact (noReturn_liftFault _).bind fun configUuid => noReturn_ok _

theorem noReturn_findMountPoint (mounts : Option Text) (imagesDev : Text) :
    NoReturn (findMountPoint mounts imagesDev) := by
  unfold findMountPoint
  split
  · exact noReturn_fault _
  · split
    · exact noReturn_fault _
    · dsimp only
      split
      · exact noReturn_ok _
      · exact noReturn_fault _

theorem noReturn_afterWalk (env : LoadEnv) (options : MonoimageOptions) (image : Option Text)
    (found : Devices) : NoReturn (afterWalk env options image found) := by
  refine (noReturn_deviceName _).bind fun imagesDev => (noReturn_deviceName _).bind fun configDev =>
    (noReturn_findUuids env _ _).bind fun uuids =>
      (noReturn_findMountPoint _ _).bind fun mpoint => ?_
  cases image with
  | none => exact noReturn_fault _
  | some image =>
    exact (noReturn_liftFault _).bind fun path => (noReturn_liftFault _).bind fun line =>
      noReturn_ok _

end NoReturn

theorem loadImage_ne_returned (loading : Loading) (buf : Bytes) (code : Int) :
    (loadImage loading buf).finish ≠ .returned code := by
  unfold loadImage
  split
  · simp
  · split
    · simp
    · split <;> simp

theorem monoimageLoad_ne_returned {env : LoadEnv} {argv : List Text}
    (h : NoReturn (prepare env argv)) (buf : Bytes) (code : Int) :
    (monoimageLoad env argv buf).finish ≠ .returned code := by
  unfold monoimageLoad
  split
  · rename_i code' hprepare
    exact absurd hprepare (h code')
  · simp
  · exact loadImage_ne_returned _ _ _

/-! ## The walk -/

section Walk

variable {env : LoadEnv} {dev : Nat}

/-- What the walk should stop for: the `stat` of this very entry succeeds, and finds the
block device with that number. -/
def IsDevice (env : LoadEnv) (dev : Nat) (name : Text) : Prop :=
  ∃ buf, env.stat (devPath name) = .ok buf ∧ buf.block = true ∧ buf.rdev = dev

/-- The walk for one of the two devices. -/
def walkFor (env : LoadEnv) (dev : Nat) : List Text → StatBuf → Option Text → Option Text
  | [], _, found => found
  | name :: rest, devbuf, found =>
    match env.stat (devPath name) with
    | .error _ =>
      walkFor env dev rest devbuf
        (if devbuf.rdev = dev ∧ devbuf.block then some (devPath name) else found)
    | .ok devbuf =>
      walkFor env dev rest devbuf
        (if devbuf.rdev = dev ∧ devbuf.block then some (devPath name) else found)

/-- The buffer that the entry is judged by. -/
def bufferAfter (env : LoadEnv) (name : Text) (devbuf : StatBuf) : StatBuf :=
  match env.stat (devPath name) with
  | .ok buf => buf
  | .error _ => devbuf

theorem walkFor_cons {dev : Nat} {name : Text} {rest : List Text} {devbuf : StatBuf}
    {found : Option Text} :
    walkFor env dev (name :: rest) devbuf found =
      walkFor env dev rest (bufferAfter env name devbuf)
        (if (bufferAfter env name devbuf).rdev = dev ∧ (bufferAfter env name devbuf).block then
          some (devPath name) else found) := by
  rw [walkFor, bufferAfter]
  cases env.stat (devPath name) with
  | error e => rfl
  | ok buf => rfl

def NamesFit (names : List Text) : Prop := ∀ name ∈ names, (devPath name).length < bufMax

/-- Every entry can be statted, or is not there. -/
def Statted (env : LoadEnv) (names : List Text) : Prop :=
  ∀ name ∈ names, env.stat (devPath name) ≠ .error .other

section Both

variable {imagesDev configDev : Nat} {names : List Text} {devbuf : StatBuf} {found : Devices}

theorem findDevices_cons {name : Text} {rest : List Text}
    (hname : (devPath name).length < bufMax) (hstat : env.stat (devPath name) ≠ .error .other) :
    findDevices env imagesDev configDev (name :: rest) devbuf found =
      findDevices env imagesDev configDev rest (bufferAfter env name devbuf)
        (found.judge imagesDev configDev (devPath name) (bufferAfter env name devbuf)) := by
  rw [findDevices, store_of_lt hname, bufferAfter]
  dsimp only
  cases h : env.stat (devPath name) with
  | error e =>
    cases e with
    | other => exact absurd h hstat
    | enoent => rfl
  | ok buf => rfl

theorem findDevices_of_fit (hstatted : Statted env names) (hfit : NamesFit names) :
    findDevices env imagesDev configDev names devbuf found =
      .ok ⟨walkFor env imagesDev names devbuf found.images,
        walkFor env configDev names devbuf found.config⟩ := by
  induction names generalizing devbuf found with
  | nil => rfl
  | cons name rest ih =>
    obtain ⟨hname, hrest⟩ := List.forall_mem_cons.mp hfit
    obtain ⟨hstat, hothers⟩ := List.forall_mem_cons.mp hstatted
    rw [findDevices_cons hname hstat, walkFor_cons, walkFor_cons]
    exact ih hothers hrest

theorem findDevices_of_not_fit (hstatted : Statted env names) (hfit : ¬ NamesFit names) :
    findDevices env imagesDev configDev names devbuf found = .error (.fault .overflow) := by
  induction names generalizing devbuf found with
  | nil => exact absurd (by simp [NamesFit]) hfit
  | cons name rest ih =>
    obtain ⟨hstat, hothers⟩ := List.forall_mem_cons.mp hstatted
    by_cases hname : (devPath name).length < bufMax
    · have hrest : ¬ NamesFit rest := fun h => hfit (List.forall_mem_cons.mpr ⟨hname, h⟩)
      rw [findDevices_cons hname hstat]
      exact ih hothers hrest
    · rw [findDevices, store_of_le (Nat.not_lt.mp hname)]

end Both

/-- The last entry for the device is not followed by one that is not there. -/
def EndsOnDevice (env : LoadEnv) (dev : Nat) (names : List Text) : Prop :=
  ∃ before name after, names = before ++ name :: after ∧ IsDevice env dev name ∧
    (∀ other ∈ after, ¬ IsDevice env dev other) ∧
    ∀ next ∈ after.head?, env.stat (devPath next) ≠ .error .enoent

/-- A path that was set is that of an entry for the device. -/
def NamesDevice (env : LoadEnv) (dev : Nat) (path : Option Text) : Prop :=
  ∃ name, IsDevice env dev name ∧ path = some (devPath name)

/-- The rest of the walk leaves what has been found, with this buffer from the last entry. -/
def Leaves (env : LoadEnv) (dev : Nat) (names : List Text) (devbuf : StatBuf) : Prop :=
  (∀ name ∈ names, ¬ IsDevice env dev name) ∧
    ∀ next ∈ names.head?, env.stat (devPath next) = .error .enoent →
      ¬ (devbuf.rdev = dev ∧ devbuf.block)

theorem endsOnDevice_cons_iff {name : Text} {rest : List Text} :
    EndsOnDevice env dev (name :: rest) ↔
      EndsOnDevice env dev rest ∨ IsDevice env dev name ∧
        (∀ other ∈ rest, ¬ IsDevice env dev other) ∧
        ∀ next ∈ rest.head?, env.stat (devPath next) ≠ .error .enoent := by
  constructor
  · rintro ⟨before, last, after, hsplit, hlast⟩
    cases before with
    | nil =>
      obtain ⟨rfl, rfl⟩ := List.cons.inj hsplit
      exact Or.inr hlast
    | cons first before =>
      obtain ⟨rfl, rfl⟩ := List.cons.inj hsplit
      exact Or.inl ⟨before, last, after, rfl, hlast⟩
  · rintro (⟨before, last, after, rfl, hlast⟩ | hlast)
    · exact ⟨name :: before, last, after, rfl, hlast⟩
    · exact ⟨[], name, rest, rfl, hlast⟩

theorem isDevice_of_ok {name : Text} {buf : StatBuf} (h : env.stat (devPath name) = .ok buf) :
    IsDevice env dev name ↔ buf.rdev = dev ∧ buf.block = true := by
  simp [IsDevice, h, and_comm]

theorem not_isDevice_of_error {name : Text} {e : Errno}
    (h : env.stat (devPath name) = .error e) : ¬ IsDevice env dev name := by
  simp [IsDevice, h]

/-- A path that was set for an entry which is not there is nobody's. -/
theorem not_namesDevice_of_error {name : Text} {e : Errno}
    (h : env.stat (devPath name) = .error e) : ¬ NamesDevice env dev (some (devPath name)) := by
  rintro ⟨other, ⟨buf, hstat, -⟩, hpath⟩
  rw [← Option.some.inj hpath, h] at hstat
  cases hstat

/-- The induction is on the entries that are left; what matters of those behind is the buffer
and the path that they leave. -/
theorem namesDevice_walkFor_iff {names : List Text} {devbuf : StatBuf} {found : Option Text}
    (hstatted : Statted env names) :
    NamesDevice env dev (walkFor env dev names devbuf found) ↔
      EndsOnDevice env dev names ∨ Leaves env dev names devbuf ∧ NamesDevice env dev found := by
  induction names generalizing devbuf found with
  | nil => simp [walkFor, EndsOnDevice, Leaves]
  | cons name rest ih =>
    obtain ⟨hstat, hothers⟩ := List.forall_mem_cons.mp hstatted
    rw [walkFor, endsOnDevice_cons_iff, or_assoc]
    cases h : env.stat (devPath name) with
    | ok buf =>
      have hdevice : IsDevice env dev name ↔ buf.rdev = dev ∧ buf.block = true := isDevice_of_ok h
      dsimp only
      rw [ih hothers]
      by_cases hmatch : buf.rdev = dev ∧ buf.block = true
      · have hname : NamesDevice env dev (some (devPath name)) := ⟨name, hdevice.mpr hmatch, rfl⟩
        simp [Leaves, hmatch, hdevice, hname]
      · simp [Leaves, hmatch, hdevice, h]
    | error e =>
      cases e with
      | other => exact absurd h hstat
      | enoent =>
        have hdevice : ¬ IsDevice env dev name := not_isDevice_of_error h
        have hname : ¬ NamesDevice env dev (some (devPath name)) := not_namesDevice_of_error h
        dsimp only
        rw [ih hothers]
        by_cases hmatch : devbuf.rdev = dev ∧ devbuf.block = true
        · simp [Leaves, hmatch, hdevice, hname, h]
        · simp [Leaves, hmatch, hdevice]

theorem namesDevice_walkFor_none_iff {names : List Text} {devbuf : StatBuf}
    (hstatted : Statted env names) :
    NamesDevice env dev (walkFor env dev names devbuf none) ↔ EndsOnDevice env dev names := by
  rw [namesDevice_walkFor_iff hstatted]
  simp [NamesDevice]

theorem mem_of_walkFor {names : List Text} {devbuf : StatBuf} {found : Option Text} {path : Text}
    (h : walkFor env dev names devbuf found = some path) :
    found = some path ∨ ∃ name ∈ names, path = devPath name := by
  induction names generalizing devbuf found with
  | nil => exact Or.inl h
  | cons name rest ih =>
    rw [walkFor_cons] at h
    rcases ih h with hset | ⟨n, hn, rfl⟩
    · split at hset
      · exact Or.inr ⟨name, List.mem_cons_self, (Option.some.inj hset).symm⟩
      · exact Or.inl hset
    · exact Or.inr ⟨n, List.mem_cons_of_mem _ hn, rfl⟩

theorem devPath_injective {a b : Text} (h : devPath a = devPath b) : a = b :=
  List.append_cancel_left h

theorem EndsOnDevice.walkFor {names : List Text} (hstatted : Statted env names)
    (h : EndsOnDevice env dev names) (devbuf : StatBuf) :
    ∃ name ∈ names, IsDevice env dev name ∧
      walkFor env dev names devbuf none = some (devPath name) := by
  have hnames : NamesDevice env dev (Kexec.walkFor env dev names devbuf none) :=
    (namesDevice_walkFor_none_iff hstatted).mpr h
  obtain ⟨name, hdevice, hpath⟩ := hnames
  obtain hnone | ⟨other, hmem, heq⟩ := mem_of_walkFor hpath
  · cases hnone
  · obtain rfl := devPath_injective heq
    exact ⟨name, hmem, hdevice, hpath⟩

end Walk

/-! ## What the walk is for -/

/-- Where `/dev` has the device, `path` is set to an entry for it; where it has not, the load
is refused. -/
def FindsDevice (env : LoadEnv) (argv names : List Text) (dev : Nat)
    (path : Except Stop (Option Text)) : Prop :=
  ((∃ name ∈ names, IsDevice env dev name) →
    ∃ name ∈ names, IsDevice env dev name ∧ path = .ok (some (devPath name))) ∧
  ((¬ ∃ name ∈ names, IsDevice env dev name) →
    ∀ buf, (monoimageLoad env argv buf).finish = .returned (-1))

/-- Both `images_dev` and `config_dev`, as the walk leaves them. -/
def FindsDevices (env : LoadEnv) (argv names : List Text) (imagesDev configDev : Nat) : Prop :=
  let found := findDevices env imagesDev configDev names env.devbuf ⟨none, none⟩
  FindsDevice env argv names imagesDev (found.map (·.images)) ∧
    FindsDevice env argv names configDev (found.map (·.config))

section Found

variable {env : LoadEnv} {argv names : List Text} {options : MonoimageOptions}
  {image : Option Text} {imagesDev configDev : Nat}

theorem AtWalk.ne_returned (h : AtWalk env argv options image imagesDev configDev names)
    (hstatted : Statted env names) (buf : Bytes) (code : Int) :
    (monoimageLoad env argv buf).finish ≠ .returned code := by
  apply monoimageLoad_ne_returned
  rw [h.prepare_eq]
  refine NoReturn.bind ?_ (noReturn_afterWalk env options image)
  by_cases hfit : NamesFit names
  · rw [findDevices_of_fit hstatted hfit]
    exact noReturn_ok _
  · rw [findDevices_of_not_fit hstatted hfit]
    exact noReturn_fault _

/-- A load that is never refused depends on the last entry for the device. -/
theorem findsDevice_iff (hnever : ∀ buf, (monoimageLoad env argv buf).finish ≠ .returned (-1))
    (hstatted : Statted env names) {dev : Nat} {devbuf : StatBuf} :
    FindsDevice env argv names dev (.ok (walkFor env dev names devbuf none)) ↔
      EndsOnDevice env dev names := by
  constructor
  · rintro ⟨hfinds, hrefuses⟩
    by_cases hexists : ∃ name ∈ names, IsDevice env dev name
    · obtain ⟨name, -, hdevice, hpath⟩ := hfinds hexists
      exact (namesDevice_walkFor_none_iff hstatted).mp ⟨name, hdevice, Except.ok.inj hpath⟩
    · exact absurd (hrefuses hexists []) (hnever [])
  · intro hends
    obtain ⟨name, hmem, hdevice, hpath⟩ := hends.walkFor hstatted devbuf
    refine ⟨fun _ => ⟨name, hmem, hdevice, congrArg _ hpath⟩, fun hnone => ?_⟩
    exact absurd ⟨name, hmem, hdevice⟩ hnone

theorem not_findsDevice_error (hnever : ∀ buf, (monoimageLoad env argv buf).finish ≠ .returned (-1))
    {dev : Nat} {stop : Stop} : ¬ FindsDevice env argv names dev (.error stop) := by
  rintro ⟨hfinds, hrefuses⟩
  by_cases hexists : ∃ name ∈ names, IsDevice env dev name
  · obtain ⟨name, -, -, hpath⟩ := hfinds hexists
    cases hpath
  · exact hnever [] (hrefuses hexists [])

/-- The walk does what it is for exactly if no name is too long for its buffer, and the last
entry for either device is not followed by one that is not there. -/
theorem findsDevices_iff (h : AtWalk env argv options image imagesDev configDev names)
    (hstatted : Statted env names) :
    FindsDevices env argv names imagesDev configDev ↔
      NamesFit names ∧ EndsOnDevice env imagesDev names ∧ EndsOnDevice env configDev names := by
  have hnever (buf : Bytes) := h.ne_returned hstatted buf (-1)
  unfold FindsDevices
  by_cases hfit : NamesFit names
  · rw [findDevices_of_fit hstatted hfit]
    dsimp only [Except.map]
    rw [findsDevice_iff hnever hstatted, findsDevice_iff hnever hstatted]
    simp [hfit]
  · rw [findDevices_of_not_fit hstatted hfit]
    dsimp only [Except.map]
    simp [hfit, not_findsDevice_error hnever]

end Found

theorem atWalk_exampleArgv : AtWalk exampleEnv exampleArgv
    { configfile := some "mb.conf".toList } (some "/images/funky.img".toList) 0x303 0x303
    ["hda3".toList] :=
  ⟨by decide +kernel, ⟨⟨0x303, 0, false⟩, by decide +kernel, rfl⟩,
    ⟨⟨0x303, 0, false⟩, by decide, rfl⟩, rfl⟩

theorem isDevice_hda3 : IsDevice exampleEnv 0x303 "hda3".toList :=
  ⟨⟨5, 0x303, true⟩, by decide, rfl, rfl⟩

theorem findsDevices_exampleArgv :
    FindsDevices exampleEnv exampleArgv ["hda3".toList] 0x303 0x303 := by
  have hends : EndsOnDevice exampleEnv 0x303 ["hda3".toList] :=
    ⟨[], _, [], rfl, isDevice_hda3, by simp, by simp⟩
  have hstatted : Statted exampleEnv ["hda3".toList] := by
    unfold Statted
    decide
  refine (findsDevices_iff atWalk_exampleArgv hstatted).mpr ⟨?_, hends, hends⟩
  unfold NamesFit
  decide

/-- The entry behind that of the device is not there any more. -/
def goneEnv : LoadEnv := { exampleEnv with dev := some ["hda3".toList, "gone".toList] }

/-- `images_dev` is the name of the entry that is not there. -/
theorem not_findsDevices_goneEnv :
    AtWalk goneEnv exampleArgv { configfile := some "mb.conf".toList }
        (some "/images/funky.img".toList) 0x303 0x303 ["hda3".toList, "gone".toList] ∧
      goneEnv.stat (devPath "gone".toList) = .error .enoent ∧
      (findDevices goneEnv 0x303 0x303 ["hda3".toList, "gone".toList] goneEnv.devbuf
        ⟨none, none⟩).map (·.images) = .ok (some "/dev/gone".toList) ∧
      ¬ FindsDevices goneEnv exampleArgv ["hda3".toList, "gone".toList] 0x303 0x303 := by
  have hwalk : (findDevices goneEnv 0x303 0x303 ["hda3".toList, "gone".toList] goneEnv.devbuf
      ⟨none, none⟩).map (·.images) = .ok (some "/dev/gone".toList) := by
    decide
  have hgone : goneEnv.stat (devPath "gone".toList) = .error .enoent := by decide
  refine ⟨?_, hgone, hwalk, ?_⟩
  · exact ⟨by decide +kernel, ⟨⟨0x303, 0, false⟩, by decide +kernel, rfl⟩,
      ⟨⟨0x303, 0, false⟩, by decide, rfl⟩, rfl⟩
  · rintro ⟨⟨hfinds, -⟩, -⟩
    obtain ⟨name, -, hdevice, hpath⟩ := hfinds ⟨_, List.mem_cons_self, isDevice_hda3⟩
    rw [hwalk] at hpath
    obtain rfl : "gone".toList = name := devPath_injective (Option.some.inj (Except.ok.inj hpath))
    exact not_isDevice_of_error hgone hdevice

end Monoimage.Kexec
