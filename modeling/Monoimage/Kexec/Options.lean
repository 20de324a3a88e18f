import Monoimage.Clib.Getopt

/-! The options of kexec: the passes of `main`, of `arch_process_options` and of
`monoimage_load` over one argument vector. -/
namespace Monoimage.Kexec

open Clib

/-! ## The tables -/

def optHelp : Nat := 'h'.toNat
def optVersion : Nat := 'v'.toNat
def optDebug : Nat := 'd'.toNat
def optForce : Nat := 'f'.toNat
def optNoifdown : Nat := 'x'.toNat
def optExec : Nat := 'e'.toNat
def optLoad : Nat := 'l'.toNat
def optUnload : Nat := 'u'.toNat
def optType : Nat := 't'.toNat
def optPanic : Nat := 'p'.toNat
def optMemMin : Nat := 256
def optMemMax : Nat := 257
def optMax : Nat := 258

def optResetVga : Nat := optMax + 0
def optSerial : Nat := optMax + 1
def optSerialBaud : Nat := optMax + 2
def optConsoleVga : Nat := optMax + 3
def optConsoleSerial : Nat := optMax + 4
def optArchMax : Nat := optMax + 5

def optAppend : Nat := optArchMax + 0
def optConfig : Nat := optArchMax + 1
def optRealMode : Nat := optArchMax + 2

def kexecOptStr : Text := "hvdfxluet:p".toList

def kexecOptions : List LongOption :=
  [⟨"help".toList, false, optHelp⟩, ⟨"version".toList, false, optVersion⟩,
   ⟨"force".toList, false, optForce⟩, ⟨"no-ifdown".toList, false, optNoifdown⟩,
   ⟨"load".toList, false, optLoad⟩, ⟨"unload".toList, false, optUnload⟩,
   ⟨"exec".toList, false, optExec⟩, ⟨"type".toList, true, optType⟩,
   ⟨"load-panic".toList, false, optPanic⟩, ⟨"mem-min".toList, true, optMemMin⟩,
   ⟨"mem-max".toList, true, optMemMax⟩]

def kexecArchOptions : List LongOption :=
  kexecOptions ++
    [⟨"reset-vga".toList, false, optResetVga⟩, ⟨"serial".toList, true, optSerial⟩,
     ⟨"serial-baud".toList, true, optSerialBaud⟩, ⟨"console-vga".toList, false, optConsoleVga⟩,
     ⟨"console-serial".toList, false, optConsoleSerial⟩]

def monoimageLongOptions : List LongOption :=
  kexecArchOptions ++
    [⟨"debug".toList, false, optDebug⟩, ⟨"command-line".toList, true, optAppend⟩,
     ⟨"append".toList, true, optAppend⟩, ⟨"config".toList, true, optConfig⟩,
     ⟨"real-mode".toList, false, optRealMode⟩]

def mainTable : OptTable := ⟨kexecOptStr, kexecOptions⟩

def archTable : OptTable := ⟨kexecOptStr, kexecArchOptions⟩

def monoimageTable : OptTable := ⟨kexecOptStr ++ ['d'], monoimageLongOptions⟩

/-! ## `strtoul` -/

def digitValue (c : Char) : Nat :=
  if '0' ≤ c ∧ c ≤ '9' then c.toNat - '0'.toNat
  else if 'a' ≤ c ∧ c ≤ 'z' then c.toNat - 'a'.toNat + 10
  else if 'A' ≤ c ∧ c ≤ 'Z' then c.toNat - 'A'.toNat + 10
  else 36

def ulongMax : Nat := 0xffffffff

def takeSign : Text → Bool × Text
  | '-' :: rest => (true, rest)
  | '+' :: rest => (false, rest)
  | text => (false, text)

/-- The base that the digits are read in, and the digits. A `0x` that no digit follows is
the number 0 and an `x`. -/
def takeBase (base : Nat) : Text → Nat × Text
  | '0' :: x :: d :: rest =>
    if (base = 0 ∨ base = 16) ∧ (x = 'x' ∨ x = 'X') ∧ digitValue d < 16 then (16, d :: rest)
    else if base = 0 then (8, '0' :: x :: d :: rest)
    else (base, '0' :: x :: d :: rest)
  | '0' :: rest => (if base = 0 then 8 else base, '0' :: rest)
  | text => (if base = 0 then 10 else base, text)

/-- The value and the text that `*endptr` is left at, with a 32 bit `unsigned long`. -/
def strtoul (text : Text) (base : Nat) : Nat × Text :=
  let (negative, body) := takeSign (text.dropWhile isspace)
  let (base, body) := takeBase base body
  let digits := body.takeWhile fun c => digitValue c < base
  if digits = [] then (0, text)
  else
    let value := digits.foldl (fun value c => value * base + digitValue c) 0
    (if ulongMax < value then ulongMax
      else if negative then (ulongMax + 1 - value) % (ulongMax + 1)
      else value,
      body.drop digits.length)

/-! ## The passes -/

inductive Stop where
  | returned (code : Int)
  | fault (f : Fault)
  deriving DecidableEq, Repr

structure MainFlags where
  doLoad : Bool := true
  doExec : Bool := false
  doShutdown : Bool := true
  doSync : Bool := true
  doIfdown : Bool := false
  doUnload : Bool := false
  onCrash : Bool := false
  type : Option Text := none
  memMin : Nat := 0
  memMax : Nat := ulongMax
  deriving DecidableEq, Repr

/-- `strtoul(optarg, &endptr, 0)`, for a value that has to be a number and nothing else. -/
def numberArg (opt : Opt) (bad : Int) : Except Stop Nat :=
  match opt.optarg with
  | none => .error (.fault .nullPointer)
  | some optarg =>
    let (value, rest) := strtoul optarg 0
    if rest = [] then .ok value else .error (.returned bad)

def mainOption (flags : MainFlags) (opt : Opt) : Except Stop MainFlags :=
  if opt.val = optHelp ∨ opt.val = optVersion then .error (.returned 0)
  else if opt.val = optNoifdown then .ok { flags with doIfdown := false }
  else if opt.val = optForce then
    .ok { flags with
      doLoad := true, doShutdown := false, doSync := true, doIfdown := true, doExec := true }
  else if opt.val = optLoad then
    .ok { flags with doLoad := true, doExec := false, doShutdown := false }
  else if opt.val = optUnload then
    .ok { flags with doLoad := false, doShutdown := false, doSync := false, doUnload := true }
  else if opt.val = optExec then
    .ok { flags with
      doLoad := false, doShutdown := false, doSync := true, doIfdown := true, doExec := true }
  else if opt.val = optType then .ok { flags with type := opt.optarg }
  else if opt.val = optPanic then
    .ok { flags with
      doLoad := true, doExec := false, doShutdown := false, doSync := false, onCrash := true }
  else if opt.val = optMemMin then do
    let value ← numberArg opt 1
    pure { flags with memMin := value }
  else if opt.val = optMemMax then do
    let value ← numberArg opt 1
    pure { flags with memMax := value }
  else .ok flags

structure ArchFlags where
  resetVga : Bool := false
  serialBase : Nat := 0x3f8
  serialBaud : Nat := 0
  consoleVga : Bool := false
  consoleSerial : Bool := false
  deriving DecidableEq, Repr

def serialPort (optarg : Text) : Nat :=
  if optarg = "ttyS0".toList then 0x3f8
  else if optarg = "ttyS1".toList then 0x2f8
  else if strncmpEq optarg "0x".toList 2 then
    let (value, rest) := strtoul (optarg.drop 2) 16
    if rest = [] then value else ulongMax
  else ulongMax

/-- The switch of `arch_process_options`. The baud rate is divided by before it is
compared with the smallest. -/
def archOption (flags : ArchFlags) (opt : Opt) : Except Stop ArchFlags :=
  if opt.val = optResetVga then .ok { flags with resetVga := true }
  else if opt.val = optConsoleVga then .ok { flags with consoleVga := true }
  else if opt.val = optConsoleSerial then .ok { flags with consoleSerial := true }
  else if opt.val = optSerial then
    match opt.optarg with
    | none => .error (.fault .nullPointer)
    | some optarg =>
      if serialPort optarg ≥ 65536 then .error (.returned (-1))
      else .ok { flags with serialBase := serialPort optarg }
  else if opt.val = optSerialBaud then
    match opt.optarg with
    | none => .error (.fault .nullPointer)
    | some optarg =>
      let (value, rest) := strtoul optarg 0
      if value > 115200 then .error (.returned (-1))
      else if value = 0 then .error (.fault .divisionByZero)
      else if 115200 % value ≠ 0 ∨ value < 9600 ∨ rest ≠ [] then .error (.returned (-1))
      else .ok { flags with serialBaud := value }
  else .ok flags

/-- What the loaders find: the flags of `main`, the index of the first operand, and the
vector as it has been permuted. -/
structure Passes where
  flags : MainFlags
  arch : ArchFlags
  fileind : Nat
  argv : List Text
  deriving DecidableEq, Repr

/-- The passes of `main` and of `arch_process_options`, each from `optind = 1` on. -/
def optionPasses (argv : List Text) : Except Stop Passes := do
  let scanned := getoptLong mainTable argv
  let flags ← scanned.opts.foldlM mainOption {}
  let argv := scanned.argv argv
  let archScanned := getoptLong archTable argv
  let arch ← archScanned.opts.foldlM archOption {}
  pure ⟨flags, arch, scanned.optind, archScanned.argv argv⟩

structure MonoimageOptions where
  debug : Bool := false
  realModeEntry : Bool := false
  commandLineAppend : Option Text := none
  configfile : Option Text := none
  deriving DecidableEq, Repr

inductive LoadError where
  | usage
  | configRequired
  deriving DecidableEq, Repr

def monoimageOption (options : MonoimageOptions) (opt : Opt) :
    Except LoadError MonoimageOptions :=
  if opt.val = unknownOpt.val then .error .usage
  else if opt.val = optDebug then .ok { options with debug := true }
  else if opt.val = optRealMode then .ok { options with realModeEntry := true }
  else if opt.val = optAppend then .ok { options with commandLineAppend := opt.optarg }
  else if opt.val = optConfig then .ok { options with configfile := opt.optarg }
  else if opt.val < optArchMax then .ok options
  else .error .usage

/-- The option parsing of `monoimage_load`, with the check of the mandatory option. -/
def monoimageOptions (argv : List Text) : Except LoadError MonoimageOptions := do
  let options ← (getoptLong monoimageTable argv).opts.foldlM monoimageOption {}
  if options.configfile = none then throw .configRequired
  pure options

/-- kexec loads, and `monoimage_load` takes the vector: with this text for the command line
and this configuration file. -/
def Accepts (argv : List Text) (append config : Text) : Prop :=
  ∃ passes options, optionPasses argv = .ok passes ∧ passes.flags.doLoad = true ∧
    monoimageOptions passes.argv = .ok options ∧
    options.commandLineAppend = some append ∧ options.configfile = some config

end Monoimage.Kexec
