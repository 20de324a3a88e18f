import Monoimage.Clib.Text

/-! `getopt_long` of the GNU C library, for tables without optional arguments and an
option string that does not ask for another order. -/
namespace Monoimage.Clib

/-- `struct option`; `flag` is NULL throughout. -/
structure LongOption where
  name : Text
  hasArg : Bool
  val : Nat
  deriving DecidableEq, Repr

structure Opt where
  val : Nat
  optarg : Option Text
  deriving DecidableEq, Repr

/-- `'?'`: an option that is not in the table, or not used as the table says. -/
def unknownOpt : Opt := ⟨'?'.toNat, none⟩

structure OptTable where
  short : Text
  long : List LongOption

def shortHasArg (short : Text) (c : Char) : Option Bool :=
  if c = ':' ∨ c = ';' then none
  else
    match strstr short [c] with
    | none => none
    | some found => some ((found.drop 1).head? = some ':')

/-- The entry of that name, or the one that the name abbreviates. An abbreviation of
several entries is accepted if they all mean the same. -/
def findLong (long : List LongOption) (name : Text) : Option LongOption :=
  match long.find? (·.name = name) with
  | some option => some option
  | none =>
    match long.filter fun option => name <+: option.name with
    | [] => none
    | option :: others =>
      if others.all fun other => other.hasArg = option.hasArg ∧ other.val = option.val then
        some option
      else none

/-- A word of the argument vector: what the calls for it return, and the option that
takes the next word for its argument. -/
inductive ArgWord where
  | operand
  | terminator
  | options (opts : List Opt) (pending : Option Nat)
  deriving DecidableEq, Repr

def shortOptions (short : Text) : Text → List Opt × Option Nat
  | [] => ([], none)
  | c :: rest =>
    match shortHasArg short c with
    | none =>
      let (opts, pending) := shortOptions short rest
      (unknownOpt :: opts, pending)
    | some false =>
      let (opts, pending) := shortOptions short rest
      (⟨c.toNat, none⟩ :: opts, pending)
    | some true => if rest = [] then ([], some c.toNat) else ([⟨c.toNat, some rest⟩], none)

def longOption (long : List LongOption) (word : Text) : ArgWord :=
  let name := word.takeWhile (· ≠ '=')
  match findLong long name, word.drop name.length with
  | none, _ => .options [unknownOpt] none
  | some option, [] =>
    if option.hasArg then .options [] (some option.val) else .options [⟨option.val, none⟩] none
  | some option, _ :: value =>
    if option.hasArg then .options [⟨option.val, some value⟩] none else .options [unknownOpt] none

def classify (table : OptTable) : Text → ArgWord
  | '-' :: '-' :: [] => .terminator
  | '-' :: '-' :: word => longOption table.long word
  | '-' :: c :: word =>
    let (opts, pending) := shortOptions table.short (c :: word)
    .options opts pending
  | _ => .operand

/-- What a loop over `getopt_long` sees, until it returns -1. `words` are the options with
their arguments and `operands` the rest, each in order: this is how the vector is
permuted. -/
structure Scanned where
  opts : List Opt
  words : List Text
  operands : List Text
  deriving DecidableEq, Repr

/-- `pending` is the option that waits for its argument. -/
def scan (table : OptTable) : Option Nat → List Text → Scanned
  | none, [] => ⟨[], [], []⟩
  | some _, [] => ⟨[unknownOpt], [], []⟩
  | some val, word :: rest =>
    let scanned := scan table none rest
    { scanned with opts := ⟨val, some word⟩ :: scanned.opts, words := word :: scanned.words }
  | none, word :: rest =>
    match classify table word with
    | .operand =>
      let scanned := scan table none rest
      { scanned with operands := word :: scanned.operands }
    | .terminator => ⟨[], [word], rest⟩
    | .options opts pending =>
      let scanned := scan table pending rest
      { scanned with opts := opts ++ scanned.opts, words := word :: scanned.words }

def getoptLong (table : OptTable) (argv : List Text) : Scanned :=
  scan table none argv.tail

def Scanned.argv (scanned : Scanned) (argv : List Text) : List Text :=
  argv.take 1 ++ (scanned.words ++ scanned.operands)

def Scanned.optind (scanned : Scanned) : Nat :=
  1 + scanned.words.length

variable {table : OptTable}

theorem classify_operand {c : Char} {word : Text} (hc : c ≠ '-') :
    classify table (c :: word) = .operand := by
  unfold classify
  split <;> simp_all

theorem classify_long {word : Text} (hword : word ≠ []) :
    classify table ('-' :: '-' :: word) = longOption table.long word := by
  cases word with
  | nil => exact absurd rfl hword
  | cons c word => rfl

theorem longOption_unknown {long : List LongOption} {name value : Text} (hname : '=' ∉ name)
    (hfind : findLong long name = none) :
    longOption long (name ++ '=' :: value) = .options [unknownOpt] none := by
  simp only [longOption, takeWhile_ne_append hname, hfind]

theorem longOption_value {long : List LongOption} {name value : Text} {option : LongOption}
    (hname : '=' ∉ name) (hfind : findLong long name = some option) (harg : option.hasArg = true) :
    longOption long (name ++ '=' :: value) = .options [⟨option.val, some value⟩] none := by
  simp only [longOption, takeWhile_ne_append hname, hfind, List.drop_left, harg, if_true]

theorem scan_operand {word : Text} {rest : List Text} (hword : classify table word = .operand) :
    scan table none (word :: rest) =
      { scan table none rest with operands := word :: (scan table none rest).operands } := by
  rw [scan, hword]

theorem scan_options {word : Text} {rest : List Text} {opts : List Opt} {pending : Option Nat}
    (hword : classify table word = .options opts pending) :
    scan table none (word :: rest) =
      { scan table pending rest with
        opts := opts ++ (scan table pending rest).opts
        words := word :: (scan table pending rest).words } := by
  rw [scan, hword]

/-- The vector is permuted: no word is lost, and none is added. -/
theorem scan_perm (table : OptTable) (pending : Option Nat) (argv : List Text) :
    ((scan table pending argv).words ++ (scan table pending argv).operands).Perm argv := by
  induction argv generalizing pending with
  | nil => cases pending <;> exact List.Perm.refl []
  | cons word rest ih =>
    cases pending with
    | some val => exact (ih none).cons word
    | none =>
      cases hword : classify table word with
      | operand =>
        rw [scan_operand hword]
        exact List.perm_middle.trans ((ih none).cons word)
      | terminator =>
        rw [scan, hword]
        exact List.Perm.refl (word :: rest)
      | options opts pending =>
        rw [scan_options hword]
        exact (ih pending).cons word

theorem tail_argv_perm (table : OptTable) (argv : List Text) :
    ((getoptLong table argv).argv argv).tail.Perm argv.tail := by
  have hscan := scan_perm table none argv.tail
  cases argv with
  | nil => exact List.Perm.refl []
  | cons name words => exact hscan

end Monoimage.Clib
