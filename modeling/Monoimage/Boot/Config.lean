import Monoimage.Clib.Files

/-! The configuration of `mbconf.h`, and the part of libconfuse that monoboot
relies on. -/
namespace Monoimage.Boot

open Clib

structure ImageSec where
  title : Text
  filename : Option Text
  deriving DecidableEq, Repr

structure NetworkSec where
  title : Text
  address : Option Text
  gateway : Option Text
  deriving DecidableEq, Repr

/-- A `cfg_t` over `opts`: the value of every option and the sections in order. -/
structure Config where
  version : Int
  delay : Int
  bootonce : Text
  tryonce : Text
  default : Text
  fallback : Text
  lasttry : Text
  lastboot : Text
  images : List ImageSec
  networks : List NetworkSec
  line : List Text
  password : Text
  deriving DecidableEq, Repr

def noneText : Text := "none".toList

/-- Comments and blank lines. `inComment` is whether a `#` has been read since the
last newline. -/
def commentsOnly (inComment : Bool) : Text → Bool
  | [] => true
  | c :: rest =>
    if c = '\n' then commentsOnly false rest
    else if inComment || c = '#' then commentsOnly true rest
    else false

theorem commentsOnly_comment {comment rest : Text} (h : '\n' ∉ comment) :
    commentsOnly true (comment ++ '\n' :: rest) = commentsOnly false rest := by
  induction comment with
  | nil => simp [commentsOnly]
  | cons c comment ih =>
    have hc : c ≠ '\n' := fun hc => h (hc ▸ List.mem_cons_self)
    simp only [List.cons_append, commentsOnly, hc, if_false, Bool.true_or, if_true]
    exact ih (fun hc => h (List.mem_cons_of_mem _ hc))

/-- libconfuse. `listDefault` is what `cfg_init` makes of the default text of a
`CFGF_LIST` option, and `cfgParse` reads a text into the options that `cfg_init` set
up. A text that assigns nothing leaves them at their declared defaults. -/
structure Confuse where
  listDefault : Text → List Text
  cfgParse : Config → Text → Option Config
  cfgParse_comments : ∀ cfg text, commentsOnly false text = true → cfgParse cfg text = some cfg

def Confuse.cfgInit (lib : Confuse) : Config where
  version := 0
  delay := 0
  bootonce := noneText
  tryonce := noneText
  default := noneText
  fallback := noneText
  lasttry := noneText
  lastboot := noneText
  images := []
  networks := []
  line := lib.listDefault noneText
  password := noneText

/-- The exit codes are those of an unreadable file and of a parse error. -/
def loadConfig (lib : Confuse) (files : Files) (path : Text) : Except Nat Config :=
  match files path with
  | none => .error 1
  | some text =>
    match lib.cfgParse lib.cfgInit text with
    | none => .error 2
    | some cfg => .ok cfg

theorem loadConfig_of_comments {lib : Confuse} {files : Files} {path text : Text}
    (hfile : files path = some text) (htext : commentsOnly false text = true) :
    loadConfig lib files path = .ok lib.cfgInit := by
  simp [loadConfig, hfile, lib.cfgParse_comments _ _ htext]

end Monoimage.Boot
