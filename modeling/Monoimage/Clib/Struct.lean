import Mathlib.Data.Nat.Basic
import Mathlib.Tactic.Ring

/-! Little-endian integers and the i386 layout of C structures. A declaration is
a list of members over an arbitrary type of member names; offsets, padding and
size are computed from it. -/
namespace Monoimage.Clib

abbrev Bytes := List UInt8

def putLE : Nat → Nat → Bytes
  | 0, _ => []
  | width + 1, value => UInt8.ofNat value :: putLE width (value / 256)

def getLE : Bytes → Nat
  | [] => 0
  | byte :: rest => byte.toNat + 256 * getLE rest

@[simp] theorem length_putLE (width value : Nat) :
    (putLE width value).length = width := by
  induction width generalizing value with
  | zero => rfl
  | succ width ih => simp [putLE, ih]

theorem getLE_putLE (width value : Nat) :
    getLE (putLE width value) = value % 256 ^ width := by
  induction width generalizing value with
  | zero => simp [putLE, getLE, Nat.mod_one]
  | succ width ih =>
    have hpow : 256 ^ (width + 1) = 256 * 256 ^ width := Nat.pow_succ'
    rw [putLE, getLE, ih, UInt8.toNat_ofNat', hpow, Nat.mod_mul]

theorem getLE_putLE_of_lt {width value : Nat} (h : value < 256 ^ width) :
    getLE (putLE width value) = value := by
  rw [getLE_putLE, Nat.mod_eq_of_lt h]

theorem getLE_lt (bytes : Bytes) : getLE bytes < 256 ^ bytes.length := by
  induction bytes with
  | nil => simp [getLE]
  | cons byte rest ih =>
    have hbyte := byte.toNat_lt
    rw [getLE, List.length_cons, Nat.pow_succ']
    omega

/-- The integer types of the modelled declarations; `off_t` has 32 bits on i386. -/
inductive CType where
  | uint8
  | uint16
  | uint32
  | offT
  deriving DecidableEq, Repr

def CType.size : CType → Nat
  | .uint8 => 1
  | .uint16 => 2
  | .uint32 => 4
  | .offT => 4

structure Member (ι : Type) where
  name : ι
  type : CType
  count : Nat
  deriving DecidableEq, Repr

def Member.size {ι : Type} (m : Member ι) : Nat :=
  m.type.size * m.count

abbrev Struct (ι : Type) := List (Member ι)

def roundUp (pos align : Nat) : Nat :=
  (pos + align - 1) / align * align

namespace Struct

variable {ι : Type}

/-- Members in order, each at the next offset that its type is aligned to. -/
def place (pos : Nat) : Struct ι → List (Member ι × Nat)
  | [] => []
  | m :: rest =>
    let start := roundUp pos m.type.size
    (m, start) :: place (start + m.size) rest

def sizeof (s : Struct ι) : Nat :=
  let stop := (place 0 s).foldl (fun _ (m, start) => start + m.size) 0
  roundUp stop (s.foldl (fun align m => max align m.type.size) 1)

variable [DecidableEq ι]

def member (s : Struct ι) (name : ι) : Option (Member ι × Nat) :=
  (place 0 s).find? (fun placed => placed.1.name = name)

def bytesOf (s : Struct ι) (name : ι) (object : Bytes) : Option Bytes :=
  (s.member name).map fun (m, start) => (object.drop start).take m.size

def read (s : Struct ι) (name : ι) (object : Bytes) : Option Nat :=
  (s.bytesOf name object).map getLE

theorem read_lt {s : Struct ι} {name : ι} {m : Member ι} {start value : Nat} {object : Bytes}
    (hmember : s.member name = some (m, start)) (h : s.read name object = some value) :
    value < 256 ^ m.size := by
  simp only [read, bytesOf, hmember, Option.map_some, Option.some.injEq] at h
  subst h
  apply (getLE_lt _).trans_le
  exact Nat.pow_le_pow_right (by decide) (List.length_take_le _ _)

/-- An integer that stands at the member's offset with the member's width is what
the member reads. -/
theorem read_append {s : Struct ι} {name : ι} {m : Member ι} {start : Nat}
    (hmember : s.member name = some (m, start)) {front back : Bytes} {value : Nat}
    (hfront : front.length = start) (hvalue : value < 256 ^ m.size) :
    s.read name (front ++ (putLE m.size value ++ back)) = some value := by
  have htake : (putLE m.size value ++ back).take m.size = putLE m.size value :=
    List.take_left' (length_putLE _ _)
  simp only [read, bytesOf, hmember, Option.map_some]
  rw [List.drop_left' hfront, htake, getLE_putLE_of_lt hvalue]

/-- `fread(&object, sizeof(object), 1, file)`: an object, or nothing from a file
that is too short. -/
def fread (s : Struct ι) (file : Bytes) : Option Bytes :=
  if s.sizeof ≤ file.length then some (file.take s.sizeof) else none

/-- A member of the object at the start of a file. -/
def readFrom (s : Struct ι) (name : ι) (file : Bytes) : Option Nat := do
  let object ← s.fread file
  s.read name object

theorem readFrom_append {s : Struct ι} {name : ι} {m : Member ι} {start : Nat}
    (hmember : s.member name = some (m, start)) (hinside : start + m.size ≤ s.sizeof)
    {front back : Bytes} {value : Nat} (hfront : front.length = start)
    (hvalue : value < 256 ^ m.size)
    (hlong : s.sizeof ≤ (front ++ (putLE m.size value ++ back)).length) :
    s.readFrom name (front ++ (putLE m.size value ++ back)) = some value := by
  have htake : (front ++ (putLE m.size value ++ back)).take s.sizeof =
      front ++ (putLE m.size value ++ back.take (s.sizeof - (start + m.size))) := by
    rw [List.take_append, List.take_append, List.take_of_length_le (by omega),
      List.take_of_length_le (by rw [length_putLE]; omega), length_putLE, hfront, Nat.sub_sub]
  simp only [readFrom, fread, if_pos hlong, htake, Option.bind_eq_bind, Option.bind_some]
  exact read_append hmember hfront hvalue

end Struct

end Monoimage.Clib
