import Monoimage.Clib.Struct
import Monoimage.Clib.Text

/-! Signed 32 bit integers, and copies out of a buffer. The source of a copy is an offset
from the start of the buffer, which may lie outside of it. -/
namespace Monoimage.Clib

/-- The value of an `int`, `long` or `off_t` of i386 that an integer is converted to. -/
def wrap32 (x : Int) : Int := x.bmod (2 ^ 32)

theorem wrap32_cases (x : Int) : ∃ k : Int, wrap32 x = x + 2 ^ 32 * k ∧
    -2 ^ 31 ≤ wrap32 x ∧ wrap32 x < 2 ^ 31 := by
  unfold wrap32
  rw [Int.bmod_def]
  have hmod := Int.emod_add_mul_ediv x (2 ^ 32)
  have hpos := Int.emod_nonneg x (b := 2 ^ 32) (by decide)
  have hlt := Int.emod_lt_of_pos x (b := 2 ^ 32) (by decide)
  split
  · exact ⟨-(x / 2 ^ 32), by omega, by omega, by omega⟩
  · exact ⟨-(x / 2 ^ 32) - 1, by omega, by omega, by omega⟩

theorem wrap32_of_lt {x : Int} (hlow : -2 ^ 31 ≤ x) (hhigh : x < 2 ^ 31) : wrap32 x = x := by
  obtain ⟨k, hk, hge, hlt⟩ := wrap32_cases x
  omega

/-- The range of a buffer that is copied. -/
structure Range where
  source : Int
  length : Int
  deriving DecidableEq, Repr

def Range.Inside (range : Range) (len : Nat) : Prop :=
  0 ≤ range.source ∧ 0 ≤ range.length ∧ range.source + range.length ≤ len

instance (range : Range) (len : Nat) : Decidable (range.Inside len) :=
  inferInstanceAs (Decidable (_ ∧ _))

/-- `memcpy` from a range of a buffer into memory of the same size. -/
def memcpy (buf : Bytes) (range : Range) : Except Fault Bytes :=
  if range.Inside buf.length then .ok ((buf.drop range.source.toNat).take range.length.toNat)
  else .error .outOfBounds

/-- The range between two offsets. Where their difference does not fit its type, it ends
beyond any buffer whose length fits. -/
def Range.between (start stop : Int) : Range := ⟨start, wrap32 (stop - start)⟩

theorem Range.inside_between_iff {start stop : Int} {len : Nat} (hstart : start < 2 ^ 31)
    (hstop : -2 ^ 31 ≤ stop) (hstop' : stop < 2 ^ 31) (hlen : len < 2 ^ 31) :
    (Range.between start stop).Inside len ↔ 0 ≤ start ∧ start ≤ stop ∧ stop ≤ len := by
  obtain ⟨k, hk, hge, hlt⟩ := wrap32_cases (stop - start)
  simp only [Range.Inside, Range.between]
  constructor
  · rintro ⟨hsource, hlength, hend⟩
    have hzero : k = 0 := by omega
    subst hzero
    omega
  · intro h
    rw [wrap32_of_lt (by omega) (by omega)]
    omega

theorem memcpy_between {front piece back : Bytes} {start stop : Int}
    (hstart : start = front.length) (hstop : stop = front.length + piece.length)
    (hfits : stop < 2 ^ 31) :
    memcpy (front ++ (piece ++ back)) (Range.between start stop) = .ok piece := by
  have hwrap : wrap32 (stop - start) = piece.length := by
    rw [wrap32_of_lt (by omega) (by omega)]
    omega
  subst hstart
  simp only [memcpy, Range.between, hwrap, Range.Inside]
  rw [if_pos (by simp only [List.length_append]; omega)]
  simp

end Monoimage.Clib
