import Mathlib.Algebra.Order.Ring.Nat
import Mathlib.Data.Nat.Bitwise
import Monoimage.Clib.Struct

/-! Rounding to a multiple, and the mask with which C does it for a power of two. -/
namespace Monoimage.Clib

/-- An `unsigned long` or a `size_t` of i386. -/
def ulong (x : Nat) : Nat := x % 2 ^ 32

theorem ulong_lt (x : Nat) : ulong x < 2 ^ 32 := Nat.mod_lt x (by decide)

theorem ulong_of_lt {x : Nat} (h : x < 2 ^ 32) : ulong x = x := Nat.mod_eq_of_lt h

/-- `~(align - 1)` as an `unsigned long`. -/
def alignMask (align : Nat) : Nat := 2 ^ 32 - align

def alignDown (align x : Nat) : Nat := x / align * align

theorem dvd_alignDown (align x : Nat) : align ∣ alignDown align x := Nat.dvd_mul_left _ _

theorem alignDown_le (align x : Nat) : alignDown align x ≤ x := Nat.div_mul_le_self _ _

theorem dvd_roundUp (x align : Nat) : align ∣ roundUp x align := Nat.dvd_mul_left _ _

section Multiples

variable {align : Nat} (hpos : 0 < align)

include hpos

theorem lt_alignDown_add (x : Nat) : x < alignDown align x + align := by
  have hlt := Nat.mod_lt x hpos
  have hsplit := Nat.div_add_mod x align
  rw [Nat.mul_comm] at hsplit
  unfold alignDown
  omega

/-- The greatest multiple up to `x`. -/
theorem le_alignDown {b x : Nat} (hdvd : align ∣ b) (hle : b ≤ x) : b ≤ alignDown align x := by
  obtain ⟨k, rfl⟩ := hdvd
  have hk : k ≤ x / align := (Nat.le_div_iff_mul_le hpos).mpr (by rwa [Nat.mul_comm])
  rw [alignDown, Nat.mul_comm align k]
  exact Nat.mul_le_mul_right align hk

theorem le_roundUp (x : Nat) : x ≤ roundUp x align := by
  have := lt_alignDown_add hpos (x + align - 1)
  unfold alignDown at this
  unfold roundUp
  omega

/-- The least multiple from `x` on. -/
theorem roundUp_le {b x : Nat} (hdvd : align ∣ b) (hle : x ≤ b) : roundUp x align ≤ b := by
  obtain ⟨k, rfl⟩ := hdvd
  have hk : (x + align - 1) / align < k + 1 := by
    rw [Nat.div_lt_iff_lt_mul hpos, Nat.add_mul, Nat.mul_comm k]
    omega
  rw [roundUp, Nat.mul_comm align k]
  exact Nat.mul_le_mul_right align (Nat.le_of_lt_succ hk)

/-- Up to a multiple there is room for the rounded size. -/
theorem add_roundUp_le {base size stop : Nat} (hbase : align ∣ base) (hstop : align ∣ stop)
    (h : base + size ≤ stop) : base + roundUp size align ≤ stop := by
  have := roundUp_le hpos (Nat.dvd_sub hstop hbase) (show size ≤ stop - base by omega)
  omega

end Multiples

/-- The bits of the mask are those from `k` on. -/
theorem and_mask {k n : Nat} (hk : k ≤ n) (x : Nat) :
    x &&& (2 ^ n - 2 ^ k) = x / 2 ^ k % 2 ^ (n - k) * 2 ^ k := by
  have hmask : 2 ^ n - 2 ^ k = (2 ^ (n - k) - 1) <<< k := by
    rw [Nat.shiftLeft_eq, Nat.sub_mul, Nat.one_mul, ← Nat.pow_add, Nat.sub_add_cancel hk]
  have hbits : x / 2 ^ k % 2 ^ (n - k) * 2 ^ k = (x >>> k &&& (2 ^ (n - k) - 1)) <<< k := by
    rw [Nat.shiftLeft_eq, Nat.and_two_pow_sub_one_eq_mod, Nat.shiftRight_eq_div_pow]
  rw [hmask, hbits]
  apply Nat.eq_of_testBit_eq
  intro i
  simp only [Nat.testBit_and, Nat.testBit_shiftLeft, Nat.testBit_shiftRight]
  by_cases hi : k ≤ i
  · simp [hi]
  · simp [hi]

/-- A power of two of an `unsigned long`. -/
def PowerOfTwo (align : Nat) : Prop := ∃ k < 32, align = 2 ^ k

theorem PowerOfTwo.pos {align : Nat} (h : PowerOfTwo align) : 0 < align := by
  obtain ⟨k, -, rfl⟩ := h
  exact Nat.two_pow_pos k

theorem PowerOfTwo.lt {align : Nat} (h : PowerOfTwo align) : align < 2 ^ 32 := by
  obtain ⟨k, hk, rfl⟩ := h
  exact Nat.pow_lt_pow_right (by decide) hk

theorem and_alignMask {align x : Nat} (halign : PowerOfTwo align) (hx : x < 2 ^ 32) :
    x &&& alignMask align = alignDown align x := by
  obtain ⟨k, hk, rfl⟩ := halign
  have hlt : x / 2 ^ k < 2 ^ (32 - k) := by
    rw [Nat.div_lt_iff_lt_mul (Nat.two_pow_pos k), ← Nat.pow_add, Nat.sub_add_cancel hk.le]
    exact hx
  rw [alignMask, and_mask hk.le, Nat.mod_eq_of_lt hlt, alignDown]

/-- Of two powers of two, the smaller one divides the larger. -/
theorem PowerOfTwo.dvd {a b : Nat} (ha : PowerOfTwo a) (hb : PowerOfTwo b) (h : a ≤ b) :
    a ∣ b := by
  obtain ⟨i, -, rfl⟩ := ha
  obtain ⟨j, -, rfl⟩ := hb
  exact Nat.pow_dvd_pow 2 ((Nat.pow_le_pow_iff_right (by decide)).mp h)

end Monoimage.Clib
