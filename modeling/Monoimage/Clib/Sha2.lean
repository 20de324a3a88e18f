import Mathlib.Analysis.SpecialFunctions.Pow.Real
import Mathlib.Data.Nat.Nth
import Mathlib.Data.Nat.Prime.Basic
import Monoimage.Clib.Blocks
import Monoimage.Clib.Struct

/-! SHA-256 as FIPS 180-2 defines it. -/
namespace Monoimage.Clib.Sha2

def rotr (n : Nat) (x : UInt32) : UInt32 := ⟨x.toBitVec.rotateRight n⟩

def shr (n : UInt32) (x : UInt32) : UInt32 := x >>> n

def ch (x y z : UInt32) : UInt32 := (x &&& y) ^^^ (~~~x &&& z)

def maj (x y z : UInt32) : UInt32 := (x &&& y) ^^^ (x &&& z) ^^^ (y &&& z)

def bigSigma0 (x : UInt32) : UInt32 := rotr 2 x ^^^ rotr 13 x ^^^ rotr 22 x

def bigSigma1 (x : UInt32) : UInt32 := rotr 6 x ^^^ rotr 11 x ^^^ rotr 25 x

def smallSigma0 (x : UInt32) : UInt32 := rotr 7 x ^^^ rotr 18 x ^^^ shr 3 x

def smallSigma1 (x : UInt32) : UInt32 := rotr 17 x ^^^ rotr 19 x ^^^ shr 10 x

/-- The working variables, and also a hash value. -/
structure Registers where
  a : UInt32
  b : UInt32
  c : UInt32
  d : UInt32
  e : UInt32
  f : UInt32
  g : UInt32
  h : UInt32
  deriving DecidableEq, Repr

def Registers.add (r s : Registers) : Registers :=
  ⟨r.a + s.a, r.b + s.b, r.c + s.c, r.d + s.d, r.e + s.e, r.f + s.f, r.g + s.g, r.h + s.h⟩

def Registers.words (r : Registers) : List UInt32 := [r.a, r.b, r.c, r.d, r.e, r.f, r.g, r.h]

def round (k w : UInt32) (r : Registers) : Registers :=
  let t1 := r.h + bigSigma1 r.e + ch r.e r.f r.g + k + w
  let t2 := bigSigma0 r.a + maj r.a r.b r.c
  ⟨t1 + t2, r.a, r.b, r.c, r.d + t1, r.e, r.f, r.g⟩

/-- The message schedule of a block of words. -/
def schedule (m : Nat → UInt32) (t : Nat) : UInt32 :=
  if t < 16 then m t
  else smallSigma1 (schedule m (t - 2)) + schedule m (t - 7) + smallSigma0 (schedule m (t - 15)) +
    schedule m (t - 16)

/-- The rounds from `t` on. -/
def rounds (k w : Nat → UInt32) (t : Nat) : Nat → Registers → Registers
  | 0, r => r
  | n + 1, r => rounds k w (t + 1) n (round (k t) (w t) r)

def bigEndian (bytes : Bytes) : Nat := bytes.foldl (fun n byte => n * 256 + byte.toNat) 0

def bigEndianBytes : Nat → Nat → Bytes
  | 0, _ => []
  | n + 1, x => bigEndianBytes n (x / 256) ++ [UInt8.ofNat x]

def blockWord (block : Bytes) (t : Nat) : UInt32 :=
  UInt32.ofNat (bigEndian ((block.drop (4 * t)).take 4))

section Constants

/-- The first 32 bits of the fractional part of the `e`th root of a prime. -/
noncomputable def rootWord (e i : Nat) : UInt32 :=
  UInt32.ofNat ⌊((Nat.nth Nat.Prime i : ℝ) ^ (1 / (e : ℝ))) * 2 ^ 32⌋₊

/-- Of the cube roots of the first 64 primes. -/
noncomputable def roundConstant (t : Nat) : UInt32 := rootWord 3 t

/-- Of the square roots of the first eight primes. -/
noncomputable def initialValue : Registers :=
  ⟨rootWord 2 0, rootWord 2 1, rootWord 2 2, rootWord 2 3, rootWord 2 4, rootWord 2 5, rootWord 2 6,
    rootWord 2 7⟩

end Constants

noncomputable def compress (r : Registers) (block : Bytes) : Registers :=
  r.add (rounds roundConstant (schedule (blockWord block)) 0 64 r)

/-- The least number of zeros that makes a message of `n` bytes, a byte and eight more bytes
into whole blocks. -/
def zeros (n : Nat) : Nat := (119 - n % 64) % 64

def pad (message : Bytes) : Bytes :=
  message ++ [0x80] ++ List.replicate (zeros message.length) 0 ++
    bigEndianBytes 8 (8 * message.length)

noncomputable def sha256 (message : Bytes) : Bytes :=
  (absorb 64 compress initialValue (pad message)).1.words.flatMap fun word =>
    bigEndianBytes 4 word.toNat

/-! ## The padding -/

@[simp] theorem length_bigEndianBytes (n x : Nat) : (bigEndianBytes n x).length = n := by
  induction n generalizing x with
  | zero => rfl
  | succ n ih => simp [bigEndianBytes, ih]

theorem bigEndianBytes_mod (n x : Nat) : bigEndianBytes n (x % 256 ^ n) = bigEndianBytes n x := by
  induction n generalizing x with
  | zero => rfl
  | succ n ih =>
    have hdiv : x % 256 ^ (n + 1) / 256 = x / 256 % 256 ^ n := by
      rw [Nat.pow_succ, Nat.mul_comm, Nat.mod_mul_right_div_self]
    have hlast : UInt8.ofNat (x % 256 ^ (n + 1)) = UInt8.ofNat x := by
      apply UInt8.toNat_inj.mp
      rw [UInt8.toNat_ofNat', UInt8.toNat_ofNat', Nat.pow_succ, Nat.mod_mul_left_mod]
    rw [bigEndianBytes, bigEndianBytes, hdiv, ih, hlast]

theorem bigEndianBytes_add (m n x : Nat) :
    bigEndianBytes (m + n) x = bigEndianBytes m (x / 256 ^ n) ++ bigEndianBytes n x := by
  induction n generalizing x with
  | zero => simp [bigEndianBytes]
  | succ n ih =>
    rw [← Nat.add_assoc, bigEndianBytes, ih, bigEndianBytes, List.append_assoc,
      Nat.div_div_eq_div_mul, Nat.pow_succ']

theorem length_pad (message : Bytes) :
    (pad message).length = message.length + 1 + zeros message.length + 8 := by
  simp only [pad, List.length_append, List.length_replicate, length_bigEndianBytes,
    List.length_singleton]

theorem dvd_length_pad (message : Bytes) : 64 ∣ (pad message).length := by
  rw [length_pad, zeros]
  omega

/-- Fewer zeros do not make whole blocks. -/
theorem zeros_least {n k : Nat} (h : 64 ∣ n + 1 + k + 8) : zeros n ≤ k := by
  unfold zeros
  omega

/-! ## The constants -/

/-- The first 64 primes. -/
def primes : List Nat :=
  [2, 3, 5, 7, 11, 13, 17, 19, 23, 29, 31, 37, 41, 43, 47, 53, 59, 61, 67, 71, 73, 79, 83, 89,
   97, 101, 103, 107, 109, 113, 127, 131, 137, 139, 149, 151, 157, 163, 167, 173, 179, 181, 191,
   193, 197, 199, 211, 223, 227, 229, 233, 239, 241, 251, 257, 263, 269, 271, 277, 281, 283, 293,
   307, 311]

/-- Below 18 * 18, a number without a small divisor is prime. -/
def smallPrime (n : Nat) : Bool :=
  2 ≤ n && (List.range 18).all fun m => m < 2 || n ≤ m || n % m ≠ 0

theorem smallPrime_iff {n : Nat} (h : n < 18 * 18) : smallPrime n = true ↔ n.Prime := by
  have hiff : smallPrime n = true ↔ 2 ≤ n ∧ ∀ m < 18, 2 ≤ m → m < n → ¬ m ∣ n := by
    simp only [smallPrime, Bool.and_eq_true, decide_eq_true_eq, List.all_eq_true, List.mem_range,
      Bool.or_eq_true, Nat.dvd_iff_mod_eq_zero]
    refine and_congr_right fun _ => forall₂_congr fun m _ => ?_
    omega
  rw [hiff]
  constructor
  · rintro ⟨htwo, hdvd⟩
    by_contra hprime
    have hsquare := Nat.minFac_sq_le_self (by omega) hprime
    have hlow := (Nat.minFac_prime (n := n) (by omega)).two_le
    have hsmall : n.minFac < 18 := by nlinarith
    have hless : n.minFac < n := by nlinarith
    exact hdvd _ hsmall hlow hless n.minFac_dvd
  · intro hprime
    refine ⟨hprime.two_le, ?_⟩
    intro m _ hm hlt hdvd
    rcases hprime.eq_one_or_self_of_dvd m hdvd with h | h
    · omega
    · omega

theorem count_prime {n : Nat} (h : n < 18 * 18) :
    Nat.count Nat.Prime n = (List.range n).countP smallPrime := by
  induction n with
  | zero => rfl
  | succ n ih =>
    have hiff := smallPrime_iff (n := n) (by omega)
    rw [Nat.count_succ, ih (by omega), List.range_succ, List.countP_append, List.countP_singleton]
    simp only [hiff]

theorem nth_prime {i : Nat} (h : i < 64) : Nat.nth Nat.Prime i = primes.getD i 0 := by
  have hcheck : ∀ i < 64, primes.getD i 0 < 18 * 18 ∧ smallPrime (primes.getD i 0) = true ∧
      (List.range (primes.getD i 0)).countP smallPrime = i := by
    decide +kernel
  obtain ⟨hlow, hprime, hcount⟩ := hcheck i h
  rw [← count_prime hlow] at hcount
  calc
    Nat.nth Nat.Prime i
    _ = Nat.nth Nat.Prime (Nat.count Nat.Prime (primes.getD i 0)) := by rw [hcount]
    _ = primes.getD i 0 := Nat.nth_count ((smallPrime_iff hlow).mp hprime)

/-- A whole number that is the root of a prime, times `2 ^ 32` and rounded down. -/
theorem rootWord_eq {e i p k : Nat} (he : 0 < e) (hp : Nat.nth Nat.Prime i = p)
    (hlow : k ^ e ≤ p * (2 ^ 32) ^ e) (hhigh : p * (2 ^ 32) ^ e < (k + 1) ^ e) :
    rootWord e i = UInt32.ofNat k := by
  have hroot : (((p : ℝ) ^ (1 / (e : ℝ))) * 2 ^ 32) ^ e = p * (2 ^ 32) ^ e := by
    rw [mul_pow, ← Real.rpow_natCast, ← Real.rpow_mul (Nat.cast_nonneg p),
      one_div_mul_cancel (Nat.cast_ne_zero.mpr (by omega)), Real.rpow_one]
  have hnonneg : 0 ≤ ((p : ℝ) ^ (1 / (e : ℝ))) * 2 ^ 32 := by positivity
  rw [rootWord, hp]
  congr 1
  rw [Nat.floor_eq_iff hnonneg]
  constructor
  · apply le_of_pow_le_pow_left₀ (n := e) (by omega) hnonneg
    rw [hroot]
    exact_mod_cast hlow
  · apply lt_of_pow_lt_pow_left₀ e (by positivity)
    rw [hroot]
    exact_mod_cast hhigh

end Monoimage.Clib.Sha2
