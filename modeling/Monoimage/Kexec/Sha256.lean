import Monoimage.Clib.Pokes
import Monoimage.Clib.Sha2

/-! `util_lib/sha256.c`. -/
namespace Monoimage.Kexec

open Clib Sha2

/-! ## The macros -/

/-- `ROTR`; `SHR` is the shift of Lean. -/
def rotrMacro (x n : UInt32) : UInt32 := (x >>> n) ||| (x <<< (32 - n))

def s0 (x : UInt32) : UInt32 := rotrMacro x 7 ^^^ rotrMacro x 18 ^^^ x >>> 3

def s1 (x : UInt32) : UInt32 := rotrMacro x 17 ^^^ rotrMacro x 19 ^^^ x >>> 10

def s2 (x : UInt32) : UInt32 := rotrMacro x 2 ^^^ rotrMacro x 13 ^^^ rotrMacro x 22

def s3 (x : UInt32) : UInt32 := rotrMacro x 6 ^^^ rotrMacro x 11 ^^^ rotrMacro x 25

def f0 (x y z : UInt32) : UInt32 := (x &&& y) ||| (z &&& (x ||| y))

def f1 (x y z : UInt32) : UInt32 := z ^^^ (x &&& (y ^^^ z))

/-- `GET_UINT32`. -/
def getUint32 (b : Bytes) (i : Nat) : UInt32 :=
  (b.getD i 0).toUInt32 <<< 24 ||| (b.getD (i + 1) 0).toUInt32 <<< 16 |||
    (b.getD (i + 2) 0).toUInt32 <<< 8 ||| (b.getD (i + 3) 0).toUInt32

/-- The four bytes of `PUT_UINT32`. -/
def putUint32 (n : UInt32) : Bytes :=
  [(n >>> 24).toUInt8, (n >>> 16).toUInt8, (n >>> 8).toUInt8, n.toUInt8]

/-- `P`: the new values of its fourth and its last register. -/
def stepP (a b c d e f g h x k : UInt32) : UInt32 × UInt32 :=
  let temp1 := h + s3 e + f1 e f g + k + x
  let temp2 := s2 a + f0 a b c
  (d + temp1, temp1 + temp2)

/-! ## `sha256_process` -/

/-- The last argument of each `P`. -/
def processConstants : List UInt32 :=
  [0x428A2F98, 0x71374491, 0xB5C0FBCF, 0xE9B5DBA5,
   0x3956C25B, 0x59F111F1, 0x923F82A4, 0xAB1C5ED5,
   0xD807AA98, 0x12835B01, 0x243185BE, 0x550C7DC3,
   0x72BE5D74, 0x80DEB1FE, 0x9BDC06A7, 0xC19BF174,
   0xE49B69C1, 0xEFBE4786, 0x0FC19DC6, 0x240CA1CC,
   0x2DE92C6F, 0x4A7484AA, 0x5CB0A9DC, 0x76F988DA,
   0x983E5152, 0xA831C66D, 0xB00327C8, 0xBF597FC7,
   0xC6E00BF3, 0xD5A79147, 0x06CA6351, 0x14292967,
   0x27B70A85, 0x2E1B2138, 0x4D2C6DFC, 0x53380D13,
   0x650A7354, 0x766A0ABB, 0x81C2C92E, 0x92722C85,
   0xA2BFE8A1, 0xA81A664B, 0xC24B8B70, 0xC76C51A3,
   0xD192E819, 0xD6990624, 0xF40E3585, 0x106AA070,
   0x19A4C116, 0x1E376C08, 0x2748774C, 0x34B0BCB5,
   0x391C0CB3, 0x4ED8AA4A, 0x5B9CCA4F, 0x682E6FF3,
   0x748F82EE, 0x78A5636F, 0x84C87814, 0x8CC70208,
   0x90BEFFFA, 0xA4506CEB, 0xBEF9A3F7, 0xC67178F2]

/-- Eight lines of `P`, after which the registers have their names again. -/
def eightSteps (k w : Nat → UInt32) (t : Nat) (r : Registers) : Registers :=
  let ⟨a, b, c, d, e, f, g, h⟩ := r
  let (d, h) := stepP a b c d e f g h (w t) (k t)
  let (c, g) := stepP h a b c d e f g (w (t + 1)) (k (t + 1))
  let (b, f) := stepP g h a b c d e f (w (t + 2)) (k (t + 2))
  let (a, e) := stepP f g h a b c d e (w (t + 3)) (k (t + 3))
  let (h, d) := stepP e f g h a b c d (w (t + 4)) (k (t + 4))
  let (g, c) := stepP d e f g h a b c (w (t + 5)) (k (t + 5))
  let (f, b) := stepP c d e f g h a b (w (t + 6)) (k (t + 6))
  let (e, a) := stepP b c d e f g h a (w (t + 7)) (k (t + 7))
  ⟨a, b, c, d, e, f, g, h⟩

/-- `R`. -/
def nextWord (w : List UInt32) (t : Nat) : UInt32 :=
  s1 (w.getD (t - 2) 0) + w.getD (t - 7) 0 + s0 (w.getD (t - 15) 0) + w.getD (t - 16) 0

/-- `W` after `n` of the calls of `R`. -/
def messageWords (data : Bytes) : Nat → List UInt32
  | 0 => (List.range 16).map fun i => getUint32 data (4 * i)
  | n + 1 => messageWords data n ++ [nextWord (messageWords data n) (16 + n)]

def sha256Process (state : Registers) (data : Bytes) : Registers :=
  let w := messageWords data 48
  state.add ((List.range 8).foldl
    (fun r i => eightSteps (processConstants.getD · 0) (w.getD · 0) (8 * i) r) state)

/-! ## The stream -/

structure Sha256Context where
  total0 : UInt32
  total1 : UInt32
  state : Registers
  buffer : Bytes
  deriving DecidableEq, Repr

/-- The buffer stays as it is. -/
def sha256Starts (ctx : Sha256Context) : Sha256Context where
  total0 := 0
  total1 := 0
  state := ⟨0x6A09E667, 0xBB67AE85, 0x3C6EF372, 0xA54FF53A, 0x510E527F, 0x9B05688C, 0x1F83D9AB,
    0x5BE0CD19⟩
  buffer := ctx.buffer

/-- The two totals after an update. -/
def addTotal (ctx : Sha256Context) (length : UInt32) : UInt32 × UInt32 :=
  let total0 := ctx.total0 + length
  (total0, if total0 < length then ctx.total1 + 1 else ctx.total1)

def sha256Update (ctx : Sha256Context) (input : Bytes) : Sha256Context :=
  if input.length = 0 then ctx
  else
    let left := (ctx.total0 &&& 0x3F).toNat
    let fill := 64 - left
    let totals := addTotal ctx (UInt32.ofNat input.length)
    if left ≠ 0 ∧ fill ≤ input.length then
      let buffer := overwrite ctx.buffer left (input.take fill)
      let done := absorb 64 sha256Process (sha256Process ctx.state buffer) (input.drop fill)
      ⟨totals.1, totals.2, done.1, overwrite buffer 0 done.2⟩
    else
      let done := absorb 64 sha256Process ctx.state input
      ⟨totals.1, totals.2, done.1, overwrite ctx.buffer left done.2⟩

def sha256Padding : Bytes := 0x80 :: List.replicate 63 0

/-- The digest; of the context nothing is used afterwards. -/
def sha256Finish (ctx : Sha256Context) : Bytes :=
  let high := (ctx.total0 >>> 29) ||| (ctx.total1 <<< 3)
  let low := ctx.total0 <<< 3
  let last := ctx.total0 &&& 0x3F
  let padn := if last < 56 then 56 - last else 120 - last
  let ctx := sha256Update ctx (sha256Padding.take padn.toNat)
  let ctx := sha256Update ctx (putUint32 high ++ putUint32 low)
  ctx.state.words.flatMap putUint32

/-! ## The functions of the standard -/

theorem rotrMacro_eq (x : UInt32) {n : Nat} (hpos : 0 < n) (hn : n < 32) :
    rotrMacro x (UInt32.ofNat n) = rotr n x := by
  apply UInt32.toBitVec_inj.mp
  have hmod : n % 32 = n := Nat.mod_eq_of_lt hn
  have hright : (UInt32.ofNat n).toBitVec % 32 = BitVec.ofNat 32 n := by
    apply BitVec.eq_of_toNat_eq
    simp [hmod]
    omega
  have hleft : (32 - UInt32.ofNat n).toBitVec % 32 = BitVec.ofNat 32 (32 - n) := by
    apply BitVec.eq_of_toNat_eq
    simp [BitVec.toNat_umod, BitVec.toNat_sub]
    omega
  have hword (m : Nat) (hm : m ≤ 32) : (BitVec.ofNat 32 m).toNat = m := by
    rw [BitVec.toNat_ofNat]
    exact Nat.mod_eq_of_lt (by omega)
  rw [rotr, rotrMacro, BitVec.rotateRight_def, UInt32.toBitVec_or, UInt32.toBitVec_shiftRight,
    UInt32.toBitVec_shiftLeft, hright, hleft, hmod, BitVec.ushiftRight_eq', BitVec.shiftLeft_eq',
    hword n (by omega), hword (32 - n) (by omega)]

theorem f1_eq (x y z : UInt32) : f1 x y z = ch x y z := by
  apply UInt32.toBitVec_inj.mp
  apply BitVec.eq_of_getLsbD_eq
  intro i hi
  simp only [f1, ch, UInt32.toBitVec_xor, UInt32.toBitVec_and, UInt32.toBitVec_not,
    BitVec.getLsbD_xor, BitVec.getLsbD_and, BitVec.getLsbD_not, hi, decide_true, Bool.true_and]
  cases x.toBitVec.getLsbD i <;> cases y.toBitVec.getLsbD i <;> cases z.toBitVec.getLsbD i <;> rfl

theorem f0_eq (x y z : UInt32) : f0 x y z = maj x y z := by
  apply UInt32.toBitVec_inj.mp
  apply BitVec.eq_of_getLsbD_eq
  intro i hi
  simp only [f0, maj, UInt32.toBitVec_xor, UInt32.toBitVec_and, UInt32.toBitVec_or,
    BitVec.getLsbD_xor, BitVec.getLsbD_and, BitVec.getLsbD_or]
  cases x.toBitVec.getLsbD i <;> cases y.toBitVec.getLsbD i <;> cases z.toBitVec.getLsbD i <;> rfl

section Sigmas

variable (x : UInt32)

theorem s0_eq : s0 x = smallSigma0 x := by
  have h7 := rotrMacro_eq x (n := 7) (by decide) (by decide)
  have h18 := rotrMacro_eq x (n := 18) (by decide) (by decide)
  rw [smallSigma0, ← h7, ← h18]
  rfl

theorem s1_eq : s1 x = smallSigma1 x := by
  have h17 := rotrMacro_eq x (n := 17) (by decide) (by decide)
  have h19 := rotrMacro_eq x (n := 19) (by decide) (by decide)
  rw [smallSigma1, ← h17, ← h19]
  rfl

theorem s2_eq : s2 x = bigSigma0 x := by
  have h2 := rotrMacro_eq x (n := 2) (by decide) (by decide)
  have h13 := rotrMacro_eq x (n := 13) (by decide) (by decide)
  have h22 := rotrMacro_eq x (n := 22) (by decide) (by decide)
  rw [bigSigma0, ← h2, ← h13, ← h22]
  rfl

theorem s3_eq : s3 x = bigSigma1 x := by
  have h6 := rotrMacro_eq x (n := 6) (by decide) (by decide)
  have h11 := rotrMacro_eq x (n := 11) (by decide) (by decide)
  have h25 := rotrMacro_eq x (n := 25) (by decide) (by decide)
  rw [bigSigma1, ← h6, ← h11, ← h25]
  rfl

end Sigmas

theorem or_bytes_eq (a b c d : UInt8) : a.toUInt32 <<< 24 ||| b.toUInt32 <<< 16 |||
    c.toUInt32 <<< 8 ||| d.toUInt32 = UInt32.ofNat (bigEndian [a, b, c, d]) := by
  apply UInt32.toNat_inj.mp
  have ha := a.toNat_lt
  have hb := b.toNat_lt
  have hc := c.toNat_lt
  have hd := d.toNat_lt
  have hor (i x y : Nat) (hy : y < 2 ^ i) : 2 ^ i * x ||| y = 2 ^ i * x + y :=
    (Nat.two_pow_add_eq_or_of_lt hy x).symm
  have h1 := hor 24 a.toNat (2 ^ 16 * b.toNat) (by omega)
  have h2 := hor 16 (2 ^ 8 * a.toNat + b.toNat) (2 ^ 8 * c.toNat) (by omega)
  have h3 := hor 8 (2 ^ 16 * a.toNat + 2 ^ 8 * b.toNat + c.toNat) d.toNat (by omega)
  have hlor : 2 ^ 24 * a.toNat ||| 2 ^ 16 * b.toNat ||| 2 ^ 8 * c.toNat ||| d.toNat =
      2 ^ 24 * a.toNat + 2 ^ 16 * b.toNat + 2 ^ 8 * c.toNat + d.toNat := by
    rw [h1, show 2 ^ 24 * a.toNat + 2 ^ 16 * b.toNat = 2 ^ 16 * (2 ^ 8 * a.toNat + b.toNat) by ring, h2,
      show 2 ^ 16 * (2 ^ 8 * a.toNat + b.toNat) + 2 ^ 8 * c.toNat = 2 ^ 8 * (2 ^ 16 * a.toNat + 2 ^ 8 * b.toNat + c.toNat) by ring, h3]
  have hmod (n m : Nat) (hn : n < 2 ^ 8) (hm : m ≤ 24) : n <<< m % 2 ^ 32 = 2 ^ m * n := by
    rw [Nat.shiftLeft_eq, Nat.mul_comm, Nat.mod_eq_of_lt]
    calc
      2 ^ m * n
      _ ≤ 2 ^ 24 * n := Nat.mul_le_mul_right n (Nat.pow_le_pow_right (by decide) hm)
      _ < 2 ^ 32 := by omega
  have h24 : UInt32.toNat 24 % 32 = 24 := rfl
  have h16 : UInt32.toNat 16 % 32 = 16 := rfl
  have h8 : UInt32.toNat 8 % 32 = 8 := rfl
  rw [UInt32.toNat_or, UInt32.toNat_or, UInt32.toNat_or, UInt32.toNat_shiftLeft,
    UInt32.toNat_shiftLeft, UInt32.toNat_shiftLeft, UInt8.toNat_toUInt32, UInt8.toNat_toUInt32,
    UInt8.toNat_toUInt32, UInt8.toNat_toUInt32, h24, h16, h8, hmod _ _ ha (by decide),
    hmod _ _ hb (by decide), hmod _ _ hc (by decide), hlor, UInt32.toNat_ofNat']
  simp only [bigEndian, List.foldl_cons, List.foldl_nil]
  omega

theorem putUint32_eq (n : UInt32) : putUint32 n = bigEndianBytes 4 n.toNat := by
  have hbyte (k : UInt32) (m : Nat) (hk : k.toNat = m) (hm : m < 32) :
      (n >>> k).toUInt8 = UInt8.ofNat (n.toNat / 2 ^ m) := by
    apply UInt8.toNat_inj.mp
    rw [UInt32.toNat_toUInt8, UInt32.toNat_shiftRight, hk, Nat.mod_eq_of_lt hm,
      Nat.shiftRight_eq_div_pow, UInt8.toNat_ofNat']
  have h24 := hbyte 24 24 rfl (by decide)
  have h16 := hbyte 16 16 rfl (by decide)
  have h8 := hbyte 8 8 rfl (by decide)
  have h0 := hbyte 0 0 rfl (by decide)
  simp only [putUint32, bigEndianBytes, h24, h16, h8, Nat.div_div_eq_div_mul]
  simp
/-! ## The rounds -/

/-- Eight lines of `P` are eight rounds: the registers change their names instead of their
values. -/
theorem eightSteps_eq (k w : Nat → UInt32) (t : Nat) (r : Registers) :
    eightSteps k w t r = rounds k w t 8 r := by
  simp only [eightSteps, stepP, s2_eq, s3_eq, f0_eq, f1_eq]
  rfl

theorem rounds_add (k w : Nat → UInt32) (t m n : Nat) (r : Registers) :
    rounds k w t (m + n) r = rounds k w (t + m) n (rounds k w t m r) := by
  induction m generalizing t r with
  | zero => rw [Nat.zero_add, Nat.add_zero, rounds]
  | succ m ih =>
    rw [Nat.succ_add, rounds, rounds, ih, Nat.add_right_comm, Nat.add_assoc]

theorem foldl_eightSteps (k w : Nat → UInt32) (n : Nat) (r : Registers) :
    (List.range n).foldl (fun r i => eightSteps k w (8 * i) r) r = rounds k w 0 (8 * n) r := by
  induction n with
  | zero => rfl
  | succ n ih =>
    rw [List.range_succ, List.foldl_append, ih, Nat.mul_succ, rounds_add, Nat.zero_add]
    exact eightSteps_eq k w (8 * n) _

theorem rounds_congr {k k' w w' : Nat → UInt32} {t n : Nat} (r : Registers)
    (h : ∀ i, t ≤ i → i < t + n → k i = k' i ∧ w i = w' i) :
    rounds k w t n r = rounds k' w' t n r := by
  induction n generalizing t r with
  | zero => rfl
  | succ n ih =>
    obtain ⟨hk, hw⟩ := h t (Nat.le_refl _) (by omega)
    rw [rounds, rounds, hk, hw, ih]
    intro i hlow hhigh
    exact h i (by omega) (by omega)

/-! ## The schedule -/

theorem getUint32_eq {block : Bytes} (hlength : block.length = 64) {t : Nat} (ht : t < 16) :
    getUint32 block (4 * t) = blockWord block t := by
  have hslice : (block.drop (4 * t)).take 4 =
      [block.getD (4 * t) 0, block.getD (4 * t + 1) 0, block.getD (4 * t + 2) 0,
        block.getD (4 * t + 3) 0] := by
    rw [List.drop_eq_getElem_cons (by omega), List.drop_eq_getElem_cons (by omega),
      List.drop_eq_getElem_cons (by omega), List.drop_eq_getElem_cons (by omega),
      List.getD_eq_getElem _ _ (by omega), List.getD_eq_getElem _ _ (by omega),
      List.getD_eq_getElem _ _ (by omega), List.getD_eq_getElem _ _ (by omega)]
    rfl
  rw [getUint32, blockWord, hslice, or_bytes_eq]

theorem length_messageWords (data : Bytes) (n : Nat) : (messageWords data n).length = 16 + n := by
  induction n with
  | zero => simp [messageWords]
  | succ n ih =>
    rw [messageWords, List.length_append, ih]
    rfl

/-- A word that was filled in stays: the loop against the recursion of the standard. -/
theorem messageWords_eq {block : Bytes} (hlength : block.length = 64) {n t : Nat}
    (ht : t < 16 + n) :
    (messageWords block n).getD t 0 = schedule (blockWord block) t := by
  induction n generalizing t with
  | zero =>
    have hget : (messageWords block 0).getD t 0 = getUint32 block (4 * t) := by
      rw [messageWords, List.getD_eq_getElem _ _ (by simpa using ht), List.getElem_map,
        List.getElem_range]
    rw [hget, getUint32_eq hlength ht, schedule, if_pos ht]
  | succ n ih =>
    have hprev := length_messageWords block n
    rw [messageWords]
    by_cases hold : t < 16 + n
    · rw [List.getD_append _ _ _ _ (by omega), ih hold]
    · have hlast : t = 16 + n := by omega
      subst hlast
      rw [List.getD_append_right _ _ _ _ (by omega), hprev, Nat.sub_self, List.getD_cons_zero,
        nextWord, schedule, if_neg (by omega), s0_eq, s1_eq, ih (by omega), ih (by omega),
        ih (by omega), ih (by omega)]

/-! ## The constants -/

/-- The word is the fractional part of the root, whatever the whole number before it is. -/
theorem rootWord_of_whole {e i whole : Nat} {word : UInt32} (he : 0 < e) (hi : i < 64)
    (hlow : (whole * 2 ^ 32 + word.toNat) ^ e ≤ primes.getD i 0 * (2 ^ 32) ^ e)
    (hhigh : primes.getD i 0 * (2 ^ 32) ^ e < (whole * 2 ^ 32 + word.toNat + 1) ^ e) :
    word = rootWord e i := by
  have hword := word.toNat_lt
  rw [rootWord_eq he (nth_prime hi) hlow hhigh]
  apply UInt32.toNat_inj.mp
  rw [UInt32.toNat_ofNat']
  omega

theorem processConstants_eq {t : Nat} (ht : t < 64) :
    processConstants.getD t 0 = roundConstant t := by
  have hcheck : ∀ t < 64, ∃ whole < 7,
      (whole * 2 ^ 32 + (processConstants.getD t 0).toNat) ^ 3 ≤ primes.getD t 0 * (2 ^ 32) ^ 3 ∧
      primes.getD t 0 * (2 ^ 32) ^ 3 <
        (whole * 2 ^ 32 + (processConstants.getD t 0).toNat + 1) ^ 3 := by
    decide +kernel
  obtain ⟨whole, -, hlow, hhigh⟩ := hcheck t ht
  exact rootWord_of_whole (by decide) ht hlow hhigh

theorem sha256Starts_state (ctx : Sha256Context) : (sha256Starts ctx).state = initialValue := by
  have hroot (whole i : Nat) (word : UInt32) (hi : i < 64)
      (h : (whole * 2 ^ 32 + word.toNat) ^ 2 ≤ primes.getD i 0 * (2 ^ 32) ^ 2 ∧
        primes.getD i 0 * (2 ^ 32) ^ 2 < (whole * 2 ^ 32 + word.toNat + 1) ^ 2) :
      word = rootWord 2 i :=
    rootWord_of_whole (by decide) hi h.1 h.2
  rw [sha256Starts, initialValue, Registers.mk.injEq]
  exact ⟨hroot 1 0 _ (by decide) (by decide +kernel), hroot 1 1 _ (by decide) (by decide +kernel),
    hroot 2 2 _ (by decide) (by decide +kernel), hroot 2 3 _ (by decide) (by decide +kernel),
    hroot 3 4 _ (by decide) (by decide +kernel), hroot 3 5 _ (by decide) (by decide +kernel),
    hroot 4 6 _ (by decide) (by decide +kernel), hroot 4 7 _ (by decide) (by decide +kernel)⟩

/-- The registers that change their names, the words that are filled in as they are needed,
and the constants give the compression function of the standard. -/
theorem sha256Process_eq {state : Registers} {block : Bytes} (hlength : block.length = 64) :
    sha256Process state block = compress state block := by
  rw [sha256Process, foldl_eightSteps, compress]
  refine congrArg state.add (rounds_congr _ ?_)
  intro t _ ht
  exact ⟨processConstants_eq (by omega), messageWords_eq hlength (by omega)⟩

end Monoimage.Kexec
