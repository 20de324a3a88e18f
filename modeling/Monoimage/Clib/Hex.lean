import Monoimage.Clib.Struct
import Monoimage.Clib.Text

/-! Hexadecimal output of `printf`. `%0wx` prints at least `w` digits; a value below
`16 ^ w` has exactly `w`. Two digits for each byte read back as the bytes. -/
namespace Monoimage.Clib

/-- `%0wx`. -/
def printHex (width value : Nat) : Text :=
  let digits := Nat.toDigits 16 value
  List.replicate (width - digits.length) '0' ++ digits

def hexDigits : Nat → Nat → Text
  | 0, _ => []
  | width + 1, value => hexDigits width (value / 16) ++ [(value % 16).digitChar]

@[simp] theorem length_hexDigits (width value : Nat) :
    (hexDigits width value).length = width := by
  induction width generalizing value with
  | zero => rfl
  | succ width ih => simp [hexDigits, ih]

theorem hexDigits_zero (width : Nat) : hexDigits width 0 = List.replicate width '0' := by
  induction width with
  | zero => rfl
  | succ width ih => simp [hexDigits, ih, List.replicate_succ', Nat.digitChar]

theorem printHex_eq_hexDigits {width value : Nat} (hwidth : 0 < width)
    (hvalue : value < 16 ^ width) : printHex width value = hexDigits width value := by
  induction width generalizing value with
  | zero => simp at hwidth
  | succ width ih =>
    by_cases hsmall : value < 16
    · have hdiv : value / 16 = 0 := Nat.div_eq_of_lt hsmall
      simp [printHex, hexDigits, Nat.toDigits_of_lt_base hsmall, hdiv, hexDigits_zero,
        Nat.mod_eq_of_lt hsmall]
    · have hwidth' : 0 < width := by
        rcases Nat.eq_zero_or_pos width with rfl | h
        · simp at hvalue
          omega
        · exact h
      have hdiv : value / 16 < 16 ^ width := by
        rw [Nat.pow_succ] at hvalue
        omega
      have hdigits : Nat.toDigits 16 value =
          Nat.toDigits 16 (value / 16) ++ [(value % 16).digitChar] :=
        Nat.toDigits_of_base_le (by decide) (by omega)
      rw [hexDigits, ← ih hwidth' hdiv]
      simp only [printHex, hdigits, List.length_append, List.length_singleton,
        Nat.add_sub_add_right, List.append_assoc]

theorem hexDigits_byte {width high : Nat} (byte : UInt8) :
    hexDigits (width + 2) (high * 256 + byte.toNat) =
      hexDigits width high ++ hexDigits 2 byte.toNat := by
  have hbyte := byte.toNat_lt
  have hhigh : (high * 256 + byte.toNat) / 16 / 16 = high := by omega
  have hmid : (high * 256 + byte.toNat) / 16 % 16 = byte.toNat / 16 % 16 := by omega
  have hlow : (high * 256 + byte.toNat) % 16 = byte.toNat % 16 := by omega
  simp only [hexDigits, hhigh, hmid, hlow, List.nil_append, List.append_assoc]

def hexChars : Text := "0123456789abcdef".toList

private theorem digitChar_mem : ∀ d < 16, d.digitChar ∈ hexChars := by
  decide

theorem mem_hexDigits {width value : Nat} {c : Char} (h : c ∈ hexDigits width value) :
    c ∈ hexChars := by
  induction width generalizing value with
  | zero => simp [hexDigits] at h
  | succ width ih =>
    rw [hexDigits, List.mem_append, List.mem_singleton] at h
    rcases h with h | rfl
    · exact ih h
    · exact digitChar_mem _ (Nat.mod_lt _ (by decide))

/-! ## The digits read back, two for each byte -/

def hexText (bytes : List UInt8) : Text :=
  bytes.flatMap fun byte => hexDigits 2 byte.toNat

def hexValue (c : Char) : Option Nat :=
  if c ∈ hexChars then some (hexChars.idxOf c) else none

def readPairs : Text → Option (List UInt8)
  | [] => some []
  | [_] => none
  | high :: low :: rest => do
    let high ← hexValue high
    let low ← hexValue low
    let bytes ← readPairs rest
    pure (UInt8.ofNat (16 * high + low) :: bytes)

private theorem hexValue_digitChar : ∀ d < 16, hexValue d.digitChar = some d := by
  decide

theorem hexText_cons (byte : UInt8) (bytes : List UInt8) :
    hexText (byte :: bytes) =
      (byte.toNat / 16).digitChar :: (byte.toNat % 16).digitChar :: hexText bytes := by
  have hbyte := byte.toNat_lt
  have hhigh : byte.toNat / 16 % 16 = byte.toNat / 16 := Nat.mod_eq_of_lt (by omega)
  simp only [hexText, List.flatMap_cons, hexDigits, hhigh, List.nil_append,
    List.cons_append]

theorem readPairs_hexText (bytes : List UInt8) : readPairs (hexText bytes) = some bytes := by
  induction bytes with
  | nil => rfl
  | cons byte bytes ih =>
    have hbyte := byte.toNat_lt
    have hhigh := hexValue_digitChar (byte.toNat / 16) (by omega)
    have hlow := hexValue_digitChar (byte.toNat % 16) (Nat.mod_lt _ (by decide))
    have hvalue : UInt8.ofNat (16 * (byte.toNat / 16) + byte.toNat % 16) = byte := by
      rw [Nat.div_add_mod, UInt8.ofNat_toNat]
    rw [hexText_cons, readPairs, hhigh, hlow, ih]
    simp only [Option.bind_eq_bind, Option.bind_some, hvalue]
    rfl

theorem mem_hexText {bytes : List UInt8} {c : Char} (h : c ∈ hexText bytes) : c ∈ hexChars := by
  obtain ⟨byte, _, hdigit⟩ := List.mem_flatMap.mp h
  exact mem_hexDigits hdigit

end Monoimage.Clib
