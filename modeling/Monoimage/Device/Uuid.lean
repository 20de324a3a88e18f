import Mathlib.Tactic.IntervalCases
import Monoimage.Clib.Hex

/-! File system UUIDs and their text, by the code that `linuxrc.c` and `ext2_uuid.c` of
kexec-tools have in common. -/
namespace Monoimage.Device

open Clib

abbrev Uuid := Vector UInt8 16

structure UuidFields where
  timeLow : UInt32
  timeMid : UInt16
  timeHiAndVersion : UInt16
  clockSeq : UInt16
  node : Vector UInt8 6

/-- One step `tmp = (tmp << 8) | *ptr++`. -/
def shiftIn (tmp : UInt32) (byte : UInt8) : UInt32 :=
  (tmp <<< 8) ||| byte.toUInt32

def unpackUuid (uu : Uuid) : UuidFields where
  timeLow := shiftIn (shiftIn (shiftIn uu[0].toUInt32 uu[1]) uu[2]) uu[3]
  timeMid := (shiftIn uu[4].toUInt32 uu[5]).toUInt16
  timeHiAndVersion := (shiftIn uu[6].toUInt32 uu[7]).toUInt16
  clockSeq := (shiftIn uu[8].toUInt32 uu[9]).toUInt16
  node := #v[uu[10], uu[11], uu[12], uu[13], uu[14], uu[15]]

/-- `"%08x-%04x-%04x-%02x%02x-%02x%02x%02x%02x%02x%02x"`. -/
def uuidToStr (uu : Uuid) : Text :=
  let uuid := unpackUuid uu
  printHex 8 uuid.timeLow.toNat ++ '-' :: (printHex 4 uuid.timeMid.toNat ++ '-' ::
    (printHex 4 uuid.timeHiAndVersion.toNat ++ '-' ::
      (printHex 2 (uuid.clockSeq >>> 8).toNat ++
        (printHex 2 (uuid.clockSeq &&& 0xFF).toNat ++ '-' ::
          (printHex 2 uuid.node[0].toNat ++ (printHex 2 uuid.node[1].toNat ++
            (printHex 2 uuid.node[2].toNat ++ (printHex 2 uuid.node[3].toNat ++
              (printHex 2 uuid.node[4].toNat ++ printHex 2 uuid.node[5].toNat)))))))))

/-- Sixteen rounds, in each of which the first byte is tested: the pointer is not moved. -/
def isNullUuid (uu : Uuid) : Bool :=
  (List.range 16).all fun _ => uu[0] == 0

def firstByte (uu : Uuid) : UInt8 := uu[0]

theorem isNullUuid_iff {uu : Uuid} : isNullUuid uu = true ↔ firstByte uu = 0 := by
  simp only [isNullUuid, firstByte, List.all_eq_true, List.mem_range, beq_iff_eq]
  exact ⟨fun h => h 0 (by decide), fun h _ _ => h⟩

def noneUuid : Text := "<none>".toList

def uuid2str (uu : Uuid) : Text :=
  if isNullUuid uu then noneUuid else uuidToStr uu

/-! ## The text and the bytes -/

theorem shiftIn_toNat {tmp : UInt32} {byte : UInt8} (h : tmp.toNat < 2 ^ 24) :
    (shiftIn tmp byte).toNat = tmp.toNat * 256 + byte.toNat := by
  have hbyte : byte.toNat < 2 ^ 8 := byte.toNat_lt
  have hshift : tmp.toNat <<< 8 % 2 ^ 32 = tmp.toNat <<< 8 := by
    rw [Nat.shiftLeft_eq]
    omega
  have hsum := Nat.shiftLeft_add_eq_or_of_lt hbyte tmp.toNat
  simp only [shiftIn, UInt32.toNat_or, UInt32.toNat_shiftLeft, UInt8.toNat_toUInt32]
  have height : UInt32.toNat 8 % 32 = 8 := rfl
  rw [height, hshift, ← hsum, Nat.shiftLeft_eq]

theorem shiftIn_pair (a b : UInt8) : (shiftIn a.toUInt32 b).toNat = a.toNat * 256 + b.toNat := by
  have ha := a.toNat_lt
  rw [shiftIn_toNat (by rw [UInt8.toNat_toUInt32]; omega), UInt8.toNat_toUInt32]

private theorem toUInt16_pair (a b : UInt8) :
    (shiftIn a.toUInt32 b).toUInt16.toNat = a.toNat * 256 + b.toNat := by
  have ha := a.toNat_lt
  have hb := b.toNat_lt
  rw [UInt32.toNat_toUInt16, shiftIn_pair, Nat.mod_eq_of_lt (by omega)]

private theorem printHex_pair (a b : UInt8) :
    printHex 4 (a.toNat * 256 + b.toNat) = hexDigits 2 a.toNat ++ hexDigits 2 b.toNat := by
  have ha := a.toNat_lt
  have hb := b.toNat_lt
  rw [printHex_eq_hexDigits (by decide) (by omega), hexDigits_byte]

theorem printHex_byte (byte : UInt8) : printHex 2 byte.toNat = hexDigits 2 byte.toNat := by
  have := byte.toNat_lt
  exact printHex_eq_hexDigits (by decide) (by omega)

theorem printHex_timeLow (a b c d : UInt8) :
    printHex 8 (shiftIn (shiftIn (shiftIn a.toUInt32 b) c) d).toNat =
      hexDigits 2 a.toNat ++ (hexDigits 2 b.toNat ++
        (hexDigits 2 c.toNat ++ hexDigits 2 d.toNat)) := by
  have ha := a.toNat_lt
  have hb := b.toNat_lt
  have hc := c.toNat_lt
  have hd := d.toNat_lt
  have hab := shiftIn_pair a b
  have habc : (shiftIn (shiftIn a.toUInt32 b) c).toNat =
      (a.toNat * 256 + b.toNat) * 256 + c.toNat := by
    rw [shiftIn_toNat (by omega), hab]
  have habcd : (shiftIn (shiftIn (shiftIn a.toUInt32 b) c) d).toNat =
      ((a.toNat * 256 + b.toNat) * 256 + c.toNat) * 256 + d.toNat := by
    rw [shiftIn_toNat (by omega), habc]
  rw [habcd, printHex_eq_hexDigits (by decide) (by omega)]
  simp only [hexDigits_byte, List.append_assoc]

private theorem clockSeq_high (a b : UInt8) :
    ((shiftIn a.toUInt32 b).toUInt16 >>> 8).toNat = a.toNat := by
  have hb := b.toNat_lt
  rw [UInt16.toNat_shiftRight, toUInt16_pair, Nat.shiftRight_eq_div_pow]
  have height : UInt16.toNat 8 % 16 = 8 := rfl
  rw [height]
  omega

private theorem clockSeq_low (a b : UInt8) :
    ((shiftIn a.toUInt32 b).toUInt16 &&& 0xFF).toNat = b.toNat := by
  have hb := b.toNat_lt
  rw [UInt16.toNat_and, toUInt16_pair]
  have hmask : UInt16.toNat 0xFF = 2 ^ 8 - 1 := rfl
  rw [hmask, Nat.and_two_pow_sub_one_eq_mod]
  omega

/-- Two digits for each byte, in order, and the four hyphens. -/
theorem uuidToStr_eq (uu : Uuid) :
    uuidToStr uu =
      (hexDigits 2 uu[0].toNat ++ (hexDigits 2 uu[1].toNat ++
        (hexDigits 2 uu[2].toNat ++ hexDigits 2 uu[3].toNat))) ++ '-' ::
      ((hexDigits 2 uu[4].toNat ++ hexDigits 2 uu[5].toNat) ++ '-' ::
      ((hexDigits 2 uu[6].toNat ++ hexDigits 2 uu[7].toNat) ++ '-' ::
      (hexDigits 2 uu[8].toNat ++ (hexDigits 2 uu[9].toNat ++ '-' ::
      (hexDigits 2 uu[10].toNat ++ (hexDigits 2 uu[11].toNat ++ (hexDigits 2 uu[12].toNat ++
        (hexDigits 2 uu[13].toNat ++ (hexDigits 2 uu[14].toNat ++
          hexDigits 2 uu[15].toNat))))))))) := by
  simp only [uuidToStr, unpackUuid, printHex_timeLow, toUInt16_pair, printHex_pair,
    clockSeq_high, clockSeq_low, printHex_byte]
  rfl

theorem length_uuidToStr (uu : Uuid) : (uuidToStr uu).length = 36 := by
  simp [uuidToStr_eq]

/-! ## The canonical form -/

/-- Groups of 8, 4, 4, 4 and 12 lower-case digits between hyphens, which read in pairs from
left to right as the bytes. -/
structure CanonicalUuid (bytes : List UInt8) (text : Text) : Prop where
  groups : (text.splitOn '-').map List.length = [8, 4, 4, 4, 12]
  digits : ∀ c ∈ (text.splitOn '-').flatten, c ∈ hexChars
  pairs : readPairs (text.splitOn '-').flatten = some bytes

def uuidGroups (uu : Uuid) : List (List UInt8) :=
  [[uu[0], uu[1], uu[2], uu[3]], [uu[4], uu[5]], [uu[6], uu[7]], [uu[8], uu[9]],
    [uu[10], uu[11], uu[12], uu[13], uu[14], uu[15]]]

theorem flatten_uuidGroups (uu : Uuid) : (uuidGroups uu).flatten = uu.toList := by
  apply List.ext_getElem
  · rw [Vector.length_toList]
    rfl
  · intro i hi _
    change i < 16 at hi
    rw [Vector.getElem_toList]
    interval_cases i <;> rfl

theorem splitOn_uuidToStr (uu : Uuid) :
    (uuidToStr uu).splitOn '-' = (uuidGroups uu).map hexText := by
  have hjoin : uuidToStr uu = ['-'].intercalate ((uuidGroups uu).map hexText) := by
    simp [uuidToStr_eq, uuidGroups, hexText, List.intercalate, List.intersperse]
  have hgroups : ∀ group ∈ (uuidGroups uu).map hexText, '-' ∉ group := by
    intro group hgroup hhyphen
    obtain ⟨bytes, _, rfl⟩ := List.mem_map.mp hgroup
    exact absurd (mem_hexText hhyphen) (by decide)
  rw [hjoin, List.splitOn_intercalate _ hgroups (List.cons_ne_nil _ _)]

theorem flatten_splitOn_uuidToStr (uu : Uuid) :
    ((uuidToStr uu).splitOn '-').flatten = hexText uu.toList := by
  rw [splitOn_uuidToStr, ← flatten_uuidGroups]
  simp only [hexText, List.flatMap_def, List.map_flatten, List.flatten_flatten, List.map_map]
  rfl

theorem uuidToStr_injective : Function.Injective uuidToStr := by
  intro u v h
  have hread : readPairs (hexText u.toList) = readPairs (hexText v.toList) := by
    rw [← flatten_splitOn_uuidToStr, ← flatten_splitOn_uuidToStr, h]
  rw [readPairs_hexText, readPairs_hexText] at hread
  exact Vector.toList_inj.mp (Option.some.inj hread)

theorem uuidToStr_canonical (uu : Uuid) :
    (uuidToStr uu).length = 36 ∧ CanonicalUuid uu.toList (uuidToStr uu) ∧
      ∀ vv, uuidToStr vv = uuidToStr uu → vv = uu := by
  refine ⟨length_uuidToStr uu, ⟨?_, ?_, ?_⟩, fun vv h => uuidToStr_injective h⟩
  · simp [splitOn_uuidToStr, uuidGroups, hexText]
  · intro c hc
    rw [flatten_splitOn_uuidToStr] at hc
    exact mem_hexText hc
  · rw [flatten_splitOn_uuidToStr, readPairs_hexText]

theorem uuidToStr_ne_noneUuid (uu : Uuid) : uuidToStr uu ≠ noneUuid := by
  intro h
  have := congrArg List.length h
  rw [length_uuidToStr] at this
  exact absurd this (by decide)

theorem uuid2str_eq_noneUuid_iff {uu : Uuid} : uuid2str uu = noneUuid ↔ firstByte uu = 0 := by
  rw [← isNullUuid_iff, uuid2str]
  split
  · simp [*]
  · simp [*, uuidToStr_ne_noneUuid]

def uuidChars : Text := '-' :: hexChars ++ noneUuid

theorem mem_uuid2str {uu : Uuid} {c : Char} (h : c ∈ uuid2str uu) : c ∈ uuidChars := by
  unfold uuid2str at h
  split at h
  · exact List.mem_append_right _ h
  · rw [uuidToStr_eq] at h
    simp only [List.mem_append, List.mem_cons] at h
    have hhex {byte : UInt8} (h : c ∈ hexDigits 2 byte.toNat) : c ∈ uuidChars :=
      List.mem_append_left _ (List.mem_cons_of_mem _ (mem_hexDigits h))
    have hhyphen (h : c = '-') : c ∈ uuidChars := h ▸ by decide
    rcases h with (h | h | h | h) | h | (h | h) | h | (h | h) | h |
      h | h | h | h | h | h | h | h | h <;>
      first | exact hhex h | exact hhyphen h

end Monoimage.Device
