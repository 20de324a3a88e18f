import Monoimage.Clib.Text

/-! `get_cmdline_var`, which `linuxrc.c` and `monoinit.c` have in common, and what it
finds on a line of words. -/
namespace Monoimage.CommandLine

open Clib

/-- `strndup(s, n)` for a difference of pointers: a negative one is a huge `size_t`. -/
def strndup (s : Text) (n : Int) : Text :=
  if n < 0 then s else s.take n.toNat

theorem length_strndup_le (s : Text) (n : Int) : (strndup s n).length ≤ s.length := by
  unfold strndup
  split
  · exact Nat.le_refl _
  · exact List.length_take_le' _ _

/-- The value starts one character behind the name, "for the =", and its length is the
distance from there to the first blank behind the start of the name, or to the newline
if there is none. -/
def getCmdlineVar (cmdline var : Text) : Except Fault (Option Text) :=
  match strstr cmdline var with
  | none => .ok none
  | some start =>
    let stop :=
      match strstr start [' '] with
      | some stop => some stop
      | none => strstr start ['\n']
    if start.length < var.length + 1 then .error .outOfBounds
    else
      let value := start.drop (var.length + 1)
      match stop with
      | none => .ok (some value)
      | some stop =>
        .ok (some (strndup value ((start.length : Int) - stop.length - (var.length + 1))))

theorem length_getCmdlineVar {line var value : Text}
    (h : getCmdlineVar line var = .ok (some value)) : value.length ≤ line.length := by
  unfold getCmdlineVar at h
  split at h
  · cases h
  · rename_i start hstart
    have hstart : start.length ≤ line.length := (strstr_some hstart).1.length_le
    have hdrop : (start.drop (var.length + 1)).length ≤ start.length := by
      rw [List.length_drop]
      omega
    dsimp only at h
    split at h
    · cases h
    · split at h
      · cases h
        exact hdrop.trans hstart
      · cases h
        exact (length_strndup_le _ _).trans (hdrop.trans hstart)

/-- The first `var` of the line is its very end, and there is nothing to take a value from. -/
def AtEnd (line var : Text) : Prop := strstr line var = some var

theorem getCmdlineVar_error_iff {line var : Text} :
    (∃ f, getCmdlineVar line var = .error f) ↔ AtEnd line var := by
  unfold getCmdlineVar AtEnd
  cases hfound : strstr line var with
  | none => simp
  | some start =>
    obtain ⟨rest, rfl⟩ := (strstr_some hfound).2
    dsimp only
    rw [List.length_append]
    cases rest with
    | nil => simp
    | cons c rest =>
      have hlong : ¬ var.length + (c :: rest).length < var.length + 1 := by
        rw [List.length_cons]
        omega
      rw [if_neg hlong]
      split
      · simp
      · simp

/-- The text behind the first occurrence of `var` in a word and one more character. -/
def carried (word var : Text) : Option Text :=
  match strstr word var with
  | none => none
  | some found =>
    match found.drop var.length with
    | [] => none
    | _ :: value => some value

def firstWord (line var : Text) : Option Text :=
  (line.splitOn ' ').find? fun word => (strstr word var).isSome

def Supplies (line var value : Text) : Prop :=
  (firstWord line var).bind (carried · var) = some value

instance (line var value : Text) : Decidable (Supplies line var value) :=
  inferInstanceAs (Decidable (_ = _))

/-- The text leaves it to what stands behind it to supply the value, or does so itself. -/
def Transparent (text var value : Text) : Prop :=
  firstWord text var = none ∨ Supplies text var value

instance (text var value : Text) : Decidable (Transparent text var value) :=
  inferInstanceAs (Decidable (_ ∨ _))

/-! ## Word by word -/

section Words

variable {word rest var found value : Text}

private theorem strstr_stop {stop : Char} (hword : stop ∉ word)
    (hfound : strstr word var = some found) :
    strstr (found ++ stop :: rest) [stop] = some (stop :: rest) := by
  apply strstr_singleton_append
  exact fun h => hword ((strstr_some hfound).1.subset h)

/-- A name that ends its word makes the length negative, and the value is then the whole
rest of the line. -/
private theorem strndup_found {stop : Char} (hstarts : var <+: found) :
    strndup ((found ++ stop :: rest).drop (var.length + 1))
        (((found ++ stop :: rest).length : Int) - (stop :: rest).length - (var.length + 1)) =
      match found.drop var.length with
      | [] => rest
      | _ :: value => value := by
  obtain ⟨tail, rfl⟩ := hstarts
  rw [List.drop_left]
  cases tail with
  | nil =>
    have hneg : ((var ++ stop :: rest).length : Int) - (stop :: rest).length -
        (var.length + 1) < 0 := by
      simp only [List.length_append]
      omega
    rw [List.append_nil, strndup, if_pos hneg, ← List.drop_drop, List.drop_left]
    rfl
  | cons c value =>
    have hlen : ((var ++ c :: value ++ stop :: rest).length : Int) - (stop :: rest).length -
        (var.length + 1) = value.length := by
      simp only [List.length_append, List.length_cons]
      omega
    have hdrop : (var ++ c :: value ++ stop :: rest).drop (var.length + 1) =
        value ++ stop :: rest := by
      rw [List.append_assoc, List.cons_append, ← List.drop_drop, List.drop_left]
      rfl
    rw [hlen, hdrop, strndup, if_neg (by omega), Int.toNat_natCast, List.take_left]

private theorem carried_getD (hfound : strstr word var = some found) :
    (match found.drop var.length with
      | [] => rest
      | _ :: value => value) = (carried word var).getD rest := by
  simp only [carried, hfound]
  cases found.drop var.length <;> rfl

theorem carried_suffix (h : carried word var = some value) : value <:+ word := by
  unfold carried at h
  split at h
  · cases h
  · rename_i found hfound
    split at h
    · cases h
    · rename_i c tail hdrop
      cases h
      have hsuffix : c :: value <:+ found := hdrop ▸ List.drop_suffix _ _
      exact ((List.suffix_cons c value).trans hsuffix).trans (strstr_some hfound).1

theorem getCmdlineVar_skip (hvar : ' ' ∉ var) (hskip : strstr word var = none) :
    getCmdlineVar (word ++ ' ' :: rest) var = getCmdlineVar rest var := by
  simp only [getCmdlineVar, strstr_append_sep hvar, hskip]

theorem getCmdlineVar_start {line : Text} (hstart : strstr line var = some (found ++ ' ' :: rest))
    (hfound : ' ' ∉ found) (hstarts : var <+: found) :
    getCmdlineVar line var = .ok (some (match found.drop var.length with
      | [] => rest
      | _ :: value => value)) := by
  have hlen : ¬ (found ++ ' ' :: rest).length < var.length + 1 := by
    have := hstarts.length_le
    simp only [List.length_append, List.length_cons]
    omega
  simp only [getCmdlineVar, hstart, strstr_singleton_append hfound, if_neg hlen,
    strndup_found hstarts]

theorem getCmdlineVar_hit (hword : ' ' ∉ word) (hvar : ' ' ∉ var)
    (hfound : strstr word var = some found) :
    getCmdlineVar (word ++ ' ' :: rest) var = .ok (some ((carried word var).getD rest)) := by
  have hstart : strstr (word ++ ' ' :: rest) var = some (found ++ ' ' :: rest) := by
    rw [strstr_append_sep hvar, hfound]
  obtain ⟨hsuffix, hstarts⟩ := strstr_some hfound
  rw [getCmdlineVar_start hstart (fun h => hword (hsuffix.subset h)) hstarts, carried_getD hfound]

theorem getCmdlineVar_hit_iff (hword : ' ' ∉ word) (hvar : ' ' ∉ var)
    (hfound : strstr word var = some found) :
    getCmdlineVar (word ++ ' ' :: rest) var = .ok (some value) ↔
      carried word var = some value ∨ (carried word var = none ∧ rest = value) := by
  rw [getCmdlineVar_hit hword hvar hfound]
  cases carried word var <;> simp

theorem getCmdlineVar_last (hblank : ' ' ∉ word) (hnewline : '\n' ∉ word) (hvar : '\n' ∉ var)
    (hfound : strstr word var = some found) :
    getCmdlineVar (word ++ ['\n']) var = .ok (some ((carried word var).getD [])) := by
  have hstarts := (strstr_some hfound).2
  have hlen : ¬ (found ++ ['\n']).length < var.length + 1 := by
    have := hstarts.length_le
    simp only [List.length_append, List.length_singleton]
    omega
  have hnoblank : strstr (found ++ ['\n']) [' '] = none := by
    rw [strstr_singleton_eq_none]
    have := fun h => hblank ((strstr_some hfound).1.subset h)
    simpa using this
  simp only [getCmdlineVar, strstr_append_sep hvar, hfound, hnoblank,
    strstr_stop hnewline hfound, if_neg hlen, strndup_found hstarts, carried_getD hfound]

theorem getCmdlineVar_none (hvar : '\n' ∉ var) (hskip : strstr word var = none) :
    getCmdlineVar (word ++ ['\n']) var = .ok none := by
  have hne : var ≠ [] := by
    rintro rfl
    cases word <;> simp [strstr] at hskip
  have hnil : strstr ([] : Text) var = none := by simp [strstr, hne]
  simp only [getCmdlineVar, strstr_append_sep hvar, hskip, hnil]

theorem getCmdlineVar_some {line : Text} (h : getCmdlineVar line var = .ok (some value)) :
    ∃ c tail, strstr line var = some (var ++ c :: (value ++ tail)) := by
  unfold getCmdlineVar at h
  split at h
  · cases h
  · rename_i start hstart
    obtain ⟨tail, rfl⟩ := (strstr_some hstart).2
    dsimp only at h
    split at h
    · cases h
    · rename_i hlen
      cases tail with
      | nil => simp at hlen
      | cons c tail =>
        have hdrop : (var ++ c :: tail).drop (var.length + 1) = tail := by
          rw [← List.drop_drop, List.drop_left]
          rfl
        rw [hdrop] at h
        have hvalue : value <+: tail := by
          split at h
          · cases h
            exact List.prefix_refl _
          · cases h
            unfold strndup
            split
            · exact List.prefix_refl _
            · exact List.take_prefix _ _
        obtain ⟨rest, rfl⟩ := hvalue
        exact ⟨c, rest, hstart⟩

/-- A value with a blank in it is all that follows a name which ends its word. -/
theorem getCmdlineVar_blank {line : Text} (hvar : ' ' ∉ var)
    (h : getCmdlineVar line var = .ok (some value)) (hvalue : ' ' ∈ value) :
    strstr line var = some (var ++ ' ' :: value) := by
  obtain ⟨c, tail, hstart⟩ := getCmdlineVar_some h
  have hmem : ' ' ∈ var ++ c :: (value ++ tail) := by simp [hvalue]
  obtain ⟨found, rest, hsplit, hfound⟩ := List.eq_append_cons_of_mem hmem
  have hstarts : var <+: found := by
    rw [← prefix_append_sep_iff (b := rest) hvar, ← hsplit]
    exact List.prefix_append _ _
  rw [hsplit] at hstart
  rw [getCmdlineVar_start hstart hfound hstarts] at h
  obtain ⟨more, rfl⟩ := hstarts
  rw [List.drop_left] at h
  cases more with
  | nil =>
    cases h
    rw [hstart, List.append_nil]
  | cons d more =>
    cases h
    exact absurd (by simp [hvalue]) hfound

end Words

/-! ## Whole lines -/

section Lines

variable {line word var value : Text}

theorem firstWord_append (first second var : Text) :
    firstWord (first ++ ' ' :: second) var = (firstWord first var).or (firstWord second var) := by
  rw [firstWord, List.splitOn_append_cons_self, List.find?_append, firstWord, firstWord]

theorem firstWord_word (hword : ' ' ∉ word) :
    firstWord word var = if (strstr word var).isSome then some word else none := by
  rw [firstWord, List.splitOn_eq_singleton hword, List.find?_singleton]

theorem strstr_of_firstWord (h : firstWord line var = some word) :
    ∃ found, strstr word var = some found := by
  unfold firstWord at h
  exact Option.isSome_iff_exists.mp (by simpa using List.find?_some h)

theorem supplies_word (hword : ' ' ∉ word) :
    Supplies word var value ↔ carried word var = some value := by
  unfold Supplies
  rw [firstWord_word hword]
  cases hfound : strstr word var with
  | none => simp [carried, hfound]
  | some found => simp

theorem supplies_append {first second : Text} :
    Supplies (first ++ ' ' :: second) var value ↔
      Supplies first var value ∨ (firstWord first var = none ∧ Supplies second var value) := by
  unfold Supplies
  rw [firstWord_append]
  cases firstWord first var <;> simp

theorem supplies_append_iff_transparent {first second : Text} (h : Supplies second var value) :
    Supplies (first ++ ' ' :: second) var value ↔ Transparent first var value := by
  rw [supplies_append, Transparent, or_comm]
  simp only [h, and_true]

theorem transparent_append {first second : Text} :
    Transparent (first ++ ' ' :: second) var value ↔
      Supplies first var value ∨ (firstWord first var = none ∧ Transparent second var value) := by
  rw [Transparent, Transparent, supplies_append, firstWord_append, Option.or_eq_none_iff,
    and_or_left, or_left_comm]

theorem supplies_skip {first second : Text} (hskip : firstWord first var = none) :
    Supplies (first ++ ' ' :: second) var value ↔ Supplies second var value := by
  rw [supplies_append, hskip]
  simp [Supplies, hskip]

theorem carried_congr {other : Text} (hsame : strstr word var = strstr other var) :
    carried word var = carried other var := by
  rw [carried, hsame, carried]

theorem word_congr {other : Text} (hword : ' ' ∉ word) (hother : ' ' ∉ other)
    (hsame : strstr word var = strstr other var) :
    (Supplies word var value ↔ Supplies other var value) ∧
      (firstWord word var = none ↔ firstWord other var = none) := by
  rw [supplies_word hword, supplies_word hother, firstWord_word hword, firstWord_word hother,
    carried_congr hsame, hsame]
  exact ⟨Iff.rfl, by split <;> simp⟩

private theorem carried_eq_none_iff {found : Text} (hfound : strstr word var = some found) :
    carried word var = none ↔ found = var := by
  obtain ⟨tail, rfl⟩ := (strstr_some hfound).2
  cases tail with
  | nil => simp [carried, hfound]
  | cons c tail => simp [carried, hfound]

/-- On a line that ends in its newline, the value is what the line supplies. A name at the
very end reads as the empty text, and one that only ends its word as the rest of the line,
newline included. -/
theorem getCmdlineVar_line (hline : '\n' ∉ line) (hblank : ' ' ∉ var) (hnewline : '\n' ∉ var) :
    getCmdlineVar (line ++ ['\n']) var = .ok (some value) ↔
      Supplies line var value ∨ (value = [] ∧ strstr line var = some var) ∨
        ∃ rest, strstr line var = some (var ++ ' ' :: rest) ∧ value = rest ++ ['\n'] := by
  induction line using pieces_induct ' ' with
  | last word hword =>
    rw [supplies_word hword]
    cases hfound : strstr word var with
    | none =>
      rw [getCmdlineVar_none hnewline hfound]
      simp [carried, hfound]
    | some found =>
      have hnone := carried_eq_none_iff hfound
      have hinside : ∀ rest, found ≠ var ++ ' ' :: rest := by
        rintro rest rfl
        exact hword ((strstr_some hfound).1.subset (by simp))
      rw [getCmdlineVar_last hword hline hnewline hfound]
      cases hcarried : carried word var with
      | none =>
        rw [hcarried] at hnone
        simp [hnone.mp rfl, eq_comm]
      | some carried =>
        rw [hcarried] at hnone
        have hend : found ≠ var := fun h => by simpa using hnone.mpr h
        simp [hend, hinside]
  | more word rest hword ih =>
    have hrest : '\n' ∉ rest := by
      simp only [List.mem_append, List.mem_cons, not_or] at hline
      exact hline.2.2
    rw [supplies_append, supplies_word hword, firstWord_word hword, strstr_append_sep hblank,
      List.append_assoc, List.cons_append]
    cases hfound : strstr word var with
    | none =>
      rw [getCmdlineVar_skip hblank hfound, ih hrest]
      simp [carried, hfound]
    | some found =>
      have hend : found ++ ' ' :: rest ≠ var := by
        rintro rfl
        simp at hblank
      have hinside : ' ' ∉ found := fun h => hword ((strstr_some hfound).1.subset h)
      have hsame : (∃ rest', some (found ++ ' ' :: rest) = some (var ++ ' ' :: rest') ∧
          value = rest' ++ ['\n']) ↔ carried word var = none ∧ rest ++ ['\n'] = value := by
        rw [carried_eq_none_iff hfound]
        constructor
        · rintro ⟨rest', hsplit, rfl⟩
          obtain ⟨rfl, rfl⟩ := append_sep_inj hinside hblank (Option.some.inj hsplit)
          exact ⟨rfl, rfl⟩
        · rintro ⟨rfl, rfl⟩
          exact ⟨rest, rfl, rfl⟩
      rw [getCmdlineVar_hit_iff hword hblank hfound, hsame]
      simp [hend]

theorem getCmdlineVar_line_iff (hline : '\n' ∉ line) (hblank : ' ' ∉ var) (hnewline : '\n' ∉ var)
    (hvalue : '\n' ∉ value) :
    getCmdlineVar (line ++ ['\n']) var = .ok (some value) ↔
      Supplies line var value ∨ (value = [] ∧ strstr line var = some var) := by
  have hwhole : ∀ rest, value ≠ rest ++ ['\n'] := by
    rintro rest rfl
    simp at hvalue
  rw [getCmdlineVar_line hline hblank hnewline]
  simp [hwhole]

/-- With two more words behind them, neither of which holds the name, it is the words of
`text` that supply a value without blanks: the rest of the line is not one. -/
theorem getCmdlineVar_words_iff {text first last : Text} (hblank : ' ' ∉ var)
    (hvalue : ' ' ∉ value) (hfirst : strstr first var = none) (hlast : strstr last var = none) :
    getCmdlineVar (text ++ ' ' :: (first ++ ' ' :: last)) var = .ok (some value) ↔
      Supplies text var value := by
  have hwhole {rest : Text} (hrest : ' ' ∈ rest) : rest ≠ value := fun h => hvalue (h ▸ hrest)
  induction text using pieces_induct ' ' with
  | last word hword =>
    rw [supplies_word hword]
    cases hfound : strstr word var with
    | none =>
      rw [getCmdlineVar_skip hblank hfound, getCmdlineVar_skip hblank hfirst]
      simp [getCmdlineVar, hlast, carried, hfound]
    | some found =>
      have hrest : first ++ ' ' :: last ≠ value := hwhole (by simp)
      rw [getCmdlineVar_hit_iff hword hblank hfound]
      simp [hrest]
  | more word rest hword ih =>
    rw [supplies_append, supplies_word hword, firstWord_word hword, List.append_assoc,
      List.cons_append]
    cases hfound : strstr word var with
    | none =>
      rw [getCmdlineVar_skip hblank hfound]
      refine Iff.trans ih ?_
      simp [carried, hfound]
    | some found =>
      have hrest : rest ++ ' ' :: (first ++ ' ' :: last) ≠ value := hwhole (by simp)
      rw [getCmdlineVar_hit_iff hword hblank hfound]
      simp [hrest]

end Lines

end Monoimage.CommandLine
