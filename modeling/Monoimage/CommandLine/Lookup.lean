import Monoimage.CommandLine.Variable

/-! What `get_cmdline_var` is for: the text of the first word `name=text`. -/
namespace Monoimage.CommandLine

open Clib

/-- The text behind `name=` of the first word that starts so. -/
def firstSetting (line var : Text) : Option Text :=
  ((line.splitOn ' ').find? fun word => var ++ ['='] <+: word).map (·.drop (var.length + 1))

/-- The length that `get_cmdline_var` passes to `strndup`. -/
def valueLength (cmdline var : Text) : Option Int :=
  (strstr cmdline var).bind fun start =>
    ((strstr start [' ']).or (strstr start ['\n'])).map fun stop =>
      (start.length : Int) - stop.length - (var.length + 1)

/-- The value is the first setting, its length is not negative, and it ends before the blank
or the newline that ends the word. -/
structure LooksUp (line var : Text) : Prop where
  value : getCmdlineVar (line ++ ['\n']) var = .ok (firstSetting line var)
  length : ∀ n, valueLength (line ++ ['\n']) var = some n → 0 ≤ n
  plain : ∀ value, getCmdlineVar (line ++ ['\n']) var = .ok (some value) →
    ' ' ∉ value ∧ '\n' ∉ value

/-- That length and the result of `get_cmdline_var` are of one computation. -/
theorem getCmdlineVar_of_valueLength {cmdline var start : Text} {n : Int}
    (hstart : strstr cmdline var = some start) (hinside : var.length < start.length)
    (hlength : valueLength cmdline var = some n) :
    getCmdlineVar cmdline var = .ok (some (strndup (start.drop (var.length + 1)) n)) := by
  simp only [valueLength, hstart, Option.bind_some, Option.map_eq_some_iff] at hlength
  obtain ⟨stop, hstop, rfl⟩ := hlength
  have hlen : ¬ start.length < var.length + 1 := by omega
  cases hblank : strstr start [' '] with
  | some found =>
    rw [hblank, Option.some_or, Option.some.injEq] at hstop
    subst hstop
    simp only [getCmdlineVar, hstart, hblank, if_neg hlen]
  | none =>
    rw [hblank, Option.none_or] at hstop
    simp only [getCmdlineVar, hstart, hblank, hstop, if_neg hlen]

section Line

variable {line var word : Text}

/-! ## Where the name is found -/

theorem strstr_eq_none_of_firstWord (hblank : ' ' ∉ var) (h : firstWord line var = none) :
    strstr line var = none := by
  induction line using pieces_induct ' ' with
  | last word hword =>
    rw [firstWord_word hword] at h
    cases hfound : strstr word var with
    | none => rfl
    | some found => simp [hfound] at h
  | more word rest hword ih =>
    rw [firstWord_append, Option.or_eq_none_iff, firstWord_word hword] at h
    cases hfound : strstr word var with
    | none => rw [strstr_append_sep hblank, hfound, ih h.2]
    | some found => simp [hfound] at h

/-- The search of the whole line ends in the first word with the name, and a blank stands
behind that word unless it is the last. -/
theorem exists_found (hblank : ' ' ∉ var) (h : firstWord line var = some word) :
    ∃ found stop, strstr word var = some found ∧ strstr line var = some (found ++ stop) ∧
      (stop = [] ∨ ∃ rest, stop = ' ' :: rest) := by
  induction line using pieces_induct ' ' with
  | last last hlast =>
    rw [firstWord_word hlast] at h
    cases hfound : strstr last var with
    | none => simp [hfound] at h
    | some found =>
      obtain rfl : last = word := by simpa [hfound] using h
      exact ⟨found, [], hfound, by rw [List.append_nil], Or.inl rfl⟩
  | more first rest hfirst ih =>
    rw [firstWord_append, firstWord_word hfirst] at h
    rw [strstr_append_sep hblank]
    cases hfound : strstr first var with
    | none =>
      rw [hfound] at h
      exact ih (by simpa using h)
    | some found =>
      obtain rfl : first = word := by simpa [hfound] using h
      exact ⟨found, ' ' :: rest, hfound, rfl, Or.inr ⟨rest, rfl⟩⟩

/-- The blank or the newline behind the word is the end of the value. -/
theorem search_stop {found stop : Text} (hblank : ' ' ∉ found) (hnewline : '\n' ∉ found)
    (hstop : stop = [] ∨ ∃ rest, stop = ' ' :: rest) :
    (strstr (found ++ (stop ++ ['\n'])) [' ']).or (strstr (found ++ (stop ++ ['\n'])) ['\n']) =
      some (stop ++ ['\n']) := by
  rcases hstop with rfl | ⟨rest, rfl⟩
  · have hnone : strstr (found ++ ['\n']) [' '] = none := by
      rw [strstr_singleton_eq_none]
      simpa using hblank
    rw [List.nil_append, hnone, strstr_singleton_append hnewline]
    rfl
  · rw [List.cons_append, strstr_singleton_append hblank]
    rfl

/-! ## The length -/

theorem valueLength_line (hline : '\n' ∉ line) (hblank : ' ' ∉ var) (hnewline : '\n' ∉ var)
    (h : firstWord line var = some word) :
    valueLength (line ++ ['\n']) var =
      some (match carried word var with
        | some text => text.length
        | none => -1) := by
  obtain ⟨found, stop, hfound, hstart, hstop⟩ := exists_found hblank h
  obtain ⟨hword, hinside⟩ := of_mem_splitOn (List.mem_of_find?_eq_some h)
  have hsuffix := (strstr_some hfound).1
  have hsearch := search_stop (fun h => hword (hsuffix.subset h))
    (fun h => hline (hinside.subset (hsuffix.subset h))) hstop
  obtain ⟨tail, rfl⟩ := (strstr_some hfound).2
  rw [valueLength, strstr_append_sep hnewline, hstart]
  dsimp only
  rw [Option.bind_some, List.append_assoc, hsearch, Option.map_some]
  have hlength : ((var ++ tail ++ (stop ++ ['\n'])).length : Int) - (stop ++ ['\n']).length -
      (var.length + 1) = tail.length - 1 := by
    simp only [List.length_append]
    omega
  rw [hlength, carried, hfound]
  dsimp only
  rw [List.drop_left]
  cases tail with
  | nil => rfl
  | cons c text => simp

theorem getCmdlineVar_of_carried {text : Text} (hline : '\n' ∉ line) (hblank : ' ' ∉ var)
    (hnewline : '\n' ∉ var) (h : firstWord line var = some word)
    (hcarried : carried word var = some text) :
    getCmdlineVar (line ++ ['\n']) var = .ok (some text) := by
  rw [getCmdlineVar_line hline hblank hnewline, Supplies, h]
  exact Or.inl hcarried

theorem getCmdlineVar_of_firstWord_none (hblank : ' ' ∉ var) (hnewline : '\n' ∉ var)
    (h : firstWord line var = none) : getCmdlineVar (line ++ ['\n']) var = .ok none :=
  getCmdlineVar_none hnewline (strstr_eq_none_of_firstWord hblank h)

/-! ## The first setting -/

theorem firstSetting_eq_none (h : firstWord line var = none) : firstSetting line var = none := by
  unfold firstSetting
  rw [Option.map_eq_none_iff, List.find?_eq_none]
  intro word hword hsetting
  have hnone := List.find?_eq_none.mp h word hword
  rw [Option.not_isSome_iff_eq_none, strstr_eq_none_iff] at hnone
  exact hnone (((List.prefix_append var ['=']).trans (of_decide_eq_true hsetting)).isInfix)

/-- A name with a newline in it can only be found at the very end. -/
theorem firstWord_eq_none_of_newline (hline : '\n' ∉ line) (hvar : '\n' ∈ var) :
    firstWord line var = none := by
  unfold firstWord
  rw [List.find?_eq_none]
  intro word hword hfound
  obtain ⟨found, hfound⟩ := Option.isSome_iff_exists.mp hfound
  obtain ⟨hsuffix, hstarts⟩ := strstr_some hfound
  have hmem : '\n' ∈ word := hsuffix.subset (hstarts.subset hvar)
  exact hline ((of_mem_splitOn hword).2.subset hmem)

theorem getCmdlineVar_newline (hline : '\n' ∉ line) (hvar : '\n' ∈ var) :
    getCmdlineVar (line ++ ['\n']) var = .ok none ↔ ¬ var <:+ line ++ ['\n'] := by
  cases hfound : strstr (line ++ ['\n']) var with
  | none =>
    have hnowhere := strstr_eq_none_iff.mp hfound
    simp only [getCmdlineVar, hfound, true_iff]
    exact fun h => hnowhere h.isInfix
  | some start =>
    obtain ⟨hsuffix, tail, rfl⟩ := strstr_some hfound
    -- the newline of the name is that of the line, and nothing stands behind it
    obtain rfl : tail = [] := by
      obtain rfl | ⟨tail, c, rfl⟩ := List.eq_nil_or_concat tail
      · rfl
      · obtain ⟨front, hfront⟩ := hsuffix
        rw [List.concat_eq_append, ← List.append_assoc, ← List.append_assoc] at hfront
        have hbefore := (List.append_inj' hfront rfl).1
        exact absurd (hbefore ▸ by simp [hvar]) hline
    rw [List.append_nil] at hfound hsuffix
    obtain ⟨f, herror⟩ := getCmdlineVar_error_iff.mpr hfound
    simp [herror, hsuffix]

theorem looksUp_of_none (hvalue : getCmdlineVar (line ++ ['\n']) var = .ok none)
    (hsetting : firstSetting line var = none) : LooksUp line var := by
  have hfound : strstr (line ++ ['\n']) var = none := by
    unfold getCmdlineVar at hvalue
    split at hvalue
    · assumption
    · dsimp only at hvalue
      split at hvalue
      · cases hvalue
      · split at hvalue <;> cases hvalue
  refine ⟨by rw [hvalue, hsetting], ?_, ?_⟩
  · intro n hn
    simp [valueLength, hfound] at hn
  · rw [hvalue]
    intro value h
    cases h

/-- The value is the first setting exactly if the first word with the name in it carries the
text of that setting, and the name, should it hold a newline, is not the end of the line. -/
theorem looksUp_iff (hline : '\n' ∉ line) (hvar : ' ' ∉ var) :
    LooksUp line var ↔
      (∀ word, firstWord line var = some word →
        ∃ text, carried word var = some text ∧ firstSetting line var = some text) ∧
      ¬ ('\n' ∈ var ∧ var <:+ line ++ ['\n']) := by
  by_cases hnewline : '\n' ∈ var
  · have hword := firstWord_eq_none_of_newline hline hnewline
    have hnone := firstSetting_eq_none hword
    simp only [hword, reduceCtorEq, false_implies, implies_true, true_and, hnewline,
      ← getCmdlineVar_newline hline hnewline]
    constructor
    · intro h
      rw [h.value, hnone]
    · exact fun h => looksUp_of_none h hnone
  · simp only [hnewline, false_and, not_false_eq_true, and_true]
    cases hword : firstWord line var with
    | none =>
      have hnone := getCmdlineVar_of_firstWord_none hvar hnewline hword
      simp [looksUp_of_none hnone (firstSetting_eq_none hword)]
    | some word =>
      have hlength := valueLength_line hline hvar hnewline hword
      cases hcarried : carried word var with
      | none =>
        rw [hcarried] at hlength
        simp only [Option.some.injEq, forall_eq', hcarried, reduceCtorEq, false_and, exists_false,
          iff_false]
        exact fun h => absurd (h.length _ hlength) (by decide)
      | some text =>
        have hvalue := getCmdlineVar_of_carried hline hvar hnewline hword hcarried
        simp only [Option.some.injEq, forall_eq', hcarried, exists_eq_left']
        constructor
        · intro h
          exact Except.ok.inj (h.value.symm.trans hvalue)
        · intro hsetting
          refine ⟨by rw [hvalue, hsetting], ?_, ?_⟩
          · intro n hn
            rw [hlength, hcarried, Option.some.injEq] at hn
            exact hn ▸ Int.natCast_nonneg _
          · intro value h
            obtain rfl : text = value := Option.some.inj (Except.ok.inj (hvalue.symm.trans h))
            have hsuffix := carried_suffix hcarried
            obtain ⟨hblank, hinside⟩ := of_mem_splitOn (List.mem_of_find?_eq_some hword)
            exact ⟨fun h => hblank (hsuffix.subset h),
              fun h => hline (hinside.subset (hsuffix.subset h))⟩

end Line

theorem looksUp_image : LooksUp "ro F=funky.img I=none C=none".toList "F".toList := by
  apply (looksUp_iff (by decide) (by decide)).mpr
  refine ⟨?_, by decide⟩
  intro word hword
  obtain rfl : "F=funky.img".toList = word := Option.some.inj (by rw [← hword]; decide)
  exact ⟨"funky.img".toList, by decide, by decide⟩

/-- The letter in the middle of CONFIG comes before the setting, and the value is what stands
one character behind it. -/
theorem not_looksUp_config :
    firstSetting "ro CONFIG=monoboot/tag/funky F=funky.img".toList "F".toList =
        some "funky.img".toList ∧
      getCmdlineVar "ro CONFIG=monoboot/tag/funky F=funky.img\n".toList "F".toList =
        .ok (some "G=monoboot/tag/funky".toList) ∧
      ¬ LooksUp "ro CONFIG=monoboot/tag/funky F=funky.img".toList "F".toList := by
  have hsetting : firstSetting "ro CONFIG=monoboot/tag/funky F=funky.img".toList "F".toList =
      some "funky.img".toList := by
    decide
  have hvalue : getCmdlineVar "ro CONFIG=monoboot/tag/funky F=funky.img\n".toList "F".toList =
      .ok (some "G=monoboot/tag/funky".toList) := by
    decide
  refine ⟨hsetting, hvalue, fun h => ?_⟩
  have hlooked := h.value
  rw [hsetting] at hlooked
  exact absurd (hvalue.symm.trans hlooked) (by decide)

end Monoimage.CommandLine
