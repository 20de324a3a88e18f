import Monoimage.Clib.Text

/-! The lines of a file, and the pieces in which a loop over `fgets` sees them: a line that is
longer than the buffer comes in several. -/
namespace Monoimage.Clib

/-- Every line has its newline, but the last one need not. -/
def lines : Text → List Text
  | [] => []
  | c :: rest =>
    if c = '\n' then [c] :: lines rest
    else
      match lines rest with
      | [] => [[c]]
      | line :: others => (c :: line) :: others

theorem lines_last {text : Text} (htext : '\n' ∉ text) (hne : text ≠ []) : lines text = [text] := by
  induction text with
  | nil => exact absurd rfl hne
  | cons c text ih =>
    have hc : c ≠ '\n' := fun h => htext (h ▸ List.mem_cons_self)
    rw [lines, if_neg hc]
    cases text with
    | nil => rfl
    | cons d text => rw [ih (fun h => htext (List.mem_cons_of_mem _ h)) (List.cons_ne_nil _ _)]

theorem lines_newline {text rest : Text} (htext : '\n' ∉ text) :
    lines (text ++ '\n' :: rest) = (text ++ ['\n']) :: lines rest := by
  induction text with
  | nil => simp [lines]
  | cons c text ih =>
    have hc : c ≠ '\n' := fun h => htext (h ▸ List.mem_cons_self)
    rw [List.cons_append, lines, if_neg hc, ih (fun h => htext (List.mem_cons_of_mem _ h))]
    rfl

/-! ## Pieces -/

section Pieces

variable {n : Nat} {text rest : Text}

theorem readLine_full (htext : '\n' ∉ text) (hlen : text.length = n) :
    readLine n (text ++ rest) = (text, rest) := by
  induction text generalizing n with
  | nil =>
    subst hlen
    rfl
  | cons c text ih =>
    subst hlen
    have hc : c ≠ '\n' := fun h => htext (h ▸ List.mem_cons_self)
    rw [List.cons_append, List.length_cons, readLine, if_neg hc,
      ih (fun h => htext (List.mem_cons_of_mem _ h)) rfl]

theorem readLine_end (htext : '\n' ∉ text) (hlen : text.length ≤ n) :
    readLine n text = (text, []) := by
  induction text generalizing n with
  | nil => cases n <;> rfl
  | cons c text ih =>
    obtain ⟨n, rfl⟩ := Nat.exists_eq_succ_of_ne_zero (Nat.ne_zero_of_lt hlen)
    have hc : c ≠ '\n' := fun h => htext (h ▸ List.mem_cons_self)
    rw [readLine, if_neg hc, ih (fun h => htext (List.mem_cons_of_mem _ h))
      (Nat.le_of_succ_le_succ hlen)]

/-- A line that is not empty takes something from the stream. -/
theorem length_readLine_lt (hn : 0 < n) (hne : text ≠ []) :
    (readLine n text).2.length < text.length := by
  have hle (n : Nat) (text : Text) : (readLine n text).2.length ≤ text.length := by
    induction text generalizing n with
    | nil => cases n <;> exact Nat.le_refl _
    | cons c text ih =>
      cases n with
      | zero => exact Nat.le_refl _
      | succ n =>
        rw [readLine]
        split
        · exact Nat.le_succ _
        · exact (ih n).trans (Nat.le_succ _)
  obtain ⟨n, rfl⟩ := Nat.exists_eq_succ_of_ne_zero (Nat.ne_zero_of_lt hn)
  cases text with
  | nil => exact absurd rfl hne
  | cons c text =>
    rw [readLine]
    split
    · exact Nat.lt_succ_self _
    · exact Nat.lt_succ_of_le (hle n text)

theorem fgetsLines_of_le (hn : 0 < n) {fuel more : Nat} (hfuel : text.length ≤ fuel)
    (hmore : fuel ≤ more) : fgetsLines (n + 1) more text = fgetsLines (n + 1) fuel text := by
  induction fuel generalizing more text with
  | zero =>
    obtain rfl := List.length_eq_zero_iff.mp (Nat.le_zero.mp hfuel)
    cases more <;> rfl
  | succ fuel ih =>
    obtain ⟨more, rfl⟩ := Nat.exists_eq_succ_of_ne_zero (Nat.ne_zero_of_lt hmore)
    rw [fgetsLines, fgetsLines, fgets]
    split
    · rfl
    · rename_i hsome
      split at hsome
      · cases hsome
      · rename_i hne
        have hrest := congrArg Prod.snd (Option.some.inj hsome)
        have hlt := length_readLine_lt hn hne
        rw [Nat.add_sub_cancel] at hrest
        rw [hrest] at hlt
        rw [ih (by dsimp only at hlt; omega) (Nat.le_of_succ_le_succ hmore)]

@[simp] theorem fgetsAll_nil : fgetsAll n [] = [] := rfl

theorem fgetsAll_of_ne_nil (hn : 0 < n) (hne : text ≠ []) :
    fgetsAll (n + 1) text = (readLine n text).1 :: fgetsAll (n + 1) (readLine n text).2 := by
  obtain ⟨fuel, hfuel⟩ := Nat.exists_eq_succ_of_ne_zero (mt List.length_eq_zero_iff.mp hne)
  have hlt := length_readLine_lt hn hne
  rw [fgetsAll, hfuel, fgetsLines, fgets, if_neg hne, Nat.add_sub_cancel]
  dsimp only
  rw [fgetsAll, fgetsLines_of_le hn (Nat.le_refl _) (by omega)]

theorem fgetsAll_full (hn : 0 < n) (htext : '\n' ∉ text) (hlen : text.length = n) :
    fgetsAll (n + 1) (text ++ rest) = text :: fgetsAll (n + 1) rest := by
  have hne : text ++ rest ≠ [] := by
    rintro h
    rw [(List.append_eq_nil_iff.mp h).1] at hlen
    exact absurd hlen (Nat.ne_of_lt hn)
  rw [fgetsAll_of_ne_nil hn hne, readLine_full htext hlen]

theorem fgetsAll_newline (htext : '\n' ∉ text) (hlen : text.length < n) :
    fgetsAll (n + 1) (text ++ '\n' :: rest) = (text ++ ['\n']) :: fgetsAll (n + 1) rest := by
  rw [fgetsAll_of_ne_nil (Nat.zero_lt_of_lt hlen) (by simp), readLine_newline htext hlen]

theorem fgetsAll_last (htext : '\n' ∉ text) (hne : text ≠ []) (hlen : text.length ≤ n) :
    fgetsAll (n + 1) text = [text] := by
  have hn : 0 < n := (List.length_pos_of_ne_nil hne).trans_le hlen
  rw [fgetsAll_of_ne_nil hn hne, readLine_end htext hlen, fgetsAll_nil]

end Pieces

/-! ## Searches in the pieces -/

section Search

variable {n : Nat} {pattern line a b : Text}

/-- An occurrence that lies in one of the pieces of `n` characters into which the line is
cut. -/
def Within (n : Nat) (pattern line : Text) : Prop :=
  ∃ before after, line = before ++ (pattern ++ after) ∧ before.length % n + pattern.length ≤ n

theorem within_of_length_le (hline : line.length ≤ n) :
    Within n pattern line ↔ pattern <:+: line := by
  constructor
  · rintro ⟨before, after, rfl, -⟩
    exact ⟨before, after, List.append_assoc _ _ _⟩
  · rintro ⟨before, after, rfl⟩
    refine ⟨before, after, List.append_assoc _ _ _, ?_⟩
    have hmod := Nat.mod_le before.length n
    simp only [List.length_append] at hline
    omega

theorem within_append (ha : a.length = n) :
    Within n pattern (a ++ b) ↔ pattern <:+: a ∨ Within n pattern b := by
  constructor
  · rintro ⟨before, after, hsplit, hinside⟩
    by_cases hbefore : before.length < n
    · left
      rw [Nat.mod_eq_of_lt hbefore] at hinside
      have hwhole : before ++ pattern <+: a ++ b := by
        rw [hsplit, ← List.append_assoc]
        exact List.prefix_append _ _
      have hlength : (before ++ pattern).length ≤ a.length := by
        rw [List.length_append]
        omega
      have hstarts := List.prefix_of_prefix_length_le hwhole (List.prefix_append a b) hlength
      exact ((List.suffix_append before pattern).isInfix).trans hstarts.isInfix
    · right
      have hwhole : before <+: a ++ b := by
        rw [hsplit]
        exact List.prefix_append _ _
      obtain ⟨rest, rfl⟩ :=
        List.prefix_of_prefix_length_le (List.prefix_append a b) hwhole (by omega)
      rw [List.append_assoc] at hsplit
      rw [List.length_append, ha, Nat.add_mod_left] at hinside
      exact ⟨rest, after, List.append_cancel_left hsplit, hinside⟩
  · rintro (⟨before, after, rfl⟩ | ⟨before, after, rfl, hinside⟩)
    · refine ⟨before, after ++ b, by simp only [List.append_assoc], ?_⟩
      have hmod := Nat.mod_le before.length n
      simp only [List.length_append] at ha
      omega
    · refine ⟨a ++ before, after, by simp only [List.append_assoc], ?_⟩
      rwa [List.length_append, ha, Nat.add_mod_left]

/-- A line with what follows it: only its last character can be a newline, and it is one if
anything follows. -/
structure Leads (line rest : Text) : Prop where
  ne_nil : line ≠ []
  inner : '\n' ∉ line.dropLast
  ended : line.getLast? = some '\n' ∨ rest = []

theorem Leads.fgetsAll {rest : Text} (h : Leads line rest) (hline : line.length ≤ n) :
    fgetsAll (n + 1) (line ++ rest) = line :: fgetsAll (n + 1) rest := by
  have hsplit := List.dropLast_append_getLast h.ne_nil
  by_cases hlast : line.getLast h.ne_nil = '\n'
  · rw [hlast] at hsplit
    rw [← hsplit, List.append_assoc, List.singleton_append]
    apply fgetsAll_newline h.inner
    have hpos := List.length_pos_of_ne_nil h.ne_nil
    rw [List.length_dropLast]
    omega
  · have hplain : '\n' ∉ line := by
      rw [← hsplit, List.mem_append, not_or, List.mem_singleton]
      exact ⟨h.inner, Ne.symm hlast⟩
    obtain rfl : rest = [] := by
      refine h.ended.resolve_left fun hsome => hlast ?_
      rw [List.getLast?_eq_some_getLast h.ne_nil] at hsome
      exact Option.some.inj hsome
    rw [List.append_nil, fgetsAll_last hplain h.ne_nil hline, fgetsAll_nil]

/-- The induction is on the length of the line: a piece is taken off as long as it fills the
buffer. -/
theorem Leads.exists_piece_iff {rest : Text} (hn : 0 < n) (h : Leads line rest) (pattern : Text) :
    (∃ piece ∈ Clib.fgetsAll (n + 1) (line ++ rest), pattern <:+: piece) ↔
      Within n pattern line ∨ ∃ piece ∈ Clib.fgetsAll (n + 1) rest, pattern <:+: piece := by
  induction hlen : line.length using Nat.strong_induction_on generalizing line with
  | _ len ih =>
    by_cases hline : line.length ≤ n
    · rw [h.fgetsAll hline, List.exists_mem_cons_iff, within_of_length_le hline]
    · have htake : (line.take n).length = n := List.length_take_of_le (by omega)
      have hdrop : line.drop n ≠ [] := by
        rw [ne_eq, List.drop_eq_nil_iff]
        omega
      have hsplit : line.dropLast = line.take n ++ (line.drop n).dropLast := by
        rw [← List.dropLast_append_of_ne_nil hdrop, List.take_append_drop]
      have hinner : '\n' ∉ line.take n ∧ '\n' ∉ (line.drop n).dropLast := by
        have hinner := h.inner
        rwa [hsplit, List.mem_append, not_or] at hinner
      have hended : (line.drop n).getLast? = some '\n' ∨ rest = [] := by
        rw [List.getLast?_drop, if_neg hline]
        exact h.ended
      have hleads : Leads (line.drop n) rest := ⟨hdrop, hinner.2, hended⟩
      have hshorter : (line.drop n).length < len := by
        rw [List.length_drop]
        omega
      have hpieces : Clib.fgetsAll (n + 1) (line ++ rest) =
          line.take n :: Clib.fgetsAll (n + 1) (line.drop n ++ rest) := by
        rw [← fgetsAll_full hn hinner.1 htake, ← List.append_assoc, List.take_append_drop]
      have hwithin : Within n pattern line ↔
          pattern <:+: line.take n ∨ Within n pattern (line.drop n) := by
        rw [← within_append htake, List.take_append_drop]
      rw [hpieces, List.exists_mem_cons_iff, ih _ hshorter hleads rfl, hwithin, or_assoc]

/-- A loop over `fgets` sees the pattern where a line has it within one piece. -/
theorem exists_piece_iff (hn : 0 < n) {stream : Text} :
    (∃ piece ∈ fgetsAll (n + 1) stream, pattern <:+: piece) ↔
      ∃ line ∈ lines stream, Within n pattern line := by
  induction stream using pieces_induct '\n' with
  | last text htext =>
    cases text with
    | nil => simp [lines]
    | cons c text =>
      have hleads : Leads (c :: text) [] :=
        ⟨List.cons_ne_nil _ _, fun h => htext (List.mem_of_mem_dropLast h), Or.inr rfl⟩
      have hpieces := hleads.exists_piece_iff hn pattern
      rw [List.append_nil, fgetsAll_nil] at hpieces
      rw [hpieces, lines_last htext (List.cons_ne_nil _ _)]
      simp
  | more text rest htext ih =>
    have hleads : Leads (text ++ ['\n']) rest :=
      ⟨by simp, by rwa [List.dropLast_concat], Or.inl List.getLast?_concat⟩
    have hpieces := hleads.exists_piece_iff hn pattern
    rw [List.append_assoc, List.singleton_append] at hpieces
    rw [hpieces, lines_newline htext, List.exists_mem_cons_iff, ih]

end Search

end Monoimage.Clib
