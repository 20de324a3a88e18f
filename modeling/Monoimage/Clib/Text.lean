import Mathlib.Data.List.Infix
import Mathlib.Data.List.TakeWhile

/-! C strings as lists. A string is the list of its characters before the
terminating NUL, and a `char *` into it is the suffix that it points at. What
the C standard leaves undefined is an explicit `Fault`. -/
namespace Monoimage.Clib

abbrev Text := List Char

/-- The ways in which a run leaves the defined behaviour of C. -/
inductive Fault where
  | overflow
  | outOfBounds
  | uninitialised
  | nullPointer
  | divisionByZero
  deriving DecidableEq, Repr

theorem bind_eq_ok_iff {ε α β : Type} {x : Except ε α} {f : α → Except ε β} {b : β} :
    (x >>= f) = .ok b ↔ ∃ a, x = .ok a ∧ f a = .ok b := by
  cases x with
  | error e => simp [bind, Except.bind]
  | ok a => simp [bind, Except.bind]

/-- What follows does not fail. -/
theorem bind_eq_error_iff {ε α β : Type} {x : Except ε α} {f : α → Except ε β} {e : ε}
    (hf : ∀ a, ∃ b, f a = .ok b) : (x >>= f) = .error e ↔ x = .error e := by
  cases x with
  | error e' => simp [bind, Except.bind]
  | ok a =>
    obtain ⟨b, hb⟩ := hf a
    simp [bind, Except.bind, hb]

theorem mapError_eq_ok_iff {ε δ α : Type} {x : Except ε α} {f : ε → δ} {a : α} :
    x.mapError f = .ok a ↔ x = .ok a := by
  cases x with
  | error e => simp [Except.mapError]
  | ok b => simp [Except.mapError]

/-- `strcpy`, `strcat` and `sprintf` into `char buf[size]`: the text and its NUL
have to fit. -/
def store (size : Nat) (text : Text) : Except Fault Text :=
  if text.length < size then .ok text else .error .overflow

theorem store_eq_ok_iff {size : Nat} {text value : Text} :
    store size text = .ok value ↔ text.length < size ∧ text = value := by
  unfold store
  split
  · rename_i h
    simp [h]
  · rename_i h
    simp [h]

theorem store_of_lt {size : Nat} {text : Text} (h : text.length < size) :
    store size text = .ok text :=
  store_eq_ok_iff.mpr ⟨h, rfl⟩

theorem store_of_le {size : Nat} {text : Text} (h : size ≤ text.length) :
    store size text = .error .overflow := by
  rw [store, if_neg (Nat.not_lt.mpr h)]

theorem store_error_iff {size : Nat} {text : Text} :
    (∃ f, store size text = .error f) ↔ size ≤ text.length := by
  unfold store
  split
  · rename_i h
    simp [h]
  · rename_i h
    simp [Nat.not_lt.mp h]

/-! `strncmp(a, b, n) == 0` looks at the first `n` characters and stops at a NUL. -/

def strncmpEq (a b : Text) (n : Nat) : Bool :=
  a.take n == b.take n

theorem strncmpEq_length_left {a b : Text} :
    strncmpEq a b a.length = true ↔ a <+: b := by
  simp only [strncmpEq, List.take_length, beq_iff_eq]
  exact List.prefix_iff_eq_take.symm

theorem strncmpEq_length_right {a b : Text} :
    strncmpEq a b b.length = true ↔ b <+: a := by
  simp only [strncmpEq, List.take_length, beq_iff_eq]
  rw [List.prefix_iff_eq_take, eq_comm]

/-! `strncasecmp`, and the blanks of the C locale. -/

def strncasecmpEq (a b : Text) (n : Nat) : Bool :=
  strncmpEq (a.map Char.toLower) (b.map Char.toLower) n

def strcasecmpEq (a b : Text) : Bool :=
  a.map Char.toLower = b.map Char.toLower

def isspace (c : Char) : Bool :=
  c = ' ' || ('\t' ≤ c && c ≤ '\r')

theorem isspace_iff {c : Char} :
    isspace c = true ↔ c.toNat = 32 ∨ 9 ≤ c.toNat ∧ c.toNat ≤ 13 := by
  simp only [isspace, Bool.or_eq_true, Bool.and_eq_true, decide_eq_true_eq, Char.le_def,
    UInt32.le_iff_toNat_le, ← Char.toNat_inj]
  rfl

section Search

variable {α : Type} [DecidableEq α]

def strstr (text pattern : List α) : Option (List α) :=
  match text with
  | [] => if pattern = [] then some [] else none
  | c :: rest => if pattern <+: c :: rest then some (c :: rest) else strstr rest pattern

theorem strstr_eq_none_iff {text pattern : List α} :
    strstr text pattern = none ↔ ¬ pattern <:+: text := by
  induction text with
  | nil => simp [strstr]
  | cons c rest ih =>
    rw [strstr, List.infix_cons_iff, not_or]
    split
    · simp [*]
    · simp [*]

theorem strstr_eq_none_of_notMem {text pattern : List α} {c : α} (hpattern : c ∈ pattern)
    (htext : c ∉ text) : strstr text pattern = none :=
  strstr_eq_none_iff.mpr fun h => htext (h.subset hpattern)

theorem strstr_some {text pattern found : List α} (h : strstr text pattern = some found) :
    found <:+ text ∧ pattern <+: found := by
  induction text with
  | nil =>
    simp only [strstr] at h
    split at h
    · rename_i hp
      cases h
      simp [hp]
    · cases h
  | cons c rest ih =>
    rw [strstr] at h
    split at h
    · rename_i hp
      cases h
      exact ⟨List.suffix_refl _, hp⟩
    · obtain ⟨hsuffix, hstarts⟩ := ih h
      exact ⟨hsuffix.trans (List.suffix_cons _ _), hstarts⟩

/-- The occurrence that is found is the first one. -/
theorem length_le_strstr {text pattern found other : List α} (h : strstr text pattern = some found)
    (hother : other <:+ text) (hstarts : pattern <+: other) : other.length ≤ found.length := by
  induction text with
  | nil =>
    obtain rfl := List.suffix_nil.mp hother
    exact Nat.zero_le _
  | cons c rest ih =>
    rw [strstr] at h
    split at h
    · cases h
      exact hother.length_le
    · rename_i hpattern
      rcases List.suffix_cons_iff.mp hother with rfl | hrest
      · exact absurd hstarts hpattern
      · exact ih h hrest

omit [DecidableEq α] in
theorem prefix_append_sep_iff {pattern a b : List α} {sep : α} (hsep : sep ∉ pattern) :
    pattern <+: a ++ sep :: b ↔ pattern <+: a := by
  constructor
  · intro h
    rcases List.prefix_or_prefix_of_prefix h (List.prefix_append a (sep :: b)) with h' | h'
    · exact h'
    · obtain ⟨tail, rfl⟩ := h'
      rw [List.prefix_append_right_inj] at h
      cases tail with
      | nil => simp
      | cons c tail =>
        obtain rfl : c = sep := (List.cons_prefix_cons.mp h).1
        simp at hsep
  · exact fun h => h.trans (List.prefix_append _ _)

/-- A separator outside the pattern cuts the search in two: an occurrence never
straddles it. -/
theorem strstr_append_sep {pattern a b : List α} {sep : α} (hsep : sep ∉ pattern) :
    strstr (a ++ sep :: b) pattern =
      match strstr a pattern with
      | some found => some (found ++ sep :: b)
      | none => strstr b pattern := by
  induction a with
  | nil =>
    have hhead := prefix_append_sep_iff (a := []) (b := b) hsep
    rw [List.nil_append, List.prefix_nil] at hhead
    by_cases hne : pattern = []
    · simp [strstr, hne]
    · simp [strstr, hhead, hne]
  | cons c rest ih =>
    have hiff := prefix_append_sep_iff (a := c :: rest) (b := b) hsep
    rw [List.cons_append] at hiff
    rw [List.cons_append, strstr, strstr, ih]
    by_cases hp : pattern <+: c :: rest
    · rw [if_pos hp, if_pos (hiff.mpr hp)]
      rfl
    · rw [if_neg hp, if_neg (fun h => hp (hiff.mp h))]

theorem strstr_append_of_head {pattern a b : List α} {c : α} {rest : List α}
    (hpattern : pattern = c :: rest) (hc : c ∉ a) :
    strstr (a ++ b) pattern = strstr b pattern := by
  induction a with
  | nil => rfl
  | cons d a ih =>
    have hd : ¬ pattern <+: d :: (a ++ b) := by
      rw [hpattern, List.cons_prefix_cons]
      rintro ⟨rfl, _⟩
      simp at hc
    rw [List.cons_append, strstr, if_neg hd]
    exact ih (fun h => hc (List.mem_cons_of_mem _ h))

theorem strstr_singleton_append {a b : List α} {c : α} (hc : c ∉ a) :
    strstr (a ++ c :: b) [c] = some (c :: b) := by
  rw [strstr_append_of_head rfl hc]
  simp [strstr]

theorem strstr_singleton_eq_none {text : List α} {c : α} :
    strstr text [c] = none ↔ c ∉ text := by
  rw [strstr_eq_none_iff, List.singleton_infix_iff]

/-- A list is one piece without separators, or such a piece, a separator and a list. -/
theorem pieces_induct {P : List α → Prop} (sep : α) (last : ∀ piece, sep ∉ piece → P piece)
    (more : ∀ piece rest, sep ∉ piece → P rest → P (piece ++ sep :: rest)) (text : List α) :
    P text := by
  suffices h : ∀ piece, sep ∉ piece → P (piece ++ text) from h [] (by simp)
  induction text with
  | nil =>
    intro piece hpiece
    rw [List.append_nil]
    exact last piece hpiece
  | cons c rest ih =>
    intro piece hpiece
    by_cases hc : c = sep
    · subst hc
      exact more piece rest hpiece (ih [] (by simp))
    · have happend := ih (piece ++ [c]) (by simp [hpiece, Ne.symm hc])
      rwa [List.append_assoc] at happend

theorem takeWhile_ne_append {a b : List α} {sep : α} (ha : sep ∉ a) :
    (a ++ sep :: b).takeWhile (· ≠ sep) = a := by
  rw [List.takeWhile_append_of_pos (fun c hc => by simpa using ne_of_mem_of_not_mem hc ha)]
  simp

theorem of_mem_splitOn {text piece : List α} {sep : α} (h : piece ∈ text.splitOn sep) :
    sep ∉ piece ∧ piece <:+: text := by
  induction text using pieces_induct sep with
  | last last hlast =>
    rw [List.splitOn_eq_singleton hlast, List.mem_singleton] at h
    subst h
    exact ⟨hlast, List.infix_refl _⟩
  | more first rest hfirst ih =>
    rw [List.splitOn_append_cons_self, List.splitOn_eq_singleton hfirst, List.singleton_append,
      List.mem_cons] at h
    rcases h with rfl | h
    · exact ⟨hfirst, (List.prefix_append _ _).isInfix⟩
    · obtain ⟨hpiece, hinside⟩ := ih h
      refine ⟨hpiece, hinside.trans ?_⟩
      exact ((List.suffix_cons sep rest).trans (List.suffix_append first _)).isInfix

/-- A list is cut in one way only at its first separator. -/
theorem append_sep_inj {a a' b b' : List α} {sep : α} (ha : sep ∉ a) (ha' : sep ∉ a')
    (h : a ++ sep :: b = a' ++ sep :: b') : a = a' ∧ b = b' := by
  have hfirst : a = a' := by
    rw [← takeWhile_ne_append (b := b) ha, h, takeWhile_ne_append ha']
  subst hfirst
  exact ⟨rfl, (List.cons.inj (List.append_cancel_left h)).2⟩

end Search

/-! `fgets` takes a line with its newline, but at most `size - 1` characters. -/

def readLine : Nat → Text → Text × Text
  | 0, rest => ([], rest)
  | _, [] => ([], [])
  | n + 1, c :: rest =>
    if c = '\n' then ([c], rest) else
      let (line, rest) := readLine n rest
      (c :: line, rest)

def fgets (size : Nat) (stream : Text) : Option (Text × Text) :=
  if stream = [] then none else some (readLine (size - 1) stream)

/-- The lines of a loop over `fgets`; `fuel` bounds their number. -/
def fgetsLines (size : Nat) : Nat → Text → List Text
  | 0, _ => []
  | fuel + 1, stream =>
    match fgets size stream with
    | none => []
    | some (line, rest) => line :: fgetsLines size fuel rest

/-- No line is empty if `size` is at least two. -/
def fgetsAll (size : Nat) (stream : Text) : List Text :=
  fgetsLines size stream.length stream

theorem readLine_prefix_self (n : Nat) (text : Text) : (readLine n text).1 <+: text := by
  induction text generalizing n with
  | nil => cases n <;> exact List.prefix_refl _
  | cons c rest ih =>
    cases n with
    | zero => exact List.nil_prefix
    | succ n =>
      unfold readLine
      split
      · exact List.cons_prefix_cons.mpr ⟨rfl, List.nil_prefix⟩
      · exact List.cons_prefix_cons.mpr ⟨rfl, ih n⟩

theorem length_readLine_le (n : Nat) (text : Text) : (readLine n text).1.length ≤ n := by
  induction text generalizing n with
  | nil => cases n <;> exact Nat.zero_le _
  | cons c rest ih =>
    cases n with
    | zero => exact Nat.le_refl 0
    | succ n =>
      unfold readLine
      split
      · exact Nat.succ_le_succ (Nat.zero_le n)
      · exact Nat.succ_le_succ (ih n)

theorem readLine_append {n : Nat} {text rest : Text} (htext : '\n' ∉ text)
    (hlen : text.length ≤ n) :
    (readLine n (text ++ rest)).1 = text ++ (readLine (n - text.length) rest).1 := by
  induction text generalizing n with
  | nil => rfl
  | cons c text ih =>
    obtain ⟨n, rfl⟩ := Nat.exists_eq_succ_of_ne_zero (Nat.ne_zero_of_lt hlen)
    have hc : c ≠ '\n' := fun h => htext (h ▸ List.mem_cons_self)
    have hrest := ih (fun h => htext (List.mem_cons_of_mem _ h)) (Nat.le_of_succ_le_succ hlen)
    simp [readLine, hc, hrest]

theorem readLine_newline {n : Nat} {line rest : Text} (hline : '\n' ∉ line)
    (hlen : line.length < n) :
    readLine n (line ++ '\n' :: rest) = (line ++ ['\n'], rest) := by
  induction line generalizing n with
  | nil =>
    obtain ⟨n, rfl⟩ := Nat.exists_eq_succ_of_ne_zero (Nat.ne_zero_of_lt hlen)
    simp [readLine]
  | cons c line ih =>
    obtain ⟨n, rfl⟩ := Nat.exists_eq_succ_of_ne_zero (Nat.ne_zero_of_lt hlen)
    have hc : c ≠ '\n' := fun h => hline (h ▸ List.mem_cons_self)
    have hrest := ih (fun h => hline (List.mem_cons_of_mem _ h)) (Nat.lt_of_succ_lt_succ hlen)
    simp [readLine, hc, hrest]

end Monoimage.Clib
