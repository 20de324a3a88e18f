import Monoimage.Clib.Text

/-! `cli_parse_line`: a line is cut into words at blanks and bars, and quotes keep a word
together. -/
namespace Monoimage.Libcli

open Clib

/-- The size of `words` in `cli_run_command`. -/
def maxWords : Nat := 128

def isquote (c : Char) : Bool := c = '"' || c = '\''

def bar : Text := ['|']

/-- The loop of `cli_parse_line`, with room for `room` more words. `word` is the text since
`word_start`, if there is one. -/
def parseWords : Nat → Option Text → Option Char → Text → List Text
  | 0, _, _, _ => []
  | _ + 1, word, _, [] => word.toList
  | room + 1, word, inquote, c :: rest =>
    if inquote = some c then word.toList ++ parseWords room none none rest
    else if word.isSome && inquote.isNone && (isspace c || c = '|') then
      -- the word ends here, and the next round looks at `c` again
      word.toList ++
        if c = '|' then if room = 0 then [] else bar :: parseWords (room - 1) none none rest
        else parseWords room none none rest
    else if isquote c then
      -- what the word had before the quote is lost
      parseWords (room + 1) (some []) (some c) rest
    else if word.isSome then parseWords (room + 1) (word.map (· ++ [c])) inquote rest
    else if c = '|' then bar :: parseWords room none inquote rest
    else if isspace c then parseWords (room + 1) none inquote rest
    else parseWords (room + 1) (some [c]) inquote rest

/-- The first word starts at once, so that a line that begins with a bar has an empty word
before it. -/
def cliParseLine (line : Text) (max : Nat) : List Text :=
  parseWords (max - 1) (some []) none line

/-! ## Plain lines -/

def isplain (c : Char) : Bool :=
  !isspace c && !isquote c && c ≠ '|'

def Plain (word : Text) : Prop := word ≠ [] ∧ ∀ c ∈ word, isplain c = true

def Blank (text : Text) : Prop := ∀ c ∈ text, isspace c = true

/-- `line` is made of `words` with blanks after each of them. -/
inductive Spells : Text → List Text → Prop
  | last {word blanks : Text} (hword : Plain word) (hblanks : Blank blanks) :
      Spells (word ++ blanks) [word]
  | more {word blanks line : Text} {words : List Text} (hword : Plain word)
      (hblanks : Blank blanks) (hcut : blanks ≠ []) (hline : Spells line words) :
      Spells (word ++ (blanks ++ line)) (word :: words)

theorem Spells.length_pos {line : Text} {words : List Text} (h : Spells line words) :
    0 < words.length := by
  cases h <;> simp

theorem isplain_iff {c : Char} :
    isplain c = true ↔ isspace c = false ∧ isquote c = false ∧ c ≠ '|' := by
  simp [isplain, and_assoc]

theorem isquote_of_isspace {c : Char} (h : isspace c = true) : isquote c = false := by
  cases hquote : isquote c with
  | false => rfl
  | true =>
    simp only [isquote, Bool.or_eq_true, decide_eq_true_eq] at hquote
    rcases hquote with rfl | rfl
    · exact absurd h (by decide)
    · exact absurd h (by decide)

theorem ne_bar_of_isspace {c : Char} (h : isspace c = true) : c ≠ '|' := by
  rintro rfl
  exact absurd h (by decide)

theorem parseWords_plain {room : Nat} {text word rest : Text}
    (hword : ∀ c ∈ word, isplain c = true) :
    parseWords (room + 1) (some text) none (word ++ rest) =
      parseWords (room + 1) (some (text ++ word)) none rest := by
  induction word generalizing text with
  | nil => simp
  | cons c word ih =>
    obtain ⟨hspace, hquote, hbar⟩ := isplain_iff.mp (hword c List.mem_cons_self)
    rw [List.cons_append, parseWords, if_neg (by simp)]
    simp only [hspace, hquote, hbar, decide_false, Bool.or_self, Bool.and_false,
      Bool.false_eq_true, if_false, Option.isSome_some, if_true, Option.map_some]
    rw [ih fun c' hc' => hword c' (List.mem_cons_of_mem c hc'), List.append_assoc]
    rfl

theorem parseWords_blanks {room : Nat} {blanks rest : Text} (hblanks : Blank blanks) :
    parseWords (room + 1) none none (blanks ++ rest) = parseWords (room + 1) none none rest := by
  induction blanks with
  | nil => rfl
  | cons c blanks ih =>
    have hspace : isspace c = true := hblanks c List.mem_cons_self
    rw [List.cons_append, parseWords, if_neg (by simp)]
    simp only [isquote_of_isspace hspace, ne_bar_of_isspace hspace, hspace, Option.isSome_none,
      Bool.false_and, Bool.false_eq_true, if_false, if_true]
    exact ih fun c' hc' => hblanks c' (List.mem_cons_of_mem c hc')

theorem parseWords_start {room : Nat} {word rest : Text} (hword : Plain word) :
    parseWords (room + 1) none none (word ++ rest) =
      parseWords (room + 1) (some word) none rest := by
  obtain ⟨hne, hplain⟩ := hword
  cases word with
  | nil => exact absurd rfl hne
  | cons c word =>
    obtain ⟨hspace, hquote, hbar⟩ := isplain_iff.mp (hplain c List.mem_cons_self)
    rw [List.cons_append, parseWords, if_neg (by simp)]
    simp only [hspace, hquote, hbar, Option.isSome_none, Bool.false_and, Bool.false_eq_true,
      if_false]
    exact parseWords_plain fun c' hc' => hplain c' (List.mem_cons_of_mem c hc')

theorem parseWords_cut {room : Nat} {word blanks rest : Text} (hblanks : Blank blanks)
    (hcut : blanks ≠ []) :
    parseWords (room + 2) (some word) none (blanks ++ rest) =
      word :: parseWords (room + 1) none none rest := by
  cases blanks with
  | nil => exact absurd rfl hcut
  | cons c blanks =>
    have hspace : isspace c = true := hblanks c List.mem_cons_self
    rw [List.cons_append, parseWords, if_neg (by simp)]
    simp only [hspace, ne_bar_of_isspace hspace, Option.isSome_some, Option.isNone_none,
      Bool.and_self, Bool.true_or, if_true, if_false, Option.toList_some, List.singleton_append]
    rw [parseWords_blanks fun c' hc' => hblanks c' (List.mem_cons_of_mem c hc')]

theorem parseWords_last {room : Nat} {word blanks : Text} (hblanks : Blank blanks) :
    parseWords (room + 1) (some word) none blanks = [word] := by
  cases blanks with
  | nil => rfl
  | cons c blanks =>
    have hspace : isspace c = true := hblanks c List.mem_cons_self
    rw [parseWords, if_neg (by simp)]
    simp only [hspace, ne_bar_of_isspace hspace, Option.isSome_some, Option.isNone_none,
      Bool.and_self, Bool.true_or, if_true, if_false, Option.toList_some, List.singleton_append]
    cases room with
    | zero => rw [parseWords]
    | succ room =>
      have htail : Blank blanks := fun c' hc' => hblanks c' (List.mem_cons_of_mem c hc')
      rw [← List.append_nil blanks, parseWords_blanks htail]
      rfl

theorem parseWords_spells {line : Text} {words : List Text} (h : Spells line words) {room : Nat}
    (hroom : words.length ≤ room) : parseWords room none none line = words := by
  induction h generalizing room with
  | last hword hblanks =>
    obtain ⟨room, rfl⟩ : ∃ r, room = r + 1 := ⟨room - 1, by simp at hroom; omega⟩
    rw [parseWords_start hword, parseWords_last hblanks]
  | more hword hblanks hcut hline ih =>
    rw [List.length_cons] at hroom
    have hwords := hline.length_pos
    obtain ⟨room, rfl⟩ : ∃ r, room = r + 2 := ⟨room - 2, by omega⟩
    rw [parseWords_start hword, parseWords_cut hblanks hcut, ih (by omega)]

theorem cliParseLine_spells {line : Text} {words : List Text} (h : Spells line words)
    {max : Nat} (hroom : words.length < max) : cliParseLine line max = words := by
  have hpos := h.length_pos
  obtain ⟨room, hmax⟩ : ∃ r, max - 1 = r + 1 := ⟨max - 2, by omega⟩
  have hfirst : cliParseLine line max = parseWords (max - 1) none none line := by
    rw [cliParseLine, hmax]
    cases h with
    | last hword hblanks => rw [parseWords_plain hword.2, parseWords_start hword, List.nil_append]
    | more hword hblanks hcut hline =>
      rw [parseWords_plain hword.2, parseWords_start hword, List.nil_append]
  rw [hfirst, parseWords_spells h (by omega)]

end Monoimage.Libcli
