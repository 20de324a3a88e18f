import Monoimage.Clib.Text

/-! The two loops that move a `char *` through a string: up to the next separator, and over a
row of separators. -/
namespace Monoimage.Clib

/-- `while (*p != sep) p++;`: what the pointer passes, and the text that it then points at.
There is no test for the end of the string. -/
def scanTo (sep : Char) : Text → Except Fault (Text × Text)
  | [] => .error .outOfBounds
  | c :: rest =>
    if c = sep then .ok ([], c :: rest)
    else do
      let (passed, p) ← scanTo sep rest
      .ok (c :: passed, p)

/-- `while (*p == sep) p++;` -/
def skipOver (sep : Char) (p : Text) : Text :=
  p.dropWhile (· = sep)

variable {sep : Char} {text front name passed p : Text}

theorem scanTo_append (rest : Text) (h : sep ∉ passed) :
    scanTo sep (passed ++ sep :: rest) = .ok (passed, sep :: rest) := by
  induction passed with
  | nil => simp [scanTo]
  | cons c passed ih =>
    have hc : c ≠ sep := fun hc => h (hc ▸ List.mem_cons_self)
    have hrest := ih fun hmem => h (List.mem_cons_of_mem _ hmem)
    rw [List.cons_append, scanTo, if_neg hc, hrest]
    rfl

theorem scanTo_of_notMem (h : sep ∉ text) : scanTo sep text = .error .outOfBounds := by
  induction text with
  | nil => rfl
  | cons c text ih =>
    have hc : c ≠ sep := fun hc => h (hc ▸ List.mem_cons_self)
    rw [scanTo, if_neg hc, ih fun hmem => h (List.mem_cons_of_mem _ hmem)]
    rfl

theorem scanTo_error_iff : (∃ f, scanTo sep text = .error f) ↔ sep ∉ text := by
  constructor
  · rintro ⟨f, herror⟩ hmem
    obtain ⟨passed, rest, rfl, hpassed⟩ := List.eq_append_cons_of_mem hmem
    rw [scanTo_append _ hpassed] at herror
    cases herror
  · exact fun h => ⟨_, scanTo_of_notMem h⟩

theorem skipOver_row (n : Nat) (h : name.head? ≠ some sep) :
    skipOver sep (List.replicate n sep ++ name) = name := by
  unfold skipOver
  rw [List.dropWhile_append_of_pos (fun c hc => by simpa using List.eq_of_mem_replicate hc)]
  cases name with
  | nil => rfl
  | cons c name => exact List.dropWhile_cons_of_neg (by simpa using h)

/-- `text` is `front`, one or more separators, and a name that is not empty and does not
start with one. -/
structure Parts (sep : Char) (front name text : Text) : Prop where
  nonempty : name ≠ []
  bare : name.head? ≠ some sep
  row : ∃ n, text = front ++ (List.replicate (n + 1) sep ++ name)

theorem Parts.scanTo (h : Parts sep front name text) (hfront : sep ∉ front) :
    ∃ p, scanTo sep text = .ok (front, sep :: p) ∧ skipOver sep (sep :: p) = name ∧
      skipOver sep p = name := by
  obtain ⟨n, rfl⟩ := h.row
  refine ⟨List.replicate n sep ++ name, ?_, ?_, skipOver_row n h.bare⟩
  · rw [List.replicate_succ, List.cons_append, scanTo_append _ hfront]
  · exact skipOver_row (n + 1) h.bare

/-- A text has such parts in one way only. -/
theorem Parts.unique {front' name' : Text} (h : Parts sep front name text)
    (h' : Parts sep front' name' text) (hfront : sep ∉ front) (hfront' : sep ∉ front') :
    front = front' ∧ name = name' := by
  obtain ⟨p, hscan, hname, -⟩ := h.scanTo hfront
  obtain ⟨p', hscan', hname', -⟩ := h'.scanTo hfront'
  obtain ⟨hsame, hrest⟩ := Prod.mk.inj (Except.ok.inj (hscan.symm.trans hscan'))
  exact ⟨hsame, by rw [← hname, ← hname', hrest]⟩

/-- The front and the separator behind it. -/
theorem Parts.starts (h : Parts sep front name text) : front ++ [sep] <+: text := by
  obtain ⟨n, rfl⟩ := h.row
  rw [List.replicate_succ, List.prefix_append_right_inj]
  exact ⟨_, rfl⟩

end Monoimage.Clib
