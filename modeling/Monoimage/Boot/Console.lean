import Monoimage.Boot.Start
import Monoimage.CommandLine.Lookup

/-! What `get_kernel_console` is for: the first word of `/proc/cmdline` that sets a console. -/
namespace Monoimage.Boot

open Clib CommandLine

def consoleName : Text := "console=".toList

def firstConsole (line : Text) : Option Text :=
  (line.splitOn ' ').find? fun word => consoleName <+: word

/-! ## The search loop -/

section Walk

variable {len p : Nat} {text found : Text}

theorem strncmpEq_console : strncmpEq consoleName text 8 = true ↔ consoleName <+: text :=
  strncmpEq_length_left

theorem walkToConsole_cons (c : Char) (rest : Text) :
    walkToConsole len p (c :: rest) =
      if consoleName <+: c :: rest ∨ p + 8 = len then .ok (p, c :: rest)
      else walkToConsole len (p + 1) rest := by
  have hmatch : strncmpEq "console=".toList (c :: rest) 8 = true ↔ consoleName <+: c :: rest :=
    strncmpEq_console
  rw [walkToConsole]
  by_cases hstarts : consoleName <+: c :: rest
  · rw [if_pos (hmatch.mpr hstarts), if_pos (Or.inl hstarts)]
  · rw [if_neg (fun h => hstarts (hmatch.mp h))]
    simp only [hstarts, false_or]

/-- A match that leaves room for its eight characters comes before the end that the loop looks
for. -/
theorem walkToConsole_found (h : strstr text consoleName = some found)
    (hroom : p + text.length + 8 ≤ len + found.length) :
    walkToConsole len p text = .ok (p + text.length - found.length, found) := by
  induction text generalizing p with
  | nil => cases h
  | cons c rest ih =>
    rw [walkToConsole_cons]
    rw [strstr] at h
    split at h
    · rename_i hstarts
      cases h
      rw [if_pos (Or.inl hstarts), Nat.add_sub_cancel]
    · rename_i hstarts
      have hle := (strstr_some h).1.length_le
      rw [List.length_cons] at hroom ⊢
      rw [if_neg (by simp only [hstarts, false_or]; omega), ih h (by omega)]
      congr 2
      omega

/-- Where the loop can have stopped. -/
theorem walkToConsole_ok {q : Nat} {rest : Text} (h : walkToConsole len p text = .ok (q, rest)) :
    ∃ skipped, text = skipped ++ rest ∧ q = p + skipped.length ∧
      (consoleName <+: rest ∨ q + 8 = len) := by
  induction text generalizing p with
  | nil => cases h
  | cons c text ih =>
    rw [walkToConsole_cons] at h
    split at h
    · rename_i hstop
      obtain ⟨rfl, rfl⟩ := Prod.mk.inj (Except.ok.inj h)
      exact ⟨[], rfl, rfl, hstop⟩
    · obtain ⟨skipped, rfl, rfl, hstop⟩ := ih h
      refine ⟨c :: skipped, rfl, ?_, hstop⟩
      rw [List.length_cons]
      omega

end Walk

/-! ## The buffer -/

/-- A stack where the bytes behind those that were read happen to be NULs. -/
def zeroStack : Text := List.replicate mbCmdlineMax '\x00'

/-- That buffer after `read`. -/
def zeroBuffer (line : Text) : Text :=
  line ++ '\n' :: List.replicate (mbCmdlineMax - (line.length + 1)) '\x00'

section Buffer

variable {line word : Text}

theorem zeroBuffer_eq (line : Text) : zeroBuffer line =
    (line ++ ['\n']) ++ List.replicate (mbCmdlineMax - (line.length + 1)) '\x00' := by
  rw [zeroBuffer, List.append_assoc, List.singleton_append]

theorem getKernelConsole_zeroStack (hnul : '\x00' ∉ line) (hfits : line.length + 1 < mbCmdlineMax) :
    getKernelConsole (some (line ++ ['\n'])) zeroStack =
      (walkToConsole (line.length + 1) 0 (zeroBuffer line) >>= fun (p, rest) =>
        if p < line.length + 1 then
          if (rest.takeWhile consoleChar).length = rest.length then .error .outOfBounds
          else .ok (some (rest.takeWhile consoleChar))
        else .ok none) := by
  have htake : (line ++ ['\n']).take mbCmdlineMax = line ++ ['\n'] :=
    List.take_of_length_le (by rw [List.length_append, List.length_singleton]; omega)
  have hbuffer : (line ++ ['\n']) ++ zeroStack.drop (line ++ ['\n']).length = zeroBuffer line := by
    rw [zeroStack, List.drop_replicate, List.length_append, List.length_singleton, zeroBuffer_eq]
  have hlen : strlen (zeroBuffer line) = .ok (line.length + 1) := by
    obtain ⟨k, hk⟩ := Nat.exists_eq_add_of_lt hfits
    have hzeros : mbCmdlineMax - (line.length + 1) = k + 1 := by omega
    have hsplit : zeroBuffer line =
        (line ++ ['\n']) ++ '\x00' :: List.replicate k '\x00' := by
      rw [zeroBuffer_eq, hzeros, List.replicate_succ]
    have hnone : '\x00' ∉ line ++ ['\n'] := by simp [hnul]
    rw [hsplit, strlen, if_pos (by simp), List.idxOf_append_of_notMem hnone, List.idxOf_cons_self,
      List.length_append, List.length_singleton]
  rw [getKernelConsole]
  dsimp only
  rw [htake, hbuffer, hlen]
  rfl

/-- The result is never NULL: there is no match beyond the line, and a position eight
characters before its end is one of the line. -/
theorem getKernelConsole_zeroStack_ne_none (hnul : '\x00' ∉ line)
    (hfits : line.length + 1 < mbCmdlineMax) :
    getKernelConsole (some (line ++ ['\n'])) zeroStack ≠ .ok none := by
  rw [getKernelConsole_zeroStack hnul hfits]
  intro h
  obtain ⟨⟨p, rest⟩, hwalk, hend⟩ := bind_eq_ok_iff.mp h
  dsimp only at hend
  split at hend
  · split at hend <;> cases hend
  · rename_i hbeyond
    obtain ⟨skipped, hsplit, hp, hstop⟩ := walkToConsole_ok hwalk
    rw [Nat.zero_add] at hp
    rcases hstop with hstarts | hstop
    · -- nothing but NULs follows there
      have hwhole : line ++ ['\n'] <+: skipped := by
        apply List.prefix_of_prefix_length_le _ (List.prefix_append skipped rest)
        · rw [List.length_append, List.length_singleton]
          omega
        · rw [← hsplit, zeroBuffer_eq]
          exact List.prefix_append _ _
      obtain ⟨nuls, rfl⟩ := hwhole
      rw [zeroBuffer_eq, List.append_assoc _ nuls rest] at hsplit
      have hmem : 'c' ∈ nuls ++ rest := List.mem_append_right _ (hstarts.subset (by decide))
      rw [← List.append_cancel_left hsplit, List.mem_replicate] at hmem
      exact absurd hmem.2 (by decide)
    · omega

/-- The result starts at the first `console=`, wherever it stands in its word. -/
theorem getKernelConsole_zeroStack_found {found : Text} (hline : '\n' ∉ line)
    (hnul : '\x00' ∉ line) (hfits : line.length + 1 < mbCmdlineMax)
    (hword : firstWord line consoleName = some word)
    (hfound : strstr word consoleName = some found) :
    getKernelConsole (some (line ++ ['\n'])) zeroStack = .ok (some found) := by
  obtain ⟨found', stop, hfound', hstart, hstop⟩ := exists_found (by decide) hword
  obtain rfl : found = found' := Option.some.inj (hfound.symm.trans hfound')
  obtain ⟨hblank, hinside⟩ := of_mem_splitOn (List.mem_of_find?_eq_some hword)
  obtain ⟨hsuffix, hstarts⟩ := strstr_some hfound
  have hroom := hstarts.length_le
  have hname : consoleName.length = 8 := by decide
  have hsearch : strstr (zeroBuffer line) consoleName = some (found ++ (stop ++ '\n' ::
      List.replicate (mbCmdlineMax - (line.length + 1)) '\x00')) := by
    rw [zeroBuffer, strstr_append_sep (by decide), hstart, ← List.append_assoc]
  have hchars : ∀ c ∈ found, consoleChar c = true := by
    intro c hc
    have hword := hsuffix.subset hc
    have hmem := hinside.subset hword
    simp [consoleChar, ne_of_mem_of_not_mem hword hblank, ne_of_mem_of_not_mem hmem hline,
      ne_of_mem_of_not_mem hmem hnul]
  have htake : (found ++ (stop ++ '\n' :: List.replicate (mbCmdlineMax - (line.length + 1))
      '\x00')).takeWhile consoleChar = found := by
    rw [List.takeWhile_append_of_pos hchars]
    rcases hstop with rfl | ⟨rest, rfl⟩
    · rw [List.nil_append, List.takeWhile_cons_of_neg (by decide), List.append_nil]
    · rw [List.cons_append, List.takeWhile_cons_of_neg (by decide), List.append_nil]
  rw [getKernelConsole_zeroStack hnul hfits, walkToConsole_found hsearch]
  · dsimp only [bind, Except.bind]
    rw [htake, if_pos, if_neg]
    · simp
    · simp only [zeroBuffer, List.length_append, List.length_cons, List.length_replicate]
      omega
  · simp only [zeroBuffer, List.length_append, List.length_cons, List.length_replicate]
    omega

/-! ## The result -/

/-- The result is the first console word of the line, or NULL where there is none. -/
def GetsConsole (line stack : Text) : Prop :=
  getKernelConsole (some (line ++ ['\n'])) stack = .ok (firstConsole line)

theorem firstConsole_eq_none (h : firstWord line consoleName = none) :
    firstConsole line = none := by
  unfold firstConsole
  rw [List.find?_eq_none]
  intro word hword hstarts
  have hnone := List.find?_eq_none.mp h word hword
  rw [Option.not_isSome_iff_eq_none, strstr_eq_none_iff] at hnone
  exact hnone (of_decide_eq_true hstarts).isInfix

theorem getsConsole_zeroStack_iff (hline : '\n' ∉ line) (hnul : '\x00' ∉ line)
    (hfits : line.length + 1 < mbCmdlineMax) :
    GetsConsole line zeroStack ↔ ∃ word, firstWord line consoleName = some word ∧
      strstr word consoleName = firstConsole line := by
  unfold GetsConsole
  cases hword : firstWord line consoleName with
  | none =>
    rw [firstConsole_eq_none hword]
    simp [getKernelConsole_zeroStack_ne_none hnul hfits]
  | some word =>
    obtain ⟨found, hfound⟩ := strstr_of_firstWord hword
    rw [getKernelConsole_zeroStack_found hline hnul hfits hword hfound]
    simp [hfound]

/-- `strlen` looks for a NUL that `read` does not store. -/
theorem not_getsConsole_of_noNul {stack : Text} (hnul : '\x00' ∉ line) (hstack : '\x00' ∉ stack) :
    ¬ GetsConsole line stack := by
  have hbuffer : '\x00' ∉ (line ++ ['\n']).take mbCmdlineMax ++
      stack.drop ((line ++ ['\n']).take mbCmdlineMax).length := by
    rw [List.mem_append, not_or]
    refine ⟨fun h => ?_, fun h => hstack (List.mem_of_mem_drop h)⟩
    have hmem := List.mem_of_mem_take h
    simp [hnul] at hmem
  intro h
  rw [GetsConsole, getKernelConsole] at h
  dsimp only at h
  rw [strlen, if_neg hbuffer] at h
  cases h

/-- Of no line is the result right whatever stands behind it in the buffer. With NULs there,
it is right exactly if some word has `console=` in it, and the text from there on in the first
such word is the first console word. -/
theorem getsConsole_iff (hline : '\n' ∉ line) (hnul : '\x00' ∉ line)
    (hfits : line.length + 1 < mbCmdlineMax) :
    (¬ ∀ stack, stack.length = mbCmdlineMax → GetsConsole line stack) ∧
      (GetsConsole line zeroStack ↔ ∃ word, firstWord line consoleName = some word ∧
        strstr word consoleName = firstConsole line) := by
  refine ⟨fun h => ?_, getsConsole_zeroStack_iff hline hnul hfits⟩
  have hstack : '\x00' ∉ List.replicate mbCmdlineMax 'x' := fun h =>
    absurd (List.eq_of_mem_replicate h) (by decide)
  exact not_getsConsole_of_noNul hnul hstack (h _ List.length_replicate)

end Buffer

theorem getsConsole_ttyS0 :
    GetsConsole "ro console=ttyS0".toList zeroStack ∧
      ¬ ∀ stack, stack.length = mbCmdlineMax → GetsConsole "ro console=ttyS0".toList stack := by
  have hline : '\n' ∉ "ro console=ttyS0".toList := by decide
  obtain ⟨hnever, hzero⟩ := getsConsole_iff hline (by decide) (by decide)
  exact ⟨hzero.mpr ⟨"console=ttyS0".toList, by decide, by decide⟩, hnever⟩

/-- Without a console on the line, the result is the text eight characters before its end. -/
theorem not_getsConsole_hda1 :
    firstConsole "root=/dev/hda1 ro".toList = none ∧
      getKernelConsole (some "root=/dev/hda1 ro\n".toList) zeroStack = .ok (some "hda1".toList) ∧
      ¬ ∀ stack, stack.length = mbCmdlineMax → GetsConsole "root=/dev/hda1 ro".toList stack := by
  have hvalue : getKernelConsole (some "root=/dev/hda1 ro\n".toList) zeroStack =
      .ok (some "hda1".toList) := by
    decide +kernel
  refine ⟨by decide, hvalue, fun h => ?_⟩
  have hzero := h zeroStack (by decide +kernel)
  have hnone : firstConsole "root=/dev/hda1 ro".toList = none := by decide
  rw [GetsConsole, hnone] at hzero
  exact absurd (hvalue.symm.trans hzero) (by decide)

end Monoimage.Boot
