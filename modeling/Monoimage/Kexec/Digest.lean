import Monoimage.Kexec.Sha256

/-! The context of `util_lib/sha256.c` over a stream that comes in pieces. -/
namespace Monoimage.Kexec

open Clib Sha2

/-- The context after a message. What the buffer holds behind the rest does not matter. -/
structure Represents (ctx : Sha256Context) (message : Bytes) : Prop where
  state : ctx.state = (absorb 64 compress initialValue message).1
  rest : ctx.buffer.take (message.length % 64) = (absorb 64 compress initialValue message).2
  buffer : ctx.buffer.length = 64
  total : ctx.total0.toNat + 2 ^ 32 * ctx.total1.toNat = message.length % 2 ^ 64

theorem absorb_sha256Process (state : Registers) (input : Bytes) :
    absorb 64 sha256Process state input = absorb 64 compress state input :=
  absorb_congr (fun _ _ hlength => sha256Process_eq hlength) state input

theorem represents_starts {ctx : Sha256Context} (h : ctx.buffer.length = 64) :
    Represents (sha256Starts ctx) [] where
  state := sha256Starts_state ctx
  rest := rfl
  buffer := h
  total := rfl

theorem and_63 (total : UInt32) : (total &&& 0x3F).toNat = total.toNat % 64 := by
  rw [UInt32.toNat_and]
  exact Nat.and_two_pow_sub_one_eq_mod _ 6

section Update

variable {ctx : Sha256Context} {message input : Bytes}

theorem Represents.left_eq (h : Represents ctx message) :
    (ctx.total0 &&& 0x3F).toNat = message.length % 64 := by
  have htotal := h.total
  rw [and_63]
  omega

/-- The carry is seen by the sum being less than what was added. -/
theorem addTotal_eq (h : Represents ctx message) (hlength : input.length < 2 ^ 32) :
    (addTotal ctx (UInt32.ofNat input.length)).1.toNat +
        2 ^ 32 * (addTotal ctx (UInt32.ofNat input.length)).2.toNat =
      (message ++ input).length % 2 ^ 64 := by
  have htotal := h.total
  have hlow := ctx.total0.toNat_lt
  have hhigh := ctx.total1.toNat_lt
  have hsum : (ctx.total0 + UInt32.ofNat input.length).toNat =
      (ctx.total0.toNat + input.length) % 2 ^ 32 := by
    rw [UInt32.toNat_add, UInt32.toNat_ofNat', Nat.mod_eq_of_lt hlength]
  have hcarry : (ctx.total1 + 1).toNat = (ctx.total1.toNat + 1) % 2 ^ 32 := UInt32.toNat_add _ _
  rw [List.length_append, addTotal]
  dsimp only
  split
  · rename_i h
    rw [UInt32.lt_iff_toNat_lt, hsum, UInt32.toNat_ofNat', Nat.mod_eq_of_lt hlength] at h
    rw [hsum, hcarry]
    omega
  · rename_i h
    rw [UInt32.lt_iff_toNat_lt, hsum, UInt32.toNat_ofNat', Nat.mod_eq_of_lt hlength] at h
    rw [hsum]
    omega

/-- What an update has to arrive at. -/
theorem represents_append {ctx' : Sha256Context} (h : Represents ctx message)
    (hlength : input.length < 2 ^ 32)
    (htotals : (ctx'.total0, ctx'.total1) = addTotal ctx (UInt32.ofNat input.length))
    (hbuffer : ctx'.buffer.length = 64)
    (habsorb : (ctx'.state, ctx'.buffer.take ((message ++ input).length % 64)) =
      absorb 64 compress ctx.state (ctx.buffer.take (message.length % 64) ++ input)) :
    Represents ctx' (message ++ input) := by
  rw [h.state, h.rest, ← absorb_append (by decide)] at habsorb
  refine ⟨congrArg Prod.fst habsorb, congrArg Prod.snd habsorb, hbuffer, ?_⟩
  rw [← addTotal_eq h hlength, ← htotals]

theorem Represents.update (h : Represents ctx message) (hlength : input.length < 2 ^ 32) :
    Represents (sha256Update ctx input) (message ++ input) := by
  have hleft := h.left_eq
  have hbuffer := h.buffer
  have hless : message.length % 64 < 64 := Nat.mod_lt _ (by decide)
  have hrest : (ctx.buffer.take (message.length % 64)).length = message.length % 64 :=
    List.length_take_of_le (by omega)
  have hmod : (message ++ input).length % 64 = (message.length % 64 + input.length) % 64 := by
    rw [List.length_append, Nat.mod_add_mod]
  unfold sha256Update
  split
  · rename_i hempty
    rw [List.eq_nil_of_length_eq_zero hempty, List.append_nil]
    exact h
  · rename_i hnonempty
    simp only [hleft, absorb_sha256Process]
    split
    · -- the rest and the start of the input make a block
      rename_i hfill
      have htake : (input.take (64 - message.length % 64)).length = 64 - message.length % 64 :=
        List.length_take_of_le hfill.2
      have hblock : overwrite ctx.buffer (message.length % 64)
          (input.take (64 - message.length % 64)) =
          ctx.buffer.take (message.length % 64) ++ input.take (64 - message.length % 64) := by
        rw [overwrite, List.drop_eq_nil_of_le (by omega), List.append_nil]
      have hsize : (overwrite ctx.buffer (message.length % 64)
          (input.take (64 - message.length % 64))).length = ctx.buffer.length :=
        length_overwrite (by omega)
      have habsorb : absorb 64 compress
            (sha256Process ctx.state (overwrite ctx.buffer (message.length % 64)
              (input.take (64 - message.length % 64)))) (input.drop (64 - message.length % 64)) =
          absorb 64 compress ctx.state (ctx.buffer.take (message.length % 64) ++ input) := by
        rw [sha256Process_eq (by omega), ← absorb_block (by decide) (by omega), hblock,
          List.append_assoc, List.take_append_drop]
      have hdone : (absorb 64 compress ctx.state
          (ctx.buffer.take (message.length % 64) ++ input)).2.length =
          (message ++ input).length % 64 := by
        rw [length_absorb_rest (by decide), List.length_append, hrest, hmod]
      rw [habsorb]
      apply represents_append h hlength rfl
      · rw [length_overwrite (by omega)]
        omega
      · refine Prod.ext rfl ?_
        dsimp only
        rw [← hdone, ← Nat.zero_add (List.length _), take_overwrite (Nat.zero_le _),
          List.take_zero, List.nil_append]
    · rename_i hfill
      by_cases hzero : message.length % 64 = 0
      · -- nothing is left from the message
        have hdone : (absorb 64 compress ctx.state input).2.length =
            (message ++ input).length % 64 := by
          rw [length_absorb_rest (by decide), hmod, hzero, Nat.zero_add]
        rw [hzero]
        apply represents_append h hlength rfl
        · rw [length_overwrite (by omega)]
          exact hbuffer
        · rw [hzero, List.take_zero, List.nil_append]
          refine Prod.ext rfl ?_
          dsimp only
          rw [← hdone, ← Nat.zero_add (List.length _), take_overwrite (Nat.zero_le _),
            List.take_zero, List.nil_append]
      · -- the input does not fill the block
        have hshort : input.length < 64 - message.length % 64 := by omega
        have hwhole : input.length < 64 := by omega
        rw [absorb_of_lt hwhole]
        apply represents_append h hlength rfl
        · rw [length_overwrite (by dsimp only; omega)]
          exact hbuffer
        · have hsum : (message.length % 64 + input.length) % 64 =
              message.length % 64 + input.length := Nat.mod_eq_of_lt (by omega)
          rw [absorb_of_lt (by rw [List.length_append]; omega), hmod, hsum]
          exact Prod.ext rfl (take_overwrite (by omega))

/-- However the stream is cut into pieces. -/
theorem Represents.updates {pieces : List Bytes} (h : Represents ctx message)
    (hpieces : ∀ piece ∈ pieces, piece.length < 2 ^ 32) :
    Represents (pieces.foldl sha256Update ctx) (message ++ pieces.flatten) := by
  induction pieces generalizing ctx message with
  | nil => simpa using h
  | cons piece rest ih =>
    rw [List.forall_mem_cons] at hpieces
    rw [List.foldl_cons, List.flatten_cons, ← List.append_assoc]
    exact ih (h.update hpieces.1) hpieces.2

end Update

/-! ## The end of the stream -/

section Finish

variable {ctx : Sha256Context} {message : Bytes}

/-- The two words are the length in bits. -/
theorem length_words (h : Represents ctx message) (hlength : message.length < 2 ^ 61) :
    putUint32 ((ctx.total0 >>> 29) ||| (ctx.total1 <<< 3)) ++ putUint32 (ctx.total0 <<< 3) =
      bigEndianBytes 8 (8 * message.length) := by
  have htotal := h.total
  have hlow := ctx.total0.toNat_lt
  have hbits : (ctx.total0 <<< 3).toNat = 8 * ctx.total0.toNat % 256 ^ 4 := by
    rw [UInt32.toNat_shiftLeft, Nat.shiftLeft_eq, Nat.mul_comm]
    rfl
  have hhigh : ((ctx.total0 >>> 29) ||| (ctx.total1 <<< 3)).toNat =
      8 * ctx.total1.toNat + ctx.total0.toNat / 2 ^ 29 := by
    have hshift : (ctx.total1 <<< 3).toNat = 2 ^ 3 * ctx.total1.toNat := by
      rw [UInt32.toNat_shiftLeft, Nat.shiftLeft_eq, Nat.mul_comm,
        show UInt32.toNat 3 % 32 = 3 from rfl, Nat.mod_eq_of_lt (by omega)]
    rw [UInt32.toNat_or, UInt32.toNat_shiftRight, show UInt32.toNat 29 % 32 = 29 from rfl,
      Nat.shiftRight_eq_div_pow, hshift, Nat.or_comm,
      ← Nat.two_pow_add_eq_or_of_lt (by omega)]
  have hdiv : 8 * message.length / 256 ^ 4 = 8 * ctx.total1.toNat + ctx.total0.toNat / 2 ^ 29 := by
    omega
  have hmod : 8 * ctx.total0.toNat % 256 ^ 4 = 8 * message.length % 256 ^ 4 := by omega
  rw [putUint32_eq, putUint32_eq, hhigh, hbits, hmod, bigEndianBytes_mod, ← hdiv]
  exact (bigEndianBytes_add 4 4 _).symm

/-- The number of bytes of the table that are used. -/
theorem padn_eq (h : Represents ctx message) :
    (if ctx.total0 &&& 0x3F < 56 then 56 - (ctx.total0 &&& 0x3F)
      else 120 - (ctx.total0 &&& 0x3F)).toNat = zeros message.length + 1 := by
  have hleft := h.left_eq
  have hless : message.length % 64 < 64 := Nat.mod_lt _ (by decide)
  unfold zeros
  split
  · rename_i hlast
    rw [UInt32.lt_iff_toNat_lt, hleft, show UInt32.toNat 56 = 56 from rfl] at hlast
    rw [UInt32.toNat_sub_of_le, hleft, show UInt32.toNat 56 = 56 from rfl]
    · omega
    · rw [UInt32.le_iff_toNat_le, hleft]
      exact hlast.le
  · rename_i hlast
    rw [UInt32.lt_iff_toNat_lt, hleft, show UInt32.toNat 56 = 56 from rfl] at hlast
    rw [UInt32.toNat_sub_of_le, hleft, show UInt32.toNat 120 = 120 from rfl]
    · omega
    · rw [UInt32.le_iff_toNat_le, hleft, show UInt32.toNat 120 = 120 from rfl]
      omega

theorem take_padding {n : Nat} (h : n < 64) :
    sha256Padding.take (n + 1) = [0x80] ++ List.replicate n 0 := by
  rw [sha256Padding, List.take_succ_cons, List.take_replicate, Nat.min_eq_left (by omega)]
  rfl

theorem Represents.finish (h : Represents ctx message) (hlength : message.length < 2 ^ 61) :
    sha256Finish ctx = sha256 message := by
  have hzeros : zeros message.length < 64 := Nat.mod_lt _ (by decide)
  have hshort : (sha256Padding.take (zeros message.length + 1)).length < 2 ^ 32 := by
    rw [take_padding hzeros]
    simp
    omega
  have hwords : (bigEndianBytes 8 (8 * message.length)).length < 2 ^ 32 := by simp
  have hpadded := (h.update hshort).update hwords
  have hpad : message ++ sha256Padding.take (zeros message.length + 1) ++
      bigEndianBytes 8 (8 * message.length) = pad message := by
    rw [take_padding hzeros, pad]
    simp only [List.append_assoc]
  rw [hpad] at hpadded
  unfold sha256Finish
  dsimp only
  rw [padn_eq h, length_words h hlength, hpadded.state, sha256]
  exact List.flatMap_congr fun word _ => putUint32_eq word

end Finish

/-- The digest of a stream is that of the standard, in whatever pieces it comes and whatever
the buffer held before. -/
theorem sha256_pieces {ctx : Sha256Context} (hbuffer : ctx.buffer.length = 64)
    {pieces : List Bytes} (hpieces : ∀ piece ∈ pieces, piece.length < 2 ^ 32)
    (hlength : pieces.flatten.length < 2 ^ 61) :
    sha256Finish (pieces.foldl sha256Update (sha256Starts ctx)) = sha256 pieces.flatten :=
  ((represents_starts hbuffer).updates hpieces).finish hlength

/-- A context on the stack, before `sha256_starts`. -/
def stackContext : Sha256Context := ⟨1, 2, ⟨3, 4, 5, 6, 7, 8, 9, 10⟩, List.replicate 64 0x5a⟩

theorem sha256_pieces_abc :
    sha256Finish ([[0x61], [0x62, 0x63]].foldl sha256Update (sha256Starts stackContext)) =
      sha256 ([[0x61], [0x62, 0x63]] : List Bytes).flatten :=
  sha256_pieces (by decide) (by decide) (by decide)

example : sha256Finish ([[0x61], [0x62, 0x63]].foldl sha256Update (sha256Starts stackContext)) =
    [0xba, 0x78, 0x16, 0xbf, 0x8f, 0x01, 0xcf, 0xea, 0x41, 0x41, 0x40, 0xde, 0x5d, 0xae, 0x22, 0x23,
      0xb0, 0x03, 0x61, 0xa3, 0x96, 0x17, 0x7a, 0x9c, 0xb4, 0x10, 0xff, 0x61, 0xf2, 0x00, 0x15,
      0xad] := by
  decide +kernel

end Monoimage.Kexec
