import Monoimage.Boot.Start
import Monoimage.Clib.Memory

/-! `get_keypress` counts down to the boot and looks for a key in each second. The alarm ends a
second by a `longjmp` out of `getchar`. -/
namespace Monoimage.Boot

open Clib

/-! ## The terminal -/

def icanon : UInt32 := 0x2
def echo : UInt32 := 0x8

structure Termios where
  iflag : UInt32
  oflag : UInt32
  cflag : UInt32
  lflag : UInt32
  cc : List UInt8
  deriving DecidableEq, Repr

def setCanonical (flag : Bool) (term : Termios) : Termios :=
  if flag then { term with lflag := term.lflag ||| icanon ||| echo }
  else { term with lflag := term.lflag &&& ~~~icanon &&& ~~~echo }

/-- Canonical mode with echo. -/
def Termios.Canonical (term : Termios) : Prop :=
  term.lflag &&& icanon = icanon ∧ term.lflag &&& echo = echo

theorem flags_restored {x a b : UInt32} (ha : x &&& a = a) (hb : x &&& b = b) :
    x &&& ~~~a &&& ~~~b ||| a ||| b = x := by
  rw [← UInt32.toBitVec_inj] at ha hb ⊢
  apply BitVec.eq_of_getElem_eq
  intro i hi
  have hai := congrArg (fun bits => bits.getLsbD i) ha
  have hbi := congrArg (fun bits => bits.getLsbD i) hb
  simp only [UInt32.toBitVec_and, BitVec.getLsbD_eq_getElem hi, BitVec.getElem_and,
    Bool.and_eq_right_iff_imp, UInt32.toBitVec_or, UInt32.toBitVec_not, BitVec.getElem_or,
    BitVec.getElem_not] at hai hbi ⊢
  grind

theorem setCanonical_restores {term : Termios} (h : term.Canonical) :
    setCanonical true (setCanonical false term) = term := by
  have hflags := flags_restored h.1 h.2
  unfold setCanonical
  simp only [if_true, Bool.false_eq_true, if_false, hflags]

/-! ## The countdown -/

/-- What comes of one pass of the loop. `unarmed` is a `signal` that fails, and `timeout` the
jump out of `getchar`. -/
inductive Round where
  | unarmed
  | key (code : UInt8)
  | eof
  | timeout
  deriving DecidableEq, Repr

def Round.Typed (round : Round) : Prop := ∃ code, round = .key code

/-- `c = getchar()`, which a jump leaves as it was. -/
def Round.getchar (round : Round) (c : Int) : Int :=
  match round with
  | .key code => code.toNat
  | .eof => -1
  | _ => c

/-- The return value, the seconds that were waited through or ended by input, and the terminal
that is left. -/
structure Wait where
  ret : Int
  rounds : Nat
  term : Termios
  deriving DecidableEq, Repr

section Countdown

variable (console : Nat → Round) (term : Termios)

/-- `while (delay--)`, from the round with this index on. The least `int` has no value below
it. -/
def waitLoop (delay c : Int) (round : Nat) : Except Fault Wait :=
  if delay = 0 then .ok ⟨1, round, setCanonical true term⟩
  else if delay ≤ -2 ^ 31 then .error .overflow
  else if console round = .unarmed then .ok ⟨-1, round, setCanonical true term⟩
  else if (console round).getchar c ≠ 0 then .ok ⟨0, round + 1, setCanonical true term⟩
  else waitLoop (delay - 1) ((console round).getchar c) (round + 1)
  termination_by (delay + 2 ^ 31).toNat
  decreasing_by omega

def getKeypress (delay : Int) : Except Fault Wait :=
  if delay = 0 then .ok ⟨1, 0, term⟩
  else waitLoop console (setCanonical false term) delay 0 0

variable {console term} {delay c : Int} {k n round : Nat} {wait : Wait}

/-- Nothing that ends the countdown: the byte 0 is not told from a timeout. -/
def Round.Quiet (round : Round) : Prop :=
  round = .timeout ∨ round = .key 0

theorem Round.quiet_iff {round : Round} :
    round.Quiet ↔ round ≠ .unarmed ∧ round.getchar 0 = 0 := by
  constructor
  · rintro (rfl | rfl)
    · exact ⟨by decide, rfl⟩
    · exact ⟨by decide, rfl⟩
  · rintro ⟨harmed, hzero⟩
    cases round with
    | unarmed => exact absurd rfl harmed
    | timeout => exact Or.inl rfl
    | eof => exact absurd hzero (by decide)
    | key code =>
      have hcode : code.toNat = 0 := Int.ofNat.inj hzero
      exact Or.inr (congrArg Round.key (UInt8.toNat_inj.mp hcode))

theorem waitLoop_quiet (hdelay : delay ≠ 0) (hleast : -2 ^ 31 < delay)
    (h : (console round).Quiet) :
    waitLoop console term delay 0 round = waitLoop console term (delay - 1) 0 (round + 1) := by
  obtain ⟨harmed, hzero⟩ := Round.quiet_iff.mp h
  rw [waitLoop, if_neg hdelay, if_neg (Int.not_le.mpr hleast), if_neg harmed, hzero,
    if_neg (fun hne => hne rfl)]

/-- The first `k` seconds go by. -/
theorem waitLoop_run (hk : k ≤ n) (h : ∀ i < k, (console i).Quiet) :
    waitLoop console term n 0 0 = waitLoop console term ((n - k : Nat) : Int) 0 k := by
  induction k with
  | zero => rfl
  | succ k ih =>
    rw [ih (by omega) (fun i hi => h i (by omega)),
      waitLoop_quiet (by omega) (by omega) (h k (by omega))]
    congr 1
    omega

/-- What the first input that is not quiet makes of the countdown. -/
theorem waitLoop_stop (hk : k < n) (h : ∀ i < k, (console i).Quiet)
    (hstop : ¬ (console k).Quiet) :
    waitLoop console term n 0 0 = .ok (if console k = .unarmed then
      ⟨-1, k, setCanonical true term⟩ else ⟨0, k + 1, setCanonical true term⟩) := by
  rw [waitLoop_run hk.le h, waitLoop, if_neg (by omega), if_neg (by omega)]
  split
  · rfl
  · rename_i harmed
    rw [Round.quiet_iff, not_and] at hstop
    rw [if_pos (hstop harmed)]

theorem waitLoop_elapsed (h : ∀ i < n, (console i).Quiet) :
    waitLoop console term n 0 0 = .ok ⟨1, n, setCanonical true term⟩ := by
  rw [waitLoop_run le_rfl h, Nat.sub_self, waitLoop]
  rfl

theorem round_le_rounds (h : waitLoop console term delay c round = .ok wait) :
    round ≤ wait.rounds := by
  fun_induction waitLoop console term delay c round with
  | case1 =>
    cases h
    exact le_rfl
  | case2 => cases h
  | case3 =>
    cases h
    exact le_rfl
  | case4 =>
    cases h
    exact Nat.le_succ _
  | case5 _ _ _ _ _ _ _ ih => exact (Nat.le_succ _).trans (ih h)

/-- Below 0 the loop takes the console for as long as it is quiet. -/
theorem waitLoop_negative (hneg : delay < 0) (h : waitLoop console term delay 0 0 = .ok wait) :
    -2 ^ 31 < delay ∧ (console 0 = .unarmed ∧ wait = ⟨-1, 0, setCanonical true term⟩ ∨
      console 0 ≠ .unarmed ∧ 0 < wait.rounds) := by
  rw [waitLoop, if_neg (by omega)] at h
  split at h
  · cases h
  · rename_i hleast
    refine ⟨Int.not_le.mp hleast, ?_⟩
    split at h
    · rename_i hunarmed
      cases h
      exact Or.inl ⟨hunarmed, rfl⟩
    · rename_i harmed
      refine Or.inr ⟨harmed, ?_⟩
      split at h
      · cases h
        exact Nat.zero_lt_one
      · exact round_le_rounds h

end Countdown

/-! ## What the countdown is for -/

/-- A start as monoboot boots, unless the tag of `check_last` does not fit. -/
def GoesOnToBoot (env : StartEnv) (cfg : Config) : Prop :=
  main env cfg =
    match checkLast cfg with
    | .error f => .fault f
    | .ok last => .boot last (cmdBoot env.boot last.cfg (some last.image))

structure Attends (delay : Int) (console : Nat → Round) (term : Termios) (wait : Wait) : Prop where
  rounds : (wait.rounds : Int) ≤ max delay 0
  key : wait.ret = 0 ↔ ∃ i < wait.rounds, (console i).Typed
  term : term.Canonical → wait.term = term
  unattended : (∀ i, ¬ (console i).Typed) → ∀ env cfg, "monoboot".toList <+: env.argv0 →
    env.keypress cfg.delay = wait.ret → GoesOnToBoot env cfg

/-- The call returns, and does so in time, with 0 exactly for a key, and with the terminal as
it was. -/
def CountsDown (delay : Int) (console : Nat → Round) (term : Termios) : Prop :=
  ∃ wait, getKeypress console term delay = .ok wait ∧ Attends delay console term wait

def NulBefore (console : Nat → Round) (k : Nat) : Prop :=
  ∃ i < k, console i = .key 0

/-- What ends the countdown is a key, or an end of file that a NUL key came before, or the
failure of `signal` without a NUL key before it. -/
def EndsRight (console : Nat → Round) (k : Nat) : Prop :=
  match console k with
  | .key code => code ≠ 0
  | .eof => NulBefore console k
  | .unarmed => ¬ NulBefore console k
  | .timeout => False

/-- Within `n` seconds something ends the countdown rightly, or they all go by without a NUL
key. -/
def KeysTold (console : Nat → Round) (n : Nat) : Prop :=
  (∃ k < n, (∀ i < k, (console i).Quiet) ∧ EndsRight console k) ∨
    (∀ i < n, (console i).Quiet) ∧ ¬ NulBefore console n

section Attends

variable {console : Nat → Round} {term : Termios} {delay : Int} {k n : Nat} {wait : Wait}

theorem typed_before_iff (h : ∀ i < k, (console i).Quiet) :
    (∃ i < k, (console i).Typed) ↔ NulBefore console k := by
  constructor
  · rintro ⟨i, hi, code, hkey⟩
    refine ⟨i, hi, ?_⟩
    rcases h i hi with htimeout | hnul
    · rw [hkey] at htimeout
      cases htimeout
    · exact hnul
  · rintro ⟨i, hi, hkey⟩
    exact ⟨i, hi, 0, hkey⟩

theorem typed_within_iff (h : ∀ i < k, (console i).Quiet) :
    (∃ i < k + 1, (console i).Typed) ↔ NulBefore console k ∨ (console k).Typed := by
  rw [← typed_before_iff h, Nat.exists_lt_succ_right]

theorem EndsRight.not_quiet (h : EndsRight console k) : ¬ (console k).Quiet := by
  rintro (htimeout | hnul)
  · simp [EndsRight, htimeout] at h
  · simp [EndsRight, hnul] at h

/-- Only the first input that is not quiet matters. -/
theorem keysTold_of_stop (hk : k < n) (h : ∀ i < k, (console i).Quiet)
    (hstop : ¬ (console k).Quiet) : KeysTold console n ↔ EndsRight console k := by
  constructor
  · rintro (⟨k', -, hquiet, hright⟩ | ⟨hquiet, -⟩)
    · have hle : k' ≤ k := Nat.le_of_not_lt fun hlt => hstop (hquiet k hlt)
      have hge : k ≤ k' := Nat.le_of_not_lt fun hlt => hright.not_quiet (h k' hlt)
      rwa [Nat.le_antisymm hge hle]
    · exact absurd (hquiet k hk) hstop
  · exact fun hright => Or.inl ⟨k, hk, h, hright⟩

theorem keysTold_of_quiet (h : ∀ i < n, (console i).Quiet) :
    KeysTold console n ↔ ¬ NulBefore console n := by
  constructor
  · rintro (⟨k, hk, -, hright⟩ | ⟨-, hnone⟩)
    · exact absurd (h k hk) hright.not_quiet
    · exact hnone
  · exact fun hnone => Or.inr ⟨h, hnone⟩

theorem quiet_or_stop (console : Nat → Round) (n : Nat) :
    (∀ i < n, (console i).Quiet) ∨
      ∃ k < n, (∀ i < k, (console i).Quiet) ∧ ¬ (console k).Quiet := by
  induction n with
  | zero => exact Or.inl fun i hi => absurd hi (Nat.not_lt_zero i)
  | succ n ih =>
    rcases ih with hquiet | ⟨k, hk, hstop⟩
    · by_cases hlast : (console n).Quiet
      · exact Or.inl (Nat.forall_lt_succ_right.mpr ⟨hquiet, hlast⟩)
      · exact Or.inr ⟨n, n.lt_succ_self, hquiet, hlast⟩
    · exact Or.inr ⟨k, hk.trans n.lt_succ_self, hstop⟩

theorem attends_of_key (hrounds : (wait.rounds : Int) ≤ max delay 0)
    (hterm : term.Canonical → wait.term = term)
    (hkey : wait.ret = 0 ↔ ∃ i < wait.rounds, (console i).Typed) :
    Attends delay console term wait := by
  refine ⟨hrounds, hkey, hterm, fun hnone env cfg hcalled hret => ?_⟩
  have hunattended : env.keypress cfg.delay ≠ 0 := by
    rw [hret]
    intro hzero
    obtain ⟨i, -, htyped⟩ := hkey.mp hzero
    exact hnone i htyped
  exact main_nonInteractive ⟨hcalled, hunattended⟩

theorem countsDown_of_ok (h : getKeypress console term delay = .ok wait)
    (hrounds : (wait.rounds : Int) ≤ max delay 0) (hterm : term.Canonical → wait.term = term) :
    CountsDown delay console term ↔ (wait.ret = 0 ↔ ∃ i < wait.rounds, (console i).Typed) := by
  constructor
  · rintro ⟨wait', hwait, hattends⟩
    rw [h] at hwait
    cases hwait
    exact hattends.key
  · exact fun hkey => ⟨wait, h, attends_of_key hrounds hterm hkey⟩

theorem countsDown_restored {ret : Int} {rounds : Nat}
    (h : getKeypress console term delay =
      .ok ⟨ret, rounds, setCanonical true (setCanonical false term)⟩)
    (hrounds : (rounds : Int) ≤ max delay 0) :
    CountsDown delay console term ↔ (ret = 0 ↔ ∃ i < rounds, (console i).Typed) :=
  countsDown_of_ok h hrounds setCanonical_restores

theorem getKeypress_of_ne (h : delay ≠ 0) :
    getKeypress console term delay = waitLoop console (setCanonical false term) delay 0 0 :=
  if_neg h

theorem countsDown_elapsed (hn : n ≠ 0) (h : ∀ i < n, (console i).Quiet) :
    CountsDown n console term ↔ ¬ NulBefore console n := by
  have hok : getKeypress console term n = _ :=
    (getKeypress_of_ne (by omega)).trans (waitLoop_elapsed h)
  rw [countsDown_restored hok (by omega), ← typed_before_iff h]
  simp

theorem countsDown_stop (hk : k < n) (h : ∀ i < k, (console i).Quiet)
    (hstop : ¬ (console k).Quiet) :
    CountsDown n console term ↔ EndsRight console k := by
  have hok : getKeypress console term n = _ :=
    (getKeypress_of_ne (by omega)).trans (waitLoop_stop hk h hstop)
  unfold EndsRight
  cases hround : console k with
  | unarmed =>
    rw [if_pos hround] at hok
    rw [countsDown_restored hok (by omega)]
    simp [typed_before_iff h]
  | timeout => exact absurd (Or.inl hround) hstop
  | key code =>
    have hcode : code ≠ 0 := fun hzero => hstop (Or.inr (by rw [hround, hzero]))
    rw [if_neg (by simp [hround])] at hok
    rw [countsDown_restored hok (by omega), typed_within_iff h, hround]
    simp [Round.Typed, hcode]
  | eof =>
    rw [if_neg (by simp [hround])] at hok
    rw [countsDown_restored hok (by omega), typed_within_iff h, hround]
    simp [Round.Typed]

theorem countsDown_pos_iff (hn : n ≠ 0) : CountsDown n console term ↔ KeysTold console n := by
  rcases quiet_or_stop console n with hquiet | ⟨k, hk, hquiet, hstop⟩
  · rw [countsDown_elapsed hn hquiet, keysTold_of_quiet hquiet]
  · rw [countsDown_stop hk hquiet hstop, keysTold_of_stop hk hquiet hstop]

theorem countsDown_zero : CountsDown 0 console term := by
  have hok : getKeypress console term 0 = .ok ⟨1, 0, term⟩ := if_pos rfl
  rw [countsDown_of_ok hok (Int.le_refl 0) fun _ => rfl]
  simp

theorem countsDown_neg_iff (hneg : delay < 0) :
    CountsDown delay console term ↔ -2 ^ 31 < delay ∧ console 0 = .unarmed := by
  constructor
  · rintro ⟨wait, hwait, hattends⟩
    rw [getKeypress_of_ne (by omega)] at hwait
    obtain ⟨hleast, ⟨hunarmed, -⟩ | ⟨-, hrounds⟩⟩ := waitLoop_negative hneg hwait
    · exact ⟨hleast, hunarmed⟩
    · have := hattends.rounds
      omega
  · rintro ⟨hleast, hunarmed⟩
    have hok : getKeypress console term delay =
        .ok ⟨-1, 0, setCanonical true (setCanonical false term)⟩ := by
      rw [getKeypress_of_ne (by omega), waitLoop, if_neg (by omega), if_neg (by omega),
        if_pos hunarmed]
    rw [countsDown_restored hok (by omega)]
    simp

/-- With a delay of 0 nothing is asked. With a positive one an end of file passes for a key and
the byte 0 for none. With a negative one the loop does not end in time, but for a `signal` that
fails at once. -/
theorem countsDown_iff : CountsDown delay console term ↔
    delay = 0 ∨ 0 < delay ∧ KeysTold console delay.toNat ∨
      -2 ^ 31 < delay ∧ delay < 0 ∧ console 0 = .unarmed := by
  rcases Int.lt_trichotomy delay 0 with hneg | rfl | hpos
  · have hzero : delay ≠ 0 := by omega
    have hpos : ¬ 0 < delay := by omega
    simp [countsDown_neg_iff hneg, hzero, hpos, hneg]
  · simp [countsDown_zero]
  · obtain ⟨n, rfl⟩ := Int.eq_ofNat_of_zero_le (Int.le_of_lt hpos)
    have hzero : (n : Int) ≠ 0 := by omega
    have hneg : ¬ (n : Int) < 0 := by omega
    rw [countsDown_pos_iff (by omega), Int.toNat_natCast]
    simp only [hzero, hpos, hneg, false_or, true_and, false_and, and_false, or_false]

end Attends

def exampleTerm : Termios := ⟨0x500, 0x5, 0xBF, 0x8A3B, []⟩

/-- On a closed console the shell comes up at once, and a delay of -1 is not over after no
seconds. -/
theorem not_countsDown_eof :
    exampleTerm.Canonical ∧
      getKeypress (fun _ => .eof) exampleTerm 5 = .ok ⟨0, 1, exampleTerm⟩ ∧
      ¬ CountsDown 5 (fun _ => .eof) exampleTerm ∧
      ¬ CountsDown (-1) (fun _ => .timeout) exampleTerm := by
  have hcanonical : exampleTerm.Canonical := ⟨by decide, by decide⟩
  have hquiet : ∀ i < 0, (Round.eof).Quiet := fun i hi => absurd hi (Nat.not_lt_zero i)
  have hstop : ¬ (Round.eof).Quiet := by simp [Round.Quiet]
  refine ⟨hcanonical, ?_, ?_, ?_⟩
  · rw [getKeypress_of_ne (by decide)]
    exact (waitLoop_stop (n := 5) (by decide) hquiet hstop).trans (by
      rw [if_neg (by decide), setCanonical_restores hcanonical])
  · intro h
    obtain ⟨i, hi, -⟩ := (countsDown_stop (n := 5) (by decide) hquiet hstop).mp h
    exact absurd hi (Nat.not_lt_zero i)
  · intro h
    have hunarmed := (countsDown_neg_iff (by decide)).mp h
    exact absurd hunarmed.2 (by decide)

end Monoimage.Boot
