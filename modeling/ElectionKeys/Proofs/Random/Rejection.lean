import Mathlib
import ElectionKeys.Arithmetic.Lemmas
import ElectionKeys.Proofs.Random.Uniform

/-!
# Numbers drawn by rejection are exact and unbiased

A number of `b` bits is the leading bits of a block of bytes (`bits_eq`), and a number below a bound
is that of the first block whose leading bits are below it (`below?_eq_some_iff`). So what is drawn,
and where the tape stands afterwards, is told from the bytes of the tape alone.

## What is counted, and what it rests on

* Each number of `b` bits is spelled by equally many blocks: the surplus bits are free
  (`Bytes.sum_leading`).
* More than half of the blocks are accepted, because a bound has a bit of its own above half of the
  numbers that are drawn (`two_pow_bitLength_pred_lt`).
* That no number below a bound is preferred holds of single blocks, and of all the bytes that a draw
  may read (`equallyLikely_below`): the attempts are an induction, and every rejected block leaves
  all numbers alike.
-/

namespace ElectionKeys

variable {b bound k m : ℕ} {t t' : Tape}

/-! ### Leading bits -/

theorem sum_range_mul_div (f : ℕ → ℕ) (count size : ℕ) :
    ∑ z ∈ Finset.range (count * size), f (z / size) = size * ∑ v ∈ Finset.range count, f v := by
  induction count with
  | zero => rw [Nat.zero_mul, Finset.sum_range_zero, Finset.sum_range_zero, Nat.mul_zero]
  | succ count ih =>
    have hlast : ∑ z ∈ Finset.range size, f ((count * size + z) / size) = size * f count := by
      have hconst : ∀ z ∈ Finset.range size, f ((count * size + z) / size) = f count := by
        intro z hz
        have hlt := Finset.mem_range.1 hz
        rw [mul_comm, Nat.mul_add_div (by omega), Nat.div_eq_of_lt hlt, add_zero]
      rw [Finset.sum_congr rfl hconst, Finset.sum_const, Finset.card_range, smul_eq_mul]
    rw [Nat.succ_mul, Finset.sum_range_add, ih, hlast, Finset.sum_range_succ, Nat.mul_add]

namespace Bytes

/-- The number that the first `b` bits of a byte string denote. -/
def leading (b : ℕ) (w : Bytes) : ℕ := toNat w / 2 ^ (8 * w.length - b)

/-- The leading bits of a block make a number of so many bits. -/
theorem leading_lt {w : Bytes} (h : w.length = byteCount b) : leading b w < 2 ^ b := by
  have hlt := toNat_lt w
  rw [h, pow_byteCount] at hlt
  rw [leading, h]
  exact Nat.div_lt_of_lt_mul hlt

/-- **Each number of `b` bits stands at the beginning of equally many blocks.** -/
theorem sum_leading (b : ℕ) (f : ℕ → ℕ) :
    ∑ w : Fin (byteCount b) → UInt8, f (leading b (List.ofFn w)) =
      2 ^ (8 * byteCount b - b) * ∑ v ∈ Finset.range (2 ^ b), f v := by
  simp only [leading, List.length_ofFn]
  rw [sum_toNat fun z ↦ f (z / 2 ^ (8 * byteCount b - b)), pow_byteCount, mul_comm (2 ^ _),
    sum_range_mul_div]

/-- All blocks, counted by their leading bits and the rest. -/
theorem card_blocks (b : ℕ) :
    Fintype.card (Fin (byteCount b) → UInt8) = 2 ^ (8 * byteCount b - b) * 2 ^ b := by
  have h := sum_leading b fun _ ↦ 1
  rwa [Finset.sum_const, Finset.sum_const, Finset.card_range, smul_eq_mul, smul_eq_mul, mul_one,
    mul_one] at h

/-- Each number of bits leads in as many blocks as any other. -/
theorem card_leading_eq {v : ℕ} (hv : v < 2 ^ b) :
    (Finset.univ.filter fun w : Fin (byteCount b) → UInt8 ↦ leading b (List.ofFn w) = v).card =
      2 ^ (8 * byteCount b - b) := by
  rw [Finset.card_filter, sum_leading b fun u ↦ if u = v then 1 else 0, Finset.sum_ite_eq',
    if_pos (Finset.mem_range.2 hv), mul_one]

/-- So the blocks that lead to a number below a bound are proportional to the bound. -/
theorem card_leading_lt (h : bound ≤ 2 ^ b) :
    (Finset.univ.filter fun w : Fin (byteCount b) → UInt8 ↦ leading b (List.ofFn w) < bound).card =
      2 ^ (8 * byteCount b - b) * bound := by
  have hrange : (Finset.range (2 ^ b)).filter (· < bound) = Finset.range bound := by
    ext v
    rw [Finset.mem_filter, Finset.mem_range, Finset.mem_range]
    omega
  rw [Finset.card_filter, sum_leading b fun u ↦ if u < bound then 1 else 0, ← Finset.card_filter,
    hrange, Finset.card_range]

end Bytes

/-! ### Blocks of a tape -/

namespace Tape

/-- Block number `j` of `m` bytes each, from the place of a tape on. -/
def block (t : Tape) (m j : ℕ) : Bytes := (t.skip (j * m)).peek m

theorem block_zero (t : Tape) (m : ℕ) : t.block m 0 = t.peek m := by
  rw [block, Nat.zero_mul]
  rfl

theorem block_skip (t : Tape) (m j : ℕ) : (t.skip m).block m j = t.block m (j + 1) := by
  rw [block, block, ← skip_add, Nat.succ_mul, add_comm]

end Tape

namespace Draw

/-- Drawing bits takes a block and gives its leading ones. It always succeeds. -/
theorem bits_eq (b : ℕ) (t : Tape) :
    bits b t = some ((t.peek (byteCount b)).leading b, t.skip (byteCount b)) := by
  rw [Bytes.leading, Tape.length_peek, ← Nat.shiftRight_eq_div_pow]
  rfl

/-- **A draw by rejection gives the value of the first block that is acceptable**, and stops right
after that block. -/
theorem firstOf_eq_some_iff {α : Type} {draw : Draw α} {ok : α → Bool} {tries : ℕ} {a : α}
    (read : Bytes → α) (hdraw : ∀ t, draw t = some (read (t.peek m), t.skip m)) :
    firstOf draw ok tries t = some (a, t') ↔
      ∃ k < tries, ok (read (t.block m k)) = true ∧ (∀ j < k, ¬ ok (read (t.block m j)) = true) ∧
        a = read (t.block m k) ∧ t' = t.skip ((k + 1) * m) := by
  induction tries generalizing t with
  | zero => exact iff_of_false nofun fun ⟨k, hk, _⟩ ↦ absurd hk (Nat.not_lt_zero k)
  | succ tries ih =>
    have hfirst : firstOf draw ok (tries + 1) t = some (a, t') ↔
        (if ok (read (t.peek m)) then pure (read (t.peek m)) else firstOf draw ok tries)
          (t.skip m) = some (a, t') := by
      rw [firstOf, bind_eq_some_iff, hdraw]
      constructor
      · intro h
        obtain ⟨x, s, hx, hrest⟩ := h
        cases hx
        exact hrest
      · intro h
        exact ⟨_, _, rfl, h⟩
    rw [hfirst, ← t.block_zero]
    split
    · next hok =>
      -- The first block is the one, so no later block can be.
      rw [pure_eq_some_iff]
      constructor
      · rintro ⟨rfl, rfl⟩
        refine ⟨0, by omega, hok, fun j hj ↦ absurd hj (Nat.not_lt_zero j), rfl, ?_⟩
        rw [zero_add, one_mul]
      · rintro ⟨k, -, -, hbefore, rfl, rfl⟩
        obtain rfl : k = 0 := by
          by_contra hk
          exact hbefore 0 (by omega) hok
        exact ⟨rfl, by rw [zero_add, one_mul]⟩
    · next hok =>
      -- The first block is not, so the others are counted on from it.
      rw [ih]
      simp only [Tape.block_skip, ← Tape.skip_add]
      constructor
      · rintro ⟨k, hk, hk', hbefore, rfl, rfl⟩
        refine ⟨k + 1, by omega, hk', fun j hj ↦ ?_, rfl, by rw [Nat.succ_mul (k + 1), add_comm]⟩
        cases j with
        | zero => exact hok
        | succ j => exact hbefore j (by omega)
      · rintro ⟨k, hk, hk', hbefore, rfl, rfl⟩
        cases k with
        | zero => exact absurd hk' hok
        | succ k =>
          exact ⟨k, by omega, hk', fun j hj ↦ hbefore (j + 1) (by omega), rfl,
            by rw [Nat.succ_mul (k + 1), add_comm]⟩

/-! ### Attempts at a number below a bound -/

/-- The number of bytes that one attempt at a number below a bound reads. -/
def attemptSize (bound : ℕ) : ℕ := byteCount (bitLength (bound - 1))

/-- The number that attempt number `k` at a number below a bound comes upon. -/
def attempt (bound : ℕ) (t : Tape) (k : ℕ) : ℕ :=
  (t.block (attemptSize bound) k).leading (bitLength (bound - 1))

/-- Attempt number `k` is the first that comes upon a number below the bound. -/
structure FirstAttempt (bound : ℕ) (t : Tape) (k : ℕ) : Prop where
  accepted : attempt bound t k < bound
  rejected : ∀ j < k, bound ≤ attempt bound t j

/-- **A number is drawn below a bound exactly at the first attempt that succeeds**, if that is among
the tries that patience allows; and the tape is left behind that attempt. -/
theorem below_eq_some_iff {a : ℕ} :
    below bound t = some (a, t') ↔
      ∃ k < t.patience, FirstAttempt bound t k ∧ a = attempt bound t k ∧
        t' = t.skip ((k + 1) * attemptSize bound) := by
  rw [below, repeatUntil, firstOf_eq_some_iff (Bytes.leading (bitLength (bound - 1))) (bits_eq _)]
  simp only [decide_eq_true_eq, not_lt]
  constructor
  · intro h
    obtain ⟨k, hk, haccepted, hrejected, ha, ht'⟩ := h
    exact ⟨k, hk, ⟨haccepted, hrejected⟩, ha, ht'⟩
  · intro h
    obtain ⟨k, hk, ⟨haccepted, hrejected⟩, ha, ht'⟩ := h
    exact ⟨k, hk, haccepted, hrejected, ha, ht'⟩

section Bound

variable (hbound : 1 ≤ bound)
include hbound

/-- Below a positive bound the checked draw is the draw. -/
theorem below?_eq (t : Tape) :
    below? bound t = (below bound t).map fun x ↦ (.ok x.1, x.2) := by
  rw [below?, if_neg (by omega), Int.toNat_natCast]
  show (below bound t).bind _ = _
  cases below bound t <;> rfl

theorem below?_eq_some_iff {r : Except Fault ℕ} :
    below? bound t = some (r, t') ↔ ∃ a, below bound t = some (a, t') ∧ r = .ok a := by
  rw [below?_eq hbound, Option.map_eq_some_iff]
  constructor
  · intro h
    obtain ⟨⟨a, s⟩, hbelow, h⟩ := h
    cases h
    exact ⟨a, hbelow, rfl⟩
  · intro h
    obtain ⟨a, hbelow, rfl⟩ := h
    exact ⟨(a, t'), hbelow, rfl⟩

theorem le_two_pow_bitLength_pred : bound ≤ 2 ^ bitLength (bound - 1) := by
  have := lt_two_pow_bitLength (bound - 1)
  omega

/-- The greatest number below a bound has a bit of its own above half of the numbers drawn. -/
theorem two_pow_bitLength_pred_lt : 2 ^ bitLength (bound - 1) < 2 * bound := by
  cases h : bitLength (bound - 1) with
  | zero =>
    rw [pow_zero]
    omega
  | succ e =>
    have := two_pow_le_of_bitLength h
    rw [pow_succ]
    omega

end Bound

/-! ### No number is preferred -/

/-- A value that is given without reading is given for all byte strings. -/
theorem frequency_pure {α : Type} [DecidableEq α] (tape : Bytes → Tape) (length : ℕ) (a c : α) :
    frequency (pure a) tape length c =
      if a = c then Fintype.card (Fin length → UInt8) else 0 := by
  have hvalue : ∀ t, value (pure a) t = some c ↔ a = c := fun t ↦ by
    show some a = some c ↔ _
    rw [Option.some.injEq]
  simp only [frequency, hvalue]
  split
  · next h => rw [Finset.filter_true_of_mem fun _ _ ↦ h, Finset.card_univ]
  · next h => rw [Finset.filter_false_of_mem fun _ _ ↦ h, Finset.card_empty]

/-- **In any number of attempts every number below a bound is equally likely.** -/
theorem equallyLikely_firstOf {patience : ℕ} (h : bound ≤ 2 ^ b) :
    EquallyLikely patience (byteCount b * m) (firstOf (bits b) (fun n ↦ n < bound) m)
      (Finset.range bound) := by
  induction m with
  | zero =>
    intro length _
    refine ⟨0, fun tape _ v _ ↦ Finset.card_eq_zero.2 ?_⟩
    exact Finset.filter_false_of_mem fun w _ ↦ (Option.some_ne_none v).symm
  | succ m ih =>
    intro length hlength
    rw [Nat.mul_succ] at hlength
    obtain ⟨after, rfl⟩ : ∃ after, length = byteCount b + after :=
      Nat.exists_eq_add_of_le (by omega)
    -- A first number that is accepted is the answer, one that is not leaves an attempt less.
    obtain ⟨again, hagain⟩ := ih after (by omega)
    refine ⟨2 ^ (8 * byteCount b - b) * (Fintype.card (Fin after → UInt8) +
      ∑ u ∈ Finset.range (2 ^ b), if u < bound then 0 else again), fun tape htape v hv ↦ ?_⟩
    have hlt := Finset.mem_range.1 hv
    rw [firstOf, frequency_block_bind (Bytes.leading b)
      (fun u ↦ (if u = v then Fintype.card (Fin after → UInt8) else 0) +
        if u < bound then 0 else again) (bits_eq b) htape, Bytes.sum_leading b fun u ↦
      (if u = v then Fintype.card (Fin after → UInt8) else 0) + if u < bound then 0 else again,
      Finset.sum_add_distrib, Finset.sum_ite_eq', if_pos (Finset.mem_range.2 (by omega))]
    intro u tape htape
    by_cases hu : u < bound
    · simp only [hu, decide_true, if_true, frequency_pure, add_zero]
    · have hne : u ≠ v := by omega
      simp only [hu, decide_false, Bool.false_eq_true, if_false, if_neg hne, zero_add,
        hagain tape htape v hv]

/-- **All numbers below the bound are equally likely**, over all contents of the part of the tape
that may be read. -/
theorem equallyLikely_below (hbound : 1 ≤ bound) (patience : ℕ) :
    EquallyLikely patience (attemptSize bound * patience) (below bound) (Finset.range bound) := by
  intro length hlength
  obtain ⟨count, hcount⟩ :=
    equallyLikely_firstOf (le_two_pow_bitLength_pred hbound) length hlength
  refine ⟨count, fun tape htape v hv ↦ ?_⟩
  rw [← hcount tape htape v hv, frequency, frequency]
  refine congrArg Finset.card (Finset.filter_congr fun w _ ↦ ?_)
  rw [value, value, below, repeatUntil, (htape _ List.length_ofFn).2]

theorem frequency_below? (hbound : 1 ≤ bound) (tape : Bytes → Tape) (length v : ℕ) :
    frequency (below? bound) tape length (.ok v) = frequency (below bound) tape length v := by
  rw [frequency, frequency]
  refine congrArg Finset.card (Finset.filter_congr fun w _ ↦ ?_)
  simp only [value_eq_some_iff, below?_eq_some_iff hbound, Except.ok.injEq, exists_eq_right']

/-! ### What is drawn, and how often -/

/-- A number of `b` bits is the leading bits of the next block of bytes, whatever the tape, and each
such number is spelled by equally many blocks. -/
structure ExactBits (b : ℕ) : Prop where
  outcome : ∀ t, bitsInt b t = some ((t.peek (byteCount b)).leading b, t.skip (byteCount b))
  lt : ∀ t : Tape, (t.peek (byteCount b)).leading b < 2 ^ b
  uniform : ∀ v < 2 ^ b,
    (Finset.univ.filter fun w : Fin (byteCount b) → UInt8 ↦
      Bytes.leading b (List.ofFn w) = v).card = 2 ^ (8 * byteCount b - b)

/-- A number below a bound is that of the first block that spells one, and the tape is read up to
the end of that block. Each number below the bound is spelled by equally many blocks, and by equally
many of the byte strings in which a draw can come to its end; more than half of the blocks spell
one, all of them if the bound is a power of two, and there is nothing to read for the bound 1.

Patience only says how many blocks are looked at before a draw counts as endless. -/
structure ExactBelow (bound : ℕ) : Prop where
  outcome : ∀ t r t', below? bound t = some (r, t') ↔
    ∃ k < t.patience, FirstAttempt bound t k ∧ r = .ok (attempt bound t k) ∧
      t' = t.skip ((k + 1) * attemptSize bound)
  uniform : ∀ v < bound,
    (Finset.univ.filter fun w : Fin (attemptSize bound) → UInt8 ↦
      Bytes.leading (bitLength (bound - 1)) (List.ofFn w) = v).card =
        2 ^ (8 * attemptSize bound - bitLength (bound - 1))
  more_than_half : Fintype.card (Fin (attemptSize bound) → UInt8) <
    2 * (Finset.univ.filter fun w : Fin (attemptSize bound) → UInt8 ↦
      Bytes.leading (bitLength (bound - 1)) (List.ofFn w) < bound).card
  all_of_two_pow : ∀ e, bound = 2 ^ e → ∀ t k, attempt bound t k < bound
  nothing_read : bound = 1 → attemptSize bound = 0
  unbiased : ∀ (t : Tape) (length : ℕ), attemptSize bound * t.patience ≤ length →
    ∀ v < bound, ∀ v' < bound, frequency (below? bound) t.holding length (.ok v) =
      frequency (below? bound) t.holding length (.ok v')

/-- Draws of bits are exact, for every number of bits. -/
theorem exactBits (b : ℕ) : ExactBits b where
  outcome t := bits_eq b t
  lt t := Bytes.leading_lt (t.length_peek _)
  uniform _ hv := Bytes.card_leading_eq hv

/-- Draws below a bound are exact, for every positive bound. -/
theorem exactBelow (hbound : 1 ≤ bound) : ExactBelow bound where
  outcome t r t' := by
    simp only [below?_eq_some_iff hbound, below_eq_some_iff]
    constructor
    · intro h
      obtain ⟨a, ⟨k, hk, hfirst, rfl, ht'⟩, rfl⟩ := h
      exact ⟨k, hk, hfirst, rfl, ht'⟩
    · intro h
      obtain ⟨k, hk, hfirst, rfl, ht'⟩ := h
      exact ⟨_, ⟨k, hk, hfirst, rfl, ht'⟩, rfl⟩
  uniform v hv := Bytes.card_leading_eq (lt_of_lt_of_le hv (le_two_pow_bitLength_pred hbound))
  more_than_half := by
    rw [attemptSize, Bytes.card_leading_lt (le_two_pow_bitLength_pred hbound), Bytes.card_blocks,
      Nat.mul_left_comm]
    exact Nat.mul_lt_mul_of_pos_left (two_pow_bitLength_pred_lt hbound) (Nat.two_pow_pos _)
  all_of_two_pow e he t k := by
    have hle : bitLength (bound - 1) ≤ e := by
      rw [bitLength_le_iff]
      omega
    calc attempt bound t k
        < 2 ^ bitLength (bound - 1) := Bytes.leading_lt (Tape.length_peek _ _)
      _ ≤ 2 ^ e := Nat.pow_le_pow_right (by omega) hle
      _ = bound := he.symm
  nothing_read h := by
    subst h
    rfl
  unbiased t length hlength v hv v' hv' := by
    obtain ⟨count, hcount⟩ := equallyLikely_below hbound t.patience length hlength
    have htape := t.begins_holding length
    rw [frequency_below? hbound, frequency_below? hbound,
      hcount _ htape v (Finset.mem_range.2 hv), hcount _ htape v' (Finset.mem_range.2 hv')]

/-- **Drawing by rejection is exact and unbiased.** Bits, numbers below a bound and numbers between
two ends are told from the bytes of the tape, and no number is preferred. Where there is nothing to
draw nothing is read.

A draw from `start` up to `stop` is a draw below `stop - start` that is shifted, also where the ends
are negative. -/
theorem exact_and_unbiased :
    (∀ (b : ℤ) (t : Tape), b ≤ 0 → bitsInt b t = some (0, t)) ∧
    (∀ b : ℕ, ExactBits b) ∧
    (∀ bound : ℕ, 1 ≤ bound → ExactBelow bound) ∧
    (∀ (bound : ℤ) (t : Tape), bound ≤ 0 → below? bound t = some (.error .emptyBound, t)) ∧
    (∀ (start stop : ℤ) (t : Tape), start < stop → ∀ r t',
      between? start stop t = some (r, t') ↔
        ∃ v : ℕ, below? (stop - start) t = some (.ok v, t') ∧ r = .ok (start + v) ∧
          start ≤ start + v ∧ start + v < stop) ∧
    ∀ (start stop : ℤ) (t : Tape), stop ≤ start →
      between? start stop t = some (.error .emptyInterval, t) := by
  refine ⟨fun b t hb ↦ ?_, exactBits, fun bound ↦ exactBelow, fun bound t hle ↦ ?_,
    fun start stop t hlt r t' ↦ ?_, fun start stop t hle ↦ ?_⟩
  · have hzero : (t.peek (byteCount 0)).leading 0 = 0 :=
      Nat.lt_one_iff.1 (Bytes.leading_lt (t.length_peek _))
    rw [bitsInt, Int.toNat_of_nonpos hb, bits_eq, hzero]
    rfl
  · rw [below?, if_pos hle]
    rfl
  · obtain ⟨bound, hbound⟩ := Int.eq_ofNat_of_zero_le (sub_nonneg.2 hlt.le)
    have hpos : 1 ≤ bound := by omega
    rw [between?, if_pos hlt, hbound, Int.toNat_natCast, bind_eq_some_iff]
    simp only [below?_eq_some_iff hpos, Except.ok.injEq, exists_eq_right', pure_eq_some_iff]
    constructor
    · intro h
      obtain ⟨v, s, hv, rfl, rfl⟩ := h
      have := lt_of_below hv
      exact ⟨v, hv, rfl, by omega, by omega⟩
    · intro h
      obtain ⟨v, hv, rfl, -⟩ := h
      exact ⟨v, t', hv, rfl, rfl⟩
  · rw [between?, if_neg (by omega)]
    rfl

/-- From -2 up to 3 lie five numbers, which take three bits. The first two bytes of this tape begin
with 7 and 5, the third with 3, and no more is read. -/
theorem exact_and_unbiased_third_byte :
    let t : Tape := ⟨fun i ↦ 255 - 70 * i.toUInt8, 0, 9⟩
    (-1 : ℤ) ≤ 0 ∧ bitsInt (-1) t = some (0, t) ∧
      1 ≤ 5 ∧ below? 5 t = some (.ok 3, t.skip 3) ∧
      (-5 : ℤ) ≤ 0 ∧ below? (-5) t = some (.error .emptyBound, t) ∧
      (-2 : ℤ) < 3 ∧ between? (-2) 3 t = some (.ok 1, t.skip 3) ∧
      (3 : ℤ) ≤ 3 ∧ between? 3 3 t = some (.error .emptyInterval, t) := by
  intro t
  obtain ⟨hnone, -, hbelow, hrefused, hbetween, hempty⟩ := exact_and_unbiased
  have hfirst : FirstAttempt 5 t 2 := ⟨by decide +kernel, by decide +kernel⟩
  have hthree : attempt 5 t 2 = 3 := by decide +kernel
  have hdraw : below? (5 : ℕ) t = some (.ok 3, t.skip 3) :=
    ((hbelow 5 (by decide)).outcome t _ _).2 ⟨2, by decide, hfirst, by rw [hthree], rfl⟩
  exact ⟨by decide, hnone (-1) t (by decide), by decide, hdraw, by decide,
    hrefused (-5) t (by decide), by decide,
    (hbetween (-2) 3 t (by decide) _ _).2 ⟨3, hdraw, rfl, by decide, by decide⟩, by decide,
    hempty 3 3 t (by decide)⟩

end Draw

end ElectionKeys
