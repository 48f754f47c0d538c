import Mathlib
import ElectionKeys.Proofs.Primality.Liars
import ElectionKeys.Proofs.Primality.Rounds
import ElectionKeys.Proofs.Random.Uniform

/-!
# The chance that a composite number is accepted

The chance is a count twice over. Of all rows of bases, at most one in `4 ^ k` has `k` bases that
all let an odd composite number pass (`four_pow_mul_card_le`); the Lucas test can only take away
from these. And of all byte strings that are long enough, equally many spell each row of bases
(`equallyLikely_bases`), so the share of the rows is that of the strings on which the draws end
(`four_pow_mul_frequency_le`).

That every row is equally likely comes from one candidate: a power of two divides a greater one, so
cutting surplus bits off whole bytes leaves each number equally often (`frequency_candidate_bind`).
The attempts at one base are an induction on how many are left (`equallyLikely_rowWithin`), and the
bases of a row one on its length. A row takes more bytes for some strings than for others; what
carries both inductions is that the bytes behind those read are again all byte strings of a length.
-/

namespace ElectionKeys.Primality

variable {n b k m length patience enough : ℕ} {tape : Bytes → Tape}

/-! ### Candidates -/

section Candidate

/-- The surplus leading digits of a number that is written in two parts are those of the first. -/
theorem mul_add_mod_mul {x y a m : ℕ} (hy : y < a) :
    (x * a + y) % (a * m) = x % m * a + y := by
  have hdiv : (x * a + y) / a = x := by
    rw [add_comm, Nat.add_mul_div_right _ _ (by omega), Nat.div_eq_of_lt hy, zero_add]
  rw [Nat.mod_mul, Nat.mul_add_mod', Nat.mod_eq_of_lt hy, hdiv, mul_comm a, add_comm]

variable (hb : 0 < b)
include hb

/-- A candidate is read from whole bytes, of which the surplus leading bits do not count. -/
theorem candidate_eq (t : Tape) :
    candidate b t = some ((t.peek (byteCount b)).toNat % 2 ^ b, t.skip (byteCount b)) := by
  obtain ⟨low, hlow⟩ : ∃ low, byteCount b = 1 + low :=
    Nat.exists_eq_add_of_le (by rw [byteCount]; omega)
  have hbits : b = 8 * low + (b - 8 * low) := by
    rw [byteCount] at hlow
    omega
  have hpow : 2 ^ b = 256 ^ low * 2 ^ (b - 8 * low) := by
    conv_lhs => rw [hbits, pow_add, pow_mul]
    rfl
  have hrest := Bytes.toNat_lt ((t.skip 1).peek low)
  rw [Tape.length_peek] at hrest
  have hread : (t.peek (byteCount b)).toNat % 2 ^ b =
      (t.peek 1).toNat % 2 ^ (b - 8 * low) * 256 ^ low + ((t.skip 1).peek low).toNat := by
    rw [hlow, Tape.peek_add, Bytes.toNat_append, Tape.length_peek, hpow, mul_add_mod_mul hrest]
  have hshift : (256 : ℕ) ^ low = 2 ^ (8 * low) := by rw [pow_mul]; rfl
  rw [hread, hlow, candidate, hlow, Nat.add_sub_cancel_left, hshift, ← Nat.shiftLeft_eq,
    ← Nat.one_shiftLeft, Tape.skip_add]
  rfl

/-- **Each number below a power of two is a candidate for equally many byte strings.** What a draw
that goes on from the candidate gives is counted candidate by candidate. -/
theorem frequency_candidate_bind {α : Type} [DecidableEq α] {f : ℕ → Draw α} {a : α} (g : ℕ → ℕ)
    (htape : Tape.Begins (byteCount b + length) patience tape)
    (hf : ∀ v tape, Tape.Begins length patience tape → Draw.frequency (f v) tape length a = g v) :
    Draw.frequency (candidate b >>= f) tape (byteCount b + length) a =
      2 ^ (8 * byteCount b - b) * ∑ v ∈ Finset.range (2 ^ b), g v := by
  rw [Draw.frequency_block_bind (fun w ↦ w.toNat % 2 ^ b) g (candidate_eq hb) htape hf,
    Bytes.sum_toNat fun z ↦ g (z % 2 ^ b), pow_byteCount, sum_range_mul_mod]

end Candidate

/-! ### Rows of bases -/

/-- All rows of `k` bases between 2 and `n - 2`. -/
def baseRows (n k : ℕ) : Finset (List ℕ) :=
  (Fintype.piFinset fun _ : Fin k ↦ Finset.Icc 2 (n - 2)).map ⟨List.ofFn, List.ofFn_injective⟩

theorem mem_baseRows {row : List ℕ} :
    row ∈ baseRows n k ↔ row.length = k ∧ ∀ b ∈ row, b ∈ Finset.Icc 2 (n - 2) := by
  rw [baseRows, Finset.mem_map]
  constructor
  · intro h
    obtain ⟨f, hf, rfl⟩ := h
    refine ⟨List.length_ofFn, List.forall_mem_ofFn_iff.2 fun i ↦ ?_⟩
    exact Fintype.mem_piFinset.1 hf i
  · intro h
    obtain ⟨rfl, hall⟩ := h
    exact ⟨row.get, Fintype.mem_piFinset.2 fun i ↦ hall _ (row.get_mem i), List.ofFn_get row⟩

theorem exists_of_mem_baseRows_succ {row : List ℕ} (h : row ∈ baseRows n (k + 1)) :
    ∃ b rest, row = b :: rest ∧ b ∈ Finset.Icc 2 (n - 2) ∧ rest ∈ baseRows n k := by
  obtain ⟨hlength, hall⟩ := mem_baseRows.1 h
  obtain ⟨b, rest, rfl⟩ := List.exists_cons_of_length_eq_add_one hlength
  obtain ⟨hb, hrest⟩ := List.forall_mem_cons.1 hall
  exact ⟨b, rest, rfl, hb, mem_baseRows.2 ⟨Nat.succ.inj hlength, hrest⟩⟩

theorem card_baseRows (n k : ℕ) : (baseRows n k).card = (n - 3) ^ k := by
  have hcard : (Finset.Icc 2 (n - 2)).card = n - 3 := by
    rw [Nat.card_Icc]
    omega
  rw [baseRows, Finset.card_map, Fintype.card_piFinset_const, hcard]

/-- **The rows of bases that all let a composite number pass.** -/
theorem four_pow_mul_card_le (hodd : n % 2 = 1) (h2 : 2 < n) (hcomposite : ¬ n.Prime) (k : ℕ) :
    4 ^ k * ((baseRows n k).filter fun row ↦ ∀ b ∈ row, passes n b = true).card ≤
      (baseRows n k).card := by
  let passing := (Finset.Icc 2 (n - 2)).filter fun b ↦ passes n b = true
  have hrows : ((baseRows n k).filter fun row ↦ ∀ b ∈ row, passes n b = true) =
      (Fintype.piFinset fun _ : Fin k ↦ passing).map ⟨List.ofFn, List.ofFn_injective⟩ := by
    rw [baseRows, Finset.filter_map]
    congr 1
    ext f
    simp [passing, forall_and]
  rw [hrows, Finset.card_map, Fintype.card_piFinset_const, card_baseRows, ← mul_pow]
  exact Nat.pow_le_pow_left (four_mul_card_passes_le hodd h2 hcomposite) k

/-! ### Bases drawn from equally likely bytes -/

/-- A row of `k + 1` bases for the first of which no more than `m` candidates are looked at. -/
def rowWithin (n k m : ℕ) : Draw (List ℕ) := do
  let c ← Draw.firstOf (candidate (bitLength (n - 4))) (fun c ↦ c ≤ n - 4) m
  let rest ← Draw.replicate (drawBase n) k
  pure ((c + 2) :: rest)

theorem replicate_drawBase_succ (n k : ℕ) (t : Tape) :
    Draw.replicate (drawBase n) (k + 1) t = rowWithin n k t.patience t := by
  rw [Draw.replicate, drawBase, bind_assoc]
  rfl

theorem rowWithin_succ (n k m : ℕ) :
    rowWithin n k (m + 1) = candidate (bitLength (n - 4)) >>= fun c ↦
      if c ≤ n - 4 then (do let rest ← Draw.replicate (drawBase n) k; pure ((c + 2) :: rest))
      else rowWithin n k m := by
  rw [rowWithin, Draw.firstOf, bind_assoc]
  congr 1
  funext c
  by_cases h : c ≤ n - 4
  · simp [h]
  · simp [h, rowWithin]

/-- If the other bases of a row are equally likely, so is its first one. -/
theorem equallyLikely_rowWithin (h4 : 4 < n)
    (h : Draw.EquallyLikely patience enough (Draw.replicate (drawBase n) k) (baseRows n k)) :
    Draw.EquallyLikely patience (byteCount (bitLength (n - 4)) * m + enough) (rowWithin n k m)
      (baseRows n (k + 1)) := by
  induction m with
  | zero =>
    intro length _
    refine ⟨0, fun tape _ row _ ↦ ?_⟩
    rw [Draw.frequency, Finset.card_eq_zero]
    exact Finset.filter_false_of_mem fun w _ ↦ (Option.some_ne_none row).symm
  | succ m ih =>
    intro length hlength
    rw [Nat.mul_succ] at hlength
    obtain ⟨after, rfl⟩ : ∃ after, length = byteCount (bitLength (n - 4)) + after :=
      Nat.exists_eq_add_of_le (by omega)
    -- A candidate in range settles the first base, any other leaves one attempt less. Neither count
    -- depends on the base that is asked for, and exactly one candidate in range is that base.
    obtain ⟨once, honce⟩ := h after (by omega)
    obtain ⟨again, hagain⟩ := ih after (by omega)
    refine ⟨2 ^ (8 * byteCount (bitLength (n - 4)) - bitLength (n - 4)) *
      (once + ∑ c ∈ Finset.range (2 ^ bitLength (n - 4)), if c ≤ n - 4 then 0 else again),
      fun tape htape row hrow ↦ ?_⟩
    obtain ⟨b, rest, rfl, hb, hrest⟩ := exists_of_mem_baseRows_succ hrow
    have hmem := Finset.mem_Icc.1 hb
    have hcandidate : b - 2 < 2 ^ bitLength (n - 4) := by
      have := lt_two_pow_bitLength (n - 4)
      omega
    rw [rowWithin_succ, frequency_candidate_bind (bitLength_pos (by omega))
      (fun c ↦ (if b - 2 = c then once else 0) + if c ≤ n - 4 then 0 else again) htape,
      Finset.sum_add_distrib, Finset.sum_ite_eq, if_pos (Finset.mem_range.2 hcandidate)]
    intro c tape htape
    split
    · next hc =>
      rw [Draw.frequency_cons, honce tape htape rest hrest, add_zero]
      refine if_congr ?_ rfl rfl
      omega
    · next hc =>
      rw [hagain tape htape _ hrow, if_neg (by omega), zero_add]

/-- **Every row of bases is equally likely.** -/
theorem equallyLikely_bases (h4 : 4 < n) (patience k : ℕ) :
    Draw.EquallyLikely patience (byteCount (bitLength (n - 4)) * (k * patience))
      (Draw.replicate (drawBase n) k) (baseRows n k) := by
  induction k with
  | zero =>
    intro length _
    refine ⟨(Finset.univ : Finset (Fin length → UInt8)).card, fun tape _ row hrow ↦ ?_⟩
    obtain rfl := List.length_eq_zero_iff.1 (mem_baseRows.1 hrow).1
    exact congrArg Finset.card (Finset.filter_true_of_mem fun _ _ ↦ rfl)
  | succ k ih =>
    intro length hlength
    rw [Nat.succ_mul, Nat.mul_add, add_comm] at hlength
    obtain ⟨count, hcount⟩ := equallyLikely_rowWithin h4 ih length hlength
    refine ⟨count, fun tape htape row hrow ↦ ?_⟩
    rw [← hcount tape htape row hrow, Draw.frequency, Draw.frequency]
    refine congrArg Finset.card (Finset.filter_congr fun w _ ↦ ?_)
    rw [Draw.value, replicate_drawBase_succ, (htape _ List.length_ofFn).2, Draw.value]

/-! ### Composite numbers -/

section Composite

variable (h1 : 1 < n) (hodd : n % 2 = 1) (hcomposite : ¬ n.Prime)
include h1 hodd hcomposite

theorem five_lt_of_composite : 5 < n := by
  by_contra hle
  obtain rfl | rfl : n = 3 ∨ n = 5 := by omega
  · exact hcomposite (by decide)
  · exact hcomposite (by decide)

/-- The Lucas test can only make fewer rows of bases let a composite number be accepted. -/
theorem four_pow_mul_card_acceptsWith_le (k : ℕ) :
    4 ^ k * ((baseRows n k).filter fun row ↦ acceptsWith n row = true).card ≤
      (baseRows n k).card := by
  have h5 := five_lt_of_composite h1 hodd hcomposite
  calc 4 ^ k * ((baseRows n k).filter fun row ↦ acceptsWith n row = true).card
      ≤ 4 ^ k * ((baseRows n k).filter fun row ↦ ∀ b ∈ row, passes n b = true).card := by
        refine Nat.mul_le_mul_left _ (Finset.card_le_card ?_)
        exact Finset.monotone_filter_right _ fun row _ haccepts ↦ (acceptsWith_iff.1 haccepts).1
    _ ≤ (baseRows n k).card := four_pow_mul_card_le hodd (by omega) hcomposite k

/-- **A composite number is accepted exactly if a row is drawn that lets it be accepted.** -/
theorem probablyPrime_eq_true_iff_exists_row {t t' : Tape} :
    probablyPrime n t = some (true, t') ↔
      ∃ row ∈ baseRows n rounds, Draw.replicate (drawBase n) rounds t = some (row, t') ∧
        acceptsWith n row = true := by
  have h5 := five_lt_of_composite h1 hodd hcomposite
  rw [probablyPrime_eq_true_iff hodd h5]
  constructor
  · intro h
    obtain ⟨row, hrow, haccepts⟩ := h
    exact ⟨row, mem_baseRows.2 (of_replicate_drawBase (by omega) hrow), hrow, haccepts⟩
  · intro h
    obtain ⟨row, -, hrow, haccepts⟩ := h
    exact ⟨row, hrow, haccepts⟩

/-- **Of the byte strings on which the draws of the bases end, few let a composite number be
accepted.** -/
theorem four_pow_mul_frequency_le {tape : Bytes → Tape} (htape : Tape.Begins length patience tape)
    (hlength : byteCount (bitLength (n - 4)) * (rounds * patience) ≤ length) :
    4 ^ rounds * Draw.frequency (probablyPrime n) tape length true ≤
      Draw.endings (Draw.replicate (drawBase n) rounds) tape length := by
  have h5 := five_lt_of_composite h1 hodd hcomposite
  refine le_trans (Nat.mul_le_mul_left _ (Finset.card_le_card ?_))
    ((equallyLikely_bases (by omega) patience rounds).mul_card_le hlength htape
      (Finset.filter_subset _ _) (four_pow_mul_card_acceptsWith_le h1 hodd hcomposite rounds))
  refine Finset.monotone_filter_right _ fun w _ haccepts ↦ ?_
  obtain ⟨t', haccepts⟩ := Draw.value_eq_some_iff.1 haccepts
  obtain ⟨row, hmem, hrow, haccepts⟩ :=
    (probablyPrime_eq_true_iff_exists_row h1 hodd hcomposite).1 haccepts
  exact ⟨row, Finset.mem_filter.2 ⟨hmem, haccepts⟩, Draw.value_eq_some_iff.2 ⟨t', hrow⟩⟩

end Composite

/-- **A composite number is accepted with a chance of at most one in `4 ^ 64`.** -/
theorem probablyPrime_of_not_prime :
    (∀ (x : ℤ) (t : Tape), x < 2 ∨ 2 < x ∧ x % 2 = 0 → probablyPrimeInt x t = some (false, t)) ∧
      ∀ n : ℕ, 1 < n → n % 2 = 1 → ¬ n.Prime →
        4 * ((Finset.Icc 2 (n - 2)).filter fun b ↦ passes n b = true).card ≤ n - 3 ∧
        (∀ t t', probablyPrimeInt n t = some (true, t') ↔
          ∃ row ∈ baseRows n 64, Draw.replicate (drawBase n) 64 t = some (row, t') ∧
            acceptsWith n row = true) ∧
        4 ^ 64 * ((baseRows n 64).filter fun row ↦ acceptsWith n row = true).card ≤
          (baseRows n 64).card ∧
        ∀ (t : Tape) (length : ℕ),
          byteCount (bitLength (n - 4)) * (64 * t.patience) ≤ length →
            (∀ row ∈ baseRows n 64, ∀ row' ∈ baseRows n 64,
              Draw.frequency (Draw.replicate (drawBase n) 64) t.holding length row =
                Draw.frequency (Draw.replicate (drawBase n) 64) t.holding length row') ∧
            4 ^ 64 * Draw.frequency (probablyPrimeInt n) t.holding length true ≤
              Draw.endings (Draw.replicate (drawBase n) 64) t.holding length := by
  refine ⟨fun x t hx ↦ ?_, fun n h1 hodd hcomposite ↦ ?_⟩
  · rcases hx with hsmall | ⟨hlarge, heven⟩
    · rw [probablyPrimeInt, probablyPrime, if_pos (by omega)]
      rfl
    · rw [probablyPrimeInt, probablyPrime, if_neg (by omega), if_neg (by omega), if_pos (by omega)]
      rfl
  · have h5 := five_lt_of_composite h1 hodd hcomposite
    refine ⟨four_mul_card_passes_le hodd (by omega) hcomposite, fun t t' ↦ ?_,
      four_pow_mul_card_acceptsWith_le h1 hodd hcomposite 64, fun t length hlength ↦ ⟨?_, ?_⟩⟩
    · exact probablyPrime_eq_true_iff_exists_row h1 hodd hcomposite
    · intro row hrow row' hrow'
      obtain ⟨count, hcount⟩ :=
        equallyLikely_bases (n := n) (by omega) t.patience 64 length hlength
      have htape := t.begins_holding length
      rw [hcount _ htape row hrow, hcount _ htape row' hrow']
    · exact four_pow_mul_frequency_le h1 hodd hcomposite (t.begins_holding length) hlength

/-- 561 is the least number that is composite and has all its units for Fermat liars. Of the strings
of 128 bytes that spell 64 bases for it at the first attempt, few let it be accepted. -/
theorem probablyPrime_of_not_prime_carmichael :
    let t : Tape := ⟨fun _ ↦ 0, 0, 1⟩
    ((4 : ℤ) < 2 ∨ 2 < (4 : ℤ) ∧ (4 : ℤ) % 2 = 0) ∧ probablyPrimeInt 4 t = some (false, t) ∧
      (1 < 561 ∧ 561 % 2 = 1 ∧ ¬ Nat.Prime 561) ∧
      4 * ((Finset.Icc 2 559).filter fun b ↦ passes 561 b = true).card ≤ 558 ∧
      byteCount (bitLength 557) * (64 * t.patience) ≤ 128 ∧
      4 ^ 64 * Draw.frequency (probablyPrimeInt (561 : ℕ)) t.holding 128 true ≤
        Draw.endings (Draw.replicate (drawBase 561) 64) t.holding 128 := by
  intro t
  have heven : (4 : ℤ) < 2 ∨ 2 < (4 : ℤ) ∧ (4 : ℤ) % 2 = 0 := by decide
  have hcomposite : ¬ Nat.Prime 561 := by norm_num
  have hlength : byteCount (bitLength 557) * (64 * t.patience) ≤ 128 := by decide
  obtain ⟨hfew, -, -, hchance⟩ :=
    probablyPrime_of_not_prime.2 561 (by decide) (by decide) hcomposite
  exact ⟨heven, probablyPrime_of_not_prime.1 4 t heven, ⟨by decide, by decide, hcomposite⟩, hfew,
    hlength, (hchance t 128 hlength).2⟩

end ElectionKeys.Primality
