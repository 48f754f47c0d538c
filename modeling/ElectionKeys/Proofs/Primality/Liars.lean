import Mathlib
import ElectionKeys.Proofs.Primality.SignRoots
import ElectionKeys.Proofs.Primality.Strong

/-!
# Few bases let a composite number pass

Of the bases from 2 to `n - 2` at most `(n - 3) / 4` let an odd composite number `n` pass one strong
test (`four_mul_card_passes_le`). Those that do, and 1 and -1 besides, are the liars modulo `n`
(`passes_iff`), and fewer than `n / 4` numbers are (`four_mul_ncard_liars_lt`).

The liars are no group, but all lie in one that is small. If the square of a prime divides `n`, it
is the units with power `n - 1` equal to 1. If not, there is one exponent to which every liar is 1
or -1 (`exists_exponent`), and the units of which that is true are few because `n` has more than one
prime factor.
-/

namespace ElectionKeys.Primality

variable {n b z k : ℕ}

/-! ### The test as a condition on powers -/

theorem reachesMinusOne_iff (h2 : 2 < n) :
    reachesMinusOne n k z = true ↔ ∃ r < k, z ^ 2 ^ (r + 1) % n = n - 1 := by
  induction k generalizing z with
  | zero => simp [reachesMinusOne]
  | succ k ih =>
    have hnext : ∀ r, z ^ 2 ^ (r + 1 + 1) % n = (z * z % n) ^ 2 ^ (r + 1) % n := by
      intro r
      rw [← Nat.pow_mod, ← sq, ← pow_mul, ← pow_succ']
    have hfirst : z ^ 2 ^ (0 + 1) % n = z * z % n := by rw [zero_add, pow_one, sq]
    simp only [reachesMinusOne]
    split
    · next hminus => exact iff_of_true rfl ⟨0, Nat.succ_pos k, hfirst.trans hminus⟩
    · next hminus =>
      split
      · next hone =>
        -- From 1 on the row of squares stays at 1.
        refine iff_of_false Bool.false_ne_true ?_
        rintro ⟨r, -, hr⟩
        cases r with
        | zero => exact hminus (hfirst.symm.trans hr)
        | succ r =>
          rw [hnext, hone, one_pow, Nat.mod_eq_of_lt (by omega)] at hr
          omega
      · next hone =>
        rw [ih]
        constructor
        · rintro ⟨r, hr, h⟩
          exact ⟨r + 1, Nat.succ_lt_succ hr, (hnext r).trans h⟩
        · rintro ⟨r, hr, h⟩
          cases r with
          | zero => exact absurd (hfirst.symm.trans h) hminus
          | succ r => exact ⟨r, Nat.lt_of_succ_lt_succ hr, (hnext r).symm.trans h⟩

/-- The bases modulo `n` that do not show that `n` is composite: their power to the odd part of
`n - 1` is 1, or a power of two times the odd part takes them to -1. -/
def liars (n : ℕ) : Set (ZMod n) :=
  {x | x ^ oddPart (n - 1) = 1 ∨ ∃ r < twos (n - 1), x ^ (oddPart (n - 1) * 2 ^ r) = -1}

/-- **A base passes exactly if it is a liar.** -/
theorem passes_iff (hodd : n % 2 = 1) (h2 : 2 < n) :
    passes n b = true ↔ (b : ZMod n) ∈ liars n := by
  have hcast : ∀ e c : ℕ, c < n → (b ^ e % n = c ↔ (b : ZMod n) ^ e = c) := by
    intro e c hc
    rw [← Nat.cast_pow, ZMod.natCast_eq_natCast_iff', Nat.mod_eq_of_lt hc]
  have hone : ∀ e, b ^ e % n = 1 ↔ (b : ZMod n) ^ e = 1 := by
    intro e
    rw [hcast e 1 (by omega), Nat.cast_one]
  have hminus : ∀ e, b ^ e % n = n - 1 ↔ (b : ZMod n) ^ e = -1 := by
    intro e
    rw [hcast e (n - 1) (by omega), Nat.cast_sub (by omega), ZMod.natCast_self, Nat.cast_one,
      zero_sub]
  have htwos : twos (n - 1) - 1 + 1 = twos (n - 1) :=
    Nat.sub_add_cancel (twos_pos (by omega) (by omega))
  rw [passes, powMod_eq, liars, Set.mem_ofPred_eq]
  simp only [Bool.or_eq_true, beq_iff_eq, or_assoc, reachesMinusOne_iff h2, ← Nat.pow_mod,
    ← pow_mul, hone, hminus]
  rw [← htwos, Nat.exists_lt_succ_left, pow_zero, mul_one, Nat.add_sub_cancel]

theorem oddPart_mod_two (h0 : k ≠ 0) : oddPart k % 2 = 1 := by
  induction k using twos.induct with
  | case1 k h =>
    rw [oddPart, twos, if_pos h]
    exact h.resolve_left h0
  | case2 k h ih =>
    have hhalf : oddPart k = oddPart (k / 2) := by
      rw [oddPart, twos, if_neg h, oddPart, Nat.add_comm, Nat.shiftRight_add, Nat.shiftRight_one]
    rw [hhalf]
    exact ih (by omega)

theorem one_mem_liars (n : ℕ) : 1 ∈ liars n := .inl (one_pow _)

section Liars

variable (hodd : n % 2 = 1) (h2 : 2 < n)
include hodd h2

theorem neg_one_mem_liars : -1 ∈ liars n := by
  have hoddPart : Odd (oddPart (n - 1)) := Nat.odd_iff.2 (oddPart_mod_two (by omega))
  refine .inr ⟨0, twos_pos (by omega) (by omega), ?_⟩
  rw [pow_zero, mul_one, hoddPart.neg_one_pow]

/-- The order of a liar divides `n - 1`. -/
theorem exists_unit_of_mem_liars {x : ZMod n} (hx : x ∈ liars n) :
    ∃ u : (ZMod n)ˣ, u = x ∧ u ^ (n - 1) = 1 := by
  have hpow : x ^ (n - 1) = 1 := by
    rw [← oddPart_mul_two_pow (n - 1)]
    rcases hx with hone | ⟨r, hr, hminus⟩
    · rw [pow_mul, hone, one_pow]
    · obtain ⟨j, hj⟩ := Nat.exists_eq_add_of_lt hr
      rw [show oddPart (n - 1) * 2 ^ twos (n - 1) = oddPart (n - 1) * 2 ^ r * (2 * 2 ^ j) by
        rw [hj]; ring, pow_mul, hminus, pow_mul, neg_one_sq, one_pow]
  refine ⟨Units.ofPowEqOne x (n - 1) hpow (by omega), rfl, Units.ext hpow⟩

/-- A subgroup that has all liars has no fewer elements. -/
theorem ncard_liars_le [NeZero n] {H : Subgroup (ZMod n)ˣ}
    (h : ∀ u : (ZMod n)ˣ, u.val ∈ liars n → u ∈ H) : (liars n).ncard ≤ Nat.card H := by
  have hsub : liars n ⊆ Units.val '' (H : Set (ZMod n)ˣ) := by
    intro x hx
    obtain ⟨u, rfl, -⟩ := exists_unit_of_mem_liars hodd h2 hx
    exact ⟨u, h u hx, rfl⟩
  calc (liars n).ncard ≤ (Units.val '' (H : Set (ZMod n)ˣ)).ncard :=
        Set.ncard_le_ncard hsub (Set.toFinite _)
    _ ≤ (H : Set (ZMod n)ˣ).ncard := Set.ncard_image_le (Set.toFinite _)
    _ = Nat.card H := rfl

/-- **One exponent for all liars.** It is the odd part times the greatest power of two for which -1
is a power: no liar can be taken to -1 by a greater one. -/
theorem exists_exponent :
    ∃ m, 2 * m ∣ n - 1 ∧ (∃ a : (ZMod n)ˣ, a ^ m = -1) ∧
      ∀ u : (ZMod n)ˣ, u.val ∈ liars n → u ∈ signRoots n m := by
  classical
  have htwos := twos_pos (n := n - 1) (by omega) (by omega)
  have hoddPart : Odd (oddPart (n - 1)) := Nat.odd_iff.2 (oddPart_mod_two (by omega))
  let P : ℕ → Prop := fun r ↦ ∃ a : (ZMod n)ˣ, a ^ 2 ^ r = -1
  have h0 : P 0 := ⟨-1, by rw [pow_zero, pow_one]⟩
  obtain ⟨a, ha⟩ : P (Nat.findGreatest P (twos (n - 1) - 1)) :=
    Nat.findGreatest_spec (Nat.zero_le _) h0
  have hgreatest : ∀ r < twos (n - 1), P r → r ≤ Nat.findGreatest P (twos (n - 1) - 1) :=
    fun r hr hP ↦ Nat.le_findGreatest (by omega) hP
  have hlt : Nat.findGreatest P (twos (n - 1) - 1) < twos (n - 1) := by
    have := Nat.findGreatest_le (P := P) (twos (n - 1) - 1)
    omega
  generalize Nat.findGreatest P (twos (n - 1) - 1) = s at ha hgreatest hlt
  refine ⟨oddPart (n - 1) * 2 ^ s, ?_, ⟨a, ?_⟩, fun u hu ↦ mem_signRoots.2 ?_⟩
  · conv_rhs => rw [← oddPart_mul_two_pow (n - 1)]
    rw [mul_left_comm, ← pow_succ']
    exact Nat.mul_dvd_mul_left _ (pow_dvd_pow 2 hlt)
  · rw [mul_comm, pow_mul, ha, hoddPart.neg_one_pow]
  · rcases hu with hone | ⟨r, hr, hminus⟩
    · left
      exact Units.ext (by rw [Units.val_pow_eq_pow_val, pow_mul, hone, one_pow, Units.val_one])
    · have hu : u ^ (oddPart (n - 1) * 2 ^ r) = -1 := Units.ext hminus
      have hrs : r ≤ s := hgreatest r hr ⟨u ^ oddPart (n - 1), by rw [← pow_mul, hu]⟩
      obtain ⟨j, rfl⟩ := Nat.exists_eq_add_of_le hrs
      rw [pow_add, ← mul_assoc, pow_mul, hu]
      exact neg_one_pow_eq_or _ _

/-- **Fewer than a quarter of all numbers below an odd composite number are liars.** -/
theorem four_mul_ncard_liars_lt (hcomposite : ¬ n.Prime) : 4 * (liars n).ncard < n := by
  have : NeZero n := ⟨by omega⟩
  by_cases hsq : Squarefree n
  · obtain ⟨m, hdvd, ⟨a, ha⟩, hliars⟩ := exists_exponent hodd h2
    calc 4 * (liars n).ncard ≤ 4 * Nat.card (signRoots n m) :=
          Nat.mul_le_mul_left 4 (ncard_liars_le hodd h2 hliars)
      _ ≤ n.totient :=
          four_mul_card_signRoots_le_of_squarefree hodd (by omega) hcomposite hsq hdvd ha
      _ < n := Nat.totient_lt n (by omega)
  · rw [Nat.squarefree_iff_prime_squarefree] at hsq
    push Not at hsq
    obtain ⟨p, hp, hpp⟩ := hsq
    have hp2 : p ≠ 2 := by
      rintro rfl
      have := (dvd_mul_right 2 2).trans hpp
      omega
    have hker : ∀ u : (ZMod n)ˣ, u.val ∈ liars n →
        u ∈ (powMonoidHom (n - 1) : (ZMod n)ˣ →* (ZMod n)ˣ).ker := by
      intro u hu
      obtain ⟨v, hv, hpow⟩ := exists_unit_of_mem_liars hodd h2 hu
      rwa [Units.ext hv] at hpow
    calc 4 * (liars n).ncard ≤ 4 * Nat.card (powMonoidHom (n - 1) : (ZMod n)ˣ →* (ZMod n)ˣ).ker :=
          Nat.mul_le_mul_left 4 (ncard_liars_le hodd h2 hker)
      _ < n := four_mul_card_ker_lt hp hp2 (by omega) hpp

/-! ### Bases -/

/-- 1 and -1 are liars that are never drawn. -/
theorem card_passes_add_two_le :
    ((Finset.Icc 2 (n - 2)).filter fun b ↦ passes n b = true).card + 2 ≤ (liars n).ncard := by
  have : NeZero n := ⟨by omega⟩
  let bases := (Finset.Icc 2 (n - 2)).filter fun b ↦ passes n b = true
  let all := insert 1 (insert (n - 1) bases)
  have hcard : all.card = bases.card + 2 := by
    rw [Finset.card_insert_of_notMem, Finset.card_insert_of_notMem]
    · intro hmem
      have := Finset.mem_Icc.1 (Finset.mem_filter.1 hmem).1
      omega
    · rw [Finset.mem_insert, not_or]
      refine ⟨by omega, fun hmem ↦ ?_⟩
      have := Finset.mem_Icc.1 (Finset.mem_filter.1 hmem).1
      omega
  have hlt : ∀ b ∈ all, b < n := by
    intro b hb
    rw [Finset.mem_insert, Finset.mem_insert] at hb
    rcases hb with rfl | rfl | hb
    · omega
    · omega
    · have := Finset.mem_Icc.1 (Finset.mem_filter.1 hb).1
      omega
  have hmaps : Set.MapsTo (fun b : ℕ ↦ (b : ZMod n)) all (liars n) := by
    intro b hb
    rw [Finset.mem_coe, Finset.mem_insert, Finset.mem_insert] at hb
    rcases hb with rfl | rfl | hb
    · show ((1 : ℕ) : ZMod n) ∈ liars n
      rw [Nat.cast_one]
      exact one_mem_liars n
    · show ((n - 1 : ℕ) : ZMod n) ∈ liars n
      rw [Nat.cast_sub (by omega), ZMod.natCast_self, Nat.cast_one, zero_sub]
      exact neg_one_mem_liars hodd h2
    · exact (passes_iff hodd h2).1 (Finset.mem_filter.1 hb).2
  have hinj : Set.InjOn (fun b : ℕ ↦ (b : ZMod n)) all := by
    intro b hb c hc h
    rwa [ZMod.natCast_eq_natCast_iff', Nat.mod_eq_of_lt (hlt b hb), Nat.mod_eq_of_lt (hlt c hc)]
      at h
  rw [← hcard, ← Set.ncard_coe_finset]
  exact Set.ncard_le_ncard_of_injOn _ hmaps hinj (Set.toFinite _)

/-- **At most a quarter of the bases from 2 to `n - 2` let an odd composite number pass.** -/
theorem four_mul_card_passes_le (hcomposite : ¬ n.Prime) :
    4 * ((Finset.Icc 2 (n - 2)).filter fun b ↦ passes n b = true).card ≤ n - 3 := by
  have hliars := four_mul_ncard_liars_lt hodd h2 hcomposite
  have hpasses := card_passes_add_two_le hodd h2
  omega

end Liars

end ElectionKeys.Primality
