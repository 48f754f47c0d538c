import Mathlib
import ElectionKeys.Arithmetic.Root
import ElectionKeys.Primality.Test
import ElectionKeys.Proofs.Primality.Discriminant
import ElectionKeys.Proofs.Primality.Strong

/-!
# No prime is rejected

For a prime `n` and a discriminant `d` that is no square modulo `n` there is a field of
characteristic `n` in which `d` has a root `s`. Terms `k` of the two Lucas sequences are there
`(α ^ k - β ^ k) / s` and `α ^ k + β ^ k`, where `α` and `β` are `(1 + s) / 2` and `(1 - s) / 2`
(`isTerms_lucasPair`). The Frobenius map takes `s` to `-s`, and so exchanges `α` and `β`; therefore
`α ^ (n + 1)` and `β ^ (n + 1)` are the same product, and term `n + 1` is zero
(`lucasTest_of_prime`).

With the strong test this gives `probablyPrime_of_prime`: whatever the tape holds, a prime is never
taken for a composite number.
-/

namespace ElectionKeys.Primality

variable {K : Type} [Field K] {n d : ℕ} [CharP K n] {s : K} {k : ℕ}

/-! ### Terms of the sequences in a field -/

/-- Remainders are as good as the numbers themselves. -/
theorem natCast_mod (K : Type) [Field K] [CharP K n] (m : ℕ) : ((m % n : ℕ) : K) = m :=
  (CharP.cast_eq_mod K n m).symm

/-- **Twice a half is the whole.** -/
theorem two_mul_halve (K : Type) [Field K] [CharP K n] (hodd : n % 2 = 1) (x : ℕ) :
    2 * (halve n x : K) = x := by
  have hcast : ∀ {m y : ℕ}, 2 * m = y → 2 * (m : K) = y := by
    rintro m _ rfl
    push_cast
    rfl
  rw [halve, natCast_mod]
  split
  · exact hcast (by omega)
  · have htwice : 2 * ((x + n) / 2) = x + n := by omega
    rw [hcast htwice, Nat.cast_add, CharP.cast_eq_zero K n, add_zero]

/-- The numbers of a pair are terms `k` of the two sequences, for the roots `α` and `β`. -/
structure IsTerms (α β : K) (k : ℕ) (pair : ℕ × ℕ) : Prop where
  u : (α - β) * pair.1 = α ^ k - β ^ k
  v : (pair.2 : K) = α ^ k + β ^ k

section Roots

variable {α β : K} {u v : ℕ} (hodd : n % 2 = 1) (hsum : α + β = 1) (hd : (α - β) ^ 2 = d)
include hodd

theorem two_ne_zero_of_odd : (2 : K) ≠ 0 := by
  have : ¬ n ∣ 2 := fun h ↦ by
    have := Nat.le_of_dvd (by omega) h
    have h1 := CharP.char_ne_one K n
    omega
  have hcast := (CharP.cast_eq_zero_iff K n 2).not.2 this
  rwa [Nat.cast_ofNat] at hcast

include hd

/-- **Doubling.** -/
theorem IsTerms.double (h : IsTerms α β k (u, v)) :
    IsTerms α β (2 * k) (u * v % n, halve n (v * v + d * (u * u))) := by
  obtain ⟨hu, hv⟩ := h
  simp only at hu hv
  constructor
  · simp only [natCast_mod, Nat.cast_mul]
    rw [hv, pow_mul', pow_mul']
    linear_combination (α ^ k + β ^ k) * hu
  · refine mul_left_cancel₀ (two_ne_zero_of_odd hodd) ?_
    rw [two_mul_halve K hodd]
    push_cast
    rw [hv, ← hd, pow_mul', pow_mul']
    linear_combination ((α - β) * u + (α ^ k - β ^ k)) * hu

include hsum

/-- **One step further.** -/
theorem IsTerms.succ (h : IsTerms α β k (u, v)) :
    IsTerms α β (k + 1) (halve n (u + v), halve n (v + d * u)) := by
  obtain ⟨hu, hv⟩ := h
  simp only at hu hv
  constructor
  · refine mul_left_cancel₀ (two_ne_zero_of_odd (K := K) hodd) ?_
    rw [mul_left_comm, two_mul_halve K hodd]
    push_cast
    rw [hv, pow_succ, pow_succ]
    linear_combination hu - (α ^ k - β ^ k) * hsum
  · refine mul_left_cancel₀ (two_ne_zero_of_odd hodd) ?_
    rw [two_mul_halve K hodd]
    push_cast
    rw [hv, ← hd, pow_succ, pow_succ]
    linear_combination (α - β) * hu - (α ^ k + β ^ k) * hsum

/-- **The pair is that of the terms `k`.** -/
theorem isTerms_lucasPair (k : ℕ) : IsTerms α β k (lucasPair n d k) := by
  induction k using Nat.strongRecOn with
  | ind k ih =>
    rw [lucasPair]
    split
    · next h =>
      subst h
      constructor
      · simp
      · simp only [natCast_mod, pow_zero]
        norm_num
    · next h =>
      have hdouble := (ih (k / 2) (by omega)).double hodd hd
      simp only
      split
      · next heven =>
        have hk : 2 * (k / 2) = k := by omega
        rwa [hk] at hdouble
      · next heven =>
        have hk : 2 * (k / 2) + 1 = k := by omega
        have hsucc := hdouble.succ hodd hsum hd
        rwa [hk] at hsucc

end Roots

theorem lucasPair_fst_lt (hn : 0 < n) (d : ℕ) (k : ℕ) : (lucasPair n d k).1 < n := by
  rw [lucasPair]
  split
  · exact hn
  · simp only
    split
    · exact Nat.mod_lt _ hn
    · exact Nat.mod_lt _ hn

/-! ### The Frobenius map -/

/-- The Frobenius map changes the sign of a root of a number that is no square. -/
theorem pow_eq_neg_of_sq (hn : n.Prime) (hodd : n % 2 = 1) {d : ℤ} (hd : jacobiInt d n = -1)
    (hs : s ^ 2 = d) : s ^ n = -s := by
  have : Fact n.Prime := ⟨hn⟩
  have heuler : (d : ZMod n) ^ (n / 2) = -1 := by
    rw [← legendreSym.eq_pow, ← jacobiInt_eq_legendreSym hodd, hd]
    push_cast
    rfl
  have hpow : (d : K) ^ (n / 2) = -1 := by
    have hmap := congrArg (ZMod.castHom (dvd_refl n) K) heuler
    rwa [map_pow, map_intCast, map_neg, map_one] at hmap
  calc s ^ n = s ^ (2 * (n / 2) + 1) := by congr 1; omega
    _ = -s := by rw [pow_succ, pow_mul, hs, hpow, neg_one_mul]

/-- In some field of characteristic `n` there are two numbers with the sum 1 whose difference is a
root of the discriminant, and the Frobenius map exchanges them. -/
theorem exists_roots (hn : n.Prime) (hodd : n % 2 = 1) {d : ℤ} (hd : jacobiInt d n = -1) :
    ∃ (K : Type) (_ : Field K) (_ : CharP K n) (α β : K), α + β = 1 ∧ α ≠ β ∧
      (α - β) ^ 2 = ((d % n).toNat : K) ∧ α ^ n = β ∧ β ^ n = α := by
  have : Fact n.Prime := ⟨hn⟩
  have hchar : CharP (AlgebraicClosure (ZMod n)) n := inferInstance
  have htwo : (2 : AlgebraicClosure (ZMod n)) ≠ 0 := two_ne_zero_of_odd hodd
  obtain ⟨s, hs⟩ := IsAlgClosed.exists_pow_nat_eq (d : AlgebraicClosure (ZMod n)) Nat.two_pos
  have hfrob := pow_eq_neg_of_sq hn hodd hd hs
  have hnonzero : s ≠ 0 := by
    rintro rfl
    rw [zero_pow two_ne_zero] at hs
    have hdvd := (CharP.intCast_eq_zero_iff (AlgebraicClosure (ZMod n)) n d).1 hs.symm
    rw [(jacobiInt_eq_zero_iff hodd).2 hdvd] at hd
    cases hd
  have hresidue : ((d % n).toNat : AlgebraicClosure (ZMod n)) = d := by
    have hnonneg : 0 ≤ d % n := Int.emod_nonneg _ (by exact_mod_cast hn.ne_zero)
    rw [← Int.cast_natCast, Int.toNat_of_nonneg hnonneg]
    exact (CharP.intCast_eq_intCast_mod _ n).symm
  have hdiff : (1 + s) / 2 - (1 - s) / 2 = s := by
    field_simp
    ring
  have htwopow : (2 : AlgebraicClosure (ZMod n)) ^ n = 2 := by
    rw [← one_add_one_eq_two, add_pow_char, one_pow]
  refine ⟨_, inferInstance, hchar, (1 + s) / 2, (1 - s) / 2, ?_, ?_, ?_, ?_, ?_⟩
  · field_simp
    ring
  · rwa [Ne, ← sub_eq_zero, hdiff]
  · rw [hdiff, hs, hresidue]
  · rw [div_pow, htwopow, add_pow_char, one_pow, hfrob, sub_eq_add_neg]
  · rw [div_pow, htwopow, sub_pow_char, one_pow, hfrob, sub_neg_eq_add]

/-- **A prime passes the Lucas test.** -/
theorem lucasTest_of_prime (hn : n.Prime) : lucasTest n = true := by
  rw [lucasTest]
  split
  · rfl
  · next hsmall =>
    have hodd : n % 2 = 1 := hn.eq_two_or_odd.resolve_left (by omega)
    have h7 : 7 ≤ n := by
      have := hn.two_le
      have h4 : n ≠ 4 := by rintro rfl; exact absurd hodd (by decide)
      have h6 : n ≠ 6 := by rintro rfl; exact absurd hodd (by decide)
      omega
    have hsquare : ¬ isSquare n = true := by
      rw [isSquare_iff]
      rintro ⟨m, rfl⟩
      exact Nat.not_prime_mul (fun h ↦ by simp [h] at h7) (fun h ↦ by simp [h] at h7) hn
    rw [if_neg (by simp [hodd, hsquare])]
    obtain ⟨d, hfound, hd⟩ := searchFrom_of_prime hn h7
    obtain ⟨K, _, _, α, β, hsum, hne, hdisc, hα, hβ⟩ := exists_roots hn hodd hd
    have hterms := (isTerms_lucasPair hodd hsum hdisc (n + 1)).u
    rw [pow_succ, pow_succ, hα, hβ, mul_comm α, sub_self] at hterms
    have hzero := (mul_eq_zero.1 hterms).resolve_left (sub_ne_zero.2 hne)
    have hdvd := (CharP.cast_eq_zero_iff K n _).1 hzero
    simp only [hfound]
    have := Nat.eq_zero_of_dvd_of_lt hdvd (lucasPair_fst_lt hn.pos _ _)
    rw [this]
    rfl

/-- **A prime is never rejected**, whatever the tape holds. -/
theorem probablyPrime_of_prime (hn : n.Prime) {t t' : Tape} {answer : Bool}
    (h : probablyPrime n t = some (answer, t')) : answer = true := by
  rw [probablyPrime, if_neg (by have := hn.two_le; omega)] at h
  split at h
  · exact (Draw.pure_eq_some_iff.1 h).1.symm
  · next hsmall =>
    have hodd : n % 2 = 1 := hn.eq_two_or_odd.resolve_left (by omega)
    rw [if_neg (by omega)] at h
    have hlucas := lucasTest_of_prime hn
    split at h
    · obtain ⟨strong, s, hstrong, hrest⟩ := Draw.bind_eq_some_iff.1 h
      obtain ⟨rfl, -⟩ := Draw.pure_eq_some_iff.1 hrest
      rw [hlucas, (Draw.pure_eq_some_iff.1 hstrong).1.symm]
      rfl
    · obtain ⟨strong, s, hstrong, hrest⟩ := Draw.bind_eq_some_iff.1 h
      obtain ⟨rfl, -⟩ := Draw.pure_eq_some_iff.1 hrest
      rw [hlucas, strongRounds_of_prime hn hodd (by have := hn.two_le; omega) hstrong]
      rfl

end ElectionKeys.Primality
