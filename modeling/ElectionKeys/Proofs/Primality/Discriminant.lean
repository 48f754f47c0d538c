import Mathlib
import ElectionKeys.Primality.Lucas

/-!
# The search for a discriminant finds one for every prime

The Euclidean scheme computes the Jacobi symbol (`jacobi_eq`), which for a prime tells whether its
upper number is a square. The search goes through 5, -7, 9, -11 and so on: all integers that are 1
modulo 4, except 1 and -3. It has to meet one that is no square before it meets a multiple of the
prime `n` other than `n` and `-n`, which it would take for a factor.

For a prime from 7 on it does. Beside every integer that is no square, four times that integer is
none, so there is a class of them without -3; in it some `d` is 1 modulo 4 and lies between `-2 * n`
and `2 * n` (`exists_discriminant`). No odd multiple of `n` but `n` and `-n` is that small.
-/

namespace ElectionKeys

/-! ### The Jacobi symbol -/

/-- **The Euclidean scheme gives the Jacobi symbol.** -/
theorem jacobi_eq (a : ℕ) {n : ℕ} (hn : n % 2 = 1) : jacobi a n = jacobiSym a n := by
  induction a, n using jacobi.induct with
  | case1 =>
    rw [jacobi, if_pos rfl, if_pos rfl, jacobiSym.one_right]
  | case2 n hne =>
    rw [jacobi, if_pos rfl, if_neg hne, Nat.cast_zero, jacobiSym.zero_left (by omega)]
  | case3 a n h0 heven ih =>
    have ha : (a : ℤ) = 2 * (a / 2 : ℕ) := by omega
    have htwo : jacobiSym 2 n = if n % 8 = 3 ∨ n % 8 = 5 then -1 else 1 := by
      rw [jacobiSym.at_two (Nat.odd_iff.2 hn), ZMod.χ₈_nat_eq_if_mod_eight, if_neg (by omega)]
      split <;> split <;> omega
    rw [jacobi, if_neg h0, if_pos heven, ih hn, ha, jacobiSym.mul_left, htwo]
  | case4 a n h0 hodd ih =>
    have hodd' : a % 2 = 1 := by omega
    rw [jacobi, if_neg h0, if_neg hodd, ih hodd', Int.natCast_mod, ← jacobiSym.mod_left,
      ← jacobiSym.quadratic_reciprocity_if hodd' hn]
    split
    · rw [neg_one_mul]
    · rw [one_mul]

/-! ### Squares modulo a prime -/

section Prime

variable {n : ℕ} [Fact n.Prime]

theorem jacobiInt_eq_legendreSym (hodd : n % 2 = 1) (d : ℤ) : jacobiInt d n = legendreSym n d := by
  have hpos : (0 : ℤ) < n := by exact_mod_cast (Fact.out : n.Prime).pos
  rw [jacobiInt, jacobi_eq _ hodd, Int.toNat_of_nonneg (Int.emod_nonneg _ hpos.ne'),
    ← jacobiSym.mod_left, jacobiSym.legendreSym.to_jacobiSym]

/-- For an odd prime the symbol is -1 exactly for the integers that are no squares. -/
theorem jacobiInt_eq_neg_one_iff (hodd : n % 2 = 1) {d : ℤ} :
    jacobiInt d n = -1 ↔ ¬ IsSquare (d : ZMod n) := by
  rw [jacobiInt_eq_legendreSym hodd, legendreSym.eq_neg_one_iff]

/-- For an odd prime the symbol is zero exactly for its multiples. -/
theorem jacobiInt_eq_zero_iff (hodd : n % 2 = 1) {d : ℤ} : jacobiInt d n = 0 ↔ (n : ℤ) ∣ d := by
  rw [jacobiInt_eq_legendreSym hodd, legendreSym.eq_zero_iff, ZMod.intCast_zmod_eq_zero_iff_dvd]

end Prime

namespace Primality

/-! ### The row of discriminants -/

theorem abs_discriminant (i : ℕ) : |discriminant i| = 5 + 2 * i := by
  rw [discriminant]
  split
  · exact abs_of_nonneg (by omega)
  · rw [abs_neg]
    exact abs_of_nonneg (by omega)

/-- All integers that are 1 modulo 4 are in the row, except 1 and -3. -/
theorem exists_discriminant_eq {d : ℤ} (h4 : d % 4 = 1) (h1 : d ≠ 1) (h3 : d ≠ -3) :
    ∃ i, discriminant i = d := by
  rcases lt_or_ge d 0 with hneg | hpos
  · refine ⟨((-d - 5) / 2).toNat, ?_⟩
    rw [discriminant, if_neg (by omega)]
    omega
  · refine ⟨((d - 5) / 2).toNat, ?_⟩
    rw [discriminant, if_pos (by omega)]
    omega

variable {n : ℕ}

/-- **The search finds a discriminant if it meets one before it meets a factor.** -/
theorem searchFrom_eq_found {tries i m : ℕ} (him : i ≤ m) (hm : m < i + tries)
    (hfound : jacobiInt (discriminant m) n = -1)
    (hkept : ¬ (discriminant m = n ∨ discriminant m = -(n : ℤ)))
    (hfirst : ∀ j ≤ m, jacobiInt (discriminant j) n = 0 →
      discriminant j = n ∨ discriminant j = -(n : ℤ)) :
    ∃ d, searchFrom n tries i = .found d ∧ jacobiInt d n = -1 := by
  induction tries generalizing i with
  | zero => omega
  | succ tries ih =>
    -- Every place before `m` is left for the next one.
    have hnext : i ≠ m → ∃ d, searchFrom n tries (i + 1) = .found d ∧ jacobiInt d n = -1 :=
      fun hne ↦ ih (by omega) (by omega)
    simp only [searchFrom]
    split
    · next hskip => exact hnext fun h ↦ hkept (h ▸ hskip)
    · next hskip =>
      rw [if_neg fun hzero ↦ hskip (hfirst i him hzero)]
      split
      · next hd => exact ⟨_, rfl, hd⟩
      · next hd => exact hnext fun h ↦ hd (h ▸ hfound)

/-! ### A discriminant for every prime -/

/-- Some integer is no square, and not -3 either. -/
theorem exists_nonsquare (hn : n.Prime) (h7 : 7 ≤ n) :
    ∃ c : ZMod n, ¬ IsSquare c ∧ c ≠ -3 := by
  have : Fact n.Prime := ⟨hn⟩
  have hchar : ringChar (ZMod n) ≠ 2 := by
    rw [ZMod.ringChar_zmod_n]
    omega
  obtain ⟨c, hc⟩ := FiniteField.exists_nonsquare hchar
  by_cases h3 : c = -3
  · have hne : ∀ m : ℕ, ¬ n ∣ m → (m : ZMod n) ≠ 0 := fun m hm ↦ by
      rwa [Ne, ZMod.natCast_eq_zero_iff]
    have htwo : (2 : ZMod n) ≠ 0 := by
      exact_mod_cast hne 2 (Nat.not_dvd_of_pos_of_lt (by omega) (by omega))
    have hnine : (9 : ZMod n) ≠ 0 := by
      have h9 : ¬ n ∣ 3 * 3 := fun h ↦ by
        have := Nat.le_of_dvd (by omega) ((hn.dvd_mul.1 h).elim id id)
        omega
      exact_mod_cast hne 9 h9
    refine ⟨2 * 2 * c, fun hsq ↦ hc ?_, fun h ↦ hnine ?_⟩
    · obtain ⟨r, hr⟩ := hsq
      refine ⟨r / 2, ?_⟩
      field_simp
      linear_combination hr
    · rw [h3] at h
      linear_combination -h
  · exact ⟨c, hc, h3⟩

/-- Every class of integers modulo an odd number has a representative that is 1 modulo 4, at a
distance of at most `2 * n` from zero. -/
theorem exists_representative (hodd : n % 2 = 1) (c : ZMod n) :
    ∃ d : ℤ, (d : ZMod n) = c ∧ d % 4 = 1 ∧ |d| ≤ 2 * n := by
  have : NeZero n := ⟨by omega⟩
  have hlt := c.val_lt
  have hrep : ∀ m : ℤ, ((c.val + m * n : ℤ) : ZMod n) = c := by
    intro m
    push_cast
    rw [ZMod.natCast_zmod_val, ZMod.natCast_self, mul_zero, add_zero]
  -- Neighbours differ by `n`, which is odd: four of them have all remainders modulo 4.
  have hfour : ∃ m : ℤ, -2 ≤ m ∧ m ≤ 1 ∧ (c.val + m * n : ℤ) % 4 = 1 := by
    have hcases : (c.val + -2 * n : ℤ) % 4 = 1 ∨ (c.val + -1 * n : ℤ) % 4 = 1 ∨
        (c.val + 0 * n : ℤ) % 4 = 1 ∨ (c.val + 1 * n : ℤ) % 4 = 1 := by omega
    rcases hcases with h | h | h | h
    · exact ⟨-2, by omega, by omega, h⟩
    · exact ⟨-1, by omega, by omega, h⟩
    · exact ⟨0, by omega, by omega, h⟩
    · exact ⟨1, by omega, by omega, h⟩
  obtain ⟨m, hm, hm', h4⟩ := hfour
  refine ⟨_, hrep m, h4, abs_le.2 ⟨?_, ?_⟩⟩
  · nlinarith
  · nlinarith

/-- A discriminant that is a multiple of `n` and not beyond `2 * n` is `n` or `-n`, since it is
odd. -/
theorem eq_or_eq_neg_of_dvd {j : ℕ} (hdvd : (n : ℤ) ∣ discriminant j)
    (hle : (5 + 2 * j : ℤ) ≤ 2 * n) : discriminant j = n ∨ discriminant j = -(n : ℤ) := by
  refine eq_or_eq_neg_of_abs_eq ?_
  obtain ⟨m, hm⟩ := (dvd_abs _ _).2 hdvd
  rw [abs_discriminant] at hm ⊢
  have hm1 : 1 ≤ m := by
    by_contra h
    nlinarith
  have hm2 : m ≤ 2 := by
    by_contra h
    nlinarith
  obtain rfl | rfl : m = 1 ∨ m = 2 := by omega
  · rw [hm, mul_one]
  · omega

/-- **Before any factor, the row has an integer that is no square modulo the prime.** -/
theorem exists_discriminant (hn : n.Prime) (h7 : 7 ≤ n) :
    ∃ m < 2 * n, jacobiInt (discriminant m) n = -1 ∧
      ¬ (discriminant m = n ∨ discriminant m = -(n : ℤ)) ∧
        ∀ j ≤ m, jacobiInt (discriminant j) n = 0 →
          discriminant j = n ∨ discriminant j = -(n : ℤ) := by
  have : Fact n.Prime := ⟨hn⟩
  have hodd : n % 2 = 1 := hn.eq_two_or_odd.resolve_left (by omega)
  obtain ⟨c, hc, h3⟩ := exists_nonsquare hn h7
  obtain ⟨d, rfl, h4, hle⟩ := exists_representative hodd c
  have hone : d ≠ 1 := by
    rintro rfl
    exact hc ⟨1, by push_cast; rw [one_mul]⟩
  have hthree : d ≠ -3 := by
    rintro rfl
    exact h3 (by push_cast; rfl)
  obtain ⟨m, rfl⟩ := exists_discriminant_eq h4 hone hthree
  rw [abs_discriminant] at hle
  refine ⟨m, by omega, (jacobiInt_eq_neg_one_iff hodd).2 hc, fun h ↦ hc ?_, fun j hj hzero ↦ ?_⟩
  · have hzero : (discriminant m : ZMod n) = 0 := by
      rcases h with h | h <;> simp [h]
    rw [hzero]
    exact IsSquare.zero
  · exact eq_or_eq_neg_of_dvd ((jacobiInt_eq_zero_iff hodd).1 hzero) (by omega)

/-- **The search finds a discriminant for every prime from 7 on.** -/
theorem searchFrom_of_prime (hn : n.Prime) (h7 : 7 ≤ n) :
    ∃ d, searchFrom n (2 * n) 0 = .found d ∧ jacobiInt d n = -1 := by
  obtain ⟨m, hm, hfound, hkept, hfirst⟩ := exists_discriminant hn h7
  exact searchFrom_eq_found (Nat.zero_le m) (by omega) hfound hkept hfirst

end Primality

end ElectionKeys
