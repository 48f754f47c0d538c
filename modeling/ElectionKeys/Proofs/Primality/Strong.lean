import Mathlib
import ElectionKeys.Arithmetic.Lemmas
import ElectionKeys.Primality.Strong
import ElectionKeys.Proofs.Random.Draws

/-!
# Primes pass the strong test

For a prime `n` every base that `n` does not divide passes. The row of squares that the test looks
at ends in 1, by Fermat's little theorem, and modulo a prime only 1 and `n - 1` have the square 1:
so a row that does not begin with 1 has `n - 1` before its first 1
(`reachesMinusOne_of_prime`).

The test does not look at the whole row but stops at the first `n - 1`, or where the row ends. Its
induction is on the squares that are left to take, with the first power given, so that the statement
about one base is one about a row that begins anywhere (`reachesMinusOne_of_prime`).

Of the base nothing more is used than that the prime does not divide it. The bases that are drawn
lie between 2 and `n - 2`, so none is divisible, and a prime passes all rounds whatever the tape
holds (`strongRounds_of_prime`).
-/

namespace ElectionKeys.Primality

variable {n b z k : ℕ}

/-! ### Factors of two -/

theorem two_pow_twos_dvd (n : ℕ) : 2 ^ twos n ∣ n := by
  induction n using twos.induct with
  | case1 n h =>
    rw [twos, if_pos h, pow_zero]
    exact one_dvd n
  | case2 n h ih =>
    rw [twos, if_neg h, pow_succ]
    obtain ⟨c, hc⟩ := ih
    exact ⟨c, by rw [mul_right_comm, ← hc]; omega⟩

/-- A number is its odd part and a power of two. -/
theorem oddPart_mul_two_pow (n : ℕ) : oddPart n * 2 ^ twos n = n := by
  rw [oddPart, Nat.shiftRight_eq_div_pow, Nat.div_mul_cancel (two_pow_twos_dvd n)]

theorem twos_pos (h0 : n ≠ 0) (heven : n % 2 = 0) : 0 < twos n := by
  rw [twos, if_neg (by omega)]
  exact Nat.succ_pos _

/-! ### Square roots of one -/

/-- Modulo a prime only 1 and `n - 1` have the square 1. -/
theorem eq_of_sq_mod_eq_one (hn : n.Prime) (hz : z < n) (h : z * z % n = 1) :
    z = 1 ∨ z = n - 1 := by
  have : Fact n.Prime := ⟨hn⟩
  have h1 := hn.one_lt
  have hsq : (z : ZMod n) * z = 1 := by
    rw [← Nat.cast_mul, ← ZMod.natCast_mod, h, Nat.cast_one]
  have hcast : ∀ c : ℕ, c < n → (z : ZMod n) = c → z = c := by
    intro c hc hzc
    rwa [ZMod.natCast_eq_natCast_iff', Nat.mod_eq_of_lt hz, Nat.mod_eq_of_lt hc] at hzc
  refine (mul_self_eq_one_iff.1 hsq).imp (fun h ↦ ?_) fun h ↦ ?_
  · exact hcast 1 h1 (by rw [h, Nat.cast_one])
  · refine hcast (n - 1) (by omega) ?_
    rw [h, Nat.cast_sub (by omega), ZMod.natCast_self, Nat.cast_one, zero_sub]

/-- **A row of squares modulo a prime that ends in 1 and does not begin there has `n - 1` before its
first 1.** -/
theorem reachesMinusOne_of_prime (hn : n.Prime) (hz : z < n) (h1 : z ≠ 1) (hm : z ≠ n - 1)
    (hend : z ^ 2 ^ (k + 1) % n = 1) : reachesMinusOne n k z = true := by
  have hsquare : z * z % n ≠ 1 := fun h ↦ (eq_of_sq_mod_eq_one hn hz h).elim h1 hm
  induction k generalizing z with
  | zero => exact absurd (by simpa [sq] using hend) hsquare
  | succ k ih =>
    have hlt : z * z % n < n := Nat.mod_lt _ hn.pos
    have hrest : (z * z % n) ^ 2 ^ (k + 1) % n = 1 := by
      rw [← Nat.pow_mod, ← sq, ← pow_mul, ← pow_succ']
      exact hend
    simp only [reachesMinusOne, if_neg hsquare]
    split
    · rfl
    · next hne =>
      exact ih hlt hsquare hne hrest
        fun h ↦ (eq_of_sq_mod_eq_one hn hlt h).elim hsquare hne

/-! ### The test -/

/-- **A prime lets every base pass that it does not divide.** -/
theorem passes_of_prime (hn : n.Prime) (hodd : n % 2 = 1) (hb : ¬ n ∣ b) : passes n b = true := by
  have : Fact n.Prime := ⟨hn⟩
  have htwo := hn.two_le
  have hfermat : b ^ (n - 1) % n = 1 := by
    have hne : (b : ZMod n) ≠ 0 := by rwa [Ne, ZMod.natCast_eq_zero_iff]
    have hpow := ZMod.pow_card_sub_one_eq_one hne
    rw [← Nat.cast_pow, ← Nat.cast_one (R := ZMod n), ZMod.natCast_eq_natCast_iff'] at hpow
    rwa [Nat.mod_eq_of_lt hn.one_lt] at hpow
  have htwos : twos (n - 1) - 1 + 1 = twos (n - 1) :=
    Nat.sub_add_cancel (twos_pos (by omega) (by omega))
  have hend : (b ^ oddPart (n - 1) % n) ^ 2 ^ (twos (n - 1) - 1 + 1) % n = 1 := by
    rw [htwos, ← Nat.pow_mod, ← pow_mul, oddPart_mul_two_pow, hfermat]
  rw [passes, powMod_eq]
  by_cases h1 : b ^ oddPart (n - 1) % n = 1
  · simp [h1]
  · by_cases hm : b ^ oddPart (n - 1) % n = n - 1
    · simp [hm]
    · simp [reachesMinusOne_of_prime hn (Nat.mod_lt _ hn.pos) h1 hm hend]

/-- A drawn base lies between 2 and `n - 2`. -/
theorem of_drawBase {t t' : Tape} (h : drawBase n t = some (b, t')) : 2 ≤ b ∧ b ≤ n - 4 + 2 := by
  obtain ⟨c, s, hc, hrest⟩ := Draw.bind_eq_some_iff.1 h
  obtain ⟨rfl, -⟩ := Draw.pure_eq_some_iff.1 hrest
  rw [Draw.repeatUntil] at hc
  have hok := Draw.of_firstOf hc
  have hle : c ≤ n - 4 := of_decide_eq_true hok
  omega

/-- **A prime passes every round**, whatever bases are drawn. -/
theorem strongRounds_of_prime (hn : n.Prime) (hodd : n % 2 = 1) (h4 : 4 ≤ n) {t t' : Tape}
    {answer : Bool} (h : strongRounds n k t = some (answer, t')) : answer = true := by
  induction k generalizing t with
  | zero => exact (Draw.pure_eq_some_iff.1 h).1.symm
  | succ k ih =>
    obtain ⟨b, s, hb, hrest⟩ := Draw.bind_eq_some_iff.1 h
    obtain ⟨h2, hle⟩ := of_drawBase hb
    have hnot : ¬ n ∣ b := Nat.not_dvd_of_pos_of_lt (by omega) (by omega)
    rw [if_pos (passes_of_prime hn hodd hnot)] at hrest
    exact ih hrest

end ElectionKeys.Primality
