import Mathlib
import ElectionKeys.Arithmetic.BitLength
import ElectionKeys.Arithmetic.PowMod

/-!
# Powers and significant bits

The laws of two small functions. `bitLength_le_iff`: a number has at most `k` bits exactly when it
is below `2 ^ k`. `powMod_eq`: repeated squaring gives the remainder of the power, for every
modulus, zero included.
-/

namespace ElectionKeys

/-! ### Significant bits -/

theorem bitLength_le_iff {n k : Nat} : bitLength n ≤ k ↔ n < 2 ^ k := by
  rcases Nat.eq_zero_or_pos n with rfl | hn
  · simp
  · have hne : n ≠ 0 := Nat.ne_of_gt hn
    rw [bitLength, if_neg hne, ← Nat.log2_lt hne]
    omega

theorem bitLength_pos {n : Nat} (h : n ≠ 0) : 0 < bitLength n := by
  rw [bitLength, if_neg h]
  exact Nat.succ_pos _

/-- A number lies below the power of two that its bit length names. -/
theorem lt_two_pow_bitLength (n : Nat) : n < 2 ^ bitLength n :=
  bitLength_le_iff.1 (Nat.le_refl _)

/-- A nonzero number reaches the power of two just below its bit length. -/
theorem two_pow_le_of_bitLength {n k : Nat} (h : bitLength n = k + 1) : 2 ^ k ≤ n := by
  apply Nat.le_of_not_lt
  intro hlt
  have := bitLength_le_iff.2 hlt
  omega

/-! ### Modular powers -/

theorem powMod_eq (b e m : Nat) : powMod b e m = b ^ e % m := by
  induction e using Nat.strongRecOn with
  | ind e ih =>
    rw [powMod]
    split
    · next h => subst h; simp
    · next h =>
      simp only [ih (e / 2) (by omega)]
      split
      · next heven =>
        have he : b ^ e = b ^ (e / 2) * b ^ (e / 2) := by
          rw [← Nat.pow_add]; congr 1; omega
        rw [he, ← Nat.mul_mod]
      · next hodd =>
        have he : b ^ e = b ^ (e / 2) * b ^ (e / 2) * b := by
          rw [← Nat.pow_add, ← Nat.pow_succ]; congr 1; omega
        rw [he, ← Nat.mul_mod, Nat.mod_mul_mod]

end ElectionKeys
