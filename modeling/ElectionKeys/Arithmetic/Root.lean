/-!
# Integer square roots

The root is found two bits of the radicand at a time. `floorSqrt_sq_le` and
`lt_succ_floorSqrt_sq` pin the value down, and `isSquare_iff` reads the test off them.
-/

namespace ElectionKeys

/-- The greatest number whose square does not exceed `n`. -/
def floorSqrt (n : Nat) : Nat :=
  if n = 0 then 0
  else
    let r := 2 * floorSqrt (n / 4)
    if (r + 1) * (r + 1) ≤ n then r + 1 else r
termination_by n
decreasing_by omega

/-- Whether `n` is the square of a number. -/
def isSquare (n : Nat) : Bool :=
  floorSqrt n * floorSqrt n == n

theorem floorSqrt_bounds (n : Nat) :
    floorSqrt n * floorSqrt n ≤ n ∧ n < (floorSqrt n + 1) * (floorSqrt n + 1) := by
  induction n using Nat.strongRecOn with
  | ind n ih =>
    rw [floorSqrt]
    split
    · next h => subst h; simp
    · next h =>
      obtain ⟨hlo, hhi⟩ := ih (n / 4) (by omega)
      generalize floorSqrt (n / 4) = s at hlo hhi
      have e1 : 2 * s * (2 * s) = 4 * (s * s) := by
        rw [Nat.mul_mul_mul_comm]
      have e2 : (2 * s + 1 + 1) * (2 * s + 1 + 1) = 4 * ((s + 1) * (s + 1)) := by
        rw [show 2 * s + 1 + 1 = 2 * (s + 1) by omega, Nat.mul_mul_mul_comm]
      dsimp only
      split
      · next hle => exact ⟨hle, by rw [e2]; omega⟩
      · next hgt => exact ⟨by rw [e1]; omega, by omega⟩

theorem floorSqrt_sq_le (n : Nat) : floorSqrt n * floorSqrt n ≤ n :=
  (floorSqrt_bounds n).1

theorem lt_succ_floorSqrt_sq (n : Nat) : n < (floorSqrt n + 1) * (floorSqrt n + 1) :=
  (floorSqrt_bounds n).2

theorem isSquare_iff (n : Nat) : isSquare n = true ↔ ∃ r, r * r = n := by
  rw [isSquare, beq_iff_eq]
  refine ⟨fun h => ⟨_, h⟩, ?_⟩
  rintro ⟨r, rfl⟩
  have hlo := floorSqrt_sq_le (r * r)
  have hhi := lt_succ_floorSqrt_sq (r * r)
  have h1 : floorSqrt (r * r) ≤ r := Nat.mul_self_le_mul_self_iff.1 hlo
  have h2 : r < floorSqrt (r * r) + 1 := Nat.mul_self_lt_mul_self_iff.1 hhi
  have h3 : floorSqrt (r * r) = r := by omega
  rw [h3]

end ElectionKeys
