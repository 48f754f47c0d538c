/-!
# The Jacobi symbol

The symbol `(a / n)` for odd positive `n`, by the Euclidean scheme: factors of two leave with the
sign that `n` modulo 8 gives them, and two odd numbers change places with the sign of quadratic
reciprocity.
-/

namespace ElectionKeys

/-- The Jacobi symbol `(a / n)` of a natural number over an odd one: `1`, `-1`, or `0` where the
two share a factor. -/
def jacobi (a n : Nat) : Int :=
  if a = 0 then (if n = 1 then 1 else 0)
  else if a % 2 = 0 then
    (if n % 8 = 3 ∨ n % 8 = 5 then -1 else 1) * jacobi (a / 2) n
  else
    (if a % 4 = 3 ∧ n % 4 = 3 then -1 else 1) * jacobi (n % a) a
termination_by a
decreasing_by
  · omega
  · exact Nat.mod_lt _ (by omega)

/-- The Jacobi symbol of any integer over an odd number, by way of its residue. -/
def jacobiInt (a : Int) (n : Nat) : Int :=
  jacobi (a % n).toNat n

end ElectionKeys
