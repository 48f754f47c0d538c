import ElectionKeys.Primality.Lucas
import ElectionKeys.Primality.Strong

/-!
# Probable primes

Small and even numbers are decided at sight. Any other number has to pass `rounds` strong tests with
drawn bases and then the Lucas test, which draws nothing. No prime fails; of the tuples of bases at
most one in `4 ^ rounds` lets a composite number pass.
-/

namespace ElectionKeys.Primality

/-- The number of drawn bases. -/
def rounds : Nat := 64

/-- Whether `n` is prime, as far as the drawn bases and the Lucas test can tell. For 5 no base is
drawn, since 2 and 3 are its only ones. -/
def probablyPrime (n : Nat) : Draw Bool :=
  if n < 2 then pure false
  else if n = 2 ∨ n = 3 then pure true
  else if n % 2 = 0 then pure false
  else do
    let strong ← if n = 5 then pure true else strongRounds n rounds
    pure (strong && lucasTest n)

/-- Whether an integer is prime, as far as the tests can tell; no negative number is. -/
def probablyPrimeInt (x : Int) : Draw Bool := probablyPrime x.toNat

end ElectionKeys.Primality
