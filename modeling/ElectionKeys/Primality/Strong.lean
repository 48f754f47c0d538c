import ElectionKeys.Arithmetic.PowMod
import ElectionKeys.Random.Sampling

/-!
# The strong probable prime test

Write `n - 1` as `2 ^ twos * odd`. A base passes if its power to `odd` is 1, or if one of the first
`twos` terms of the row of squares that starts there is `n - 1`. A prime lets every base pass.

The bases are drawn from a tape: a number of as many bits as `n - 4` has, the top byte first and cut
to its low bits, again until it is at most `n - 4`, and then 2 more.
-/

namespace ElectionKeys.Primality

/-- How often two divides a positive number. -/
def twos (n : Nat) : Nat :=
  if n = 0 ∨ n % 2 = 1 then 0 else twos (n / 2) + 1
termination_by n
decreasing_by omega

/-- The odd factor that is left of a number without its factors of two. -/
def oddPart (n : Nat) : Nat := n >>> twos n

/-- Whether one of the next `k` squares is `n - 1`, and none before it is 1. -/
def reachesMinusOne (n : Nat) : Nat → Nat → Bool
  | 0, _ => false
  | k + 1, z =>
    let square := z * z % n
    if square = n - 1 then true
    else if square = 1 then false
    else reachesMinusOne n k square

/-- Whether the base `b` does not show that the odd number `n` is composite. -/
def passes (n b : Nat) : Bool :=
  let z := powMod b (oddPart (n - 1)) n
  z == 1 || z == n - 1 || reachesMinusOne n (twos (n - 1) - 1) z

/-- A number of `b` bits, for positive `b`: the surplus bits are cut off the top byte. -/
def candidate (b : Nat) : Draw Nat := do
  let low := byteCount b - 1
  let top ← Draw.bytes 1
  let rest ← Draw.bytes low
  pure ((top.toNat % (1 <<< (b - 8 * low))) <<< (8 * low) + rest.toNat)

/-- A base between 2 and `n - 2`. -/
def drawBase (n : Nat) : Draw Nat := do
  let c ← Draw.repeatUntil (candidate (bitLength (n - 4))) fun c => c ≤ n - 4
  pure (c + 2)

/-- Whether `n` passes with the given number of drawn bases, of which no more are drawn after one
that does not let it pass. -/
def strongRounds (n : Nat) : Nat → Draw Bool
  | 0 => pure true
  | k + 1 => do
    let b ← drawBase n
    if passes n b then strongRounds n k else pure false

end ElectionKeys.Primality
