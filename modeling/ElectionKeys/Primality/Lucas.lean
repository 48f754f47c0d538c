import ElectionKeys.Arithmetic.Jacobi
import ElectionKeys.Arithmetic.Root

/-!
# The Lucas probable prime test

For an odd number `n` that is no square, the test takes the first `D` of 5, -7, 9, -11 and so on
with Jacobi symbol `(D / n) = -1` and asks whether `n` divides the term `n + 1` of the Lucas
sequence with parameters `P = 1` and `Q = (1 - D) / 4`. A symbol of zero on the way shows a factor;
only `n` and `-n` themselves are passed over.
-/

namespace ElectionKeys.Primality

/-- Number `i` of the row 5, -7, 9, -11, … -/
def discriminant (i : Nat) : Int :=
  if i % 2 = 0 then 5 + 2 * i else -(5 + 2 * i)

/-- What the search for a discriminant ends with. -/
inductive Search
  | found (d : Int)
  | factor
  | exhausted
  deriving DecidableEq

/-- Tries `tries` discriminants from number `i` on. -/
def searchFrom (n : Nat) : Nat → Nat → Search
  | 0, _ => .exhausted
  | tries + 1, i =>
    let d := discriminant i
    if d = n ∨ d = -(n : Int) then searchFrom n tries (i + 1)
    else if jacobiInt d n = 0 then .factor
    else if jacobiInt d n = -1 then .found d
    else searchFrom n tries (i + 1)

/-- Half of a number modulo the odd number `n`. -/
def halve (n x : Nat) : Nat :=
  (if x % 2 = 0 then x / 2 else (x + n) / 2) % n

/-- Terms `k` of the two Lucas sequences modulo the odd number `n`, for `P = 1` and a discriminant
given by its residue `d`. -/
def lucasPair (n d : Nat) (k : Nat) : Nat × Nat :=
  if k = 0 then (0, 2 % n)
  else
    let (u, v) := lucasPair n d (k / 2)
    let u2 := u * v % n
    let v2 := halve n (v * v + d * (u * u))
    if k % 2 = 0 then (u2, v2) else (halve n (u2 + v2), halve n (v2 + d * u2))
termination_by k
decreasing_by omega

/-- Whether the Lucas test does not show that `n` is composite. -/
def lucasTest (n : Nat) : Bool :=
  if n = 1 ∨ n = 2 ∨ n = 3 ∨ n = 5 then true
  else if n % 2 = 0 ∨ isSquare n = true then false
  else
    match searchFrom n (2 * n) 0 with
    | .found d => (lucasPair n (d % n).toNat (n + 1)).1 == 0
    | .factor => false
    | .exhausted => false

end ElectionKeys.Primality
