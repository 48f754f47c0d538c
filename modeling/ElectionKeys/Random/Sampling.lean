import ElectionKeys.Arithmetic.BitLength
import ElectionKeys.Random.Tape

/-!
# Numbers drawn from a tape

`Draw.bits` reads whole bytes and drops the low bits that are too many. `Draw.below` draws as many
bits as the greatest admissible number has until the number is admissible. `Draw.below?` and
`Draw.between?` are the same for bounds that may be empty, and `Draw.bytes?` reads a number of bytes
that may be negative: they refuse without reading.
-/

namespace ElectionKeys.Draw

/-- A number of `b` bits: the leading ones of as many bytes as hold them. -/
def bits (b : Nat) : Draw Nat := do
  let bs ← bytes (byteCount b)
  pure (bs.toNat >>> (8 * byteCount b - b))

/-- A number of as many bits as an integer says; of none if it is negative. -/
def bitsInt (b : Int) : Draw Nat := bits b.toNat

/-- The next eight bytes as a number. -/
def word : Draw Nat := do
  let bs ← bytes 8
  pure bs.toNat

/-- A number below `bound`. -/
def below (bound : Nat) : Draw Nat :=
  repeatUntil (bits (bitLength (bound - 1))) fun n => n < bound

/-- Why a draw is refused. -/
inductive Fault
  /-- No number lies below the bound. -/
  | emptyBound
  /-- No number lies between the two ends. -/
  | emptyInterval
  /-- No byte string has a negative length. -/
  | negativeLength
  deriving DecidableEq

/-- The wording of a refused draw. -/
def Fault.message : Fault → String
  | .emptyBound => "La borne doit être strictement positive"
  | .emptyInterval => "Intervalle vide"
  | .negativeLength => "'length' must be a non-negative integer"

/-- The next bytes, as many as an integer says. -/
def bytes? (n : Int) : Draw (Except Fault Bytes) :=
  if n < 0 then pure (.error .negativeLength)
  else do
    let bs ← bytes n.toNat
    pure (.ok bs)

/-- A number from zero up to but not including `bound`, if there is one. -/
def below? (bound : Int) : Draw (Except Fault Nat) :=
  if bound ≤ 0 then pure (.error .emptyBound)
  else do
    let n ← below bound.toNat
    pure (.ok n)

/-- A number from `start` up to but not including `stop`, if there is one. -/
def between? (start stop : Int) : Draw (Except Fault Int) :=
  if start < stop then do
    let n ← below (stop - start).toNat
    pure (.ok (start + n))
  else pure (.error .emptyInterval)

end ElectionKeys.Draw
