import ElectionKeys.Group.Element
import ElectionKeys.Primality.Test

/-!
# The self-test of a group

The tests are made in a fixed order, and the first that fails is the outcome: `p` and then `q` are
prime, both have their declared sizes, the declared bits of `p` are set, `g` lies between 2 and
`p - 2`, its power to `q` is 1, it is not 1 itself, and `p = q * r + 1`. Only the two primality
tests draw. That the generator is not 1 is tested although its range has been tested before.
-/

namespace ElectionKeys.SchnorrGroup

/-- The test that a group fails, with what the message says about it. -/
inductive Flaw
  | pNotPrime
  | qNotPrime
  | pBits (found : Nat) (declared : Int)
  | qBits (found : Nat) (declared : Int)
  /-- More bits of `p` are declared to be set than it has. -/
  | tooManyFixedBits (top bottom total : Int)
  | fixedBits
  | generatorRange
  | generatorOrder
  | generatorNotOne
  | groupRelation
  deriving DecidableEq

namespace Flaw

/-- The test that fails. -/
def test : Flaw → ParameterTest
  | .pNotPrime => .pPrime
  | .qNotPrime => .qPrime
  | .pBits .. => .pBits
  | .qBits .. => .qBits
  | .tooManyFixedBits .. => .pFixedBits
  | .fixedBits => .pFixedBits
  | .generatorRange => .generatorRange
  | .generatorOrder => .generatorOrder
  | .generatorNotOne => .generatorNotOne
  | .groupRelation => .groupRelation

/-- The wording of a flaw, empty where the usual one of its test will do. -/
def wording : Flaw → String
  | .pBits found declared => s!"p a {found} bits, {declared} attendus"
  | .qBits found declared => s!"q a {found} bits, {declared} attendus"
  | .tooManyFixedBits top bottom total =>
    s!"{top} + {bottom} bits fixés déclarés pour p sur {total} bits"
  | _ => ""

/-- The integers that the wording of a flaw writes out. -/
def numbers : Flaw → List Int
  | .pBits found declared => [found, declared]
  | .qBits found declared => [found, declared]
  | .tooManyFixedBits top bottom total => [top, bottom, total]
  | _ => []

/-- The error that reports a flaw. -/
def toError (f : Flaw) : Error := .ofParameter f.test f.wording f.numbers

end Flaw

section Operations

variable [Monad m] (ops : Operations m)

/-- Whether the declared bits of `p` are set, in a number of the declared size. -/
def hasFixedBitsBy (G : SchnorrGroup) : m Bool := do
  let top ← ops.shiftLeft G.shape.pBits 1 G.shape.topOnes
  let bottom ← ops.shiftLeft G.shape.pBits 1 G.shape.bottomOnes
  let high ← ops.shiftRight G.shape.pBits G.p (G.shape.pBits - G.shape.topOnes)
  pure (high == top - 1 && G.p % bottom == bottom - 1)

/-- The first test that fails of those that draw nothing, by the given operations. -/
def firstFlawBy (G : SchnorrGroup) : m (Option Flaw) :=
  if bitLength G.p ≠ G.shape.pBits then pure (some (.pBits (bitLength G.p) G.shape.pBits))
  else if bitLength G.q ≠ G.shape.qBits then pure (some (.qBits (bitLength G.q) G.shape.qBits))
  else if G.shape.pBits < G.shape.topOnes ∨ G.shape.pBits < G.shape.bottomOnes then
    pure (some (.tooManyFixedBits G.shape.topOnes G.shape.bottomOnes G.shape.pBits))
  else do
    let fixed ← G.hasFixedBitsBy ops
    if ¬ fixed then pure (some .fixedBits)
    else if G.g < 2 ∨ G.p < G.g + 2 then pure (some .generatorRange)
    else do
      let power ← ops.powMod G.g G.q G.p
      if power ≠ 1 then pure (some .generatorOrder)
      else if G.g = 1 then pure (some .generatorNotOne)
      else if G.q * G.r + 1 ≠ G.p then pure (some .groupRelation)
      else pure none

end Operations

/-- Whether the declared bits of `p` are set. No bit is set by a number of bits below 0. -/
def hasFixedBits (G : SchnorrGroup) : Bool := Id.run (G.hasFixedBitsBy .total)

/-- The first test that fails of those that draw nothing. -/
def firstFlaw (G : SchnorrGroup) : Option Flaw := Id.run (G.firstFlawBy .total)

@[simp] theorem hasFixedBitsBy_total (G : SchnorrGroup) :
    G.hasFixedBitsBy .total = pure G.hasFixedBits := rfl

/-- The first test that fails, if one does. -/
def selfTest (G : SchnorrGroup) : Draw (Option Flaw) := do
  if ← Primality.probablyPrime G.p then
    if ← Primality.probablyPrime G.q then pure G.firstFlaw
    else pure (some .qNotPrime)
  else pure (some .pNotPrime)

/-- The self-test with its outcome as an error. -/
def check (G : SchnorrGroup) : Draw (Except Error Unit) := do
  match ← G.selfTest with
  | none => pure (.ok ())
  | some flaw => pure (.error flaw.toError)

end ElectionKeys.SchnorrGroup
