import ElectionKeys.Arithmetic.Operations
import ElectionKeys.Group.Basic

/-!
# Elements of a group

An integer is an element if it lies between 0 and `p` and its power to `q` is 1 modulo `p`. Every
number below `p` has a form of exactly `SchnorrGroup.width` bytes, so that the forms sort as the
numbers do.
-/

namespace ElectionKeys.SchnorrGroup

/-- Whether an integer is an element of the subgroup of order `q`, by the given operations. The
power is only taken of a number below `p`. -/
def isElementBy [Monad m] (ops : Operations m) (G : SchnorrGroup) (x : Int) : m Bool :=
  if 0 ≤ x ∧ x < G.p then do
    let power ← ops.powMod x.toNat G.q G.p
    pure (power == 1)
  else pure false

/-- Whether an integer is an element of the subgroup of order `q`. -/
def isElement (G : SchnorrGroup) (x : Int) : Bool := Id.run (G.isElementBy .total x)

@[simp] theorem isElementBy_total (G : SchnorrGroup) (x : Int) :
    G.isElementBy .total x = pure (G.isElement x) := rfl

/-- The number of bytes of `p`. -/
def width (G : SchnorrGroup) : Nat := byteCount (bitLength G.p)

/-- Why a number or a byte string is not in the fixed-width form. -/
inductive WidthFault
  /-- The number is negative or not below `p`. -/
  | outside
  /-- The length is wrong. -/
  | length (fault : Bytes.LengthFault)
  deriving DecidableEq

/-- The wording of a fault. -/
def WidthFault.message : WidthFault → String
  | .outside => "Élément hors de [0, p)"
  | .length fault => fault.message

/-- The fixed-width form of a number below `p`. -/
def encode (G : SchnorrGroup) (x : Int) : Except WidthFault Bytes :=
  if 0 ≤ x ∧ x < G.p then (Bytes.encode x G.width).mapError .length
  else .error .outside

/-- The number below `p` of which the given bytes are the fixed-width form. -/
def decode (G : SchnorrGroup) (bytes : Bytes) : Except WidthFault Nat :=
  match Bytes.decode bytes G.width with
  | .error fault => .error (.length fault)
  | .ok x => if x < G.p then .ok x else .error .outside

end ElectionKeys.SchnorrGroup
