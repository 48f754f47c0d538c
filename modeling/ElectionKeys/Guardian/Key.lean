import ElectionKeys.Election.Basic

/-!
# The keys of a guardian

A guardian's secret is a polynomial: its coefficients are numbers below the order of the group, and
the commitments are the generator's powers to them. The public key has the commitments only, and the
first of them is the guardian's share in the joint key.

The guardian number of a record is any integer. Documents and the functions that make records of
numbers only admit those between 1 and `maxGuardian`.
-/

namespace ElectionKeys

/-- The public key of a guardian. -/
structure PublicKey where
  guardian : Int
  name : Option String
  commitments : List Nat
  deriving DecidableEq

/-- The secret key of a guardian. -/
structure SecretKey where
  guardian : Int
  name : Option String
  coefficients : List Nat
  commitments : List Nat
  deriving DecidableEq

/-! ### Documents -/

/-- Large numbers as a value. -/
def BigNumber.listToJson (ns : List Nat) : Json := .array (ns.map BigNumber.toJson)

namespace Field

/-- A guardian number as a value. -/
def guardian (v : Json) : Checked Int := (integer v).andThen guardianNumber

/-- Any number of large numbers. -/
def bigs (v : Json) : Checked (List Nat) := (array v).andThen (Checked.each big)

/-- One large number or more. -/
def someBigs (v : Json) : Checked (List Nat) := (array v).andThen (Checked.eachOfSome big)

end Field

instance : Document PublicKey where
  title := "GuardianPublicKey"
  names := ["i", "opt_name", "coefficient_commitments"]
  ofMembers m :=
    PublicKey.mk
      <$> Field.required m "i" Field.guardian
      <*> Field.optional m "opt_name" Field.text
      <*> Field.required m "coefficient_commitments" Field.someBigs
  toJson K :=
    .object [
      ("i", .int K.guardian),
      ("opt_name", .ofOption .text K.name),
      ("coefficient_commitments", BigNumber.listToJson K.commitments)]

instance : Document SecretKey where
  title := "GuardianSecretKey"
  names := ["i", "opt_name", "secret_coefficients", "coefficient_commitments"]
  ofMembers m :=
    SecretKey.mk
      <$> Field.required m "i" Field.guardian
      <*> Field.optional m "opt_name" Field.text
      <*> Field.required m "secret_coefficients" Field.bigs
      <*> Field.required m "coefficient_commitments" Field.someBigs
  toJson S :=
    .object [
      ("i", .int S.guardian),
      ("opt_name", .ofOption .text S.name),
      ("secret_coefficients", BigNumber.listToJson S.coefficients),
      ("coefficient_commitments", BigNumber.listToJson S.commitments)]

/-! ### Records made of numbers -/

/-- The public key with the given numbers. -/
def PublicKey.make (guardian : Int) (name : Option String) (commitments : List Int) :
    Except Refusal PublicKey :=
  Document.build <| PublicKey.mk
    <$> (Field.guardianNumber guardian).under (.name "i")
    <*> pure name
    <*> (Checked.eachOfSome Field.bigOfInt commitments).under (.name "coefficient_commitments")

/-- The secret key with the given numbers. -/
def SecretKey.make (guardian : Int) (name : Option String) (coefficients commitments : List Int) :
    Except Refusal SecretKey :=
  Document.build <| SecretKey.mk
    <$> (Field.guardianNumber guardian).under (.name "i")
    <*> pure name
    <*> (Checked.each Field.bigOfInt coefficients).under (.name "secret_coefficients")
    <*> (Checked.eachOfSome Field.bigOfInt commitments).under (.name "coefficient_commitments")

/-- The public part of a secret key. -/
def SecretKey.publicKey (S : SecretKey) : Except Refusal PublicKey :=
  PublicKey.make S.guardian S.name (S.commitments.map Int.ofNat)

/-- The commitment to the constant coefficient, which goes into the joint key. -/
def PublicKey.share (K : PublicKey) : Except Refusal Nat :=
  match K.commitments with
  | [] => .error .noCommitment
  | c :: _ => .ok c

end ElectionKeys
