/-!
# Kinds of failure

What a caller can tell apart without reading a message: which test of the election parameters
failed, which test of a key, in which way a set of public keys is not complete, and whether a
document or the medium that holds it is at fault. Each kind has a text of its own.
-/

namespace ElectionKeys

/-- The tests of the election parameters. -/
inductive ParameterTest
  | pPrime
  | qPrime
  | pBits
  | qBits
  | pFixedBits
  | generatorRange
  | generatorOrder
  | generatorNotOne
  | groupRelation
  | someGuardian
  | someQuorum
  | quorumAtMostAll
  | knownVersion
  deriving DecidableEq

/-- The text of a test of the parameters: what it requires. -/
def ParameterTest.text : ParameterTest → String
  | .pPrime => "p est premier"
  | .qPrime => "q est premier"
  | .pBits => "taille de p en bits"
  | .qBits => "taille de q en bits"
  | .pFixedBits => "bits fixés de p"
  | .generatorRange => "2 <= g <= p - 2"
  | .generatorOrder => "g^q mod p == 1"
  | .generatorNotOne => "g != 1"
  | .groupRelation => "p == q*r + 1"
  | .someGuardian => "1 <= n"
  | .someQuorum => "1 <= k"
  | .quorumAtMostAll => "k <= n"
  | .knownVersion => "version des paramètres standard connue"

/-- The tests of a key. -/
inductive KeyTest
  | indexRange
  | indexExpected
  | coefficientCount
  | commitmentCount
  | coefficientRange
  | commitmentMatch
  | subgroup
  deriving DecidableEq

/-- The text of a test of a key: what it looks at. -/
def KeyTest.text : KeyTest → String
  | .indexRange => "numéro de gardien dans les bornes"
  | .indexExpected => "numéro de gardien attendu"
  | .coefficientCount => "nombre de coefficients"
  | .commitmentCount => "nombre d'engagements"
  | .coefficientRange => "coefficient secret < q"
  | .commitmentMatch => "engagement == g^a mod p"
  | .subgroup => "élément du sous-groupe d'ordre q"

/-- How a set of public keys fails to have one key of each guardian. -/
inductive Incompleteness
  | duplicate
  | missing
  deriving DecidableEq

/-- The text of a kind of incompleteness. -/
def Incompleteness.text : Incompleteness → String
  | .duplicate => "numéro de gardien en double"
  | .missing => "numéros de gardiens manquants"

/-- Whether a document is at fault, or the medium that holds it. -/
inductive DocumentFault
  | malformed
  | medium
  deriving DecidableEq

/-- The text of a kind of fault with a document. -/
def DocumentFault.text : DocumentFault → String
  | .malformed => "entrée mal formée"
  | .medium => "erreur d'entrée/sortie"

end ElectionKeys
