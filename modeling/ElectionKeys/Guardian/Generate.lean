import ElectionKeys.Guardian.Check

/-!
# Making keys

The key of a guardian is made of as many numbers below the order of the group as the quorum says,
drawn one after the other. Whether the guardian takes part is decided before anything is drawn.
-/

namespace ElectionKeys

/-- The powers of the generator to the given exponents. -/
def SchnorrGroup.commit (G : SchnorrGroup) (coefficients : List Nat) : List Nat :=
  coefficients.map fun a => powMod G.g a G.p

/-- The secret key with the given coefficients. -/
def SecretKey.ofCoefficients (G : SchnorrGroup) (i : GuardianIndex) (name : Option String)
    (coefficients : List Nat) : Except Refusal SecretKey :=
  if G.p = 0 ∧ coefficients ≠ [] then .error .zeroModulus
  else
    SecretKey.make i.number name (coefficients.map Int.ofNat)
      ((G.commit coefficients).map Int.ofNat)

/-- Draws the coefficients of one guardian. -/
def drawCoefficients (E : Election) : Draw (List Nat) :=
  Draw.replicate (Draw.below E.group.q) E.terms.quorum.toNat

/-- Makes the secret key of the guardian that a value names. -/
def SecretKey.generate (E : Election) (given : Json) (name : Option String) :
    Draw (Except Refusal SecretKey) :=
  match E.terms.guardianIndex given with
  | .error e => pure (.error (.error e))
  | .ok i =>
    if E.group.q = 0 ∧ 0 < E.terms.quorum then pure (.error .emptyBound)
    else do
      let coefficients ← drawCoefficients E
      pure (SecretKey.ofCoefficients E.group i name coefficients)

/-- The two keys of a guardian. -/
structure KeyPair where
  secretKey : SecretKey
  publicKey : PublicKey
  deriving DecidableEq

/-- The pair of a secret key, if its public key fits the election. -/
def KeyPair.ofSecret (E : Election) (S : SecretKey) : Except Refusal KeyPair := do
  let K ← S.publicKey
  (K.check E).mapError .error
  pure ⟨S, K⟩

/-- Makes the key pair of the guardian that a value names. -/
def KeyPair.generate (E : Election) (given : Json) (name : Option String) :
    Draw (Except Refusal KeyPair) := do
  match ← SecretKey.generate E given name with
  | .error r => pure (.error r)
  | .ok S => pure (KeyPair.ofSecret E S)

end ElectionKeys
