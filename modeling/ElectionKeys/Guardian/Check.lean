import ElectionKeys.Guardian.Key

/-!
# Tests of keys

A public key fits an election if its guardian takes part, it has one commitment for each coefficient
of a polynomial of the election's degree, and every commitment is an element of the group. A secret
key has in addition as many coefficients, each below the order of the group, and each commitment is
the power of the generator to its coefficient. The first test that fails is the outcome; tests of
single positions go from the first position on.
-/

namespace ElectionKeys

/-- The test that a key fails, with the position where it does. -/
inductive KeyFlaw
  | outside (guardians : Int)
  | coefficientCount (found : Nat) (expected : Int)
  | commitmentCount (found : Nat) (expected : Int)
  | notAnElement (position : Nat)
  | coefficientTooLarge (position : Nat)
  | mismatch (position : Nat)
  deriving DecidableEq

namespace KeyFlaw

/-- The test that fails. -/
def test : KeyFlaw → KeyTest
  | .outside _ => .indexRange
  | .coefficientCount .. => .coefficientCount
  | .commitmentCount .. => .commitmentCount
  | .notAnElement _ => .subgroup
  | .coefficientTooLarge _ => .coefficientRange
  | .mismatch _ => .commitmentMatch

/-- The message about a flaw in the key of guardian `i`. -/
def message (i : Int) : KeyFlaw → String
  | .outside n => s!"Le numéro de gardien {i} doit être dans 1..={n} (paramètres de l'élection)"
  | .coefficientCount found k =>
    s!"Le gardien {i} a {found} coefficients secrets, k = {k} attendus"
  | .commitmentCount found k =>
    s!"Le gardien {i} a {found} engagements de coefficients, k = {k} attendus"
  | .notAnElement j => s!"L'engagement {j} du gardien {i} n'est pas un élément valide mod p"
  | .coefficientTooLarge j => s!"Le coefficient secret {j} du gardien {i} n'est pas inférieur à q"
  | .mismatch j =>
    s!"L'engagement {j} du gardien {i} ne correspond pas à son coefficient secret"

/-- The integers that the message about a flaw in the key of guardian `i` writes out. -/
def numbers (i : Int) : KeyFlaw → List Int
  | .outside n => [i, n]
  | .coefficientCount found k => [i, found, k]
  | .commitmentCount found k => [i, found, k]
  | .notAnElement j => [j, i]
  | .coefficientTooLarge j => [j, i]
  | .mismatch j => [j, i]

/-- What failed, for the key of guardian `i`. -/
def failure (i : Int) : KeyFlaw → Failure
  | .outside _ => .index .indexRange (.int i)
  | f => .key f.test (some i)

/-- The error that reports a flaw in the key of guardian `i`. -/
def toError (i : Int) (f : KeyFlaw) : Error where
  failure := f.failure i
  message := f.message i
  numbers := f.numbers i

end KeyFlaw

/-- The outcome of the tests of the key of guardian `i`. -/
def keyOutcome (i : Int) : Option KeyFlaw → Except Error Unit
  | none => .ok ()
  | some flaw => .error (flaw.toError i)

/-! ### The tests by any operations -/

section Operations

variable [Monad m] (ops : Operations m)

/-- The first position from `j` on where there is no element of the group. -/
def firstOutsiderBy (G : SchnorrGroup) (j : Nat) : List Nat → m (Option KeyFlaw)
  | [] => pure none
  | c :: cs => do
    let element ← G.isElementBy ops c
    if element then firstOutsiderBy G (j + 1) cs else pure (some (.notAnElement j))

/-- The first position from `j` on where a coefficient is too large or a commitment is not to it. -/
def firstMismatchBy (G : SchnorrGroup) (j : Nat) : List (Nat × Nat) → m (Option KeyFlaw)
  | [] => pure none
  | (a, c) :: rest =>
    if G.q ≤ a then pure (some (.coefficientTooLarge j))
    else do
      let power ← ops.powMod G.g a G.p
      if power ≠ c then pure (some (.mismatch j)) else firstMismatchBy G (j + 1) rest

/-- The first flaw of the commitments of a key. -/
def commitmentsFlawBy (E : Election) (commitments : List Nat) : m (Option KeyFlaw) :=
  if commitments.length ≠ E.terms.quorum then
    pure (some (.commitmentCount commitments.length E.terms.quorum))
  else firstOutsiderBy ops E.group 0 commitments

/-- The first flaw of a public key. -/
def PublicKey.firstFlawBy (E : Election) (K : PublicKey) : m (Option KeyFlaw) :=
  if ¬ E.terms.isGuardian K.guardian then pure (some (.outside E.terms.guardians))
  else commitmentsFlawBy ops E K.commitments

/-- The first flaw of a secret key. -/
def SecretKey.firstFlawBy (E : Election) (S : SecretKey) : m (Option KeyFlaw) :=
  if ¬ E.terms.isGuardian S.guardian then pure (some (.outside E.terms.guardians))
  else if S.coefficients.length ≠ E.terms.quorum then
    pure (some (.coefficientCount S.coefficients.length E.terms.quorum))
  else do
    match ← commitmentsFlawBy ops E S.commitments with
    | some flaw => pure (some flaw)
    | none => firstMismatchBy ops E.group 0 (S.coefficients.zip S.commitments)

/-- That a public key fits an election. -/
def PublicKey.checkBy (E : Election) (K : PublicKey) : m (Except Error Unit) := do
  let flaw ← K.firstFlawBy ops E
  pure (keyOutcome K.guardian flaw)

/-- That a secret key fits an election. -/
def SecretKey.checkBy (E : Election) (S : SecretKey) : m (Except Error Unit) := do
  let flaw ← S.firstFlawBy ops E
  pure (keyOutcome S.guardian flaw)

end Operations

/-! ### The tests as they are run -/

/-- The first position from `j` on where there is no element of the group. -/
def firstOutsider (G : SchnorrGroup) (j : Nat) (cs : List Nat) : Option KeyFlaw :=
  Id.run (firstOutsiderBy .total G j cs)

/-- The first position from `j` on where a coefficient is too large or a commitment is not to it. -/
def firstMismatch (G : SchnorrGroup) (j : Nat) (pairs : List (Nat × Nat)) : Option KeyFlaw :=
  Id.run (firstMismatchBy .total G j pairs)

/-- The first flaw of the commitments of a key. -/
def commitmentsFlaw (E : Election) (commitments : List Nat) : Option KeyFlaw :=
  Id.run (commitmentsFlawBy .total E commitments)

/-- The first flaw of a public key. -/
def PublicKey.firstFlaw (E : Election) (K : PublicKey) : Option KeyFlaw :=
  Id.run (K.firstFlawBy .total E)

/-- The first flaw of a secret key. -/
def SecretKey.firstFlaw (E : Election) (S : SecretKey) : Option KeyFlaw :=
  Id.run (S.firstFlawBy .total E)

@[simp] theorem firstOutsiderBy_total (G : SchnorrGroup) (j : Nat) (cs : List Nat) :
    firstOutsiderBy .total G j cs = pure (firstOutsider G j cs) := rfl

@[simp] theorem firstMismatchBy_total (G : SchnorrGroup) (j : Nat) (pairs : List (Nat × Nat)) :
    firstMismatchBy .total G j pairs = pure (firstMismatch G j pairs) := rfl

@[simp] theorem commitmentsFlawBy_total (E : Election) (commitments : List Nat) :
    commitmentsFlawBy .total E commitments = pure (commitmentsFlaw E commitments) := rfl

@[simp] theorem PublicKey.firstFlawBy_total (E : Election) (K : PublicKey) :
    K.firstFlawBy .total E = pure (K.firstFlaw E) := rfl

@[simp] theorem SecretKey.firstFlawBy_total (E : Election) (S : SecretKey) :
    S.firstFlawBy .total E = pure (S.firstFlaw E) := rfl

/-- That a public key fits an election. -/
def PublicKey.check (E : Election) (K : PublicKey) : Except Error Unit :=
  Id.run (K.checkBy .total E)

/-- That a secret key fits an election. -/
def SecretKey.check (E : Election) (S : SecretKey) : Except Error Unit :=
  Id.run (S.checkBy .total E)

/-! ### Keys that are read -/

/-- The outcome of reading a record that then has to pass a test. -/
def receiveTested [Document α] (test : α → Except Error Unit) (read : Except Error α) :
    Except Error α :=
  match read with
  | .error e => .error e
  | .ok a =>
    match test a with
    | .ok () => .ok a
    | .error e => .error (e.within (readingContext α))

/-- The public key in a document, if it fits the election. -/
def PublicKey.receive (E : Election) (read : Except Error PublicKey) : Except Error PublicKey :=
  receiveTested (PublicKey.check E) read

/-- The secret key in a document, if it fits the election. -/
def SecretKey.receive (E : Election) (read : Except Error SecretKey) : Except Error SecretKey :=
  receiveTested (SecretKey.check E) read

end ElectionKeys
