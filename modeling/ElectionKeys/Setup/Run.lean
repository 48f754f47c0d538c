import ElectionKeys.Guardian.Generate
import ElectionKeys.Guardian.Joint
import ElectionKeys.Setup.Trust

/-!
# A whole setup

`Setup.run` goes from two numbers and a version to a finished election: its parameters, a key pair
for each guardian in order of their numbers, and the joint key. Only the parameters can be refused;
what follows from sound ones goes through.
-/

namespace ElectionKeys.Setup

/-- The name of a guardian who has not chosen one. -/
def guardianName (i : GuardianIndex) : String := s!"Gardien {i.number}"

/-- Makes the key pairs of guardians one after the other, up to the first refusal. -/
def keyPairs (E : Election) : List GuardianIndex → Draw (Except Refusal (List KeyPair))
  | [] => pure (.ok [])
  | i :: rest => do
    match ← KeyPair.generate E (.int i.number) (some (guardianName i)) with
    | .error refusal => pure (.error refusal)
    | .ok pair =>
      let others ← keyPairs E rest
      pure (others.map (pair :: ·))

/-- What a setup leaves. -/
structure Outcome where
  election : Election
  pairs : List KeyPair
  joint : JointKey

/-- The outcome of a setup from its parameters and key pairs. -/
def conclude (E : Election) (pairs : List KeyPair) : Except Refusal Outcome := do
  let joint ← JointKey.combine E (pairs.map KeyPair.publicKey)
  pure ⟨E, pairs, joint⟩

/-- A whole setup. -/
def run (R : Registry) (n k : Int) (date info : String) (version : List Int) :
    Draw (Except Refusal Outcome) := do
  match ← Trust.election R {} n k date info version with
  | (.error refusal, _) => pure (.error refusal)
  | (.ok E, _) =>
    match ← keyPairs E E.terms.eachGuardian with
    | .error refusal => pure (.error refusal)
    | .ok pairs => pure (conclude E pairs)

end ElectionKeys.Setup
