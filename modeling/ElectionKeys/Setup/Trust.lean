import ElectionKeys.Election.Basic
import ElectionKeys.Setup.Registry

/-!
# Trusted groups

A group of the registry is trusted once it has passed its self-test, and is not tested again. One
that fails stays untrusted, so that it is tested anew whenever it is asked for. The terms of an
election are judged before any group is looked at.
-/

namespace ElectionKeys

/-- The groups that have passed their self-test, each version once. -/
structure Trust where
  groups : List ((Int × Int) × SchnorrGroup) := []

namespace Trust

/-- Trust in one more group, or in another one for its version. -/
def add (C : Trust) (version : Int × Int) (G : SchnorrGroup) : Trust :=
  ⟨Association.put C.groups version G⟩

/-- The trusted group of a version. -/
def get? (C : Trust) : List Int → Option SchnorrGroup
  | [a, b] => C.groups.lookup (a, b)
  | _ => none

/-- The versions of the trusted groups, in order. -/
def versions (C : Trust) : List (Int × Int) :=
  (C.groups.map fun x => x.1).mergeSort Registry.versionLe

/-- The group of a version, tested if it is not trusted yet. -/
def group (R : Registry) (C : Trust) (version : List Int) :
    Draw (Except Refusal SchnorrGroup × Trust) := do
  match C.get? version with
  | some G => pure (.ok G, C)
  | none =>
    match R.get? version with
    | none => pure (.error (.error (R.unknownVersion version)), C)
    | some (_, .error refusal) => pure (.error refusal, C)
    | some (v, .ok G) =>
      match ← G.check with
      | .error e => pure (.error (.error e), C)
      | .ok () => pure (.ok G, C.add v G)

/-- Sound terms with the given numbers. -/
def soundTerms (n k : Int) (date info : String) : Except Refusal Terms := do
  let T ← Terms.make n k date info
  T.check.mapError .error
  pure T

/-- The parameters of an election with the group of a version. -/
def election (R : Registry) (C : Trust) (n k : Int) (date info : String) (version : List Int) :
    Draw (Except Refusal Election × Trust) := do
  match soundTerms n k date info with
  | .error refusal => pure (.error refusal, C)
  | .ok T =>
    let (outcome, C) ← C.group R version
    pure (outcome.map fun G => ⟨G, T⟩, C)

end Trust

end ElectionKeys
