import ElectionKeys.Election.Terms
import ElectionKeys.Group.SelfTest

/-!
# Elections

An election is a group and the terms: all that keys depend on, kept in one document and tested as a
whole, the group first.
-/

namespace ElectionKeys

/-- The parameters of an election. -/
structure Election where
  group : SchnorrGroup
  terms : Terms
  deriving DecidableEq

instance : Document Election where
  title := "ElectionParameters"
  names := ["fixed_parameters", "varying_parameters"]
  ofMembers m :=
    Election.mk
      <$> Field.required m "fixed_parameters" (Document.ofJson SchnorrGroup)
      <*> Field.required m "varying_parameters" (Document.ofJson Terms)
  toJson E :=
    .object [
      ("fixed_parameters", Document.toJson E.group),
      ("varying_parameters", Document.toJson E.terms)]

/-- That the group passes its self-test and the terms are sound. -/
def Election.check (E : Election) : Draw (Except Error Unit) := do
  match ← E.group.check with
  | .error e => pure (.error (e.within "Validation des paramètres fixes"))
  | .ok () => pure (E.terms.check.mapError (Error.within "Validation des paramètres variables"))

/-! ### Documents that are tested as they are read -/

/-- The context of an error that comes to light while a document of a type is read. -/
def readingContext (α : Type) [Document α] : String := s!"Lecture de {Document.title α}"

/-- The group in a document, if it passes its self-test. -/
def SchnorrGroup.receive (read : Except Error SchnorrGroup) : Draw (Except Error SchnorrGroup) := do
  match read with
  | .error e => pure (.error e)
  | .ok G =>
    match ← G.check with
    | .error e => pure (.error (e.within (readingContext SchnorrGroup)))
    | .ok () => pure (.ok G)

/-- The election in a document, if it passes its tests. -/
def Election.receive (read : Except Error Election) : Draw (Except Error Election) := do
  match read with
  | .error e => pure (.error e)
  | .ok E =>
    match ← E.check with
    | .error e => pure (.error (e.within (readingContext Election)))
    | .ok () => pure (.ok E)

end ElectionKeys
