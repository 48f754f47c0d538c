import ElectionKeys.Association
import ElectionKeys.Group.Published

/-!
# Groups by version

A registry says which group each known version stands for. What it says may itself be a refusal:
then the version is known, and its group cannot be made.
-/

namespace ElectionKeys

/-- The group of each known version, each version once. -/
structure Registry where
  entries : List ((Int × Int) × Except Refusal SchnorrGroup)

namespace Registry

/-- The published groups. -/
def published : Registry :=
  ⟨[((1, 54), .ok Published.version154), ((2, 0), .ok Published.version2)]⟩

/-- The registry in which a version stands for the given group. -/
def set (R : Registry) (version : Int × Int) (G : Except Refusal SchnorrGroup) : Registry :=
  ⟨Association.put R.entries version G⟩

/-- The entry of a version, which is known only if it has two numbers. -/
def get? (R : Registry) : List Int → Option ((Int × Int) × Except Refusal SchnorrGroup)
  | [a, b] => (R.entries.lookup (a, b)).map fun G => ((a, b), G)
  | _ => none

/-- The group of the latest version, which is the published one unless the registry says another. -/
def latest (R : Registry) : Except Refusal SchnorrGroup :=
  (R.entries.lookup Published.latestVersion).getD (.ok Published.latest)

/-- Whether one version is not above another. -/
def versionLe (v w : Int × Int) : Bool := v.1 < w.1 || (v.1 == w.1 && v.2 ≤ w.2)

/-- The known versions in order, as a message lists them. -/
def known (R : Registry) : String :=
  let versions := (R.entries.map fun x => x.1).mergeSort versionLe
  ", ".intercalate (versions.map fun v => s!"v{v.1}.{v.2}")

/-- A version as a message shows it. -/
def showVersion : List Int → String
  | [a] => s!"({a},)"
  | v => "(" ++ ", ".intercalate (v.map toString) ++ ")"

/-- The two numbers of each known version. -/
def numbers (R : Registry) : List Int := R.entries.flatMap fun x => [x.1.1, x.1.2]

/-- The error for a version that is not known. Its message writes out the version and all that are
known. -/
def unknownVersion (R : Registry) (version : List Int) : Error :=
  .ofParameter .knownVersion
    (s!"Pas de paramètres standard pour la version {showVersion version} "
      ++ s!"(versions connues : {R.known})")
    (version ++ R.numbers)

end Registry

end ElectionKeys
