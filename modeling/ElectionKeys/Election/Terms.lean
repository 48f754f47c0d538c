import ElectionKeys.Document.Basic

/-!
# The terms of an election

How many guardians there are, how many of them have to come together to decrypt, and two texts. The
terms are sound if there is a guardian, someone has to come, and no more than there are.
-/

namespace ElectionKeys

/-- What is agreed on for one election. The two numbers are integers, as they are declared;
`Terms.make` and documents refuse those outside sixteen bits, and `Terms.check` the unsound ones. -/
structure Terms where
  guardians : Int
  quorum : Int
  date : String
  info : String
  deriving DecidableEq

instance : Document Terms where
  title := "VaryingParameters"
  names := ["n", "k", "date", "info"]
  ofMembers m :=
    let short (v : Json) : Checked Int := (Field.integer v).andThen Field.short
    Terms.mk
      <$> Field.required m "n" short
      <*> Field.required m "k" short
      <*> Field.required m "date" Field.text
      <*> Field.required m "info" Field.text
  toJson T :=
    .object [
      ("n", .int T.guardians),
      ("k", .int T.quorum),
      ("date", .text T.date),
      ("info", .text T.info)]

namespace Terms

/-- The terms with the given numbers. -/
def make (n k : Int) (date info : String) : Except Refusal Terms :=
  Document.build <| Terms.mk
    <$> (Field.short n).under (.name "n")
    <*> (Field.short k).under (.name "k")
    <*> pure date
    <*> pure info

/-- The first requirement that the terms fail, if they fail one. -/
def firstFlaw (T : Terms) : Option ParameterTest :=
  if T.guardians < 1 then some .someGuardian
  else if T.quorum < 1 then some .someQuorum
  else if T.guardians < T.quorum then some .quorumAtMostAll
  else none

/-- The error that reports a requirement that the terms fail. -/
def flawError (test : ParameterTest) : Error :=
  .ofParameter test s!"Échec du test des paramètres variables : {test.text}"

/-- That the terms are sound. -/
def check (T : Terms) : Except Error Unit :=
  match T.firstFlaw with
  | none => .ok ()
  | some test => .error (flawError test)

/-! ### Guardians -/

/-- Whether an integer is the number of one of the guardians. -/
def isGuardian (T : Terms) (i : Int) : Bool := 1 ≤ i && i ≤ T.guardians

/-- The number of the guardian that a value names. -/
def guardianIndex (T : Terms) (given : Json) : Except Error GuardianIndex :=
  match given with
  | .int n =>
    if T.isGuardian n then GuardianIndex.ofInt n else .error (.outsideGuardians given T.guardians)
  | _ => .error (.outsideGuardians given T.guardians)

/-- The numbers of all guardians, in order. -/
def eachGuardian (T : Terms) : List GuardianIndex :=
  (List.range' 1 T.guardians.toNat).filterMap fun i => (GuardianIndex.ofInt (i : Nat)).toOption

end Terms

end ElectionKeys
