import ElectionKeys.Text.Digits

/-!
# The text of a large number

A large natural number has exactly one text: the marker `base16:` and then its upper case
hexadecimal digits without leading zeros. The reader tells three ways apart in which a text can
fail to be that one.
-/

namespace ElectionKeys.BigNumber

/-- What stands in front of the digits. -/
def marker : String := "base16:"

/-- Why a number has no text, or a text denotes no number. -/
inductive Fault
  | negative
  | markerMissing
  | notDigits
  | leadingZero
  deriving DecidableEq

/-- The wording of a fault. -/
def Fault.message : Fault → String
  | .negative => "Entier négatif"
  | .markerMissing => s!"Chaîne commençant par '{marker}' attendue"
  | .notDigits => "Chiffres hexadécimaux majuscules attendus"
  | .leadingZero => "Zéros de tête non canoniques"

/-- The text of a natural number. -/
def toText (n : Nat) : String :=
  marker ++ String.ofList (Text.digits 16 n)

/-- The text of an integer, which only a natural number has. -/
def toText? (x : Int) : Except Fault String :=
  if x < 0 then .error .negative else .ok (toText x.toNat)

/-- The number that a run of digits denotes, if it has no leading zero. -/
def ofDigits (cs : List Char) : Except Fault Nat :=
  match Text.ofDigits? 16 cs with
  | none => .error .notDigits
  | some n => if 1 < cs.length ∧ cs.head? = some '0' then .error .leadingZero else .ok n

/-- The number that a text denotes. -/
def ofText (text : String) : Except Fault Nat :=
  match marker.toList.isPrefixOf? text.toList with
  | none => .error .markerMissing
  | some cs => ofDigits cs

end ElectionKeys.BigNumber
