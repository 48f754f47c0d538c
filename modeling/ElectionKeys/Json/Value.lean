import ElectionKeys.Association

/-!
# JSON values

A value keeps what the text of a number says: an integer literal is an integer of any size, and any
other number keeps its decimal digits. The members of an object stand in the order of their first
appearance, each name once.
-/

namespace ElectionKeys

/-- A number that is not written as an integer: `coefficient * 10 ^ exponent` with a sign, or one
of the bare words for values that are no numbers. -/
inductive Fraction
  | finite (negative : Bool) (coefficient : Nat) (exponent : Int)
  | infinite (negative : Bool)
  | notANumber
  deriving DecidableEq

/-- A JSON value. -/
inductive Json
  | null
  | bool (b : Bool)
  | int (n : Int)
  | fraction (x : Fraction)
  | text (s : String)
  | array (items : List Json)
  | object (members : List (String × Json))

namespace Json

/-- The members of an object. -/
abbrev Members := List (String × Json)

namespace Members

/-- The value under a name. -/
def get? (m : Members) (name : String) : Option Json := m.lookup name

/-- The object that a list of members denotes: of two members of one name the last counts, at the
place of the first. -/
def collect (pairs : Members) : Members :=
  pairs.foldl (fun m p => Association.put m p.1 p.2) []

end Members

end Json

end ElectionKeys
