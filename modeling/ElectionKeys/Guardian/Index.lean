import ElectionKeys.Failure.Error

/-!
# Guardian numbers

Guardians are numbered from 1, and a number has sixteen bits. A place in a list of guardians is
reached only through `GuardianIndex.slot`, which counts from 0.
-/

namespace ElectionKeys

/-- The greatest guardian number, and the greatest number of guardians. -/
def maxGuardian : Nat := 0xFFFF

/-- The number of a guardian. -/
structure GuardianIndex where
  number : Nat
  one_le_number : 1 ≤ number
  number_le_max : number ≤ maxGuardian
  deriving DecidableEq

namespace GuardianIndex

/-- The place of a guardian in a list of all of them. -/
def slot (i : GuardianIndex) : Nat := i.number - 1

instance : ToString GuardianIndex where
  toString i := toString i.number

instance : Repr GuardianIndex where
  reprPrec i _ := s!"GuardianIndex({i.number})"

end GuardianIndex

namespace Error

/-- The given value is no integer, so it is not the number of a guardian. -/
def notAnInteger (given : Json) : Error where
  failure := .index .indexRange .null
  message := s!"Le numéro de gardien doit être un entier, reçu {given.quotedText}"
  numbers := given.integers

/-- The given value does not lie between 1 and `greatest`. -/
def outsideGuardians (given : Json) (greatest : Int) : Error where
  failure := .index .indexRange given
  message := s!"Le numéro de gardien {given.shown} n'est pas dans 1..={greatest}"
  numbers := given.integers ++ [greatest]

end Error

namespace GuardianIndex

/-- The guardian number that an integer is. -/
def ofInt (n : Int) : Except Error GuardianIndex :=
  if h : 1 ≤ n ∧ n ≤ maxGuardian then
    .ok ⟨n.toNat, by omega, by omega⟩
  else
    .error (.outsideGuardians (.int n) maxGuardian)

/-- The guardian number that a value is. -/
def ofJson : Json → Except Error GuardianIndex
  | .int n => ofInt n
  | given => .error (.notAnInteger given)

end GuardianIndex

end ElectionKeys
