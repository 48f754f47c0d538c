import ElectionKeys.Arithmetic.Positional

/-!
# Numbers as text

Numbers in a base from 2 to 16, with the digits `0` to `9` and `A` to `F`. The printer writes no
leading zero; the reader takes any nonempty run of digits.
-/

namespace ElectionKeys.Text

/-- The digit of value `d`, for `d` below 16. -/
def digitChar (d : Nat) : Char :=
  if d < 10 then Char.ofNat (48 + d) else Char.ofNat (55 + d)

/-- The value of a digit; letters count only in upper case. -/
def digitValue? (c : Char) : Option Nat :=
  if '0' ≤ c ∧ c ≤ '9' then some (c.toNat - 48)
  else if 'A' ≤ c ∧ c ≤ 'F' then some (c.toNat - 55)
  else none

/-- The value of a digit of base `b`. -/
def digitBelow? (b : Nat) (c : Char) : Option Nat := (digitValue? c).filter (· < b)

/-- A count of digits in base `b` that is large enough for `n`, for `b` from 2 on. -/
def enoughDigits (b n : Nat) : Nat := n.log2 / b.log2 + 1

/-- The digits of `n` in base `b`, most significant first and without leading zeros. -/
def digits (b n : Nat) : List Char :=
  if b < 2 ∨ n < b then [digitChar n]
  else ((Positional.write b (enoughDigits b n) n).dropWhile (· == 0)).map digitChar

/-- The number that a nonempty run of base `b` digits denotes. -/
def ofDigits? (b : Nat) : List Char → Option Nat
  | [] => none
  | cs => (cs.mapM (digitBelow? b)).map (Positional.read b)

theorem digitValue?_digitChar {d : Nat} (h : d < 16) : digitValue? (digitChar d) = some d := by
  revert d
  decide

end ElectionKeys.Text
