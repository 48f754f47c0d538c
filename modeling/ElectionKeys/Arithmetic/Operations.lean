import ElectionKeys.Arithmetic.PowMod

/-!
# Operations that may have no value

There is no power and no remainder modulo zero, no shift by a negative amount, no mark at a place
that a table does not have and no first item of an empty list. The tests of groups and of keys and
the combination of public keys come to such operations, and each of these procedures is written
once, for any `Operations` and the monad that they have their values in.

What is run is the procedure for `Operations.total`, in which every operation has some value, so
that the monad is the identity. The same procedure for operations that do refuse, in `Option`, is
where one can see whether an operation without a value is ever reached: the order of evaluation is
that of the one procedure.
-/

namespace ElectionKeys

/-- Operations with their values in a monad, which says what becomes of an operation that has
none. -/
structure Operations (m : Type → Type) where
  /-- The power of a base to an exponent modulo a number. -/
  powMod (base exponent modulus : Nat) : m Nat
  /-- The remainder of a number modulo another one. -/
  remainder (x modulus : Nat) : m Nat
  /-- A number shifted to the left by an amount, among numbers of the given size in bits. -/
  shiftLeft (size : Int) (x : Nat) (amount : Int) : m Nat
  /-- A number shifted to the right by an amount, among numbers of the given size in bits. -/
  shiftRight (size : Int) (x : Nat) (amount : Int) : m Nat
  /-- Whether there is a mark at a place of a table, if the table has the place. -/
  marked (table : Array Bool) (place : Nat) : m (Option Bool)
  /-- The table with a mark at a place. -/
  mark (table : Array Bool) (place : Nat) : m (Array Bool)
  /-- The first of some numbers, if there are any. -/
  first (numbers : List Nat) : m (Option Nat)

/-- Every operation has a value, if need be one that means nothing: a remainder modulo zero is the
number itself, a shift by a negative amount is none, and a mark at a place that the table does not
have changes nothing. -/
def Operations.total : Operations Id where
  powMod base exponent modulus := ElectionKeys.powMod base exponent modulus
  remainder x modulus := x % modulus
  shiftLeft _ x amount := x <<< amount.toNat
  shiftRight _ x amount := x >>> amount.toNat
  marked table place := table[place]?
  mark table place := table.setIfInBounds place true
  first numbers := numbers.head?

namespace Operations

@[simp] theorem total_powMod (b e n : Nat) :
    total.powMod b e n = pure (ElectionKeys.powMod b e n) := rfl

@[simp] theorem total_remainder (x n : Nat) : total.remainder x n = pure (x % n) := rfl

@[simp] theorem total_marked (table : Array Bool) (place : Nat) :
    total.marked table place = pure table[place]? := rfl

@[simp] theorem total_mark (table : Array Bool) (place : Nat) :
    total.mark table place = pure (table.setIfInBounds place true) := rfl

@[simp] theorem total_first (numbers : List Nat) : total.first numbers = pure numbers.head? := rfl

end Operations

/-- The operations refuse where they have no value: a modulus of zero, an amount that is negative or
exceeds the size, a place that the table does not have, or no number at all. -/
def Operations.refusing : Operations Option where
  powMod base exponent modulus :=
    if modulus = 0 then none else some (ElectionKeys.powMod base exponent modulus)
  remainder x modulus := if modulus = 0 then none else some (x % modulus)
  shiftLeft size x amount :=
    if 0 ≤ amount ∧ amount ≤ size then some (x <<< amount.toNat) else none
  shiftRight size x amount :=
    if 0 ≤ amount ∧ amount ≤ size then some (x >>> amount.toNat) else none
  marked table place := if place < table.size then some table[place]? else none
  mark table place :=
    if place < table.size then some (table.setIfInBounds place true) else none
  first numbers := numbers.head?.map some

/-! ### Where the operations do not refuse -/

namespace Operations

theorem refusing_powMod (b e : Nat) {n : Nat} (hn : n ≠ 0) :
    refusing.powMod b e n = some (ElectionKeys.powMod b e n) :=
  if_neg hn

theorem refusing_remainder (x : Nat) {n : Nat} (hn : n ≠ 0) :
    refusing.remainder x n = some (x % n) :=
  if_neg hn

theorem refusing_marked {table : Array Bool} {place : Nat} (h : place < table.size) :
    refusing.marked table place = some table[place]? :=
  if_pos h

theorem refusing_mark {table : Array Bool} {place : Nat} (h : place < table.size) :
    refusing.mark table place = some (table.setIfInBounds place true) :=
  if_pos h

theorem refusing_first {numbers : List Nat} {c : Nat} (h : numbers.head? = some c) :
    refusing.first numbers = some (some c) := by
  show numbers.head?.map some = _
  rw [h, Option.map_some]

end Operations

end ElectionKeys
