import ElectionKeys.Arithmetic.BitLength
import ElectionKeys.Text.Digits

/-!
# Shortest decimal text

A decimal fraction that is written somewhere is held as a double, and shown with the fewest digits
that read back as that double. Everything is exact arithmetic on natural numbers: a positive double
is `mantissa * 2 ^ exponent`, and the decimals that read back as it fill the interval between its
midpoints with its two neighbours, ends included when the mantissa is even.

For one digit, two digits and so on, the two points of that decimal grid that enclose the double are
tried; the first grid with a point inside the interval wins, and of two points the nearer.
-/

namespace ElectionKeys.Text

/-- A nonnegative double, `mantissa * 2 ^ exponent`. -/
structure Double where
  mantissa : Nat
  exponent : Int
  deriving DecidableEq

/-- The fraction `c * b ^ k`, as a numerator and a denominator. -/
def scaled (c b : Nat) (k : Int) : Nat × Nat :=
  if 0 ≤ k then (c * Nat.pow b k.toNat, 1) else (c, Nat.pow b (-k).toNat)

/-- The quotient rounded to the nearest number, a half to the even neighbour. -/
def roundDiv (num den : Nat) : Nat :=
  let q := num / den
  let r := num % den
  if 2 * r < den then q
  else if den < 2 * r then q + 1
  else if q % 2 = 0 then q else q + 1

/-- The number of decimal digits of `n`. -/
def digitCount (n : Nat) : Nat := (digits 10 n).length

namespace Double

/-- The least exponent of a double. -/
def leastExponent : Int := -1074

/-- The least mantissa of a double whose exponent is not the least one: a one and 52 zeros. -/
def leastNormal : Nat := 1 <<< 52

/-- The greatest exponent of a double. -/
def greatestExponent : Int := 971

/-- The double nearest to the fraction `num / den`, or nothing where that lies beyond them all. -/
def nearest (num den : Nat) : Option Double :=
  let guess : Int := (bitLength num : Int) - bitLength den - 53
  let at_ (e : Int) : Nat × Nat :=
    if 0 ≤ e then (num, den <<< e.toNat) else (num <<< (-e).toNat, den)
  let g := at_ guess
  let e := max leastExponent (if 2 * leastNormal ≤ g.1 / g.2 then guess + 1 else guess)
  let f := at_ e
  let m := roundDiv f.1 f.2
  let d : Double := if m = 2 * leastNormal then ⟨leastNormal, e + 1⟩ else ⟨m, e⟩
  if greatestExponent < d.exponent then none else some d

/-- The double nearest to `c * 10 ^ k`. Exponents far outside the range are not worked out. -/
def ofDecimal (c : Nat) (k : Int) : Option Double :=
  if c = 0 then some ⟨0, leastExponent⟩
  else
    let magnitude := (digitCount c : Int) + k
    if 400 < magnitude then none
    else if magnitude < -400 then some ⟨0, leastExponent⟩
    else
      let s := scaled c 10 k
      nearest s.1 s.2

/-- The least and the greatest quarter unit that still reads back as the double. -/
def bounds (d : Double) : Nat × Nat :=
  let low := if d.mantissa = leastNormal ∧ leastExponent < d.exponent then 1 else 2
  (4 * d.mantissa - low, 4 * d.mantissa + 2)

/-- The number of digits before the decimal point of a positive fraction, negative or zero where
zeros follow the point. -/
def pointPosition (num den : Nat) : Int :=
  if den ≤ num then digitCount (num / den)
  else 1 - (digitCount ((den + num - 1) / num - 1) : Int)

/-- The point of the decimal grid of `n` digits that reads back as the double: the digits and the
power of ten of the last one. -/
def onGrid (d : Double) (n : Nat) : Option (Nat × Int) :=
  let unit := scaled 1 2 (d.exponent - 2)
  let v := 4 * d.mantissa * unit.1
  let k := pointPosition v unit.2 - n
  -- Both sides of each comparison are multiples of one common denominator.
  let grid := scaled 1 10 k
  let step := grid.1 * unit.2
  let here := v * grid.2
  let below := here / step
  let lo := d.bounds.1 * unit.1 * grid.2
  let hi := d.bounds.2 * unit.1 * grid.2
  let inside (x : Nat) : Bool :=
    if d.mantissa % 2 = 0 then lo ≤ x * step && x * step ≤ hi else lo < x * step && x * step < hi
  let distance (x : Nat) : Nat := (x * step - here) + (here - x * step)
  match inside below, inside (below + 1) with
  | false, false => none
  | true, false => some (below, k)
  | false, true => some (below + 1, k)
  | true, true =>
    if distance below < distance (below + 1) then some (below, k)
    else if distance (below + 1) < distance below then some (below + 1, k)
    else if below % 2 = 0 then some (below, k) else some (below + 1, k)

/-- A coefficient and a power of ten, with the zeros at the end of the coefficient removed. -/
def trimZeros : Nat → Nat → Int → Nat × Int
  | 0, c, k => (c, k)
  | fuel + 1, c, k => if c % 10 = 0 ∧ 0 < c then trimZeros fuel (c / 10) (k + 1) else (c, k)

/-- The shortest digits that read back as a positive double, and the power of ten of the last. -/
def shortest (d : Double) : Nat × Int :=
  match (List.range 17).findSome? fun n => d.onGrid (n + 1) with
  | some (c, k) => trimZeros 20 c k
  | none => (0, 0)

end Double

/-- How a decimal fraction is shown: in which range of exponents without an exponent part, and by
which words the values that are no numbers. -/
structure FractionStyle where
  leastPlain : Int
  greatestPlain : Int
  infinite : String
  notANumber : String

/-- The digits `ds`, the last of which counts `10 ^ k`, in the given style. -/
def FractionStyle.write (style : FractionStyle) (ds : List Char) (k : Int) : List Char :=
  let exponent := k + ds.length - 1
  if style.leastPlain ≤ exponent ∧ exponent ≤ style.greatestPlain then
    if 0 ≤ k then ds ++ List.replicate k.toNat '0' ++ ['.', '0']
    else if 0 ≤ exponent then
      ds.take (exponent + 1).toNat ++ '.' :: ds.drop (exponent + 1).toNat
    else '0' :: '.' :: List.replicate (-exponent - 1).toNat '0' ++ ds
  else
    let mantissa := match ds with
      | [] => []
      | [d] => [d]
      | d :: rest => d :: '.' :: rest
    let size := digits 10 exponent.natAbs
    let padded := if size.length < 2 then '0' :: size else size
    mantissa ++ 'e' :: (if exponent < 0 then '-' else '+') :: padded

/-- The text of the double nearest to `c * 10 ^ k`, in the given style. -/
def FractionStyle.decimal (style : FractionStyle) (negative : Bool) (c : Nat) (k : Int) :
    String :=
  let sign := if negative then ['-'] else []
  match Double.ofDecimal c k with
  | none => String.ofList sign ++ style.infinite
  | some d =>
    if d.mantissa = 0 then String.ofList (sign ++ ['0', '.', '0'])
    else
      let (ds, k) := d.shortest
      String.ofList (sign ++ style.write (digits 10 ds) k)

end ElectionKeys.Text
