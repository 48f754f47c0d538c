import ElectionKeys.Json.Value
import ElectionKeys.Text.Shortest

/-!
# Writing JSON

One printer, with the blanks between tokens as its parameter: `Layout.pretty` puts each item and
each member on a line of its own, two spaces deeper than what holds it, and `Layout.line` writes no
blanks at all. Only the quote, the backslash and the characters below the space are escaped.
-/

namespace ElectionKeys

/-- The text of a fraction in a style. -/
def Fraction.text (style : Text.FractionStyle) : Fraction → String
  | .finite negative c k => style.decimal negative c k
  | .infinite negative => (if negative then "-" else "") ++ style.infinite
  | .notANumber => style.notANumber

namespace Json

/-- The blanks between tokens: what stands before an item at a level of nesting, and what stands
after a colon. -/
structure Layout where
  lineAt : Nat → List Char
  afterColon : List Char

/-- The number of spaces by which each level is set in. -/
def indent : Nat := 2

/-- Each item on its own line. -/
def Layout.pretty : Layout where
  lineAt level := '\n' :: List.replicate (indent * level) ' '
  afterColon := [' ']

/-- Everything on one line. -/
def Layout.line : Layout where
  lineAt _ := []
  afterColon := []

/-- A lower case hexadecimal digit. -/
def lowerHexDigit (d : Nat) : Char := (Text.digitChar d).toLower

/-- A character as it stands inside a quoted text. -/
def escapeChar (c : Char) : List Char :=
  if c = '"' then ['\\', '"']
  else if c = '\\' then ['\\', '\\']
  else if c = '\n' then ['\\', 'n']
  else if c = '\r' then ['\\', 'r']
  else if c = '\t' then ['\\', 't']
  else if c = Char.ofNat 8 then ['\\', 'b']
  else if c = Char.ofNat 12 then ['\\', 'f']
  else if c.toNat < 32 then
    ['\\', 'u', '0', '0', lowerHexDigit (c.toNat / 16), lowerHexDigit (c.toNat % 16)]
  else [c]

/-- A text between quotes. -/
def quote (s : String) : List Char :=
  '"' :: s.toList.flatMap escapeChar ++ ['"']

/-- The decimal digits of an integer. -/
def intChars (n : Int) : List Char :=
  if n < 0 then '-' :: Text.digits 10 n.natAbs else Text.digits 10 n.natAbs

/-- A fraction has the shortest digits that read back, without an exponent from `10 ^ -4` to below
`10 ^ 16`. -/
def fractionStyle : Text.FractionStyle where
  leastPlain := -4
  greatestPlain := 15
  infinite := "Infinity"
  notANumber := "NaN"

mutual

/-- The characters of a value that stands at a level of nesting. -/
def write (L : Layout) (level : Nat) : Json → List Char
  | .null => "null".toList
  | .bool true => "true".toList
  | .bool false => "false".toList
  | .int n => intChars n
  | .fraction x => (x.text fractionStyle).toList
  | .text s => quote s
  | .array [] => ['[', ']']
  | .array (v :: vs) =>
    '[' :: L.lineAt (level + 1) ++ write L (level + 1) v ++ writeItems L (level + 1) vs
      ++ L.lineAt level ++ [']']
  | .object [] => ['{', '}']
  | .object ((n, v) :: ms) =>
    '{' :: L.lineAt (level + 1) ++ quote n ++ ':' :: L.afterColon ++ write L (level + 1) v
      ++ writeMembers L (level + 1) ms ++ L.lineAt level ++ ['}']

/-- The items after the first. -/
def writeItems (L : Layout) (level : Nat) : List Json → List Char
  | [] => []
  | v :: vs => ',' :: L.lineAt level ++ write L level v ++ writeItems L level vs

/-- The members after the first. -/
def writeMembers (L : Layout) (level : Nat) : List (String × Json) → List Char
  | [] => []
  | (n, v) :: ms =>
    ',' :: L.lineAt level ++ quote n ++ ':' :: L.afterColon ++ write L level v
      ++ writeMembers L level ms

end

/-- The text of a value with each item on its own line. -/
def pretty (v : Json) : String := String.ofList (write .pretty 0 v)

/-- The text of a value on one line. -/
def line (v : Json) : String := String.ofList (write .line 0 v)

end Json

end ElectionKeys
