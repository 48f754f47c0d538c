import ElectionKeys.Json.Printer
import ElectionKeys.Text.Printable

/-!
# Values inside messages

A message that refuses a value shows it. `Json.quoted` writes a text between quotes, apostrophes
unless the text itself has some and no double quote, and spells out what does not show on a page;
`Json.shown` leaves a text that stands alone as it is. `Json.integers` says which integers are
written out in either case.
-/

namespace ElectionKeys

namespace Text

/-- A number as lower case hexadecimal digits, filled with zeros to the given width. -/
def hexPadded (width n : Nat) : List Char :=
  let ds := (digits 16 n).map Char.toLower
  List.replicate (width - ds.length) '0' ++ ds

/-- A character inside a text between the given quotes. -/
def showChar (mark c : Char) : List Char :=
  if c = mark ∨ c = '\\' then ['\\', c]
  else if c = '\n' then ['\\', 'n']
  else if c = '\r' then ['\\', 'r']
  else if c = '\t' then ['\\', 't']
  else if isPrintable c then [c]
  else if c.toNat < 0x100 then '\\' :: 'x' :: hexPadded 2 c.toNat
  else if c.toNat < 0x10000 then '\\' :: 'u' :: hexPadded 4 c.toNat
  else '\\' :: 'U' :: hexPadded 8 c.toNat

/-- A text between quotes, as a message shows it. -/
def inQuotes (s : String) : String :=
  let mark := if s.toList.contains '\'' && !s.toList.contains '"' then '"' else '\''
  String.ofList (mark :: s.toList.flatMap (showChar mark) ++ [mark])

end Text

namespace Json

/-- Fractions in messages are written as in documents, but for the words. -/
def shownFractions : Text.FractionStyle where
  leastPlain := -4
  greatestPlain := 15
  infinite := "inf"
  notANumber := "nan"

mutual

/-- A value as a message quotes it. -/
def quotedText : Json → String
  | .null => "None"
  | .bool true => "True"
  | .bool false => "False"
  | .int n => toString n
  | .fraction x => x.text shownFractions
  | .text s => Text.inQuotes s
  | .array vs => "[" ++ ", ".intercalate (quotedItems vs) ++ "]"
  | .object ms => "\x7b" ++ ", ".intercalate (quotedMembers ms) ++ "\x7d"

/-- The items of an array as a message quotes them. -/
def quotedItems : List Json → List String
  | [] => []
  | v :: vs => quotedText v :: quotedItems vs

/-- The members of an object as a message quotes them. -/
def quotedMembers : List (String × Json) → List String
  | [] => []
  | (n, v) :: ms => (Text.inQuotes n ++ ": " ++ quotedText v) :: quotedMembers ms

end

/-- A value as a message shows it where no quotes are called for. -/
def shown : Json → String
  | .text s => s
  | v => v.quotedText

mutual

/-- The integers that a message writes out when it shows a value. -/
def integers : Json → List Int
  | .int n => [n]
  | .array vs => itemIntegers vs
  | .object ms => memberIntegers ms
  | _ => []

/-- The integers of the items of an array. -/
def itemIntegers : List Json → List Int
  | [] => []
  | v :: vs => integers v ++ itemIntegers vs

/-- The integers of the members of an object. -/
def memberIntegers : List (String × Json) → List Int
  | [] => []
  | (_, v) :: ms => integers v ++ memberIntegers ms

end

end Json

end ElectionKeys
