import ElectionKeys.Json.Value
import ElectionKeys.Text.Digits

/-!
# Reading JSON

A strict reader over lists of characters. The grammar is the standard one with the bare words
`NaN`, `Infinity` and `-Infinity` added, and with three limits: a number has at most
`maxWholeDigits` digits before its point, arrays and objects that hold something nest at most
`maxDepth` deep, and an escape that names half of a surrogate pair is no character.

The reader of a value takes the depth that is left and recurses on it; the readers of the parts of
an array or object take the reader of what it may hold as an argument. Whatever has parts, such as
an array or a quoted text, is walked under a `limit` on their number. The length of the whole text
serves as the limit everywhere in it, since every part uses up some of the text.
-/

namespace ElectionKeys.Json

/-- Reads something at the front of a text and gives it with the rest of the text. -/
abbrev Reader (α : Type) := List Char → Option (α × List Char)

/-- The most digits that a number may have before its point, whether a point follows or not. The
digits after the point are not limited, and the sign does not count. -/
def maxWholeDigits : Nat := 4300

/-- The most arrays and objects that hold something and may stand inside one another. An empty one
does not count, so it may stand at the bottom. -/
def maxDepth : Nat := 200

/-- The characters that may stand between tokens. -/
def isBlank (c : Char) : Bool :=
  c = ' ' || c = '\t' || c = '\n' || c = '\r'

/-- A text without the blanks at its front. -/
def skipBlanks (cs : List Char) : List Char := cs.dropWhile isBlank

def isDigit (c : Char) : Bool := '0' ≤ c && c ≤ '9'

/-! ### Numbers -/

/-- The number that decimal digits denote. -/
def decimal (cs : List Char) : Nat := (Text.ofDigits? 10 cs).getD 0

/-- A nonempty run of digits. -/
def digitRun : Reader (List Char) := fun cs =>
  match cs.span isDigit with
  | ([], _) => none
  | run => some run

/-- The digits before the point: a single zero, or a run that starts with another digit. -/
def wholePart : Reader (List Char)
  | '0' :: cs => some (['0'], cs)
  | cs => digitRun cs

/-- The digits after the point, if there is a point. -/
def fractionPart : Reader (Option (List Char))
  | '.' :: cs => (digitRun cs).map fun (ds, cs) => (some ds, cs)
  | cs => some (none, cs)

/-- The exponent after its letter. -/
def exponentDigits : Reader Int
  | '-' :: cs => (digitRun cs).map fun (ds, cs) => (-(decimal ds : Int), cs)
  | '+' :: cs => (digitRun cs).map fun (ds, cs) => ((decimal ds : Int), cs)
  | cs => (digitRun cs).map fun (ds, cs) => ((decimal ds : Int), cs)

/-- The exponent, if there is one. -/
def exponentPart : Reader (Option Int)
  | 'e' :: cs => (exponentDigits cs).map fun (e, cs) => (some e, cs)
  | 'E' :: cs => (exponentDigits cs).map fun (e, cs) => (some e, cs)
  | cs => some (none, cs)

/-- A number without its sign. One with neither point nor exponent is an integer. -/
def unsigned (negative : Bool) : Reader Json := fun cs => do
  let (whole, cs) ← wholePart cs
  guard (whole.length ≤ maxWholeDigits)
  let (after?, cs) ← fractionPart cs
  let (exponent?, cs) ← exponentPart cs
  match after?, exponent? with
  | none, none =>
    let n : Int := decimal whole
    some (.int (if negative then -n else n), cs)
  | after?, exponent? =>
    let after := after?.getD []
    let shift : Int := exponent?.getD 0 - after.length
    some (.fraction (.finite negative (decimal (whole ++ after)) shift), cs)

/-! ### Text -/

/-- The value of a hexadecimal digit in either case. -/
def hexValue? (c : Char) : Option Nat :=
  if 'a' ≤ c ∧ c ≤ 'f' then some (c.toNat - 87) else Text.digitValue? c

/-- The sixteen bits that four hexadecimal digits denote. -/
def hexUnit : Reader Nat
  | a :: b :: c :: d :: cs => do
    let a ← hexValue? a
    let b ← hexValue? b
    let c ← hexValue? c
    let d ← hexValue? d
    some (((a * 16 + b) * 16 + c) * 16 + d, cs)
  | _ => none

/-- The character that a `u` escape names after its letter: one unit, or the two units of a
surrogate pair, the second with an escape of its own. -/
def unicodeEscape : Reader Char := fun cs => do
  let (u, cs) ← hexUnit cs
  if u < 0xD800 ∨ 0xDFFF < u then some (Char.ofNat u, cs)
  else if 0xDBFF < u then none
  else
    match cs with
    | '\\' :: 'u' :: cs =>
      let (v, cs) ← hexUnit cs
      if v < 0xDC00 ∨ 0xDFFF < v then none
      else some (Char.ofNat (0x10000 + (u - 0xD800) * 0x400 + (v - 0xDC00)), cs)
    | _ => none

/-- The character that an escape names after its backslash. -/
def escaped : Reader Char
  | '"' :: cs => some ('"', cs)
  | '\\' :: cs => some ('\\', cs)
  | '/' :: cs => some ('/', cs)
  | 'b' :: cs => some (Char.ofNat 8, cs)
  | 'f' :: cs => some (Char.ofNat 12, cs)
  | 'n' :: cs => some ('\n', cs)
  | 'r' :: cs => some ('\r', cs)
  | 't' :: cs => some ('\t', cs)
  | 'u' :: cs => unicodeEscape cs
  | _ => none

/-- The characters of a text after its opening quote. -/
def characters : Nat → Reader (List Char)
  | 0, _ => none
  | _ + 1, [] => none
  | fuel + 1, c :: cs =>
    if c = '"' then some ([], cs)
    else if c = '\\' then do
      let (x, cs) ← escaped cs
      let (xs, cs) ← characters fuel cs
      some (x :: xs, cs)
    else if c.toNat < 32 then none
    else do
      let (xs, cs) ← characters fuel cs
      some (c :: xs, cs)

/-- A text after its opening quote. -/
def quoted (limit : Nat) : Reader String := fun cs =>
  (characters limit cs).map fun (xs, cs) => (String.ofList xs, cs)

/-! ### Values -/

/-- The given word at the front of a text stands for the given value. -/
def word (w : String) (v : Json) : Reader Json := fun cs =>
  (w.toList.isPrefixOf? cs).map fun cs => (v, cs)

/-- A value that is neither array nor object. -/
def scalar (limit : Nat) : Reader Json
  | [] => none
  | c :: cs =>
    if c = '"' then (quoted limit cs).map fun (s, cs) => (.text s, cs)
    else if c = 'n' then word "ull" .null cs
    else if c = 't' then word "rue" (.bool true) cs
    else if c = 'f' then word "alse" (.bool false) cs
    else if c = 'N' then word "aN" (.fraction .notANumber) cs
    else if c = 'I' then word "nfinity" (.fraction (.infinite false)) cs
    else if c = '-' then
      match cs with
      | 'I' :: cs => word "nfinity" (.fraction (.infinite true)) cs
      | cs => unsigned true cs
    else unsigned false (c :: cs)

/-- One part or more with commas between them, up to and with the closing character. -/
def separated (close : Char) (part : Reader α) : Nat → Reader (List α)
  | 0, _ => none
  | fuel + 1, cs => do
    let (x, cs) ← part (skipBlanks cs)
    match skipBlanks cs with
    | [] => none
    | c :: cs =>
      if c = ',' then do
        let (xs, cs) ← separated close part fuel cs
        some (x :: xs, cs)
      else if c = close then some ([x], cs)
      else none

/-- The parts that stand after an opening character, up to and with the closing one. -/
def body (close : Char) (limit : Nat) (part : Reader α) : Reader (List α) := fun cs =>
  match skipBlanks cs with
  | [] => none
  | c :: cs => if c = close then some ([], cs) else separated close part limit (c :: cs)

/-- A member of an object: a quoted name, a colon and a value. -/
def member (limit : Nat) (value : Reader Json) : Reader (String × Json)
  | '"' :: cs => do
    let (name, cs) ← quoted limit cs
    match skipBlanks cs with
    | ':' :: cs =>
      let (v, cs) ← value (skipBlanks cs)
      some ((name, v), cs)
    | _ => none
  | _ => none

/-- A value in which an array or object holds what the given reader reads. -/
def valueOver (limit : Nat) (inner : Reader Json) : Reader Json
  | '[' :: cs => (body ']' limit inner cs).map fun (vs, cs) => (.array vs, cs)
  | '{' :: cs =>
    (body '}' limit (member limit inner) cs).map fun (ms, cs) => (.object (Members.collect ms), cs)
  | cs => scalar limit cs

/-- A value in which arrays and objects that hold something nest at most as deep as the second
argument says. Where no depth is left, they can hold nothing. -/
def value (limit : Nat) : Nat → Reader Json
  | 0, cs => valueOver limit (fun _ => none) cs
  | depth + 1, cs => valueOver limit (value limit depth) cs

/-- The value that a whole text denotes if it nests at most as deep as the first argument says. -/
def readWithin? (depth : Nat) (text : String) : Option Json :=
  let cs := text.toList
  match value cs.length depth (skipBlanks cs) with
  | some (v, cs) => if skipBlanks cs = [] then some v else none
  | none => none

/-- The value that a whole text denotes. -/
def read? (text : String) : Option Json := readWithin? maxDepth text

end ElectionKeys.Json
