import ElectionKeys.Guardian.Index

/-!
# The fields of a document

Checks of single values: first the checks of JSON values for their type, then the checks that a
value of the right type lies in its range. The latter serve also where a record is made of numbers
that were never JSON. Last come the checks of the members of an object.
-/

namespace ElectionKeys.Field

/-! ### Types -/

/-- An integer literal. -/
def integer : Json → Checked Int
  | .int n => .valid n
  | _ => .fail .notInteger

/-- A text. -/
def text : Json → Checked String
  | .text s => .valid s
  | _ => .fail .notText

/-- The items of an array. -/
def array : Json → Checked (List Json)
  | .array vs => .valid vs
  | _ => .fail .notArray

/-- The number that a text says under `BigNumber.ofText`. -/
def big : Json → Checked Nat
  | .text s =>
    match BigNumber.ofText s with
    | .ok n => .valid n
    | .error fault => .fail (.number fault)
  | _ => .fail (.number .markerMissing)

/-- Two integers in an array. Absent ones are missing; an array with more of them is not looked
into. -/
def pair (v : Json) : Checked (Int × Int) :=
  (array v).andThen fun
    | [] => .invalid [⟨[.position 0], .missing⟩, ⟨[.position 1], .missing⟩]
    | [a] =>
      Prod.mk <$> (integer a).under (.position 0) <*> .invalid [⟨[.position 1], .missing⟩]
    | [a, b] => Prod.mk <$> (integer a).under (.position 0) <*> (integer b).under (.position 1)
    | _ => .fail .tooLong

/-! ### Ranges -/

/-- A number that is not negative. -/
def natural (n : Int) : Checked Int :=
  if n < 0 then .fail .negative else .valid n

/-- A number of sixteen bits. -/
def short (n : Int) : Checked Int :=
  if n < 0 then .fail .negative
  else if maxGuardian < n then .fail .above65535
  else .valid n

/-- The number of a guardian. -/
def guardianNumber (n : Int) : Checked Int :=
  if 1 ≤ n ∧ n ≤ maxGuardian then .valid n else .fail (.guardianNumber n)

/-- A large number that is given as an integer. -/
def bigOfInt (n : Int) : Checked Nat :=
  if n < 0 then .fail (.number .negative) else .valid n.toNat

/-! ### Members -/

/-- The member of a name, which has to be there. -/
def required (m : Json.Members) (name : String) (check : Json → Checked α) : Checked α :=
  match m.get? name with
  | none => .invalid [⟨[.name name], .missing⟩]
  | some v => (check v).under (.name name)

/-- The member of a name, which may be absent or null. -/
def optional (m : Json.Members) (name : String) (check : Json → Checked α) :
    Checked (Option α) :=
  match m.get? name with
  | none => .valid none
  | some .null => .valid none
  | some v => ((check v).map some).under (.name name)

/-- The problems of members whose names are not among the given ones. -/
def unknown (names : List String) (m : Json.Members) : List Problem :=
  (m.filter fun p => !names.contains p.1).map fun p => ⟨[.name p.1], .unknownMember⟩

/-- That all members have one of the given names. -/
def onlyKnown (names : List String) (m : Json.Members) : Checked Unit :=
  match unknown names m with
  | [] => .valid ()
  | ps => .invalid ps

end ElectionKeys.Field
