import ElectionKeys.Bytes.BigEndian
import ElectionKeys.Document.Field
import ElectionKeys.Json.Reader

/-!
# Documents

A type of records that are kept as documents says by which title messages name it, which members
its documents have and how they are checked, and how a record is written. From that follow the one
written form of a record and the reader of documents.

The reader refuses a document for all its problems at once. If one of them is an integer that is no
guardian number, the refusal is about that number; otherwise the document is malformed.
-/

namespace ElectionKeys

/-- Records that are kept as JSON documents. -/
class Document (α : Type) where
  /-- The name of the type in messages. -/
  title : String
  /-- The names of the members, in order. -/
  names : List String
  /-- The record that the members of an object make, whatever others there are. -/
  ofMembers : Json.Members → Checked α
  /-- The object of a record. -/
  toJson : α → Json

namespace Document

variable (α : Type) [Document α]

/-- The record that a JSON value makes. -/
def ofJson : Json → Checked α
  | .object m => Function.const Unit <$> ofMembers m <*> Field.onlyKnown (names α) m
  | _ => .fail .notObject

/-- The error for a document of type `α` with the given problems. If it is malformed, the message
ends where an account of the problems would follow after a colon: their wording is no part of it
here, and the failure has the problems themselves. -/
def refuse (ps : List Problem) : Error :=
  let foreign := ps.findSome? fun p =>
    match p.defect with
    | .guardianNumber n => some n
    | _ => none
  match foreign with
  | some n => (Error.outsideGuardians (.int n) maxGuardian).within s!"Lecture de {title α}"
  | none =>
    { failure := .document .malformed (some (title α)) none (.problems ps)
      message := s!"Lecture de {title α}" }

/-- The result of a check as a reader gives it. -/
def accept (c : Checked α) : Except Error α :=
  match c with
  | .valid a => .ok a
  | .invalid ps => .error (refuse α ps)

/-- The record that a text holds. -/
def read (text : String) : Except Error α :=
  match Json.read? text with
  | some v => accept α (ofJson α v)
  | none => .error (refuse α [⟨[], .unreadable⟩])

/-- The record that the bytes of a text hold. -/
def readBytes (bytes : Bytes) : Except Error α :=
  match bytes.toText? with
  | some text => read α text
  | none => .error (refuse α [⟨[], .unreadable⟩])

variable {α}

/-- The written form of a record: its object, and the end of the last line. -/
def render (a : α) : String := (toJson a).pretty ++ "\n"

/-- The bytes of the written form. -/
def renderBytes (a : α) : Bytes := Bytes.ofText (render a)

/-- Hands the written form to a sink, which may refuse it for a reason of its own. -/
def deliver (sink : Bytes → Except String β) (a : α) : Except Error β :=
  match sink (renderBytes a) with
  | .ok b => .ok b
  | .error reason =>
    .error
      { failure := .document .medium (some (title α)) none .unstated
        message := s!"Écriture de {title α} : {reason}" }

/-- A record made of values that are no document, or the reasons why there is none. -/
def build (c : Checked α) : Except Refusal α :=
  match c with
  | .valid a => .ok a
  | .invalid ps => .error (.unbuildable (title α) ps)

end Document

end ElectionKeys
