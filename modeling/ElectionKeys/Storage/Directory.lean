import ElectionKeys.Association
import ElectionKeys.Failure.Error
import ElectionKeys.Bytes.BigEndian

/-!
# Directories

A directory tree as a list of what lies in it, each entry at its location below the root. Paths are
what callers write: they may name the directory above, and they are followed step by step, so that a
path through something that is no directory leads nowhere.

Saving goes through a temporary file: it is created under a fresh name, written, closed, and put in
the target's place in one step. The directory in which it is created is read off the words of the
path, where a name and a step up cancel each other whether or not the name leads anywhere; only the
last step follows the path. Where both lead somewhere, they lead to the same place (`follow_eq_ok`).
The medium may hinder each of the four steps; whichever it hinders, the temporary file is removed
and the tree is what it was.
-/

namespace ElectionKeys

/-! ### Paths -/

/-- The names along a path, without empty ones and those that stand for the place itself. -/
structure Path where
  parts : List String
  deriving DecidableEq

namespace Path

/-- The path that a text writes. -/
def ofText (s : String) : Path :=
  ⟨(s.splitOn "/").filter fun part => part ≠ "" ∧ part ≠ "."⟩

/-- The text of a path. -/
def text (p : Path) : String :=
  match p.parts with
  | [] => "."
  | parts => "/".intercalate parts

instance : ToString Path where
  toString := text

/-- The path of the directory that holds what a path names. -/
def parent (p : Path) : List String := p.parts.dropLast

/-- The last name along a path. -/
def name (p : Path) : String := p.parts.getLast?.getD ""

end Path

/-! ### Trees -/

/-- Where something lies: the names of the directories down to it, and its own. -/
abbrev Location := List String

/-- The number of characters in the names along a location. -/
def Location.size : Location → Nat
  | [] => 0
  | part :: rest => part.length + size rest

/-- Where names lead from a location if each of them is taken for the name of a directory: a step up
takes back the name before it. -/
def Location.after : Location → List String → Location
  | at_, [] => at_
  | at_, part :: rest => after (if part = ".." then at_.dropLast else at_ ++ [part]) rest

/-- What lies at a location. -/
inductive Entry
  | file (content : Bytes)
  | directory
  deriving DecidableEq

/-- All that lies below a directory. -/
structure Directory where
  entries : List (Location × Entry)

namespace Directory

/-- A directory in which nothing lies. -/
def empty : Directory := ⟨[]⟩

/-- What lies at a location; the directory itself lies at the empty one. -/
def get? (d : Directory) (loc : Location) : Option Entry :=
  if loc = [] then some .directory else d.entries.lookup loc

/-- The tree in which the given entry lies at a location. -/
def set (d : Directory) (loc : Location) (e : Entry) : Directory :=
  ⟨Association.put d.entries loc e⟩

/-- The tree in which nothing lies at a location. -/
def erase (d : Directory) (loc : Location) : Directory :=
  ⟨Association.erase d.entries loc⟩

theorem get?_set (d : Directory) {loc : Location} (h : loc ≠ []) (e : Entry) (loc' : Location) :
    (d.set loc e).get? loc' = if loc' = loc then some e else d.get? loc' := by
  by_cases h' : loc' = []
  · subst h'
    simp [get?, Ne.symm h]
  · simp [get?, set, Association.lookup_put, h']

theorem get?_erase (d : Directory) {loc : Location} (h : loc ≠ []) (loc' : Location) :
    (d.erase loc).get? loc' = if loc' = loc then none else d.get? loc' := by
  by_cases h' : loc' = []
  · subst h'
    simp [get?, Ne.symm h]
  · simp [get?, erase, Association.lookup_erase, h']

/-- Follows names from a directory down to a directory. -/
def follow (d : Directory) : Location → List String → Except AccessFault Location
  | at_, [] => .ok at_
  | at_, part :: rest =>
    if part = ".." then follow d at_.dropLast rest
    else
      match d.get? (at_ ++ [part]) with
      | none => .error .notFound
      | some (.file _) => .error .notDirectory
      | some .directory => follow d (at_ ++ [part]) rest

/-- Names that can be followed lead where their words say. -/
theorem follow_eq_ok {d : Directory} {parts : List String} {at_ loc : Location}
    (h : d.follow at_ parts = .ok loc) : loc = at_.after parts := by
  induction parts generalizing at_ with
  | nil => exact (Except.ok.inj h).symm
  | cons part rest ih =>
    rw [follow] at h
    rw [Location.after]
    split at h
    · next hp => rw [if_pos hp]; exact ih h
    · next hp =>
      rw [if_neg hp]
      split at h
      · contradiction
      · contradiction
      · exact ih h

/-- The location that a path names, if a file lies or could lie there. -/
def fileLocation (d : Directory) (p : Path) : Except AccessFault Location := do
  match p.parts.getLast? with
  | none => .error .isDirectory
  | some last =>
    if last = ".." then
      let _ ← d.follow [] p.parts
      .error .isDirectory
    else
      let folder ← d.follow [] p.parent
      match d.get? (folder ++ [last]) with
      | some .directory => .error .isDirectory
      | _ => .ok (folder ++ [last])

/-- The content of a file. -/
def read (d : Directory) (p : Path) : Except AccessFault Bytes := do
  let loc ← d.fileLocation p
  match d.get? loc with
  | some (.file content) => .ok content
  | some .directory => .error .isDirectory
  | none => .error .notFound

/-- The tree after a file is written in place. -/
def write (d : Directory) (p : Path) (content : Bytes) : Except AccessFault Directory := do
  let loc ← d.fileLocation p
  .ok (d.set loc (.file content))

/-- The tree with one more directory. -/
def makeDirectory (d : Directory) (p : Path) : Except AccessFault Directory := do
  let loc ← d.fileLocation p
  .ok (d.set loc .directory)

/-- The texts of all locations in order, those of directories with a slash at their end. -/
def list (d : Directory) : List String :=
  let texts := d.entries.map fun x =>
    match x.2 with
    | .file _ => "/".intercalate x.1
    | .directory => "/".intercalate x.1 ++ "/"
  texts.mergeSort fun a b => decide (a ≤ b)

/-! ### Saving -/

/-- The steps of saving a file. -/
inductive SaveStep
  | create
  | write
  | close
  | replace
  deriving DecidableEq

/-- Which steps the medium hinders, and with what. -/
abbrev Hindrance := SaveStep → Option AccessFault

/-- A medium that hinders nothing. -/
def unhindered : Hindrance := fun _ => none

/-- The number of characters in the longest location. -/
def longest (d : Directory) : Nat :=
  d.entries.foldr (fun x n => max x.1.size n) 0

/-- A name for a temporary file: too long to be any name in the tree. -/
def freshName (d : Directory) (name : String) : String :=
  s!".{name}." ++ String.ofList (List.replicate (d.longest + 1) '_')

/-- Puts a file with the given content in the place that a path names, as a whole or not at all. -/
def save (d : Directory) (hindrance : Hindrance) (p : Path) (content : Bytes) :
    Directory × Except AccessFault Unit :=
  match d.follow [] (Location.after [] p.parent) with
  | .error fault => (d, .error fault)
  | .ok folder =>
    match hindrance .create with
    | some fault => (d, .error fault)
    | none =>
      let temporary := folder ++ [d.freshName p.name]
      let created := d.set temporary (.file [])
      match hindrance .write with
      | some fault => (created.erase temporary, .error fault)
      | none =>
        let written := created.set temporary (.file content)
        match hindrance .close with
        | some fault => (written.erase temporary, .error fault)
        | none =>
          match hindrance .replace with
          | some fault => (written.erase temporary, .error fault)
          | none =>
            match written.fileLocation p with
            | .error fault => (written.erase temporary, .error fault)
            | .ok target => ((written.erase temporary).set target (.file content), .ok ())

end Directory

end ElectionKeys
