import ElectionKeys.Failure.Kind
import ElectionKeys.Failure.Problem
import ElectionKeys.Json.Shown

/-!
# Errors

An error says what failed in terms that a program can act on, has a message of its own, and gathers
the contexts that it passes on its way out. Its text is all of them, the outermost context first.
Adding a context changes nothing else of the error.

A message may write out integers of any size, but integers may be too long to be written: a machine
may set a limit to the number of their decimal digits. So an error also lists the integers of its
message, and what comes out where it is raised depends on the limit (`Error.raised`): the error, or
else, if one of them is too long, that an integer cannot be written (`Refusal.unwritable`). Without
a limit every error comes out. No operation here catches that refusal or goes on after it, so it is
enough to apply the limit to what an operation is refused for.

A limit is meant to allow at least the integers that documents can hold (`Json.maxWholeDigits`), so
that it matters only for integers that a caller hands in or that a registry lists.
-/

namespace ElectionKeys

/-- What the operating system refuses an access for. -/
inductive AccessFault
  /-- Nothing has that name. -/
  | notFound
  /-- A directory stands where a file belongs. -/
  | isDirectory
  /-- A file stands where a directory belongs. -/
  | notDirectory
  /-- The medium refuses for a reason of its own. -/
  | refused (reason : String)
  deriving DecidableEq

/-- What lies behind a fault with a document: what others say about it, which the message does not
repeat. -/
inductive DocumentCause
  | unstated
  | problems (ps : List Problem)
  | access (fault : AccessFault)
  deriving DecidableEq

/-- What failed. -/
inductive Failure
  /-- Nothing more is known. -/
  | general
  /-- The election parameters failed a test. -/
  | parameter (test : ParameterTest)
  /-- The key of the guardian with the given number failed a test. -/
  | key (test : KeyTest) (guardian : Option Int)
  /-- The value that was given is not the number of a guardian, or not the expected one. -/
  | index (test : KeyTest) (given : Json)
  /-- Public keys are not complete. -/
  | incomplete (how : Incompleteness) (indices : List Int)
  /-- A document could not be read or written. -/
  | document (fault : DocumentFault) (record path : Option String) (cause : DocumentCause)

/-- An error: what failed, its own message, the contexts that it has passed, outermost first, and
the integers that the message writes out. -/
structure Error where
  failure : Failure
  message : String
  context : List String := []
  numbers : List Int := []

namespace Error

/-- The error seen from one context further out. -/
def within (context : String) (e : Error) : Error := { e with context := context :: e.context }

/-- The whole text of an error. -/
def text (e : Error) : String := ": ".intercalate (e.context ++ [e.message])

@[simp] theorem within_failure (c : String) (e : Error) : (e.within c).failure = e.failure := rfl

@[simp] theorem within_message (c : String) (e : Error) : (e.within c).message = e.message := rfl

@[simp] theorem within_context (c : String) (e : Error) :
    (e.within c).context = c :: e.context := rfl

@[simp] theorem within_numbers (c : String) (e : Error) : (e.within c).numbers = e.numbers := rfl

/-- A failed test of the parameters, in its own wording or, where that is empty, the usual one. The
wording may write out the given integers. -/
def ofParameter (test : ParameterTest) (wording : String := "") (numbers : List Int := []) :
    Error where
  failure := .parameter test
  message := if wording = "" then s!"Échec du test des paramètres : {test.text}" else wording
  numbers := numbers

/-- Numbers with a comma between them. -/
def listed (indices : List Int) : String := ", ".intercalate (indices.map toString)

/-- A set of public keys that is not complete because of the given indices. -/
def ofIncomplete (how : Incompleteness) (indices : List Int) : Error where
  failure := .incomplete how indices
  message :=
    match how with
    | .duplicate =>
      s!"Le gardien {listed indices} apparaît plusieurs fois parmi les clés publiques des gardiens"
    | .missing => s!"Gardien(s) {listed indices} absent(s) des clés publiques des gardiens"
  numbers := indices

end Error

/-- Why an operation has no result. -/
inductive Refusal
  /-- An error in the sense of this library. -/
  | error (e : Error)
  /-- A record of the given title cannot be made of the given values. -/
  | unbuildable (title : String) (problems : List Problem)
  /-- No number can be drawn below zero. -/
  | emptyBound
  /-- A power is asked for modulo zero. -/
  | zeroModulus
  /-- A public key has no commitment. -/
  | noCommitment
  /-- A table of guardians has no place for one of them. -/
  | noPlace
  /-- No such source of digits is known. -/
  | unknownSource (name : String)
  /-- An integer in the message of an error is too long to be written. -/
  | unwritable

/-! ### Integers that are too long to be written -/

/-- Whether an integer has at most so many decimal digits, not counting its sign. Without a limit
every integer will do. -/
def withinDigits (limit : Option Nat) (n : Int) : Bool :=
  limit.all fun digits => n.natAbs < Nat.pow 10 digits

/-- What comes out when an error is raised under a limit on the digits of integers: the error, or
that an integer of its message cannot be written. -/
def Error.raised (limit : Option Nat) (e : Error) : Refusal :=
  if e.numbers.all (withinDigits limit) then .error e else .unwritable

/-- What comes out of an operation that is refused, under a limit on the digits of integers. Only
errors have messages that are put together here. -/
def Refusal.raised (limit : Option Nat) : Refusal → Refusal
  | .error e => e.raised limit
  | refusal => refusal

/-- Without a limit all that an operation is refused for comes out as it is. -/
@[simp] theorem Refusal.raised_none (refusal : Refusal) : refusal.raised none = refusal := by
  cases refusal with
  | error e => exact if_pos (List.all_eq_true.2 fun _ _ => rfl)
  | _ => rfl

/-! ### Outcomes one after the other -/

section Outcomes

variable {ε ε' α β : Type} {x : Except ε α}

theorem bind_eq_ok_iff {f : α → Except ε β} {b : β} :
    (x >>= f) = .ok b ↔ ∃ a, x = .ok a ∧ f a = .ok b := by
  cases x <;> simp [bind, Except.bind]

/-- The second of two outcomes is the whole outcome if the first is a result. -/
theorem bind_eq_error_iff {f : α → Except ε β} {e : ε} :
    (x >>= f) = .error e ↔ x = .error e ∨ ∃ a, x = .ok a ∧ f a = .error e := by
  cases x <;> simp [bind, Except.bind]

theorem map_eq_ok_iff {f : α → β} {b : β} : x.map f = .ok b ↔ ∃ a, x = .ok a ∧ f a = b := by
  cases x <;> simp [Except.map]

theorem map_eq_error_iff {f : α → β} {e : ε} : x.map f = .error e ↔ x = .error e := by
  cases x <;> simp [Except.map]

theorem mapError_eq_ok_iff {f : ε → ε'} {a : α} : x.mapError f = .ok a ↔ x = .ok a := by
  cases x with
  | error e => exact iff_of_false (by intro h; cases h) (by intro h; cases h)
  | ok b =>
    show Except.ok b = Except.ok a ↔ _
    rw [Except.ok.injEq, Except.ok.injEq]

theorem mapError_eq_error_iff {f : ε → ε'} {e : ε'} :
    x.mapError f = .error e ↔ ∃ e', x = .error e' ∧ f e' = e := by
  cases x with
  | error e' =>
    show Except.error (f e') = Except.error e ↔ _
    simp
  | ok a => exact iff_of_false (by intro h; cases h) (by rintro ⟨e', h, -⟩; cases h)

end Outcomes

end ElectionKeys
