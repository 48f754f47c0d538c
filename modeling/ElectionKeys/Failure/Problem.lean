import ElectionKeys.Text.BigNumber

/-!
# Problems with a value

When a value is checked against the shape that it should have, all that is wrong with it is
collected: each problem has a place, as a path of member names and array positions, and a defect.
-/

namespace ElectionKeys

/-- One step of a path into a value. -/
inductive PathStep
  | name (member : String)
  | position (index : Nat)
  deriving DecidableEq

/-- What can be wrong at a place. -/
inductive Defect
  /-- The text is no JSON. -/
  | unreadable
  | notObject
  | missing
  | unknownMember
  | notInteger
  | negative
  | above65535
  | notText
  | notASource
  | notArray
  | tooLong
  | tooShort
  /-- The text or number is no large number. -/
  | number (fault : BigNumber.Fault)
  /-- The integer is no guardian number. -/
  | guardianNumber (given : Int)
  deriving DecidableEq

/-- A defect and its place. -/
structure Problem where
  path : List PathStep
  defect : Defect
  deriving DecidableEq

/-- A problem seen from one step further out. -/
def Problem.under (step : PathStep) (p : Problem) : Problem :=
  { p with path := step :: p.path }

/-- A value of the right shape, or everything that is wrong with it, in order. -/
inductive Checked (α : Type)
  | valid (value : α)
  | invalid (problems : List Problem)

namespace Checked

/-- The problems of a check, none for a valid value. -/
def problems : Checked α → List Problem
  | .valid _ => []
  | .invalid ps => ps

/-- A check that fails with one defect at the place itself. -/
def fail (d : Defect) : Checked α := .invalid [⟨[], d⟩]

def map (f : α → β) : Checked α → Checked β
  | .valid a => .valid (f a)
  | .invalid ps => .invalid ps

/-- Both checks, with the problems of both. -/
def both (f : Checked (α → β)) (x : Checked α) : Checked β :=
  match f, x with
  | .valid f, .valid a => .valid (f a)
  | .valid _, .invalid ps => .invalid ps
  | .invalid ps, .valid _ => .invalid ps
  | .invalid ps, .invalid qs => .invalid (ps ++ qs)

instance : Applicative Checked where
  pure := .valid
  map := map
  seq f x := both f (x ())

/-- A further check of a valid value. -/
def andThen (x : Checked α) (f : α → Checked β) : Checked β :=
  match x with
  | .valid a => f a
  | .invalid ps => .invalid ps

/-- A check seen from one step further out. -/
def under (step : PathStep) : Checked α → Checked α
  | .valid a => .valid a
  | .invalid ps => .invalid (ps.map (Problem.under step))

/-- The check of each item of a list, from position `i` on. -/
def eachFrom (check : α → Checked β) (i : Nat) : List α → Checked (List β)
  | [] => .valid []
  | x :: xs => List.cons <$> (check x).under (.position i) <*> eachFrom check (i + 1) xs

/-- The check of each item of a list. -/
def each (check : α → Checked β) (xs : List α) : Checked (List β) := eachFrom check 0 xs

/-- Whether a check finds nothing wrong. -/
def isValid : Checked α → Bool
  | .valid _ => true
  | .invalid _ => false

/-- The check of each item of a list in which at least one item has to be right. -/
def eachOfSome (check : α → Checked β) (xs : List α) : Checked (List β) :=
  if xs.any fun x => (check x).isValid then each check xs
  else .invalid ((each check xs).problems ++ [⟨[], .tooShort⟩])

/-! ### When nothing is wrong -/

theorem map_eq_valid_iff {f : α → β} {x : Checked α} {b : β} :
    f <$> x = .valid b ↔ ∃ a, x = .valid a ∧ f a = b := by
  cases x <;> simp [Functor.map, map]

theorem seq_eq_valid_iff {f : Checked (α → β)} {x : Checked α} {b : β} :
    f <*> x = .valid b ↔ ∃ g a, f = .valid g ∧ x = .valid a ∧ g a = b := by
  cases f <;> cases x <;> simp [Seq.seq, both]

theorem andThen_eq_valid_iff {x : Checked α} {f : α → Checked β} {b : β} :
    x.andThen f = .valid b ↔ ∃ a, x = .valid a ∧ f a = .valid b := by
  cases x <;> simp [andThen]

theorem under_eq_valid_iff {step : PathStep} {x : Checked α} {a : α} :
    x.under step = .valid a ↔ x = .valid a := by
  cases x <;> simp [under]

theorem eachFrom_eq_valid_iff {check : α → Checked β} {i : Nat} {xs : List α} {ys : List β} :
    eachFrom check i xs = .valid ys ↔ xs.map check = ys.map .valid := by
  induction xs generalizing i ys with
  | nil => cases ys <;> simp [eachFrom]
  | cons x xs ih =>
    simp only [eachFrom, seq_eq_valid_iff, map_eq_valid_iff, under_eq_valid_iff, ih]
    constructor
    · rintro ⟨_, bs, ⟨b, hb, rfl⟩, hbs, rfl⟩
      rw [List.map_cons, List.map_cons, hb, hbs]
    · cases ys with
      | nil => simp
      | cons b bs =>
        intro h
        rw [List.map_cons, List.map_cons, List.cons.injEq] at h
        exact ⟨_, bs, ⟨b, h.1, rfl⟩, h.2, rfl⟩

/-- All items of a list are right exactly when each of them is. -/
theorem each_eq_valid_iff {check : α → Checked β} {xs : List α} {ys : List β} :
    each check xs = .valid ys ↔ xs.map check = ys.map .valid :=
  eachFrom_eq_valid_iff

theorem eachOfSome_eq_valid_iff {check : α → Checked β} {xs : List α} {ys : List β} :
    eachOfSome check xs = .valid ys ↔ ys ≠ [] ∧ xs.map check = ys.map .valid := by
  rw [eachOfSome]
  split
  · next hany =>
    rw [each_eq_valid_iff]
    refine ⟨fun h => ⟨?_, h⟩, fun h => h.2⟩
    rintro rfl
    rw [List.map_nil, List.map_eq_nil_iff] at h
    simp [h] at hany
  · next hany =>
    refine ⟨fun h => by contradiction, ?_⟩
    rintro ⟨hne, h⟩
    cases ys with
    | nil => exact absurd rfl hne
    | cons b bs =>
      cases xs with
      | nil => simp at h
      | cons x xs =>
        rw [List.map_cons, List.map_cons, List.cons.injEq] at h
        simp [h.1, isValid] at hany

end Checked

end ElectionKeys
