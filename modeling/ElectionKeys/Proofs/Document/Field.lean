import Mathlib
import ElectionKeys.Guardian.Key
import ElectionKeys.Proofs.Text.BigNumber

/-!
# Fields that are right

When the checks of single values and of members find nothing wrong. Each lemma is about one check
and says either exactly when its outcome is valid, or that it is for what a record is written as;
what the problems are in the other cases is not said here.

* A check of a range gives back what it was given (`natural_eq_valid_iff` and the others). Ranges
  are checked in the same way in a document and in a constructor, so these lemmas serve both.
* A check of a type undoes the writing of a value of that type (`big_toJson`, `bigs_listToJson`).
  For large numbers that is where the text of a number comes in, by `BigNumber.ofText_toText`.
* `required_eq_valid` and `optional_eq_valid` lift that to the member of a name. An optional member
  has three ways of being absent or empty, and a value is not mistaken for any of them.
* `Document.ofJson_object` puts members together: an object makes a record if its members do and
  none of them is unknown.
* The constructors are described by `make_eq_ok_iff`, one for each type. All problems are collected
  before there is an outcome, so the conditions stand side by side and have no order.
-/

namespace ElectionKeys

namespace Field

/-! ### Ranges -/

/-- The check for a number that is not negative gives back what it was given. -/
theorem natural_eq_valid_iff {n m : ℤ} : natural n = .valid m ↔ 0 ≤ n ∧ n = m := by
  rw [natural]
  split
  · next h => exact iff_of_false nofun fun h' ↦ not_le.2 h h'.1
  · next h => rw [Checked.valid.injEq, and_iff_right (not_lt.1 h)]

/-- So does the check for a number of sixteen bits. -/
theorem short_eq_valid_iff {n m : ℤ} :
    short n = .valid m ↔ (0 ≤ n ∧ n ≤ maxGuardian) ∧ n = m := by
  rw [short]
  split
  · next h => exact iff_of_false nofun fun h' ↦ not_le.2 h h'.1.1
  · next h =>
    split
    · next hmax => exact iff_of_false nofun fun h' ↦ not_le.2 hmax h'.1.2
    · next hmax => rw [Checked.valid.injEq, and_iff_right ⟨not_lt.1 h, not_lt.1 hmax⟩]

/-- So does the check for the number of a guardian, which excludes 0 as well. -/
theorem guardianNumber_eq_valid_iff {n m : ℤ} :
    guardianNumber n = .valid m ↔ (1 ≤ n ∧ n ≤ maxGuardian) ∧ n = m := by
  rw [guardianNumber]
  split
  · next h => rw [Checked.valid.injEq, and_iff_right h]
  · next h => exact iff_of_false nofun fun h' ↦ h h'.1

/-- An integer is a large number if it is not negative. -/
theorem bigOfInt_eq_valid_iff {x : ℤ} {n : ℕ} : bigOfInt x = .valid n ↔ x = Int.ofNat n := by
  rw [bigOfInt]
  split
  · next h => exact iff_of_false nofun fun h' ↦ absurd h (h' ▸ not_lt.2 (Int.natCast_nonneg n))
  · next h =>
    rw [Checked.valid.injEq, Int.ofNat_eq_natCast]
    omega

/-- Integers are checked one by one, and the results are right together exactly when the integers
are those numbers. In this form the constructors of keys meet it, which collect the problems of all
items. -/
theorem map_bigOfInt_eq_iff {xs : List ℤ} {ns : List ℕ} :
    xs.map bigOfInt = ns.map .valid ↔ xs = ns.map Int.ofNat := by
  induction xs generalizing ns with
  | nil => cases ns <;> simp
  | cons x xs ih =>
    cases ns with
    | nil => simp
    | cons n ns =>
      rw [List.map_cons, List.map_cons, List.map_cons, List.cons.injEq, List.cons.injEq,
        bigOfInt_eq_valid_iff, ih]

/-! ### Types -/

theorem text_text (s : String) : text (.text s) = .valid s := rfl

theorem pair_ints (v : ℤ × ℤ) : pair (.array [.int v.1, .int v.2]) = .valid v := rfl

/-- A large number is read from its own text. -/
theorem big_toJson (n : ℕ) : big (BigNumber.toJson n) = .valid n := by
  rw [BigNumber.toJson, big, BigNumber.ofText_toText]

theorem map_big_toJson (ns : List ℕ) :
    (ns.map BigNumber.toJson).map big = ns.map .valid := by
  rw [List.map_map]
  exact List.map_congr_left fun n _ ↦ big_toJson n

/-- A list of large numbers is read from the array of their texts. -/
theorem bigs_listToJson (ns : List ℕ) : bigs (BigNumber.listToJson ns) = .valid ns :=
  Checked.each_eq_valid_iff.2 (map_big_toJson ns)

/-- Where a list must not be empty, nothing else is asked of it. -/
theorem someBigs_listToJson {ns : List ℕ} (h : ns ≠ []) :
    someBigs (BigNumber.listToJson ns) = .valid ns :=
  Checked.eachOfSome_eq_valid_iff.2 ⟨h, map_big_toJson ns⟩

/-- The number of a guardian in a document is an integer literal in the range. -/
theorem guardian_int {n : ℤ} (h : 1 ≤ n ∧ n ≤ maxGuardian) : guardian (.int n) = .valid n :=
  guardianNumber_eq_valid_iff.2 ⟨h, rfl⟩

/-! ### Members -/

variable {α : Type} {m : Json.Members} {name : String}

/-- A member that is there and passes its check is what the check makes of it. -/
theorem required_eq_valid {check : Json → Checked α} {v : Json} {a : α}
    (hget : m.get? name = some v) (hcheck : check v = .valid a) :
    required m name check = .valid a := by
  rw [required, hget]
  exact Checked.under_eq_valid_iff.2 hcheck

/-- A member that may be absent is read back from what it is written as, which is null where there
is no value. For that the value itself must not be written as null. -/
theorem optional_eq_valid {check : Json → Checked α} (write : α → Json) {a? : Option α}
    (hget : m.get? name = some (.ofOption write a?)) (hwrite : ∀ a, write a ≠ .null)
    (hcheck : ∀ a, check (write a) = .valid a) : optional m name check = .valid a? := by
  rw [optional, hget]
  cases a? with
  | none => rfl
  | some a =>
    -- A value that is there is not mistaken for a null.
    rw [Json.ofOption]
    split
    · next h => contradiction
    · next h => exact absurd (Option.some.inj h) (hwrite a)
    · next v _ h =>
      rw [← Option.some.inj h, hcheck a]
      rfl

end Field

/-- An object makes a record if its members do and are called as the members of such records. -/
theorem Document.ofJson_object {α : Type} [Document α] {m : Json.Members} {a : α}
    (hmembers : ofMembers m = .valid a) (hnames : m.map Prod.fst = names α) :
    ofJson α (.object m) = .valid a := by
  have hknown : Field.unknown (names α) m = [] := by
    rw [Field.unknown, List.map_eq_nil_iff, List.filter_eq_nil_iff]
    intro p hp
    have hmem := List.mem_map_of_mem (f := Prod.fst) hp
    rw [hnames] at hmem
    simp [hmem]
  rw [ofJson, hmembers, Field.onlyKnown, hknown]
  rfl

/-! ### Records made of numbers -/

/-- A constructor gives a record exactly when the checks of its arguments come to one. -/
theorem Document.build_eq_ok_iff {α : Type} [Document α] {c : Checked α} {a : α} :
    build c = .ok a ↔ c = .valid a := by
  cases c <;> simp [build]

theorem Checked.pure_eq_valid_iff {α : Type} {a b : α} :
    (pure a : Checked α) = .valid b ↔ a = b := by
  show Checked.valid a = .valid b ↔ a = b
  rw [Checked.valid.injEq]

/-- The constructor of shapes asks that no number of bits is negative. -/
theorem PrimeShape.make_eq_ok_iff {q p t b : ℤ} {middle : DigitSource} {s : PrimeShape} :
    make q p t middle b = .ok s ↔
      (0 ≤ q ∧ 0 ≤ p ∧ 0 ≤ t ∧ 0 ≤ b) ∧ ⟨q, p, t, middle, b⟩ = s := by
  simp [make, Document.build_eq_ok_iff, Checked.seq_eq_valid_iff, Checked.map_eq_valid_iff,
    Checked.under_eq_valid_iff, Checked.pure_eq_valid_iff, Field.natural_eq_valid_iff, and_assoc]

/-- The constructor of terms asks for sixteen bits of each of the two numbers. That there are
guardians, and not fewer than have to come, is not its business. -/
theorem Terms.make_eq_ok_iff {n k : ℤ} {date info : String} {T : Terms} :
    make n k date info = .ok T ↔
      ((0 ≤ n ∧ n ≤ maxGuardian) ∧ 0 ≤ k ∧ k ≤ maxGuardian) ∧ ⟨n, k, date, info⟩ = T := by
  simp [make, Document.build_eq_ok_iff, Checked.seq_eq_valid_iff, Checked.map_eq_valid_iff,
    Checked.under_eq_valid_iff, Checked.pure_eq_valid_iff, Field.short_eq_valid_iff, and_assoc]

/-- The constructor of public keys asks for the number of a guardian and for some commitment, and
for commitments that are large numbers. It does not look at the election. -/
theorem PublicKey.make_eq_ok_iff {i : ℤ} {name : Option String} {commitments : List ℤ}
    {K : PublicKey} :
    make i name commitments = .ok K ↔
      ((1 ≤ i ∧ i ≤ maxGuardian) ∧ K.commitments ≠ []) ∧
        i = K.guardian ∧ name = K.name ∧ commitments = K.commitments.map Int.ofNat := by
  obtain ⟨j, name', ns⟩ := K
  simp only [make, Document.build_eq_ok_iff, Checked.seq_eq_valid_iff, Checked.map_eq_valid_iff,
    Checked.under_eq_valid_iff, Checked.pure_eq_valid_iff, Field.guardianNumber_eq_valid_iff,
    Checked.eachOfSome_eq_valid_iff, Field.map_bigOfInt_eq_iff]
  constructor
  · rintro ⟨_, _, ⟨_, _, ⟨_, ⟨hi, rfl⟩, rfl⟩, rfl, rfl⟩, ⟨hne, hcommitments⟩, hK⟩
    cases hK
    exact ⟨⟨hi, hne⟩, rfl, rfl, hcommitments⟩
  · rintro ⟨⟨hi, hne⟩, rfl, rfl, hcommitments⟩
    exact ⟨_, ns, ⟨_, name, ⟨i, ⟨hi, rfl⟩, rfl⟩, rfl, rfl⟩, ⟨hne, hcommitments⟩, rfl⟩

/-- The constructor of secret keys asks the same, and that the coefficients are large numbers. There
may be none of them. -/
theorem SecretKey.make_eq_ok_iff {i : ℤ} {name : Option String}
    {coefficients commitments : List ℤ} {S : SecretKey} :
    make i name coefficients commitments = .ok S ↔
      ((1 ≤ i ∧ i ≤ maxGuardian) ∧ S.commitments ≠ []) ∧
        i = S.guardian ∧ name = S.name ∧ coefficients = S.coefficients.map Int.ofNat ∧
          commitments = S.commitments.map Int.ofNat := by
  obtain ⟨j, name', as, ns⟩ := S
  simp only [make, Document.build_eq_ok_iff, Checked.seq_eq_valid_iff, Checked.map_eq_valid_iff,
    Checked.under_eq_valid_iff, Checked.pure_eq_valid_iff, Field.guardianNumber_eq_valid_iff,
    Checked.each_eq_valid_iff, Checked.eachOfSome_eq_valid_iff, Field.map_bigOfInt_eq_iff]
  constructor
  · rintro ⟨_, _, ⟨_, _, ⟨_, _, ⟨_, ⟨hi, rfl⟩, rfl⟩, rfl, rfl⟩, hcoefficients, rfl⟩,
      ⟨hne, hcommitments⟩, hS⟩
    cases hS
    exact ⟨⟨hi, hne⟩, rfl, rfl, hcoefficients, hcommitments⟩
  · rintro ⟨⟨hi, hne⟩, rfl, rfl, hcoefficients, hcommitments⟩
    exact ⟨_, ns, ⟨_, as, ⟨_, name, ⟨i, ⟨hi, rfl⟩, rfl⟩, rfl, rfl⟩, hcoefficients, rfl⟩,
      ⟨hne, hcommitments⟩, rfl⟩

end ElectionKeys
