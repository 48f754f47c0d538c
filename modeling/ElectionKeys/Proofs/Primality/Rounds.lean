import Mathlib
import ElectionKeys.Proofs.Primality.Lucas

/-!
# The answer as a function of the drawn bases

A test that stops at the first base that does not let the number pass draws no more bases than it
has to. If it accepts it has drawn all of them, so acceptance can be told from a plain row of drawn
bases: every one of them has to pass (`strongRounds_eq_true_iff`), and then the Lucas test decides
(`probablyPrime_eq_true_iff`).

For a prime every base passes, and so does the Lucas test. The only thing that can keep a prime from
being accepted is that a draw does not end (`probablyPrime_of_prime_iff`).

The bases are a row of draws of a fixed length, so whatever is known of rows of draws can be used of
them: how many bytes they take, and how likely each row is. A test that stops early has no such
length, and this is the step that takes the early stop out of the way. Nothing is lost by it for
numbers that are accepted. For the others the row may not be drawn to its end, which is why the
statements are about the answer yes.
-/

namespace ElectionKeys.Primality

variable {n k : ℕ} {t t' : Tape}

/-! ### Rounds -/

/-- **The rounds are passed exactly if all bases of the row pass.** -/
theorem strongRounds_eq_true_iff :
    strongRounds n k t = some (true, t') ↔
      ∃ bases, Draw.replicate (drawBase n) k t = some (bases, t') ∧
        ∀ b ∈ bases, passes n b = true := by
  induction k generalizing t with
  | zero =>
    rw [strongRounds, Draw.pure_eq_some_iff]
    constructor
    · rintro ⟨-, rfl⟩
      exact ⟨[], rfl, nofun⟩
    · rintro ⟨bases, h, -⟩
      exact ⟨rfl, (Draw.pure_eq_some_iff.1 h).2⟩
  | succ k ih =>
    rw [strongRounds, Draw.bind_eq_some_iff]
    constructor
    · rintro ⟨b, s, hb, hrest⟩
      split at hrest
      · next hpass =>
        obtain ⟨bases, hbases, hall⟩ := ih.1 hrest
        exact ⟨b :: bases, Draw.replicate_succ_eq_some_iff.2 ⟨b, s, bases, hb, hbases, rfl⟩,
          List.forall_mem_cons.2 ⟨hpass, hall⟩⟩
      · cases (Draw.pure_eq_some_iff.1 hrest).1
    · rintro ⟨bases, h, hall⟩
      obtain ⟨b, s, rest, hb, hrest, rfl⟩ := Draw.replicate_succ_eq_some_iff.1 h
      obtain ⟨hpass, hall⟩ := List.forall_mem_cons.1 hall
      refine ⟨b, s, hb, ?_⟩
      rw [if_pos hpass]
      exact ih.2 ⟨rest, hrest, hall⟩

/-- What the answer for given bases is, if the number is odd and greater than 5. -/
def acceptsWith (n : ℕ) (bases : List ℕ) : Bool := bases.all (passes n) && lucasTest n

theorem acceptsWith_iff {bases : List ℕ} :
    acceptsWith n bases = true ↔ (∀ b ∈ bases, passes n b = true) ∧ lucasTest n = true := by
  rw [acceptsWith, Bool.and_eq_true, List.all_eq_true]

/-- **A number is accepted exactly if the answer for the drawn bases is yes.** -/
theorem probablyPrime_eq_true_iff (hodd : n % 2 = 1) (h5 : 5 < n) :
    probablyPrime n t = some (true, t') ↔
      ∃ bases, Draw.replicate (drawBase n) rounds t = some (bases, t') ∧
        acceptsWith n bases = true := by
  rw [probablyPrime, if_neg (by omega), if_neg (by omega), if_neg (by omega), if_neg (by omega),
    Draw.bind_eq_some_iff]
  simp only [acceptsWith_iff, ← and_assoc, exists_and_right]
  rw [← strongRounds_eq_true_iff]
  constructor
  · rintro ⟨strong, s, hstrong, hrest⟩
    obtain ⟨hand, rfl⟩ := Draw.pure_eq_some_iff.1 hrest
    obtain ⟨rfl, hlucas⟩ := Bool.and_eq_true_iff.1 hand
    exact ⟨hstrong, hlucas⟩
  · rintro ⟨hstrong, hlucas⟩
    exact ⟨true, t', hstrong, Draw.pure_eq_some_iff.2 ⟨by rw [hlucas]; rfl, rfl⟩⟩

/-- Drawn bases lie between 2 and `n - 2`, and there are as many as were asked for. -/
theorem of_replicate_drawBase (h4 : 4 ≤ n) {bases : List ℕ}
    (h : Draw.replicate (drawBase n) k t = some (bases, t')) :
    bases.length = k ∧ ∀ b ∈ bases, b ∈ Finset.Icc 2 (n - 2) := by
  refine ⟨Draw.length_of_replicate h, Draw.forall_mem_of_replicate (fun {_ b _} hb ↦ ?_) h⟩
  have := of_drawBase hb
  exact Finset.mem_Icc.2 (by omega)

/-! ### Primes -/

/-- The bases that are drawn for a prime: as many as there are rounds, and none for 2, 3 and 5. -/
def primeBases (n : ℕ) : Draw (List ℕ) :=
  if n = 2 ∨ n = 3 ∨ n = 5 then pure [] else Draw.replicate (drawBase n) rounds

theorem eq_of_prime_of_le_five (hn : n.Prime) (h5 : n ≤ 5) : n = 2 ∨ n = 3 ∨ n = 5 := by
  have htwo := hn.two_le
  have hfour : n ≠ 4 := by
    rintro rfl
    exact absurd hn (by decide)
  omega

/-- 2, 3 and 5 are accepted at sight. -/
theorem probablyPrime_of_le_five (hn : n.Prime) (h5 : n ≤ 5) (t : Tape) :
    probablyPrime n t = some (true, t) := by
  obtain rfl | rfl | rfl := eq_of_prime_of_le_five hn h5
  · rfl
  · rfl
  · rfl

theorem acceptsWith_of_prime (hn : n.Prime) (hodd : n % 2 = 1) {bases : List ℕ}
    (hbases : ∀ b ∈ bases, b ∈ Finset.Icc 2 (n - 2)) : acceptsWith n bases = true := by
  refine acceptsWith_iff.2 ⟨fun b hb ↦ passes_of_prime hn hodd ?_, lucasTest_of_prime hn⟩
  have := Finset.mem_Icc.1 (hbases b hb)
  exact Nat.not_dvd_of_pos_of_lt (by omega) (by omega)

/-- **A prime is never rejected**, and it is accepted as soon as the draws of its bases end. -/
theorem probablyPrime_of_prime_iff (n : ℕ) (hn : n.Prime) (t t' : Tape) (answer : Bool) :
    probablyPrime n t = some (answer, t') ↔
      answer = true ∧ ∃ bases, primeBases n t = some (bases, t') := by
  by_cases h5 : n ≤ 5
  · rw [probablyPrime_of_le_five hn h5, primeBases, if_pos (eq_of_prime_of_le_five hn h5)]
    constructor
    · rintro ⟨⟩
      exact ⟨rfl, [], rfl⟩
    · rintro ⟨rfl, bases, h⟩
      rw [(Draw.pure_eq_some_iff.1 h).2]
  · have hodd : n % 2 = 1 := hn.eq_two_or_odd.resolve_left (by omega)
    rw [primeBases, if_neg (by omega)]
    constructor
    · intro h
      obtain rfl := probablyPrime_of_prime hn h
      obtain ⟨bases, hbases, -⟩ := (probablyPrime_eq_true_iff hodd (by omega)).1 h
      exact ⟨rfl, bases, hbases⟩
    · rintro ⟨rfl, bases, hbases⟩
      exact (probablyPrime_eq_true_iff hodd (by omega)).2
        ⟨bases, hbases, acceptsWith_of_prime hn hodd (of_replicate_drawBase (by omega) hbases).2⟩

/-- On a tape of zeros every drawn base is 2. For 11 the search for a discriminant passes over
-11. -/
theorem probablyPrime_of_prime_iff_eleven :
    Nat.Prime 11 ∧ ∃ t bases t', primeBases 11 t = some (bases, t') ∧
      probablyPrime 11 t = some (true, t') := by
  have hprime : Nat.Prime 11 := by decide
  have hends : (primeBases 11 ⟨fun _ ↦ 0, 0, 1⟩).isSome = true := by decide +kernel
  obtain ⟨⟨bases, t'⟩, hbases⟩ := Option.isSome_iff_exists.1 hends
  exact ⟨hprime, _, bases, t', hbases,
    (probablyPrime_of_prime_iff 11 hprime _ t' true).2 ⟨rfl, bases, hbases⟩⟩

end ElectionKeys.Primality
