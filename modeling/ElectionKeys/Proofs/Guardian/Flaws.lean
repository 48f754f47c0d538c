import Mathlib
import ElectionKeys.Proofs.Document.RoundTrip
import ElectionKeys.Proofs.Guardian.Check

/-!
# Which flaw of a key is reported

A key may have several flaws at once, and some of them at several positions. `PublicKey.Defect` and
`SecretKey.Defect` say which one counts, one case for each kind of flaw: all that is tested before
is in order, and a flaw at a position is at the first one that has any. They do not say how it is
found. What is found is just that (`PublicKey.firstFlaw_eq_some_iff`,
`SecretKey.firstFlaw_eq_some_iff`), over any numbers in place of a group.

* Both loops over positions look for the first one where a test finds something
  (`firstOutsider_eq_findSome?`, `firstMismatch_eq_findSome?`), and one lemma is about every such
  search (`findSome?_zipIdx_eq_some_iff`).
* Coefficients and commitments are compared in pairs, and pairing drops what is left over. Nothing
  is: the comparison is not reached unless there are equally many.
* The commitments of a secret key are tested after the number of its coefficients and before the
  coefficients themselves, in the same way as those of a public key (`CommitmentsDefect`). This is
  what the two kinds of key have in common.
-/

namespace ElectionKeys

/-! ### First positions -/

/-- A search by position finds what the test finds at the first position where it finds anything. -/
theorem findSome?_zipIdx_eq_some_iff {α β : Type} {test : α × ℕ → Option β} {n : ℕ} {xs : List α}
    {b : β} :
    (xs.zipIdx n).findSome? test = some b ↔
      ∃ j x, xs[j]? = some x ∧ test (x, n + j) = some b ∧
        ∀ i < j, ∀ y, xs[i]? = some y → test (y, n + i) = none := by
  induction xs generalizing n with
  | nil => simp
  | cons x xs ih =>
    -- Either the first position is the one, or it has nothing and the rest is searched from there.
    rw [List.zipIdx_cons, List.findSome?_cons, ← Nat.or_exists_add_one]
    simp only [Nat.forall_lt_succ_left, List.getElem?_cons_zero, List.getElem?_cons_succ,
      Option.some.injEq, exists_eq_left', forall_eq', Nat.add_zero]
    cases hx : test (x, n) with
    | some found => simp
    | none => simp [ih, Nat.add_assoc, Nat.add_comm 1]

section Loops

variable (G : SchnorrGroup)

/-- What is wrong with a commitment at a position. -/
def SchnorrGroup.commitmentFlaw (x : ℕ × ℕ) : Option KeyFlaw :=
  if G.isElement x.1 then none else some (.notAnElement x.2)

/-- What is wrong with a coefficient and a commitment at a position. -/
def SchnorrGroup.pairFlaw (x : (ℕ × ℕ) × ℕ) : Option KeyFlaw :=
  if G.q ≤ x.1.1 then some (.coefficientTooLarge x.2)
  else if powMod G.g x.1.1 G.p ≠ x.1.2 then some (.mismatch x.2)
  else none

/-- The search for an outsider is a search by position. -/
theorem firstOutsider_eq_findSome? (n : ℕ) (cs : List ℕ) :
    firstOutsider G n cs = (cs.zipIdx n).findSome? G.commitmentFlaw := by
  induction cs generalizing n with
  | nil => rfl
  | cons c cs ih =>
    rw [firstOutsider_cons, List.zipIdx_cons, List.findSome?_cons, SchnorrGroup.commitmentFlaw, ih]
    split
    · rfl
    · rfl

theorem firstMismatch_eq_findSome? (n : ℕ) (pairs : List (ℕ × ℕ)) :
    firstMismatch G n pairs = (pairs.zipIdx n).findSome? G.pairFlaw := by
  induction pairs generalizing n with
  | nil => rfl
  | cons x pairs ih =>
    obtain ⟨a, c⟩ := x
    rw [firstMismatch_cons, List.zipIdx_cons, List.findSome?_cons, SchnorrGroup.pairFlaw, ih]
    split
    · rfl
    split
    · rfl
    · rfl

end Loops

/-! ### The flaw that counts -/

/-- The number is below `p` and its power to the order of the group is 1. -/
def SchnorrGroup.Contains (G : SchnorrGroup) (c : ℕ) : Prop := c < G.p ∧ c ^ G.q % G.p = 1

/-- The flaw of commitments that counts: there are too many or too few, or else the first of them
that is not in the group. -/
inductive CommitmentsDefect (E : Election) (cs : List ℕ) : KeyFlaw → Prop
  | count (wrong : (cs.length : ℤ) ≠ E.terms.quorum) :
      CommitmentsDefect E cs (.commitmentCount cs.length E.terms.quorum)
  | outsider {j c : ℕ} (count : (cs.length : ℤ) = E.terms.quorum) (here : cs[j]? = some c)
      (wrong : ¬ E.group.Contains c)
      (before : ∀ i < j, ∀ d, cs[i]? = some d → E.group.Contains d) :
      CommitmentsDefect E cs (.notAnElement j)

/-- The flaw of a public key that counts: its guardian does not take part, or else that of its
commitments. -/
inductive PublicKey.Defect (E : Election) (K : PublicKey) : KeyFlaw → Prop
  | outside (wrong : E.terms.guardians < K.guardian) : Defect E K (.outside E.terms.guardians)
  | commitments {flaw : KeyFlaw} (takesPart : K.guardian ≤ E.terms.guardians)
      (wrong : CommitmentsDefect E K.commitments flaw) : Defect E K flaw

namespace SecretKey

/-- What is tested of a secret key before coefficients and commitments are compared is in order. -/
structure WellFormed (E : Election) (S : SecretKey) : Prop where
  takesPart : S.guardian ≤ E.terms.guardians
  coefficients : (S.coefficients.length : ℤ) = E.terms.quorum
  commitments : (S.commitments.length : ℤ) = E.terms.quorum
  elements : ∀ c ∈ S.commitments, E.group.Contains c

/-- The coefficient at a position is below the order and the commitment there is to it. -/
def AgreesAt (G : SchnorrGroup) (S : SecretKey) (j : ℕ) : Prop :=
  ∀ a c, S.coefficients[j]? = some a → S.commitments[j]? = some c → a < G.q ∧ G.g ^ a % G.p = c

/-- The flaw of a secret key that counts: its guardian does not take part, or else the number of
its coefficients, or else that of its commitments, or else that at the first position where the
coefficient and the commitment do not agree. There a coefficient that is too large counts for more
than a commitment that is not to it. -/
inductive Defect (E : Election) (S : SecretKey) : KeyFlaw → Prop
  | outside (wrong : E.terms.guardians < S.guardian) : Defect E S (.outside E.terms.guardians)
  | coefficientCount (takesPart : S.guardian ≤ E.terms.guardians)
      (wrong : (S.coefficients.length : ℤ) ≠ E.terms.quorum) :
      Defect E S (.coefficientCount S.coefficients.length E.terms.quorum)
  | commitments {flaw : KeyFlaw} (takesPart : S.guardian ≤ E.terms.guardians)
      (coefficients : (S.coefficients.length : ℤ) = E.terms.quorum)
      (wrong : CommitmentsDefect E S.commitments flaw) : Defect E S flaw
  | coefficientTooLarge {j a : ℕ} (wellFormed : S.WellFormed E)
      (here : S.coefficients[j]? = some a) (wrong : E.group.q ≤ a)
      (before : ∀ i < j, S.AgreesAt E.group i) : Defect E S (.coefficientTooLarge j)
  | mismatch {j a c : ℕ} (wellFormed : S.WellFormed E)
      (coefficient : S.coefficients[j]? = some a) (commitment : S.commitments[j]? = some c)
      (small : a < E.group.q) (wrong : E.group.g ^ a % E.group.p ≠ c)
      (before : ∀ i < j, S.AgreesAt E.group i) : Defect E S (.mismatch j)

end SecretKey

/-! ### What is found is what counts -/

variable {E : Election} {flaw : KeyFlaw}

theorem SchnorrGroup.commitmentFlaw_eq_none_iff {G : SchnorrGroup} {c j : ℕ} :
    G.commitmentFlaw (c, j) = none ↔ G.Contains c := by
  rw [commitmentFlaw, Contains, ← isElement_natCast]
  split
  · next hc => exact iff_of_true rfl hc
  · next hc => exact iff_of_false nofun hc

theorem SchnorrGroup.commitmentFlaw_eq_some_iff {G : SchnorrGroup} {c j : ℕ} :
    G.commitmentFlaw (c, j) = some flaw ↔ ¬ G.Contains c ∧ .notAnElement j = flaw := by
  rw [commitmentFlaw, Contains, ← isElement_natCast]
  split
  · next hc => simp [hc]
  · next hc => simp [hc]

theorem SchnorrGroup.pairFlaw_eq_none_iff {G : SchnorrGroup} {a c j : ℕ} :
    G.pairFlaw ((a, c), j) = none ↔ a < G.q ∧ G.g ^ a % G.p = c := by
  rw [pairFlaw, ite_some_eq_none_iff, ite_some_eq_none_iff, not_not, powMod_eq, not_le,
    and_iff_left rfl]

/-- Of a pair the coefficient is judged first, and its commitment only if the coefficient is below
the order. -/
theorem SchnorrGroup.pairFlaw_eq_some_iff {G : SchnorrGroup} {a c j : ℕ} :
    G.pairFlaw ((a, c), j) = some flaw ↔
      G.q ≤ a ∧ .coefficientTooLarge j = flaw ∨
        a < G.q ∧ G.g ^ a % G.p ≠ c ∧ .mismatch j = flaw := by
  rw [pairFlaw, powMod_eq]
  split
  · next ha => simp [ha]
  · next ha => simp [ha, Nat.lt_of_not_le ha]

/-- **The flaw that the search finds is the first there is.** -/
theorem commitmentsFlaw_eq_some_iff {cs : List ℕ} :
    commitmentsFlaw E cs = some flaw ↔ CommitmentsDefect E cs flaw := by
  rw [commitmentsFlaw_eq, ite_eq_iff, firstOutsider_eq_findSome?, findSome?_zipIdx_eq_some_iff]
  simp only [Nat.zero_add, SchnorrGroup.commitmentFlaw_eq_none_iff,
    SchnorrGroup.commitmentFlaw_eq_some_iff, Option.some.injEq]
  constructor
  · intro h
    rcases h with ⟨wrong, rfl⟩ | ⟨count, j, c, here, ⟨wrong, rfl⟩, before⟩
    · exact .count wrong
    · exact .outsider (not_not.1 count) here wrong before
  · intro h
    cases h with
    | count wrong => exact .inl ⟨wrong, rfl⟩
    | outsider count here wrong before =>
      exact .inr ⟨not_not.2 count, _, _, here, ⟨wrong, rfl⟩, before⟩

/-- The number of a record is not 0, so it can only be too great. -/
theorem Terms.not_isGuardian_iff {T : Terms} {i : ℤ} (h1 : 1 ≤ i) :
    ¬ T.isGuardian i = true ↔ T.guardians < i := by
  rw [T.isGuardian_iff, and_iff_right h1, not_le]

/-- **The flaw that is found in a public key is its defect**, which is said without a search. -/
theorem PublicKey.firstFlaw_eq_some_iff {K : PublicKey} (h1 : 1 ≤ K.guardian) :
    K.firstFlaw E = some flaw ↔ K.Defect E flaw := by
  rw [firstFlaw_eq, ite_eq_iff, Terms.not_isGuardian_iff h1, commitmentsFlaw_eq_some_iff]
  constructor
  · intro h
    rcases h with ⟨wrong, h⟩ | ⟨takesPart, wrong⟩
    · cases h
      exact .outside wrong
    · exact .commitments (not_lt.1 takesPart) wrong
  · intro h
    cases h with
    | outside wrong => exact .inl ⟨wrong, rfl⟩
    | commitments takesPart wrong => exact .inr ⟨not_lt.2 takesPart, wrong⟩

namespace SecretKey

variable {S : SecretKey}

/-- The comparison finds the first position where coefficient and commitment do not agree. -/
theorem firstMismatch_eq_some_iff :
    firstMismatch E.group 0 (S.coefficients.zip S.commitments) = some flaw ↔
      ∃ j a c, (S.coefficients[j]? = some a ∧ S.commitments[j]? = some c) ∧
        (E.group.q ≤ a ∧ .coefficientTooLarge j = flaw ∨
          a < E.group.q ∧ E.group.g ^ a % E.group.p ≠ c ∧ .mismatch j = flaw) ∧
        ∀ i < j, S.AgreesAt E.group i := by
  rw [firstMismatch_eq_findSome?, findSome?_zipIdx_eq_some_iff]
  simp only [Nat.zero_add, Prod.exists, Prod.forall, List.getElem?_zip_eq_some,
    SchnorrGroup.pairFlaw_eq_some_iff, SchnorrGroup.pairFlaw_eq_none_iff, and_imp, AgreesAt]

/-- There are as many commitments as coefficients when the two are compared. -/
theorem WellFormed.exists_commitment (h : S.WellFormed E) {j a : ℕ}
    (ha : S.coefficients[j]? = some a) : ∃ c, S.commitments[j]? = some c := by
  obtain ⟨hj, -⟩ := List.getElem?_eq_some_iff.1 ha
  have hcoefficients := h.coefficients
  have hcommitments := h.commitments
  exact ⟨_, List.getElem?_eq_getElem (by omega)⟩

/-- In a key that is well-formed only the pairs are left to look at. -/
theorem firstFlaw_of_wellFormed (h1 : 1 ≤ S.guardian) (h : S.WellFormed E) :
    S.firstFlaw E = firstMismatch E.group 0 (S.coefficients.zip S.commitments) := by
  have hin := mt (Terms.not_isGuardian_iff h1).1 (not_lt.2 h.takesPart)
  have hcommitments : commitmentsFlaw E S.commitments = none :=
    (commitmentsFlaw_eq_none_iff E _).2 ⟨h.commitments, fun c hc ↦
      (SchnorrGroup.isElement_natCast c).2 (h.elements c hc)⟩
  rw [firstFlaw_eq, if_neg hin, if_neg (not_not.2 h.coefficients), hcommitments, Option.none_or]

theorem firstFlaw_of_commitments (h1 : 1 ≤ S.guardian) (takesPart : S.guardian ≤ E.terms.guardians)
    (coefficients : (S.coefficients.length : ℤ) = E.terms.quorum)
    (wrong : CommitmentsDefect E S.commitments flaw) : S.firstFlaw E = some flaw := by
  have hin := mt (Terms.not_isGuardian_iff h1).1 (not_lt.2 takesPart)
  rw [firstFlaw_eq, if_neg hin, if_neg (not_not.2 coefficients),
    commitmentsFlaw_eq_some_iff.2 wrong, Option.some_or]

/-- What the test of a secret key finds is a defect, case by case along the test. -/
theorem defect_of_firstFlaw (h1 : 1 ≤ S.guardian) (h : S.firstFlaw E = some flaw) :
    S.Defect E flaw := by
  rw [firstFlaw_eq, ite_eq_iff, ite_eq_iff, Terms.not_isGuardian_iff h1] at h
  rcases h with ⟨wrong, h⟩ | ⟨hin, ⟨wrong, h⟩ | ⟨hcount, h⟩⟩
  · cases h
    exact .outside wrong
  · cases h
    exact .coefficientCount (not_lt.1 hin) wrong
  have takesPart := not_lt.1 hin
  have coefficients := not_not.1 hcount
  cases hcommitments : commitmentsFlaw E S.commitments with
  | some found =>
    rw [hcommitments, Option.some_or] at h
    cases h
    exact .commitments takesPart coefficients (commitmentsFlaw_eq_some_iff.1 hcommitments)
  | none =>
    rw [hcommitments, Option.none_or] at h
    obtain ⟨commitments, elements⟩ := (commitmentsFlaw_eq_none_iff E _).1 hcommitments
    have wellFormed : S.WellFormed E := ⟨takesPart, coefficients, commitments, fun c hc ↦
      (SchnorrGroup.isElement_natCast c).1 (elements c hc)⟩
    obtain ⟨j, a, c, ⟨ha, hc⟩, hwrong, before⟩ := firstMismatch_eq_some_iff.1 h
    rcases hwrong with ⟨large, rfl⟩ | ⟨small, wrong, rfl⟩
    · exact .coefficientTooLarge wellFormed ha large before
    · exact .mismatch wellFormed ha hc small wrong before

/-- **The flaw that is found is the one that counts.** -/
theorem firstFlaw_eq_some_iff (h1 : 1 ≤ S.guardian) :
    S.firstFlaw E = some flaw ↔ S.Defect E flaw := by
  refine ⟨defect_of_firstFlaw h1, fun h ↦ ?_⟩
  cases h with
  | outside wrong => rw [firstFlaw_eq, if_pos ((Terms.not_isGuardian_iff h1).2 wrong)]
  | coefficientCount takesPart wrong =>
    have hin := mt (Terms.not_isGuardian_iff h1).1 (not_lt.2 takesPart)
    rw [firstFlaw_eq, if_neg hin, if_pos wrong]
  | commitments takesPart coefficients wrong =>
    exact firstFlaw_of_commitments h1 takesPart coefficients wrong
  | coefficientTooLarge wellFormed here wrong before =>
    obtain ⟨c, hc⟩ := wellFormed.exists_commitment here
    rw [firstFlaw_of_wellFormed h1 wellFormed, firstMismatch_eq_some_iff]
    exact ⟨_, _, c, ⟨here, hc⟩, .inl ⟨wrong, rfl⟩, before⟩
  | mismatch wellFormed coefficient commitment small wrong before =>
    rw [firstFlaw_of_wellFormed h1 wellFormed, firstMismatch_eq_some_iff]
    exact ⟨_, _, _, ⟨coefficient, commitment⟩, .inr ⟨small, wrong, rfl⟩, before⟩

end SecretKey

/-! ### Reports -/

namespace KeyFlaw

/-- The position of a flaw of one coefficient or commitment. -/
def position? : KeyFlaw → Option ℕ
  | .notAnElement j | .coefficientTooLarge j | .mismatch j => some j
  | _ => none

/-- An error reports a flaw in the key of guardian `i`: it carries the test that failed and the
number `i`, and its message has the position of the flaw in it, where the flaw has one. -/
structure IsReport (flaw : KeyFlaw) (i : ℤ) (e : Error) : Prop where
  failure : e.failure = .index flaw.test (.int i) ∨ e.failure = .key flaw.test (some i)
  position : ∀ j, flaw.position? = some j →
    ∃ start rest : String, e.message = s!"{start}{j} du gardien {i}{rest}"
  context : e.context = []

/-- The error of a flaw reports it, for every guardian. -/
theorem isReport_toError (flaw : KeyFlaw) (i : ℤ) : flaw.IsReport i (flaw.toError i) where
  failure := by
    cases flaw with
    | outside => exact .inl rfl
    | _ => exact .inr rfl
  position j hj := by
    cases flaw with
    | notAnElement =>
      cases hj
      exact ⟨"L'engagement ", " n'est pas un élément valide mod p", rfl⟩
    | coefficientTooLarge =>
      cases hj
      exact ⟨"Le coefficient secret ", " n'est pas inférieur à q", rfl⟩
    | mismatch =>
      cases hj
      exact ⟨"L'engagement ", " ne correspond pas à son coefficient secret", rfl⟩
    | _ => cases hj
  context := rfl

end KeyFlaw

/-- The tests of a public key, in order. -/
def PublicKey.tests : List KeyTest := [.indexRange, .commitmentCount, .subgroup]

theorem CommitmentsDefect.test_mem {cs : List ℕ} (h : CommitmentsDefect E cs flaw) :
    flaw.test ∈ PublicKey.tests := by
  cases h with
  | count => simp [KeyFlaw.test, PublicKey.tests]
  | outsider => simp [KeyFlaw.test, PublicKey.tests]

/-- A public key is refused exactly for its defect. -/
theorem PublicKey.check_eq_error_iff {K : PublicKey} (h1 : 1 ≤ K.guardian) {e : Error} :
    K.check E = .error e ↔ ∃ flaw, K.Defect E flaw ∧ e = flaw.toError K.guardian := by
  rw [check_eq, keyOutcome_eq_error_iff]
  simp only [firstFlaw_eq_some_iff h1, eq_comm]

namespace SecretKey

variable {S : SecretKey}

/-- So is a secret key. -/
theorem check_eq_error_iff (h1 : 1 ≤ S.guardian) {e : Error} :
    S.check E = .error e ↔ ∃ flaw, S.Defect E flaw ∧ e = flaw.toError S.guardian := by
  rw [check_eq, keyOutcome_eq_error_iff]
  simp only [firstFlaw_eq_some_iff h1, eq_comm]

/-- A public key has those flaws of a secret key that are not about coefficients, once there are
as many of these as there should be. -/
theorem defect_iff_of_publicKey {K : PublicKey} (hguardian : K.guardian = S.guardian)
    (hcommitments : K.commitments = S.commitments)
    (coefficients : (S.coefficients.length : ℤ) = E.terms.quorum) :
    K.Defect E flaw ↔ S.Defect E flaw ∧ flaw.test ∈ PublicKey.tests := by
  constructor
  · intro h
    cases h with
    | outside wrong => exact ⟨.outside (hguardian ▸ wrong), List.mem_cons_self⟩
    | commitments takesPart wrong =>
      exact ⟨.commitments (hguardian ▸ takesPart) coefficients (hcommitments ▸ wrong),
        wrong.test_mem⟩
  · intro h
    obtain ⟨h, htest⟩ := h
    cases h with
    | outside wrong => exact .outside (hguardian ▸ wrong)
    | coefficientCount takesPart wrong => exact absurd coefficients wrong
    | commitments takesPart _ wrong =>
      exact .commitments (hguardian ▸ takesPart) (hcommitments ▸ wrong)
    | coefficientTooLarge => simp [KeyFlaw.test, PublicKey.tests] at htest
    | mismatch => simp [KeyFlaw.test, PublicKey.tests] at htest

/-- **The exact outcome of testing keys**, for any numbers in place of a group and of the terms.
A secret key of the constructor passes exactly when its guardian takes part, it has as many
coefficients and as many commitments as the quorum says, the commitments are in the group, the
coefficients are below the order, and the commitments are those to the coefficients. Otherwise the
flaw that counts is reported, with the number of the guardian and its position.

Of a public key with the same number and commitments the tests are those of them that are not
about coefficients. So the public key of a secret key that passes exists and passes. -/
theorem check_outcome (E : Election) (S : SecretKey) (hS : S.Storable) :
    (S.check E = .ok () ↔
      S.guardian ≤ E.terms.guardians ∧
        (S.coefficients.length : ℤ) = E.terms.quorum ∧
        (S.commitments.length : ℤ) = E.terms.quorum ∧
        (∀ c ∈ S.commitments, E.group.Contains c) ∧
        (∀ a ∈ S.coefficients, a < E.group.q) ∧
        S.commitments = S.coefficients.map fun a ↦ E.group.g ^ a % E.group.p) ∧
    (∀ e, S.check E = .error e ↔ ∃ flaw, S.Defect E flaw ∧ e = flaw.toError S.guardian) ∧
    (∀ flaw : KeyFlaw, flaw.IsReport S.guardian (flaw.toError S.guardian)) ∧
    (∀ K : PublicKey, K.guardian = S.guardian → K.commitments = S.commitments →
      (K.check E = .ok () ↔
        K.guardian ≤ E.terms.guardians ∧
          (K.commitments.length : ℤ) = E.terms.quorum ∧
          ∀ c ∈ K.commitments, E.group.Contains c) ∧
      (∀ e, K.check E = .error e ↔ ∃ flaw, K.Defect E flaw ∧ e = flaw.toError K.guardian) ∧
      ((S.coefficients.length : ℤ) = E.terms.quorum → ∀ flaw,
        K.Defect E flaw ↔ S.Defect E flaw ∧ flaw.test ∈ PublicKey.tests)) ∧
    ∃ K, S.publicKey = .ok K ∧ K.guardian = S.guardian ∧ K.commitments = S.commitments ∧
      (S.check E = .ok () → K.check E = .ok ()) := by
  have h1 := hS.guardian.1
  refine ⟨⟨fun h ↦ ?_, fun h ↦ ?_⟩, fun e ↦ check_eq_error_iff h1,
    fun flaw ↦ flaw.isReport_toError _, fun K hguardian hcommitments ↦ ⟨?_, fun e ↦ ?_, ?_⟩,
    S.publicPart, publicKey_eq h1 hS.guardian.2 hS.commitments, rfl, rfl, check_publicPart⟩
  · obtain ⟨⟨-, hn⟩, hlen, helements, hlt, hcommit⟩ := check_eq_ok_iff.1 h
    simp only [SchnorrGroup.commit, powMod_eq] at hcommit
    exact ⟨hn, hlen, length_commitments h, fun c hc ↦
      (SchnorrGroup.isElement_natCast c).1 (helements c hc), hlt, hcommit⟩
  · obtain ⟨hn, hlen, -, helements, hlt, hcommit⟩ := h
    refine check_eq_ok_iff.2 ⟨⟨h1, hn⟩, hlen, fun c hc ↦
      (SchnorrGroup.isElement_natCast c).2 (helements c hc), hlt, ?_⟩
    simp only [SchnorrGroup.commit, powMod_eq, hcommit]
  · rw [PublicKey.check_eq_ok_iff, hguardian, and_iff_right h1]
    simp only [SchnorrGroup.isElement_natCast, SchnorrGroup.Contains]
  · exact PublicKey.check_eq_error_iff (hguardian ▸ h1)
  · exact fun coefficients flaw ↦ defect_iff_of_publicKey hguardian hcommitments coefficients

/-- The first coefficient of this key is too large and the second commitment is not to the second
coefficient; the first of the two is reported. With a second commitment that is not in the group
that one is, and so it is of the public key. -/
theorem check_outcome_two_flaws :
    let E := Election.threeOverSquares
    let S : SecretKey := ⟨2, none, [5, 1], [4, 1]⟩
    let S' : SecretKey := ⟨2, none, [5, 1], [4, 3]⟩
    S.Storable ∧ S.check E = .error ((KeyFlaw.coefficientTooLarge 0).toError 2) ∧
      S'.Storable ∧ S'.check E = .error ((KeyFlaw.notAnElement 1).toError 2) ∧
      S'.publicPart.check E = .error ((KeyFlaw.notAnElement 1).toError 2) := by
  intro E S S'
  have hS : S.Storable := ⟨by decide, by decide⟩
  have hS' : S'.Storable := ⟨by decide, by decide⟩
  obtain ⟨-, hreport, -⟩ := check_outcome E S hS
  obtain ⟨-, hreport', -, hpublic, -⟩ := check_outcome E S' hS'
  obtain ⟨-, hK, -⟩ := hpublic S'.publicPart rfl rfl
  have helements : ∀ c ∈ S.commitments, E.group.Contains c := by
    intro c hc
    rw [SchnorrGroup.Contains]
    revert c
    decide
  have hbefore : ∀ i < 1, ∀ d, S'.commitments[i]? = some d → E.group.Contains d := by
    intro i hi d hd
    rw [Nat.lt_one_iff.1 hi] at hd
    cases hd
    exact ⟨by decide, by decide⟩
  have hwrong : CommitmentsDefect E S'.commitments (.notAnElement 1) :=
    .outsider rfl rfl (fun h ↦ absurd h.2 (by decide)) hbefore
  have hlarge : S.Defect E (.coefficientTooLarge 0) :=
    .coefficientTooLarge ⟨by decide, rfl, rfl, helements⟩ rfl (by decide)
      fun i hi ↦ absurd hi i.not_lt_zero
  exact ⟨hS, (hreport _).2 ⟨_, hlarge, rfl⟩, hS',
    (hreport' _).2 ⟨_, .commitments (by decide) rfl hwrong, rfl⟩,
    (hK _).2 ⟨_, .commitments (by decide) hwrong, rfl⟩⟩

end SecretKey

end ElectionKeys
