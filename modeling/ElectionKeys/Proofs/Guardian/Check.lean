import Mathlib
import ElectionKeys.Guardian.Generate
import ElectionKeys.Proofs.Document.Field
import ElectionKeys.Proofs.Election.Accepted
import ElectionKeys.Proofs.Group.Element

/-!
# Keys that pass their tests

What a key that passes its tests is like, said without the order in which the tests are made. A
public key passes exactly when its guardian takes part and its commitments are `k` elements of the
group (`PublicKey.check_eq_ok_iff`). A secret key passes exactly when in addition its commitments
are those to its coefficients, of which each is below the order (`SecretKey.check_eq_ok_iff`).

Everything that needs a key to be good, rather than the reason why it is not, starts from these two.
The public key of a secret key that passes is its `publicPart`, which passes too.

Each test is a search through a list or a chain of tests, and has an equation for each of its steps
(`firstOutsider_cons`, `firstMismatch_cons`, `commitmentsFlaw_eq`, `PublicKey.firstFlaw_eq`). The
proofs here and in the modules about flaws go through these equations, so that the way in which the
tests are written stays in one place: the bodies are stated for any operations, and here they are
taken for those that always have a value.

Of the election only the terms and the group enter, and of the group no more than its numbers. No
election has to be accepted for any of this.
-/

namespace ElectionKeys

/-! ### The tests as they are run

What the tests come to step by step, without the operations that they are written over. -/

section Steps

variable (G : SchnorrGroup) (j : ℕ) (E : Election)

@[simp] theorem firstOutsider_nil : firstOutsider G j [] = none := rfl

/-- One step of the search for a commitment that is no element of the group. -/
theorem firstOutsider_cons (c : ℕ) (cs : List ℕ) :
    firstOutsider G j (c :: cs) =
      if G.isElement c = true then firstOutsider G (j + 1) cs else some (.notAnElement j) := by
  rw [firstOutsider, firstOutsiderBy]
  simp only [SchnorrGroup.isElementBy_total, firstOutsiderBy_total, pure_bind, apply_ite Id.run,
    Id.run_pure]

@[simp] theorem firstMismatch_nil : firstMismatch G j [] = none := rfl

/-- One step of the search for a pair that does not belong together. The coefficient is looked at
first. -/
theorem firstMismatch_cons (a c : ℕ) (rest : List (ℕ × ℕ)) :
    firstMismatch G j ((a, c) :: rest) =
      if G.q ≤ a then some (.coefficientTooLarge j)
      else if powMod G.g a G.p ≠ c then some (.mismatch j)
      else firstMismatch G (j + 1) rest := by
  rw [firstMismatch, firstMismatchBy]
  simp only [Operations.total_powMod, firstMismatchBy_total, pure_bind, apply_ite Id.run,
    Id.run_pure]

/-- Commitments are counted before any of them is looked at. -/
theorem commitmentsFlaw_eq (cs : List ℕ) :
    commitmentsFlaw E cs =
      if (cs.length : ℤ) ≠ E.terms.quorum then some (.commitmentCount cs.length E.terms.quorum)
      else firstOutsider E.group 0 cs := by
  rw [commitmentsFlaw, commitmentsFlawBy, apply_ite Id.run, Id.run_pure, firstOutsider]

/-- A public key is tested for its guardian, and then for its commitments. -/
theorem PublicKey.firstFlaw_eq (K : PublicKey) :
    K.firstFlaw E =
      if ¬ E.terms.isGuardian K.guardian then some (.outside E.terms.guardians)
      else commitmentsFlaw E K.commitments := by
  rw [firstFlaw, firstFlawBy, apply_ite Id.run, Id.run_pure, commitmentsFlaw]

/-- Coefficients and commitments are only compared if the commitments have no flaw. -/
theorem SecretKey.firstFlaw_eq (S : SecretKey) :
    S.firstFlaw E =
      if ¬ E.terms.isGuardian S.guardian then some (.outside E.terms.guardians)
      else if (S.coefficients.length : ℤ) ≠ E.terms.quorum then
        some (.coefficientCount S.coefficients.length E.terms.quorum)
      else
        (commitmentsFlaw E S.commitments).or
          (firstMismatch E.group 0 (S.coefficients.zip S.commitments)) := by
  rw [firstFlaw, firstFlawBy]
  simp only [commitmentsFlawBy_total, firstMismatchBy_total, pure_bind, apply_ite Id.run,
    Id.run_pure]
  cases commitmentsFlaw E S.commitments <;> rfl

end Steps

/-! ### Single positions -/

/-- The search finds nothing exactly when all commitments are elements. -/
theorem firstOutsider_eq_none_iff (G : SchnorrGroup) (j : ℕ) (cs : List ℕ) :
    firstOutsider G j cs = none ↔ ∀ c ∈ cs, G.isElement c = true := by
  induction cs generalizing j with
  | nil => simp
  | cons c cs ih =>
    rw [firstOutsider_cons]
    split
    · next hc => rw [ih, List.forall_mem_cons, and_iff_right hc]
    · next hc => simp [hc]

/-- The search finds nothing exactly when each coefficient is below the order and has its
commitment. -/
theorem firstMismatch_eq_none_iff (G : SchnorrGroup) (j : ℕ) (pairs : List (ℕ × ℕ)) :
    firstMismatch G j pairs = none ↔ ∀ x ∈ pairs, x.1 < G.q ∧ powMod G.g x.1 G.p = x.2 := by
  induction pairs generalizing j with
  | nil => simp
  | cons x pairs ih =>
    obtain ⟨a, c⟩ := x
    rw [firstMismatch_cons, List.forall_mem_cons]
    split
    · next ha => simp [Nat.not_lt.2 ha]
    · next ha =>
      split
      · next hc => simp [hc]
      · next hc => rw [ih, and_iff_right ⟨Nat.lt_of_not_le ha, not_not.1 hc⟩]

/-- Coefficients and commitments agree position by position exactly when the commitments are those
to the coefficients. The lengths have to be equal, since pairing drops what is left over. -/
theorem forall_mem_zip_iff (G : SchnorrGroup) {as cs : List ℕ} (h : as.length = cs.length) :
    (∀ x ∈ as.zip cs, x.1 < G.q ∧ powMod G.g x.1 G.p = x.2) ↔
      (∀ a ∈ as, a < G.q) ∧ cs = G.commit as := by
  induction as generalizing cs with
  | nil =>
    have hcs : cs = [] := List.length_eq_zero_iff.1 h.symm
    simp [hcs, SchnorrGroup.commit]
  | cons a as ih =>
    obtain ⟨c, cs, rfl⟩ := List.exists_cons_of_length_eq_add_one h.symm
    rw [List.zip_cons_cons, List.forall_mem_cons, ih (Nat.succ.inj h), List.forall_mem_cons]
    simp only [SchnorrGroup.commit, List.map_cons, List.cons.injEq]
    constructor
    · rintro ⟨⟨ha, hc⟩, has, hcs⟩
      exact ⟨⟨ha, has⟩, hc.symm, hcs⟩
    · rintro ⟨⟨ha, has⟩, hc, hcs⟩
      exact ⟨⟨ha, hc.symm⟩, has, hcs⟩

theorem commitmentsFlaw_eq_none_iff (E : Election) (cs : List ℕ) :
    commitmentsFlaw E cs = none ↔
      (cs.length : ℤ) = E.terms.quorum ∧ ∀ c ∈ cs, E.group.isElement c = true := by
  rw [commitmentsFlaw_eq, ite_some_eq_none_iff, not_not, firstOutsider_eq_none_iff]

/-! ### Whole keys -/

/-- The guardians are numbered from 1 on. -/
theorem Terms.isGuardian_iff (T : Terms) (i : ℤ) :
    T.isGuardian i = true ↔ 1 ≤ i ∧ i ≤ T.guardians := by
  simp [Terms.isGuardian]

theorem keyOutcome_eq_ok_iff {i : ℤ} {flaw : Option KeyFlaw} :
    keyOutcome i flaw = .ok () ↔ flaw = none := by
  cases flaw <;> simp [keyOutcome]

/-- The error of a test is that of the flaw, for the guardian of the key. -/
theorem keyOutcome_eq_error_iff {i : ℤ} {flaw : Option KeyFlaw} {e : Error} :
    keyOutcome i flaw = .error e ↔ ∃ f, flaw = some f ∧ f.toError i = e := by
  cases flaw <;> simp [keyOutcome]

namespace PublicKey

variable {E : Election} {K : PublicKey}

theorem check_eq : K.check E = keyOutcome K.guardian (K.firstFlaw E) := rfl

theorem check_eq_ok_iff_firstFlaw : K.check E = .ok () ↔ K.firstFlaw E = none :=
  keyOutcome_eq_ok_iff

/-- A public key passes exactly when its guardian takes part and its commitments are as many
elements of the group as the quorum says. -/
theorem check_eq_ok_iff :
    K.check E = .ok () ↔
      (1 ≤ K.guardian ∧ K.guardian ≤ E.terms.guardians) ∧
        (K.commitments.length : ℤ) = E.terms.quorum ∧
          ∀ c ∈ K.commitments, E.group.isElement c = true := by
  rw [check_eq_ok_iff_firstFlaw, firstFlaw_eq, ite_some_eq_none_iff, not_not,
    commitmentsFlaw_eq_none_iff, Terms.isGuardian_iff]

/-- The share of a key is its first commitment. -/
theorem head?_of_share {c : ℕ} (h : K.share = .ok c) : K.commitments.head? = some c := by
  rw [share] at h
  split at h
  · cases h
  · next hc => rw [hc, List.head?_cons, Except.ok.inj h]

end PublicKey

namespace SecretKey

variable {E : Election} {S : SecretKey}

theorem check_eq : S.check E = keyOutcome S.guardian (S.firstFlaw E) := rfl

theorem check_eq_ok_iff_firstFlaw : S.check E = .ok () ↔ S.firstFlaw E = none :=
  keyOutcome_eq_ok_iff

/-- A secret key passes exactly when its public part does and it has as many coefficients, each
below the order of the group, to which its commitments are. -/
theorem check_eq_ok_iff :
    S.check E = .ok () ↔
      (1 ≤ S.guardian ∧ S.guardian ≤ E.terms.guardians) ∧
        (S.coefficients.length : ℤ) = E.terms.quorum ∧
          (∀ c ∈ S.commitments, E.group.isElement c = true) ∧
            (∀ a ∈ S.coefficients, a < E.group.q) ∧
              S.commitments = E.group.commit S.coefficients := by
  rw [check_eq_ok_iff_firstFlaw, firstFlaw_eq, ite_some_eq_none_iff, not_not, ite_some_eq_none_iff,
    not_not, Option.or_eq_none_iff, commitmentsFlaw_eq_none_iff, firstMismatch_eq_none_iff,
    Terms.isGuardian_iff]
  refine and_congr_right fun _ ↦ and_congr_right fun hcount ↦ ?_
  constructor
  · intro h
    obtain ⟨⟨hlen, helem⟩, hagree⟩ := h
    exact ⟨helem, (forall_mem_zip_iff E.group (by omega)).1 hagree⟩
  · intro h
    obtain ⟨helem, hsmall, hcommit⟩ := h
    have hlen : S.coefficients.length = S.commitments.length := by
      rw [hcommit, SchnorrGroup.commit, List.length_map]
    exact ⟨⟨by omega, helem⟩, (forall_mem_zip_iff E.group hlen).2 ⟨hsmall, hcommit⟩⟩

/-- The commitments of a secret key that passes are as many as the quorum says. -/
theorem length_commitments (h : S.check E = .ok ()) :
    (S.commitments.length : ℤ) = E.terms.quorum := by
  obtain ⟨-, hlen, -, -, hcommit⟩ := check_eq_ok_iff.1 h
  rw [hcommit, SchnorrGroup.commit, List.length_map, hlen]

/-! ### The public part -/

/-- The guardian, the name and the commitments of a secret key. -/
def publicPart (S : SecretKey) : PublicKey := ⟨S.guardian, S.name, S.commitments⟩

/-- A public key is made of a secret one if its number has sixteen bits and it has a commitment. -/
theorem publicKey_eq (h1 : 1 ≤ S.guardian) (hmax : S.guardian ≤ maxGuardian)
    (hne : S.commitments ≠ []) : S.publicKey = .ok S.publicPart :=
  PublicKey.make_eq_ok_iff.2 ⟨⟨⟨h1, hmax⟩, hne⟩, rfl, rfl, rfl⟩

/-- The public part of a secret key that passes is a public key that passes. -/
theorem check_publicPart (h : S.check E = .ok ()) : S.publicPart.check E = .ok () := by
  obtain ⟨hguardian, -, helem, -⟩ := check_eq_ok_iff.1 h
  exact PublicKey.check_eq_ok_iff.2 ⟨hguardian, length_commitments h, helem⟩

/-- A secret key that passes has a public key, since its guardian takes part in the election and a
commitment is asked for. -/
theorem publicKey_of_check (hk : 1 ≤ E.terms.quorum) (hmax : E.terms.guardians ≤ maxGuardian)
    (h : S.check E = .ok ()) : S.publicKey = .ok S.publicPart := by
  obtain ⟨⟨h1, hn⟩, -⟩ := check_eq_ok_iff.1 h
  refine publicKey_eq h1 (by omega) fun hnil ↦ ?_
  have hlen := length_commitments h
  rw [hnil, List.length_nil] at hlen
  omega

end SecretKey

end ElectionKeys
