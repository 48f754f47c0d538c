import Mathlib
import ElectionKeys.Proofs.Election.Accepted
import ElectionKeys.Proofs.Group.Cyclic
import ElectionKeys.Proofs.Guardian.Check

/-!
# Every public key has one secret key

Over primes, the secret keys that pass their tests and the public keys that pass theirs correspond
one to one. What relates them is the list of powers of the generator, one for each coefficient.

* One coefficient is determined by its power, since the generator has order exactly `q` and the test
  of a secret key asks of every coefficient that it is below `q` (`HasGenerator.commit_injOn`).
* Every element is a power of the generator, so every row of elements is the row of powers to some
  coefficients (`HasGenerator.exists_commit_eq`).

That the secret key exists is no way to find it.

The correspondence is between keys as they are tested, so it speaks of the guardian and the name as
well: these are the same on both sides and are not changed by taking the public part. It is the only
place among the proofs about keys that needs `p` and `q` to be prime. Without that, an element need
not be a power of the generator, so a public key may pass its tests and belong to nobody.
-/

namespace ElectionKeys

/-! ### Rows of powers -/

namespace SchnorrGroup.HasGenerator

variable {G : SchnorrGroup} (h : G.HasGenerator)
include h

/-- **Coefficients below the order are determined by their commitments.** -/
theorem commit_injOn (hq : G.q.Prime) : Set.InjOn G.commit {as | ∀ a ∈ as, a < G.q} := by
  intro as has bs hbs heq
  induction as generalizing bs with
  | nil => exact (List.map_eq_nil_iff.1 heq.symm).symm
  | cons a as ih =>
    cases bs with
    | nil => cases heq
    | cons b bs =>
      obtain ⟨ha, has⟩ := List.forall_mem_cons.1 has
      obtain ⟨hb, hbs⟩ := List.forall_mem_cons.1 hbs
      obtain ⟨hhead, htail⟩ := List.cons.inj heq
      simp only [powMod_eq] at hhead
      rw [h.pow_injOn hq ha hb (congrArg _ hhead), ih has hbs htail]

/-- **Every row of elements is the row of commitments to some coefficients.** -/
theorem exists_commit_eq (hp : G.p.Prime) (hq : G.q.Prime) {cs : List ℕ}
    (hcs : ∀ c ∈ cs, G.isElement c = true) : ∃ as, (∀ a ∈ as, a < G.q) ∧ G.commit as = cs := by
  induction cs with
  | nil => exact ⟨[], nofun, rfl⟩
  | cons c cs ih =>
    obtain ⟨hc, htail⟩ := List.forall_mem_cons.1 hcs
    obtain ⟨a, ha, rfl⟩ := h.exists_pow_of_isElement hp hq hc
    obtain ⟨as, has, rfl⟩ := ih htail
    refine ⟨a :: as, List.forall_mem_cons.2 ⟨ha, has⟩, ?_⟩
    rw [commit, List.map_cons, powMod_eq, commit]

end SchnorrGroup.HasGenerator

/-! ### Keys -/

attribute [ext] SecretKey

namespace SecretKey

variable {E : Election}

/-- **Different valid secret keys have different public parts**, since below the order a power shows
its exponent. -/
theorem publicPart_injOn (hE : E.Accepted) (hq : E.group.q.Prime) :
    Set.InjOn publicPart {S | S.check E = .ok ()} := by
  intro S hS S' hS' heq
  obtain ⟨-, -, -, has, hcommit⟩ := check_eq_ok_iff.1 hS
  obtain ⟨-, -, -, has', hcommit'⟩ := check_eq_ok_iff.1 hS'
  obtain ⟨hguardian, hname, hcommitments⟩ := PublicKey.mk.inj heq
  have hgenerator := (Election.accepted_iff.1 hE).1.hasGenerator
  have hcoefficients : S.coefficients = S'.coefficients :=
    hgenerator.commit_injOn hq has has' (by rw [← hcommit, ← hcommit', hcommitments])
  exact SecretKey.ext hguardian hname hcoefficients hcommitments

/-- **Every valid public key is the public part of a valid secret key**, since the elements of the
group are the powers of the generator. -/
theorem publicPart_surjOn (hE : E.Accepted) (hp : E.group.p.Prime) (hq : E.group.q.Prime) :
    Set.SurjOn publicPart {S | S.check E = .ok ()} {K | K.check E = .ok ()} := by
  intro K hK
  obtain ⟨hguardian, hlen, helem⟩ := PublicKey.check_eq_ok_iff.1 hK
  have hgenerator := (Election.accepted_iff.1 hE).1.hasGenerator
  obtain ⟨as, has, hcommit⟩ := hgenerator.exists_commit_eq hp hq helem
  refine ⟨⟨K.guardian, K.name, as, K.commitments⟩, ?_, rfl⟩
  refine check_eq_ok_iff.2 ⟨hguardian, ?_, helem, has, hcommit.symm⟩
  rw [← hlen, ← hcommit, SchnorrGroup.commit, List.length_map]

theorem publicPart_bijOn (hE : E.Accepted) (hp : E.group.p.Prime) (hq : E.group.q.Prime) :
    Set.BijOn publicPart {S | S.check E = .ok ()} {K | K.check E = .ok ()} :=
  ⟨fun _ ↦ check_publicPart, publicPart_injOn hE hq, publicPart_surjOn hE hp hq⟩

/-- **Taking the public key is a bijection between the secret keys that pass and the public keys
that pass**, for every accepted election over primes. The public key has the guardian, the name and
the commitments of the secret key; so secret keys that agree in these agree in their coefficients.

That there are at most `maxGuardian` guardians is no test of the election: its terms cannot be made
with more. -/
theorem publicKey_bijOn (E : Election) (hE : E.Accepted) (hp : E.group.p.Prime)
    (hq : E.group.q.Prime) (hmax : E.terms.guardians ≤ maxGuardian) :
    (∀ S : SecretKey, S.check E = .ok () →
      S.publicKey = .ok ⟨S.guardian, S.name, S.commitments⟩) ∧
    Set.BijOn SecretKey.publicKey {S | S.check E = .ok ()} (.ok '' {K | K.check E = .ok ()}) := by
  have hk := (Election.accepted_iff.1 hE).2.2.1
  have hpublic : Set.EqOn (fun S ↦ .ok S.publicPart) SecretKey.publicKey {S | S.check E = .ok ()} :=
    fun S hS ↦ (publicKey_of_check hk hmax hS).symm
  have hok : Set.InjOn (Except.ok (ε := Refusal)) {K : PublicKey | K.check E = .ok ()} :=
    fun K _ K' _ heq ↦ Except.ok.inj heq
  refine ⟨fun S hS ↦ publicKey_of_check hk hmax hS, ?_⟩
  exact (hok.bijOn_image.comp (publicPart_bijOn hE hp hq)).congr hpublic

/-- Over the squares modulo 7 the secret keys with the coefficients 2 and 1 and with 2 and 0 have
different public keys, and the public key with the commitments 2 and 2 has a secret key. -/
theorem publicKey_bijOn_threeOverSquares :
    Election.threeOverSquares.Accepted ∧ Election.threeOverSquares.group.p.Prime ∧
      Election.threeOverSquares.group.q.Prime ∧
        Election.threeOverSquares.terms.guardians ≤ maxGuardian ∧
          publicKey ⟨3, none, [2, 1], [4, 2]⟩ ≠ publicKey ⟨3, none, [2, 0], [4, 1]⟩ ∧
            ∃ S : SecretKey, S.check .threeOverSquares = .ok () ∧
              S.publicKey = .ok ⟨2, some "Ada", [2, 2]⟩ := by
  have hE := Election.threeOverSquares_accepted
  have hp : Election.threeOverSquares.group.p.Prime := by
    norm_num [Election.threeOverSquares, SchnorrGroup.squaresMod7]
  have hq : Election.threeOverSquares.group.q.Prime := by
    norm_num [Election.threeOverSquares, SchnorrGroup.squaresMod7]
  have hmax : Election.threeOverSquares.terms.guardians ≤ maxGuardian := by decide
  obtain ⟨-, -, hinj, hsurj⟩ := publicKey_bijOn .threeOverSquares hE hp hq hmax
  refine ⟨hE, hp, hq, hmax, fun heq ↦ ?_, ?_⟩
  · have hS : check .threeOverSquares ⟨3, none, [2, 1], [4, 2]⟩ = .ok () :=
      check_eq_ok_iff.2 (by decide +kernel)
    have hS' : check .threeOverSquares ⟨3, none, [2, 0], [4, 1]⟩ = .ok () :=
      check_eq_ok_iff.2 (by decide +kernel)
    cases hinj hS hS' heq
  · have hK : PublicKey.check .threeOverSquares ⟨2, some "Ada", [2, 2]⟩ = .ok () :=
      PublicKey.check_eq_ok_iff.2 (by decide +kernel)
    obtain ⟨S, hS, hpublic⟩ := hsurj ⟨_, hK, rfl⟩
    exact ⟨S, hS, hpublic⟩

end SecretKey

end ElectionKeys
