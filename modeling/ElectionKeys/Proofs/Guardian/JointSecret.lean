import Mathlib
import ElectionKeys.Proofs.Group.FixedWidth
import ElectionKeys.Proofs.Guardian.Combination

/-!
# The joint key is the public key of the sum of the secrets

The constant coefficients of the guardians' polynomials are nowhere added up, and no one could do
it: each is known to one guardian. What is combined are the powers of the generator to them, and
their product is the power to the sum, taken modulo the order `q` (`combine_publicPart`).

That the order is `q` is used in one place only, to reduce the sum (`HasGenerator.g_pow_mod`), and
it is the test `g ^ q = 1` of the group that allows it. Nothing here needs `p` or `q` to be prime.

For joint keys whose secrets nobody can name there is the second half: whatever comes out of a
combination is an element, and so has its fixed-width form (`Outcome.isElement`). The combination
does not test that.
-/

namespace ElectionKeys.JointKey

variable {E : Election}

/-! ### Shares -/

/-- The first commitment of a key that passes is its share. -/
theorem share_eq_of_check {K : PublicKey} {c : ℕ} (h : K.share = .ok c)
    (hK : K.check E = .ok ()) : E.group.isElement c = true := by
  obtain ⟨-, -, helem⟩ := PublicKey.check_eq_ok_iff.1 hK
  rw [PublicKey.share] at h
  split at h
  · contradiction
  · next d ds hd =>
    cases h
    exact helem c (by rw [hd]; exact List.mem_cons_self)

/-- The share of a guardian is the power of the generator to the constant coefficient. -/
theorem share_publicPart {S : SecretKey} (hk : 1 ≤ E.terms.quorum) (h : S.check E = .ok ()) :
    ∃ a, S.coefficients.head? = some a ∧
      S.publicPart.share = .ok (E.group.g ^ a % E.group.p) := by
  obtain ⟨-, hlen, -, -, hcommit⟩ := SecretKey.check_eq_ok_iff.1 h
  cases hS : S.coefficients with
  | nil =>
    rw [hS, List.length_nil] at hlen
    omega
  | cons a as =>
    refine ⟨a, rfl, ?_⟩
    have hcs : S.publicPart.commitments = powMod E.group.g a E.group.p :: E.group.commit as := by
      rw [SecretKey.publicPart, hcommit, hS]
      rfl
    rw [PublicKey.share, hcs, powMod_eq]

/-- The constant coefficients of all guardians, and the shares that belong to them. -/
theorem exists_constants {Ss : List SecretKey} (hk : 1 ≤ E.terms.quorum)
    (h : ∀ S ∈ Ss, S.check E = .ok ()) :
    ∃ as : List ℕ, (Ss.map fun S ↦ S.coefficients.head?) = as.map some ∧
      (Ss.map SecretKey.publicPart).map PublicKey.share =
        (as.map fun a ↦ E.group.g ^ a % E.group.p).map .ok := by
  induction Ss with
  | nil => exact ⟨[], rfl, rfl⟩
  | cons S Ss ih =>
    obtain ⟨hS, hSs⟩ := List.forall_mem_cons.1 h
    obtain ⟨as, has, hshares⟩ := ih hSs
    obtain ⟨a, ha, hshare⟩ := share_publicPart hk hS
    refine ⟨a :: as, ?_, ?_⟩
    · rw [List.map_cons, List.map_cons, ha, has]
    · rw [List.map_cons, List.map_cons, List.map_cons, List.map_cons, hshare, hshares]

/-! ### Combining the public parts of secret keys -/

/-- **Combining the public parts of valid secret keys of all guardians gives the power to the sum of
their constant coefficients.** -/
theorem combine_publicPart {Ss : List SecretKey} {as : List ℕ} (hE : E.Accepted)
    (hmax : E.terms.guardians ≤ maxGuardian) (h : ∀ S ∈ Ss, S.check E = .ok ())
    (hall : (↑(Ss.map SecretKey.guardian) : Multiset ℤ) = (Finset.Icc 1 E.terms.guardians).val)
    (hshares : (Ss.map SecretKey.publicPart).map PublicKey.share =
      (as.map fun a ↦ E.group.g ^ a % E.group.p).map .ok) :
    combine E (Ss.map SecretKey.publicPart) =
      .ok ⟨E.group.g ^ (as.sum % E.group.q) % E.group.p⟩ := by
  obtain ⟨hgroup, hone, hk, hkn⟩ := Election.accepted_iff.1 hE
  have hguardians : (Ss.map SecretKey.publicPart).map PublicKey.guardian =
      Ss.map SecretKey.guardian := by
    rw [List.map_map]
    rfl
  have range : ∀ i ∈ Ss.map SecretKey.guardian, 1 ≤ i ∧ i ≤ E.terms.guardians := by
    intro i hi
    obtain ⟨S, hS, rfl⟩ := List.mem_map.1 hi
    exact (SecretKey.check_eq_ok_iff.1 (h S hS)).1
  have fit : ∀ K ∈ Ss.map SecretKey.publicPart, K.check E = .ok () := by
    intro K hK
    obtain ⟨S, hS, rfl⟩ := List.mem_map.1 hK
    exact SecretKey.check_publicPart (h S hS)
  obtain ⟨distinct, covered⟩ := (coe_eq_Icc_iff range).1 hall
  -- Up to here only the public parts counted. Now the powers become the power to the sum, and the
  -- sum is reduced modulo the order.
  rw [← hguardians] at distinct covered
  rw [combine_of_complete hone hmax fit distinct covered hshares, SchnorrGroup.prod_map_pow_mod,
    hgroup.hasGenerator.g_pow_mod]

/-! ### Whatever is combined is an element -/

/-- The shares of keys that fit are elements of the group. -/
theorem forall_mem_shares {keys : List PublicKey} {shares : List ℕ}
    (fit : ∀ K ∈ keys, K.check E = .ok ()) (shared : keys.map PublicKey.share = shares.map .ok) :
    ∀ c ∈ shares, E.group.isElement c = true := by
  intro c hc
  have hmem : (.ok c : Except Refusal ℕ) ∈ keys.map PublicKey.share := by
    rw [shared]
    exact List.mem_map_of_mem hc
  obtain ⟨K, hK, hshare⟩ := List.mem_map.1 hmem
  exact share_eq_of_check hshare (fit K hK)

/-- What combines is an element, as a product of elements. -/
theorem Outcome.isElement {keys : List PublicKey} {J : JointKey} (hE : E.Accepted)
    (h : Outcome E keys (.ok J)) : E.group.isElement J.value = true := by
  cases h with
  | complete fit distinct covered shared =>
    exact SchnorrGroup.isElement_prod_mod (Election.accepted_iff.1 hE).1.hasGenerator.one_lt_p
      (forall_mem_shares fit shared)

/-- A joint key fits an election if it is an element of the group. -/
theorem check_eq_ok_iff {J : JointKey} :
    J.check E = .ok () ↔ E.group.isElement J.value = true := by
  rw [check_eq]
  split
  · next h => simp [h]
  · next h => simp [h]

/-- **The joint key is the public key of the sum of the secrets**, for every accepted election and
every list of secret keys, in any order, that belong to all its guardians. And for every list of
public keys that combine, whoever may know their secrets, the joint key is an element of the group
and has exactly as many bytes as `p`, from which it reads back.

That there are at most `maxGuardian` guardians is no test of the election: its terms cannot be made
with more. -/
theorem combine_sum_of_secrets (E : Election) (hE : E.Accepted)
    (hmax : E.terms.guardians ≤ maxGuardian) :
    (∀ Ss : List SecretKey, (∀ S ∈ Ss, S.check E = .ok ()) →
      (↑(Ss.map SecretKey.guardian) : Multiset ℤ) = (Finset.Icc 1 E.terms.guardians).val →
      ∃ (Ks : List PublicKey) (as : List ℕ), Ss.map SecretKey.publicKey = Ks.map .ok ∧
        (Ss.map fun S ↦ S.coefficients.head?) = as.map some ∧
          combine E Ks = .ok ⟨E.group.g ^ (as.sum % E.group.q) % E.group.p⟩) ∧
    ∀ (Ks : List PublicKey) (J : JointKey), combine E Ks = .ok J →
      J.check E = .ok () ∧
        ∃ bytes, J.encode E.group = .ok bytes ∧ bytes.length = E.group.width ∧
          E.group.decode bytes = .ok J.value := by
  obtain ⟨hgroup, hone, hk, hkn⟩ := Election.accepted_iff.1 hE
  constructor
  · intro Ss h hall
    obtain ⟨as, has, hshares⟩ := exists_constants hk h
    refine ⟨Ss.map SecretKey.publicPart, as, ?_, has, combine_publicPart hE hmax h hall hshares⟩
    rw [List.map_map]
    exact List.map_congr_left fun S hS ↦ SecretKey.publicKey_of_check hk hmax (h S hS)
  · intro Ks J hJ
    have helem := ((combine_eq_iff hk hkn hmax _).1 hJ).isElement hE
    exact ⟨check_eq_ok_iff.2 helem,
      SchnorrGroup.decode_encode ((SchnorrGroup.isElement_natCast _).1 helem).1⟩

/-- Three guardians with the constants 2, 2 and 1 over the squares modulo 7: the sum is 5, which is
2 modulo 3, and the joint key is 4. -/
theorem combine_sum_of_secrets_three :
    Election.threeOverSquares.Accepted ∧
      Election.threeOverSquares.terms.guardians ≤ maxGuardian ∧
        ∃ Ks : List PublicKey,
          ([⟨3, none, [2, 1], [4, 2]⟩, ⟨1, some "Ada", [2, 0], [4, 1]⟩,
              ⟨2, none, [1, 1], [2, 2]⟩] : List SecretKey).map SecretKey.publicKey = Ks.map .ok ∧
            combine .threeOverSquares Ks = .ok ⟨4⟩ ∧
              check .threeOverSquares ⟨4⟩ = .ok () := by
  have hE := Election.threeOverSquares_accepted
  have hmax : Election.threeOverSquares.terms.guardians ≤ maxGuardian := by decide
  obtain ⟨hsecrets, hpublic⟩ := combine_sum_of_secrets .threeOverSquares hE hmax
  obtain ⟨Ks, as, hKs, has, hJ⟩ := hsecrets
    [⟨3, none, [2, 1], [4, 2]⟩, ⟨1, some "Ada", [2, 0], [4, 1]⟩, ⟨2, none, [1, 1], [2, 2]⟩]
    (by
      intro S hS
      rw [SecretKey.check_eq_ok_iff]
      revert S
      decide +kernel)
    (by decide)
  have has' : as = [2, 2, 1] := List.map_injective_iff.2 (Option.some_injective ℕ) has.symm
  subst has'
  exact ⟨hE, hmax, Ks, hKs, hJ, (hpublic Ks ⟨4⟩ hJ).1⟩

end ElectionKeys.JointKey
