import Mathlib
import ElectionKeys.Proofs.Guardian.Combination

/-!
# The order of public keys

Combining public keys goes through them one after the other and stops at the first that is wrong, so
which key an error is about depends on the order. What kind of error it is does not, nor does
anything else that the outcome says.

Each of the four outcomes is brought into a form that has no order in it: that all keys fit, that
their guardians are different, and which guardians there are (`reports_missing_iff`,
`reports_duplicate_iff`, `reports_ofKey_iff`, `combine_eq_ok_iff`). These are the same for lists
that are permutations of one another, and the product of the shares is too.

What an error says besides its kind does depend on the order: which unfit key is reported, and which
repeated guardian. So the theorem on permutations says of such an error that the other order has one
of the same kind, and of the missing numbers and of the joint key that they are the same.

The search for a repetition is the one place where this takes more than the remark that a condition
on all keys has no order in it. That some guardian has two keys is such a condition; where the
second one stands is not, and does not come up.
-/

namespace ElectionKeys

/-- The failure is one of a key that does not pass its tests. -/
def Failure.OfKey : Failure → Prop
  | .key .. => True
  | .index .. => True
  | _ => False

namespace JointKey

variable {E : Election} {keys keys' : List PublicKey} {is : List ℤ}

/-- Combining the keys ends in an error about the failure. -/
def Reports (E : Election) (keys : List PublicKey) (failure : Failure) : Prop :=
  ∃ e, combine E keys = .error (.error e) ∧ e.failure = failure

/-- What is reported of a key that does not fit is about that key. -/
theorem ofKey_of_check {K : PublicKey} {e : Error} (h : K.check E = .error e) :
    e.failure.OfKey := by
  obtain ⟨flaw, -, rfl⟩ := keyOutcome_eq_error_iff.1 h
  cases flaw <;> trivial

/-! ### Outcomes without an order -/

section Outcomes

variable (hk : 1 ≤ E.terms.quorum) (hkn : E.terms.quorum ≤ E.terms.guardians)
  (hmax : E.terms.guardians ≤ maxGuardian)

include hk hkn hmax

/-- A key is reported exactly if one does not fit. -/
theorem reports_ofKey_iff :
    (∃ failure, failure.OfKey ∧ Reports E keys failure) ↔ ¬ ∀ K ∈ keys, K.check E = .ok () := by
  constructor
  · rintro ⟨_, hfailure, e, he, rfl⟩ hfit
    cases (combine_eq_iff hk hkn hmax _).1 he with
    | unfit split _ failed =>
      rw [hfit _ (by simp [split])] at failed
      cases failed
    | repeated => exact hfailure
    | absent => exact hfailure
  · intro h
    obtain ⟨before, K, after, e, rfl, hbefore, failed⟩ := exists_first_unfit h
    exact ⟨_, ofKey_of_check failed, _, combine_of_unfit hbefore failed, rfl⟩

/-- A guardian with two keys is reported exactly if there is one and all keys fit. -/
theorem reports_duplicate_iff :
    (∃ is, Reports E keys (.incomplete .duplicate is)) ↔
      (∀ K ∈ keys, K.check E = .ok ()) ∧ ¬ (keys.map PublicKey.guardian).Nodup := by
  constructor
  · rintro ⟨is, e, he, hfailure⟩
    cases (combine_eq_iff hk hkn hmax _).1 he with
    | unfit _ _ failed => exact absurd (ofKey_of_check failed) (hfailure ▸ id)
    | repeated fit split _ again =>
      refine ⟨fit, fun hnodup ↦ ?_⟩
      rw [split, List.map_append, List.map_cons] at hnodup
      exact List.disjoint_of_nodup_append hnodup again List.mem_cons_self
    | absent => cases hfailure
  · rintro ⟨hfit, hnodup⟩
    obtain ⟨before, K, after, rfl, fresh, again⟩ := exists_first_repeated hnodup
    exact ⟨[K.guardian], _, combine_of_repeated hmax hfit fresh again, rfl⟩

/-- The guardian who is reported to have two keys has them. -/
theorem two_le_count_of_reports (h : Reports E keys (.incomplete .duplicate is)) :
    ∃ i, is = [i] ∧ 2 ≤ (keys.map PublicKey.guardian).count i := by
  obtain ⟨e, he, hfailure⟩ := h
  cases (combine_eq_iff hk hkn hmax _).1 he with
  | unfit _ _ failed => exact absurd (ofKey_of_check failed) (hfailure ▸ id)
  | @repeated before after K _ split _ again =>
    refine ⟨K.guardian, (Failure.incomplete.inj hfailure).2.symm, ?_⟩
    rw [split, List.map_append, List.map_cons, List.count_append, List.count_cons_self]
    have hbefore := List.count_pos_iff.2 again
    omega
  | absent => cases hfailure

/-- Guardians are reported to have no key exactly if all keys fit, no guardian has two, and they are
those without one, in ascending order. -/
theorem reports_missing_iff :
    Reports E keys (.incomplete .missing is) ↔
      (∀ K ∈ keys, K.check E = .ok ()) ∧ (keys.map PublicKey.guardian).Nodup ∧ is ≠ [] ∧
        is.Pairwise (· < ·) ∧ ∀ i, i ∈ is ↔
          (1 ≤ i ∧ i ≤ E.terms.guardians) ∧ i ∉ keys.map PublicKey.guardian := by
  constructor
  · rintro ⟨e, he, hfailure⟩
    cases (combine_eq_iff hk hkn hmax _).1 he with
    | unfit _ _ failed => exact absurd (ofKey_of_check failed) (hfailure ▸ id)
    | repeated => cases hfailure
    | absent fit distinct gap ascending exact =>
      obtain rfl := (Failure.incomplete.inj hfailure).2
      exact ⟨fit, distinct, gap, ascending, exact⟩
  · rintro ⟨hfit, distinct, gap, ascending, exact⟩
    exact ⟨_, combine_of_absent hmax hfit distinct gap ascending exact, rfl⟩

/-- There is a joint key exactly if all keys fit and each guardian has one, and it is the product of
the shares. -/
theorem combine_eq_ok_iff {J : JointKey} :
    combine E keys = .ok J ↔
      (∀ K ∈ keys, K.check E = .ok ()) ∧ (keys.map PublicKey.guardian).Nodup ∧
        (∀ i, 1 ≤ i → i ≤ E.terms.guardians → i ∈ keys.map PublicKey.guardian) ∧
        ∃ shares : List ℕ, keys.map PublicKey.share = shares.map .ok ∧
          ⟨shares.prod % E.group.p⟩ = J := by
  rw [combine_eq_iff hk hkn hmax]
  constructor
  · intro h
    cases h with
    | complete fit distinct covered shared => exact ⟨fit, distinct, covered, _, shared, rfl⟩
  · rintro ⟨fit, distinct, covered, shares, shared, rfl⟩
    exact .complete fit distinct covered shared

/-! ### Permutations -/

/-- A joint key does not depend on the order, since a product does not. -/
theorem combine_eq_ok_of_perm (hperm : keys.Perm keys') {J : JointKey}
    (h : combine E keys = .ok J) : combine E keys' = .ok J := by
  obtain ⟨hfit, distinct, covered, shares, shared, rfl⟩ := (combine_eq_ok_iff hk hkn hmax).1 h
  have hfit' : ∀ K ∈ keys', K.check E = .ok () := fun K hK ↦ hfit K (hperm.mem_iff.2 hK)
  have hguardians := hperm.map PublicKey.guardian
  obtain ⟨shares', shared'⟩ := exists_shares hk hfit'
  have hshares : shares.Perm shares' := by
    rw [← List.map_perm_map_iff (f := (.ok : ℕ → Except Refusal ℕ)) fun _ _ ↦ Except.ok.inj,
      ← shared, ← shared']
    exact hperm.map PublicKey.share
  refine (combine_eq_ok_iff hk hkn hmax).2 ⟨hfit', hguardians.nodup_iff.1 distinct,
    fun i h1 hn ↦ hguardians.mem_iff.1 (covered i h1 hn), shares', shared', ?_⟩
  rw [hshares.prod_eq]

/-- **The order of the keys does not matter.** Keys that are combined in two orders have the same
joint key or have none in either; the guardians that are reported to have no key are the same; a
guardian is reported to have two keys in both orders or in neither, and wherever one is, there are
two; and a key that does not fit is reported in both orders or in neither.

That there are at most `maxGuardian` guardians is no test of the election: its terms cannot be made
with more. -/
theorem combine_perm (hperm : keys.Perm keys') :
    (∀ J, combine E keys = .ok J ↔ combine E keys' = .ok J) ∧
    (∀ is, Reports E keys (.incomplete .missing is) ↔
      Reports E keys' (.incomplete .missing is)) ∧
    ((∃ is, Reports E keys (.incomplete .duplicate is)) ↔
      ∃ is, Reports E keys' (.incomplete .duplicate is)) ∧
    (∀ is, Reports E keys (.incomplete .duplicate is) ∨
        Reports E keys' (.incomplete .duplicate is) →
      ∃ i, is = [i] ∧ 2 ≤ (keys.map PublicKey.guardian).count i ∧
        2 ≤ (keys'.map PublicKey.guardian).count i) ∧
    ((∃ failure, failure.OfKey ∧ Reports E keys failure) ↔
      ∃ failure, failure.OfKey ∧ Reports E keys' failure) := by
  have hfit : (∀ K ∈ keys, K.check E = .ok ()) ↔ ∀ K ∈ keys', K.check E = .ok () :=
    forall_congr' fun K ↦ by rw [hperm.mem_iff]
  have hguardians := hperm.map PublicKey.guardian
  refine ⟨fun J ↦ ⟨?_, ?_⟩, fun is ↦ ?_, ?_, fun is h ↦ ?_, ?_⟩
  · exact combine_eq_ok_of_perm hk hkn hmax hperm
  · exact combine_eq_ok_of_perm hk hkn hmax hperm.symm
  · rw [reports_missing_iff hk hkn hmax, reports_missing_iff hk hkn hmax, hfit,
      hguardians.nodup_iff]
    simp only [hguardians.mem_iff]
  · rw [reports_duplicate_iff hk hkn hmax, reports_duplicate_iff hk hkn hmax, hfit,
      hguardians.nodup_iff]
  · rcases h with h | h
    · obtain ⟨i, rfl, hcount⟩ := two_le_count_of_reports hk hkn hmax h
      exact ⟨i, rfl, hcount, hguardians.count_eq i ▸ hcount⟩
    · obtain ⟨i, rfl, hcount⟩ := two_le_count_of_reports hk hkn hmax h
      exact ⟨i, rfl, hguardians.count_eq i ▸ hcount, hcount⟩
  · rw [reports_ofKey_iff hk hkn hmax, reports_ofKey_iff hk hkn hmax, hfit]

end Outcomes

/-- The keys of guardians 2 and 1, and then again a key of each. -/
def repeatedKeys : List PublicKey :=
  [⟨2, none, [4, 1]⟩, ⟨1, none, [2, 4]⟩, ⟨2, none, [1, 1]⟩, ⟨1, none, [2, 2]⟩]

/-- Which of two guardians with two keys is reported depends on the order, but in the other order
one is as well. -/
theorem combine_perm_repeatedKeys :
    1 ≤ Election.threeOverSquares.terms.quorum ∧
      Election.threeOverSquares.terms.quorum ≤ Election.threeOverSquares.terms.guardians ∧
      Election.threeOverSquares.terms.guardians ≤ maxGuardian ∧
      repeatedKeys.Perm repeatedKeys.reverse ∧
      Reports .threeOverSquares repeatedKeys (.incomplete .duplicate [2]) ∧
      ∃ is, Reports .threeOverSquares repeatedKeys.reverse (.incomplete .duplicate is) := by
  have hperm : repeatedKeys.Perm repeatedKeys.reverse := (List.reverse_perm _).symm
  have hfit : ∀ K ∈ repeatedKeys, K.check .threeOverSquares = .ok () := by
    intro K hK
    rw [PublicKey.check_eq_ok_iff]
    revert K
    decide +kernel
  have split : repeatedKeys = [⟨2, none, [4, 1]⟩, ⟨1, none, [2, 4]⟩] ++
      ⟨2, none, [1, 1]⟩ :: [⟨1, none, [2, 2]⟩] := rfl
  have hreport : Reports .threeOverSquares repeatedKeys (.incomplete .duplicate [2]) :=
    ⟨_, (combine_eq_iff (by decide) (by decide) (by decide) _).2
      (.repeated hfit split (by decide) (by decide)), rfl⟩
  obtain ⟨-, -, hduplicate, -⟩ :=
    combine_perm (E := .threeOverSquares) (by decide) (by decide) (by decide) hperm
  exact ⟨by decide, by decide, by decide, hperm, hreport, hduplicate.1 ⟨_, hreport⟩⟩

end JointKey

end ElectionKeys
