import Mathlib
import ElectionKeys.Proofs.Group.SelfTest
import ElectionKeys.Proofs.Guardian.Combination
import ElectionKeys.Proofs.Guardian.Flaws

/-!
# Keys of elections that have not been tested

An election may be read without being tested, and then `p` may be zero or the powers of `g` may be
no group. The tests of keys and the combination of public keys are safe even so: each operation that
they come to has a value.

Powers, remainders and places in lists are total where the tests are run, so this is not to be seen
there. But the procedures are written over any `Operations`, and here they are looked at over those
that refuse: a power or a remainder modulo zero, a mark in the table of guardians at a place that it
does not have, a commitment that is not there. The order in which the operations are come to is the
same, since it is the same procedure. Not one of them is refused, and the outcome is that of the
procedure as it is run (`PublicKey.guardedCheck_eq`, `SecretKey.guardedCheck_eq`,
`JointKey.guardedCheck_eq`, `JointKey.guardedCombine_eq`). Each equation follows from those of the
procedures that are called, and what has to be known of the arguments comes from the tests that have
been made before.

* Of the test of a key only membership says anything about `p`: a number below `p` has been found,
  so `p` is not zero. The power is taken after that, and coefficients are compared only after a
  commitment has passed (`SchnorrGroup.p_ne_zero_of_isElement`).
* The product is not formed before every key has passed. A key that passes has a commitment, since
  the quorum is at least 1, and that is an element.
* A place in the table is that of a guardian who takes part. Nothing need be known about the marks.

What is reported when a key does not pass is an error about a key or about a guardian number in any
case, since no test says anything else (`keyOperations_safe`).
-/

namespace ElectionKeys

/-! ### Membership -/

namespace SchnorrGroup

variable {G : SchnorrGroup}

/-- No power is refused, since a number below `p` has been found before it is taken. -/
theorem isElementBy_refusing (x : ℤ) : G.isElementBy .refusing x = some (G.isElement x) := by
  rw [isElement, isElementBy, isElementBy]
  split
  · next hx =>
    rw [Operations.refusing_powMod _ _ (by omega)]
    rfl
  · rfl

/-- Where there is an element, `p` is not zero. -/
theorem p_ne_zero_of_isElement {c : ℕ} (h : G.isElement c = true) : G.p ≠ 0 := by
  have hc := ((isElement_natCast c).1 h).1
  omega

end SchnorrGroup

/-! ### Tests of keys -/

/-- That a public key fits an election, by operations that refuse where they have no value. -/
def PublicKey.guardedCheck (E : Election) (K : PublicKey) : Option (Except Error Unit) :=
  K.checkBy .refusing E

/-- That a secret key fits an election, by operations that refuse where they have no value. -/
def SecretKey.guardedCheck (E : Election) (S : SecretKey) : Option (Except Error Unit) :=
  S.checkBy .refusing E

section Tests

variable {E : Election}

theorem firstOutsiderBy_refusing (G : SchnorrGroup) (j : ℕ) (cs : List ℕ) :
    firstOutsiderBy .refusing G j cs = some (firstOutsider G j cs) := by
  induction cs generalizing j with
  | nil => rfl
  | cons c cs ih =>
    rw [firstOutsider_cons, firstOutsiderBy, SchnorrGroup.isElementBy_refusing,
      Option.bind_eq_bind, Option.bind_some, ih]
    split
    · rfl
    · rfl

theorem firstMismatchBy_refusing {G : SchnorrGroup} (hp : G.p ≠ 0) (j : ℕ)
    (pairs : List (ℕ × ℕ)) :
    firstMismatchBy .refusing G j pairs = some (firstMismatch G j pairs) := by
  induction pairs generalizing j with
  | nil => rfl
  | cons x pairs ih =>
    obtain ⟨a, c⟩ := x
    rw [firstMismatch_cons, firstMismatchBy, Operations.refusing_powMod _ _ hp,
      Option.bind_eq_bind, Option.bind_some, ih]
    split
    · rfl
    split
    · rfl
    · rfl

theorem commitmentsFlawBy_refusing (E : Election) (cs : List ℕ) :
    commitmentsFlawBy .refusing E cs = some (commitmentsFlaw E cs) := by
  rw [commitmentsFlaw_eq, commitmentsFlawBy, firstOutsiderBy_refusing]
  split
  · rfl
  · rfl

theorem PublicKey.firstFlawBy_refusing (K : PublicKey) :
    K.firstFlawBy .refusing E = some (K.firstFlaw E) := by
  rw [firstFlaw_eq, firstFlawBy, commitmentsFlawBy_refusing]
  split
  · rfl
  · rfl

/-- Coefficients and commitments are compared only if there is no pair to compare or a commitment
has passed, and then `p` is not zero. -/
theorem SecretKey.firstMismatchBy_refusing_zip (as : List ℕ) {cs : List ℕ}
    (h : commitmentsFlaw E cs = none) :
    firstMismatchBy .refusing E.group 0 (as.zip cs) =
      some (firstMismatch E.group 0 (as.zip cs)) := by
  obtain ⟨-, helements⟩ := (commitmentsFlaw_eq_none_iff E cs).1 h
  cases cs with
  | nil =>
    rw [List.zip_nil_right]
    rfl
  | cons c cs =>
    exact firstMismatchBy_refusing
      (SchnorrGroup.p_ne_zero_of_isElement (helements c List.mem_cons_self)) 0 _

theorem SecretKey.firstFlawBy_refusing (S : SecretKey) :
    S.firstFlawBy .refusing E = some (S.firstFlaw E) := by
  rw [firstFlaw_eq, firstFlawBy, commitmentsFlawBy_refusing, Option.bind_eq_bind, Option.bind_some]
  split
  · rfl
  split
  · rfl
  cases h : commitmentsFlaw E S.commitments with
  | some flaw => rfl
  | none => exact firstMismatchBy_refusing_zip _ h

/-- **The test of a public key is safe.** -/
theorem PublicKey.guardedCheck_eq (K : PublicKey) : K.guardedCheck E = some (K.check E) := by
  rw [guardedCheck, checkBy, firstFlawBy_refusing]
  rfl

/-- **The test of a secret key is safe.** -/
theorem SecretKey.guardedCheck_eq (S : SecretKey) : S.guardedCheck E = some (S.check E) := by
  rw [guardedCheck, checkBy, firstFlawBy_refusing]
  rfl

end Tests

/-! ### The combination -/

/-- The number of one of `n` guardians has a place among `n`. -/
theorem GuardianIndex.slot_lt_of_ofInt {i : ℤ} {g : GuardianIndex} {n : ℕ}
    (h : ofInt i = .ok g) (hn : i ≤ n) : g.slot < n := by
  rw [ofInt] at h
  split at h
  · next hi =>
    cases h
    show i.toNat - 1 < n
    omega
  · cases h

namespace JointKey

/-- That a joint key is an element of the group, by operations that refuse where they have no
value. -/
def guardedCheck (E : Election) (J : JointKey) : Option (Except Error Unit) :=
  J.checkBy .refusing E

/-- The combination of public keys by operations that refuse where they have no value. -/
def guardedCombine (E : Election) (keys : List PublicKey) : Option (Except Refusal JointKey) :=
  combineBy .refusing E keys

variable {E : Election} {keys : List PublicKey}

/-- **The test of a joint key is safe.** -/
theorem guardedCheck_eq (J : JointKey) : J.guardedCheck E = some (J.check E) := by
  rw [guardedCheck, checkBy, SchnorrGroup.isElementBy_refusing]
  rfl

theorem firstUnfitBy_refusing (E : Election) (keys : List PublicKey) :
    firstUnfitBy .refusing E keys = some (firstUnfit E keys) := by
  induction keys with
  | nil => rfl
  | cons K keys ih =>
    rw [firstUnfitBy, PublicKey.firstFlawBy_refusing, Option.bind_eq_bind, Option.bind_some, ih]
    cases h : K.firstFlaw E with
    | some flaw => rw [firstUnfit_cons_of_flaw h]; rfl
    | none => rw [firstUnfit_cons_of_fit h]

/-- Guardians who take part have places in the table, whatever the marks are. -/
theorem enterBy_refusing {table : Array Bool} {is : List ℤ} (h : ∀ i ∈ is, i ≤ table.size) :
    enterBy .refusing table is = some (enter table is) := by
  induction is generalizing table with
  | nil => rfl
  | cons i is ih =>
    obtain ⟨hi, his⟩ := List.forall_mem_cons.1 h
    rw [enter, enterBy, enterBy]
    cases hg : GuardianIndex.ofInt i with
    | error e => rfl
    | ok g =>
      have hslot := GuardianIndex.slot_lt_of_ofInt hg hi
      have hsize : (table.setIfInBounds g.slot true).size = table.size :=
        Array.size_setIfInBounds
      simp only [Operations.refusing_marked hslot, Operations.refusing_mark hslot,
        Operations.total_marked, Operations.total_mark, enterBy_total, pure_bind,
        Option.bind_eq_bind, Option.bind_some, ih (show ∀ i ∈ is, i ≤ _ by rwa [hsize])]
      cases table[g.slot]? with
      | none => rfl
      | some seen => cases seen <;> rfl

theorem productBy_refusing {p : ℕ} (hp : p ≠ 0) (h : ∀ K ∈ keys, K.commitments ≠ []) (a : ℕ) :
    productBy .refusing p a keys = some (product p a keys) := by
  induction keys generalizing a with
  | nil => rfl
  | cons K keys ih =>
    obtain ⟨hK, hkeys⟩ := List.forall_mem_cons.1 h
    obtain ⟨c, cs, hc⟩ := List.exists_cons_of_ne_nil hK
    have hfirst : K.commitments.head? = some c := by rw [hc, List.head?_cons]
    rw [product, productBy, productBy, Operations.refusing_first hfirst, Operations.total_first,
      hfirst]
    simp only [Operations.refusing_remainder _ hp, Operations.total_remainder, productBy_total,
      pure_bind, Option.bind_eq_bind, Option.bind_some, ih hkeys, Id.run_pure]

/-- Keys are multiplied only if there are none or one of them has passed, and then `p` is not
zero. -/
theorem productBy_refusing_of_fit (hk : 1 ≤ E.terms.quorum)
    (fit : ∀ K ∈ keys, K.check E = .ok ()) :
    productBy .refusing E.group.p 1 keys = some (product E.group.p 1 keys) := by
  have committed : ∀ K ∈ keys, 0 < K.commitments.length := by
    intro K hK
    obtain ⟨-, hlen, -⟩ := PublicKey.check_eq_ok_iff.1 (fit K hK)
    omega
  cases keys with
  | nil => rfl
  | cons K keys =>
    obtain ⟨-, -, helements⟩ := PublicKey.check_eq_ok_iff.1 (fit K List.mem_cons_self)
    obtain ⟨c, hc⟩ := List.exists_mem_of_length_pos (committed K List.mem_cons_self)
    exact productBy_refusing (SchnorrGroup.p_ne_zero_of_isElement (helements c hc))
      (fun K hK ↦ List.length_pos_iff.1 (committed K hK)) 1

/-- Unless a key that does not fit is found, all of them fit. -/
theorem forall_check_of_firstUnfit (h : firstUnfit E keys = none) :
    ∀ K ∈ keys, K.check E = .ok () := by
  by_contra hall
  obtain ⟨before, K, after, e, rfl, fit, failed⟩ := exists_first_unfit hall
  rw [PublicKey.check_eq] at failed
  obtain ⟨flaw, hflaw, -⟩ := keyOutcome_eq_error_iff.1 failed
  rw [firstUnfit_append_cons fit hflaw] at h
  cases h

/-- **The combination is safe**, the constructor of its result included. -/
theorem guardedCombine_eq (keys : List PublicKey) (hk : 1 ≤ E.terms.quorum) :
    guardedCombine E keys = some (combine E keys) := by
  have hunfit := firstUnfitBy_refusing E keys
  cases hfirst : firstUnfit E keys with
  | some x =>
    rw [hfirst] at hunfit
    exact (combineBy_of_unfit hunfit).trans
      (congrArg some (combineBy_of_unfit (m := Id) hfirst).symm)
  | none =>
    rw [hfirst] at hunfit
    have fit := forall_check_of_firstUnfit hfirst
    have hplaces : ∀ i ∈ keys.map PublicKey.guardian,
        i ≤ (Array.replicate E.terms.guardians.toNat false).size := by
      intro i hi
      obtain ⟨K, hK, rfl⟩ := List.mem_map.1 hi
      obtain ⟨⟨h1, hn⟩, -⟩ := PublicKey.check_eq_ok_iff.1 (fit K hK)
      rw [Array.size_replicate]
      omega
    have hentered := enterBy_refusing hplaces
    cases henter : enter (Array.replicate E.terms.guardians.toNat false)
        (keys.map PublicKey.guardian) with
    | error flaw =>
      rw [henter] at hentered
      exact (combineBy_of_enter hunfit hentered).trans
        (congrArg some (combineBy_of_enter (m := Id) hfirst henter).symm)
    | ok table =>
      rw [henter] at hentered
      cases hgap : absent table with
      | cons i is =>
        exact (combineBy_of_absent hunfit hentered hgap).trans
          (congrArg some (combineBy_of_absent (m := Id) hfirst henter hgap).symm)
      | nil =>
        obtain ⟨shares, hshares⟩ := exists_shares hk fit
        have hproduct := product_eq hshares E.group.p 1
        have hmultiplied := productBy_refusing_of_fit hk fit
        rw [hproduct] at hmultiplied
        exact (combineBy_of_product hunfit hentered hgap hmultiplied).trans
          (congrArg some (combineBy_of_product (m := Id) hfirst henter hgap hproduct).symm)

end JointKey

/-! ### What is reported -/

/-- A test of a key failed, or a number is not that of a guardian. -/
def Failure.IsOfKey (failure : Failure) : Prop :=
  (∃ test guardian, failure = .key test guardian) ∨ ∃ test given, failure = .index test given

theorem Failure.isOfKey_of_keyOutcome {i : ℤ} {flaw : Option KeyFlaw} {e : Error}
    (h : keyOutcome i flaw = .error e) : e.failure.IsOfKey := by
  obtain ⟨found, -, rfl⟩ := keyOutcome_eq_error_iff.1 h
  rcases (found.isReport_toError i).failure with hindex | hkey
  · exact .inr ⟨_, _, hindex⟩
  · exact .inl ⟨_, _, hkey⟩

theorem JointKey.isOfKey_of_check {E : Election} {J : JointKey} {e : Error}
    (h : J.check E = .error e) : e.failure.IsOfKey := by
  rw [check_eq] at h
  split at h
  · cases h
  · cases h
    exact .inl ⟨_, _, rfl⟩

/-- Every reason not to combine is an error about a key or about the keys being incomplete. -/
theorem JointKey.Outcome.exists_error {E : Election} {keys : List PublicKey} {r : Refusal}
    (h : Outcome E keys (.error r)) :
    ∃ e, r = .error e ∧
      (e.failure.IsOfKey ∨ ∃ how indices, e.failure = .incomplete how indices) := by
  cases h with
  | unfit split fit failed =>
    have hfailure := Failure.isOfKey_of_keyOutcome failed
    exact ⟨_, rfl, .inl hfailure⟩
  | repeated => exact ⟨_, rfl, .inr ⟨_, _, rfl⟩⟩
  | absent => exact ⟨_, rfl, .inr ⟨_, _, rfl⟩⟩

/-- **Operations on keys are safe over any numbers in place of a group**, so long as the terms of
the election are sound. Whatever the keys are, all three tests and the combination come to their
outcome without a power or a remainder modulo zero, a place outside the table of guardians or a
commitment that is not there. If they fail, then with an error about a key or a guardian number or,
for the combination only, about guardians with two keys or none. -/
theorem keyOperations_safe (E : Election) (hk : 1 ≤ E.terms.quorum)
    (hkn : E.terms.quorum ≤ E.terms.guardians) (hmax : E.terms.guardians ≤ maxGuardian) :
    (∀ K : PublicKey, K.guardedCheck E = some (K.check E) ∧
      ∀ e, K.check E = .error e → e.failure.IsOfKey) ∧
    (∀ S : SecretKey, S.guardedCheck E = some (S.check E) ∧
      ∀ e, S.check E = .error e → e.failure.IsOfKey) ∧
    (∀ J : JointKey, J.guardedCheck E = some (J.check E) ∧
      ∀ e, J.check E = .error e → e.failure.IsOfKey) ∧
    ∀ keys : List PublicKey, JointKey.guardedCombine E keys = some (JointKey.combine E keys) ∧
      ∀ r, JointKey.combine E keys = .error r → ∃ e, r = .error e ∧
        (e.failure.IsOfKey ∨ ∃ how indices, e.failure = .incomplete how indices) := by
  refine ⟨fun K ↦ ⟨K.guardedCheck_eq, fun e ↦ Failure.isOfKey_of_keyOutcome⟩,
    fun S ↦ ⟨S.guardedCheck_eq, fun e ↦ Failure.isOfKey_of_keyOutcome⟩,
    fun J ↦ ⟨J.guardedCheck_eq, fun e ↦ J.isOfKey_of_check⟩,
    fun keys ↦ ⟨JointKey.guardedCombine_eq keys hk, fun r h ↦ ?_⟩⟩
  exact ((JointKey.combine_eq_iff hk hkn hmax _).1 h).exists_error

/-- With `p` zero no number is an element, and no power is taken to find that out. -/
theorem keyOperations_safe_zero :
    let E : Election :=
      { Election.threeOverSquares with group := { SchnorrGroup.squaresMod7 with p := 0 } }
    1 ≤ E.terms.quorum ∧ E.terms.quorum ≤ E.terms.guardians ∧ E.terms.guardians ≤ maxGuardian ∧
      (PublicKey.mk 1 none [0, 1]).guardedCheck E =
        some (.error ((KeyFlaw.notAnElement 0).toError 1)) ∧
      (SecretKey.mk 2 none [0, 1] [1, 2]).guardedCheck E =
        some (.error ((KeyFlaw.notAnElement 0).toError 2)) ∧
      ∃ e, JointKey.guardedCombine E [⟨1, none, [0, 1]⟩] = some (.error (.error e)) ∧
        e.failure.IsOfKey := by
  intro E
  obtain ⟨hpublic, hsecret, -, hcombine⟩ :=
    keyOperations_safe E (by decide) (by decide) (by decide)
  obtain ⟨hsafe, -⟩ := hcombine [⟨1, none, [0, 1]⟩]
  exact ⟨by decide, by decide, by decide, (hpublic _).1, (hsecret _).1, _, hsafe, .inl ⟨_, _, rfl⟩⟩

end ElectionKeys
