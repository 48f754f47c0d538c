import Mathlib
import ElectionKeys.Guardian.Joint
import ElectionKeys.Proofs.Guardian.Check

/-!
# The outcome of combining public keys

Public keys come in any order, some of them twice, some not at all, and some that do not fit. What
the combination comes to is said by `JointKey.Outcome`, one case for each way in which it can end,
without the loops that find out. `combine_eq_iff` says that nothing else ever comes out.

## What the cases rest on

* The report of a key that does not fit rests on `firstUnfit` alone: `firstUnfit_append_cons`.
* The reports of guardians with two keys or with none rest on one invariant of the table, `Marks`:
  after some numbers have come, the table has a mark exactly at their places. `enter_append` carries
  it over numbers that come for the first time, `enter_again` reads the repetition off it, and
  `mem_absent_iff` the gaps.
* Nothing has to be counted. That the numbers are exactly `1` to `n` is two facts about the list,
  no repetition and no gap, and the table shows both.
-/

namespace ElectionKeys.JointKey

/-! ### Keys that do not fit -/

section Unfit

variable {E : Election} {K : PublicKey}

theorem firstUnfit_cons_of_fit (h : K.firstFlaw E = none) (keys : List PublicKey) :
    firstUnfit E (K :: keys) = firstUnfit E keys := by
  rw [firstUnfit, firstUnfitBy, PublicKey.firstFlawBy_total, h]
  rfl

theorem firstUnfit_cons_of_flaw {flaw : KeyFlaw} (h : K.firstFlaw E = some flaw)
    (keys : List PublicKey) : firstUnfit E (K :: keys) = some (K.guardian, flaw) := by
  rw [firstUnfit, firstUnfitBy, PublicKey.firstFlawBy_total, h]
  rfl

/-- Keys that fit are passed over. -/
theorem firstUnfit_append {before : List PublicKey} (fit : ∀ K ∈ before, K.check E = .ok ())
    (rest : List PublicKey) : firstUnfit E (before ++ rest) = firstUnfit E rest := by
  induction before with
  | nil => rfl
  | cons K before ih =>
    obtain ⟨hK, hbefore⟩ := List.forall_mem_cons.1 fit
    rw [List.cons_append, firstUnfit_cons_of_fit (PublicKey.check_eq_ok_iff_firstFlaw.1 hK)]
    exact ih hbefore

/-- Keys that all pass their tests have no first one that does not. -/
theorem firstUnfit_eq_none {keys : List PublicKey} (fit : ∀ K ∈ keys, K.check E = .ok ()) :
    firstUnfit E keys = none := by
  have h := firstUnfit_append fit []
  rwa [List.append_nil] at h

/-- The first key that does not fit is the one that is reported. -/
theorem firstUnfit_append_cons {before : List PublicKey} {flaw : KeyFlaw}
    (fit : ∀ K' ∈ before, K'.check E = .ok ()) (h : K.firstFlaw E = some flaw)
    (after : List PublicKey) :
    firstUnfit E (before ++ K :: after) = some (K.guardian, flaw) := by
  rw [firstUnfit_append fit, firstUnfit_cons_of_flaw h]

end Unfit

/-! ### The table of guardians -/

/-- A table of `n` guardians has a mark at the places of the given numbers and at no others. -/
structure Marks (n : ℕ) (table : Array Bool) (seen : List ℤ) : Prop where
  size_eq : table.size = n
  getElem?_eq : ∀ place < n, table[place]? = some (decide ((place : ℤ) + 1 ∈ seen))

theorem marks_replicate (n : ℕ) : Marks n (Array.replicate n false) [] where
  size_eq := Array.size_replicate
  getElem?_eq place h := by simp [h]

section Table

variable {n : ℕ} {table : Array Bool} {seen : List ℤ} {i : ℤ}

/-- The place of a guardian shows whether its number has come. -/
theorem Marks.getElem?_slot (m : Marks n table seen) (h1 : 1 ≤ i) (hn : i ≤ n) :
    table[i.toNat - 1]? = some (decide (i ∈ seen)) := by
  rw [m.getElem?_eq _ (by omega)]
  congr 3
  omega

/-- One more number marks one more place. -/
theorem Marks.enter (m : Marks n table seen) (h1 : 1 ≤ i) :
    Marks n (table.setIfInBounds (i.toNat - 1) true) (seen ++ [i]) where
  size_eq := by rw [Array.size_setIfInBounds, m.size_eq]
  getElem?_eq place h := by
    rw [Array.getElem?_setIfInBounds]
    split
    · next heq =>
      have hi : (place : ℤ) + 1 = i := by omega
      rw [if_pos (by rw [m.size_eq]; omega), hi]
      simp
    · next hne =>
      have hi : (place : ℤ) + 1 ≠ i := by omega
      rw [m.getElem?_eq place h]
      simp [hi]

/-- What a number of a guardian does when it comes. -/
theorem enter_cons (m : Marks n table seen) (hmax : n ≤ maxGuardian) (h1 : 1 ≤ i) (hn : i ≤ n)
    (rest : List ℤ) :
    enter table (i :: rest) =
      if i ∈ seen then .error (.repeated i)
      else enter (table.setIfInBounds (i.toNat - 1) true) rest := by
  have hbound : 1 ≤ i ∧ i ≤ (maxGuardian : ℤ) := ⟨h1, by omega⟩
  rw [JointKey.enter, enterBy, GuardianIndex.ofInt, dif_pos hbound]
  simp only [GuardianIndex.slot, Operations.total_marked, Operations.total_mark, enterBy_total,
    pure_bind]
  rw [m.getElem?_slot h1 hn]
  by_cases hi : i ∈ seen
  · simp [hi]
  · simp [hi]

/-- **A number that comes again is reported**, whatever comes after it. -/
theorem enter_again (m : Marks n table seen) (hmax : n ≤ maxGuardian) (h1 : 1 ≤ i) (hn : i ≤ n)
    (again : i ∈ seen) (rest : List ℤ) : enter table (i :: rest) = .error (.repeated i) := by
  rw [enter_cons m hmax h1 hn, if_pos again]

/-- **Numbers that come for the first time leave the table marked for them too**, and the rest is
entered into that table. -/
theorem enter_append {fresh : List ℤ} (m : Marks n table seen) (hmax : n ≤ maxGuardian)
    (range : ∀ i ∈ fresh, 1 ≤ i ∧ i ≤ n) (distinct : (seen ++ fresh).Nodup) :
    ∃ table', Marks n table' (seen ++ fresh) ∧
      ∀ rest, enter table (fresh ++ rest) = enter table' rest := by
  -- Each number goes into the table that the one before it left behind.
  induction fresh generalizing table seen with
  | nil => exact ⟨table, by rwa [List.append_nil], fun _ ↦ rfl⟩
  | cons i fresh ih =>
    obtain ⟨⟨h1, hn⟩, hrange⟩ := List.forall_mem_cons.1 range
    rw [List.append_cons] at distinct ⊢
    obtain ⟨table', m', hrest⟩ := ih (m.enter h1) hrange distinct
    refine ⟨table', m', fun rest ↦ ?_⟩
    have new : i ∉ seen := by
      have hdisj := List.disjoint_of_nodup_append (List.nodup_append.1 distinct).1
      exact fun hi ↦ hdisj hi (List.mem_singleton_self i)
    rw [List.cons_append, enter_cons m hmax h1 hn, if_neg new, hrest]

/-- The guardians without a mark are those whose numbers have not come. -/
theorem mem_absent_iff (m : Marks n table seen) :
    i ∈ absent table ↔ (1 ≤ i ∧ i ≤ n) ∧ i ∉ seen := by
  simp only [absent, List.mem_map, List.mem_filter, List.mem_range, beq_iff_eq, m.size_eq]
  constructor
  · rintro ⟨place, ⟨hlt, hplace⟩, rfl⟩
    rw [m.getElem?_eq place hlt] at hplace
    have hnot : (place : ℤ) + 1 ∉ seen := by simpa using hplace
    exact ⟨⟨by simp, by simpa using hlt⟩, by simpa using hnot⟩
  · rintro ⟨⟨h1, hn⟩, hnot⟩
    refine ⟨i.toNat - 1, ⟨by omega, ?_⟩, by simp only [Int.ofNat_eq_natCast]; omega⟩
    rw [m.getElem?_slot h1 hn]
    simpa using hnot

/-- The missing numbers come in ascending order, as the table has its places. -/
theorem pairwise_absent (table : Array Bool) : (absent table).Pairwise (· < ·) := by
  refine List.Pairwise.map _ (fun a b (h : a < b) ↦ ?_) (List.pairwise_lt_range.filter _)
  simp only [Int.ofNat_eq_natCast]
  omega

/-- Whatever lists the gaps in ascending order is the list that the table gives. -/
theorem absent_eq {missing : List ℤ} (m : Marks n table seen)
    (ascending : missing.Pairwise (· < ·))
    (exact : ∀ i, i ∈ missing ↔ (1 ≤ i ∧ i ≤ n) ∧ i ∉ seen) : absent table = missing :=
  (pairwise_absent table).eq_of_mem_iff ascending fun i ↦ by rw [mem_absent_iff m, exact]

end Table

/-! ### The product -/

/-- The product of numbers modulo `p`, reduced after each factor. -/
def productMod (p : ℕ) (factors : List ℕ) : ℕ :=
  factors.foldl (fun product c ↦ product * c % p) 1

/-- Reducing after every factor comes to the same as reducing once. -/
theorem foldl_mul_mod (p a : ℕ) (factors : List ℕ) :
    factors.foldl (fun product c ↦ product * c % p) a % p = a * factors.prod % p := by
  induction factors generalizing a with
  | nil => simp
  | cons c factors ih => rw [List.foldl_cons, ih, Nat.mod_mul_mod, List.prod_cons, Nat.mul_assoc]

/-- Reducing after each factor is the same as reducing once, if there is a factor at all. -/
theorem productMod_eq (p : ℕ) {factors : List ℕ} (h : factors ≠ []) :
    productMod p factors = factors.prod % p := by
  obtain ⟨init, c, rfl⟩ := (List.eq_nil_or_concat factors).resolve_left h
  have hinit : productMod p init % p = init.prod % p := by
    have := foldl_mul_mod p 1 init
    rwa [Nat.one_mul] at this
  rw [List.concat_eq_append, List.prod_append, List.prod_singleton, Nat.mul_mod, ← hinit,
    ← Nat.mul_mod]
  simp [productMod]

/-- Keys with shares are multiplied by their shares, one after the other. -/
theorem product_eq {keys : List PublicKey} {shares : List ℕ}
    (h : keys.map PublicKey.share = shares.map .ok) (p a : ℕ) :
    product p a keys = .ok (shares.foldl (fun product c ↦ product * c % p) a) := by
  induction keys generalizing shares a with
  | nil =>
    have hs : shares = [] := by simpa using h.symm
    rw [hs]
    rfl
  | cons K keys ih =>
    obtain ⟨c, shares, rfl⟩ : ∃ c cs, shares = c :: cs := by
      cases shares with
      | nil => simp at h
      | cons c cs => exact ⟨c, cs, rfl⟩
    rw [List.map_cons, List.map_cons, List.cons.injEq] at h
    rw [product, productBy, Operations.total_first, PublicKey.head?_of_share h.1, pure_bind,
      List.foldl_cons, ← ih h.2]
    rfl

/-! ### The combination in stages

Over any operations and in any monad the combination is as far as its first stage that has something
to report. These lemmas are for the combination as it is run and for that whose operations refuse
alike. -/

section Stages

variable {m : Type → Type} [Monad m] [LawfulMonad m] {ops : Operations m} {E : Election}
  {keys : List PublicKey}

/-- Whatever the operations are, a key that fails its test ends the combination. -/
theorem combineBy_of_unfit {i : ℤ} {flaw : KeyFlaw}
    (unfit : firstUnfitBy ops E keys = pure (some (i, flaw))) :
    combineBy ops E keys = pure (.error (CombineFlaw.unfit i flaw).toRefusal) := by
  rw [combineBy, unfit, pure_bind]

/-- After the tests it is a number that is entered twice, or has no place. -/
theorem combineBy_of_enter {flaw : CombineFlaw} (fit : firstUnfitBy ops E keys = pure none)
    (entered : enterBy ops (Array.replicate E.terms.guardians.toNat false)
      (keys.map PublicKey.guardian) = pure (.error flaw)) :
    combineBy ops E keys = pure (.error flaw.toRefusal) := by
  simp only [combineBy, fit, entered, pure_bind]

/-- After that it is a number that nobody has. -/
theorem combineBy_of_absent {table : Array Bool} {i : ℤ} {is : List ℤ}
    (fit : firstUnfitBy ops E keys = pure none)
    (entered : enterBy ops (Array.replicate E.terms.guardians.toNat false)
      (keys.map PublicKey.guardian) = pure (.ok table)) (gap : absent table = i :: is) :
    combineBy ops E keys = pure (.error (CombineFlaw.absent (i :: is)).toRefusal) := by
  simp only [combineBy, fit, entered, pure_bind, gap]

/-- Otherwise the product is the joint key. -/
theorem combineBy_of_product {table : Array Bool} {x : ℕ}
    (fit : firstUnfitBy ops E keys = pure none)
    (entered : enterBy ops (Array.replicate E.terms.guardians.toNat false)
      (keys.map PublicKey.guardian) = pure (.ok table)) (gap : absent table = [])
    (multiplied : productBy ops E.group.p 1 keys = pure (.ok x)) :
    combineBy ops E keys = pure (make (.int x)) := by
  simp only [combineBy, fit, entered, pure_bind, gap, multiplied]

end Stages

/-- Any number is a joint key to the constructor. -/
theorem make_int (v : ℕ) : make (.int v) = .ok ⟨v⟩ := by
  have hv : Field.bigOfInt v = .valid v := Field.bigOfInt_eq_valid_iff.2 rfl
  rw [make, Document.build_eq_ok_iff]
  simp only [hv]
  rfl

/-! ### The four outcomes -/

/-- What combining public keys can come to. The four cases exclude one another, and each says all
about its result. -/
inductive Outcome (E : Election) (keys : List PublicKey) : Except Refusal JointKey → Prop
  /-- A key does not fit. The first such key in the list is reported, with its own error. -/
  | unfit {before after : List PublicKey} {K : PublicKey} {e : Error}
      (split : keys = before ++ K :: after) (fit : ∀ K' ∈ before, K'.check E = .ok ())
      (failed : K.check E = .error e) :
      Outcome E keys (.error (.error (e.within s!"Clé publique du gardien {K.guardian}")))
  /-- All keys fit and a guardian has two. The first number that was there before is reported. -/
  | repeated {before after : List PublicKey} {K : PublicKey}
      (fit : ∀ K ∈ keys, K.check E = .ok ()) (split : keys = before ++ K :: after)
      (fresh : (before.map PublicKey.guardian).Nodup)
      (again : K.guardian ∈ before.map PublicKey.guardian) :
      Outcome E keys (.error (.error (.ofIncomplete .duplicate [K.guardian])))
  /-- All keys fit, no guardian has two and some have none. Those are reported in ascending
  order. -/
  | absent {missing : List ℤ} (fit : ∀ K ∈ keys, K.check E = .ok ())
      (distinct : (keys.map PublicKey.guardian).Nodup) (gap : missing ≠ [])
      (ascending : missing.Pairwise (· < ·))
      (exact : ∀ i, i ∈ missing ↔
        (1 ≤ i ∧ i ≤ E.terms.guardians) ∧ i ∉ keys.map PublicKey.guardian) :
      Outcome E keys (.error (.error (.ofIncomplete .missing missing)))
  /-- All keys fit and each guardian has one. The joint key is the product of the shares. -/
  | complete {shares : List ℕ} (fit : ∀ K ∈ keys, K.check E = .ok ())
      (distinct : (keys.map PublicKey.guardian).Nodup)
      (covered : ∀ i, 1 ≤ i → i ≤ E.terms.guardians → i ∈ keys.map PublicKey.guardian)
      (shared : keys.map PublicKey.share = shares.map .ok) :
      Outcome E keys (.ok ⟨shares.prod % E.group.p⟩)

section Cases

variable {E : Election} {keys : List PublicKey}

/-- Keys that fit and belong to different guardians enter the table one after the other. -/
theorem exists_table {before : List PublicKey} (rest : List PublicKey)
    (hmax : E.terms.guardians ≤ maxGuardian) (fit : ∀ K ∈ before, K.check E = .ok ())
    (fresh : (before.map PublicKey.guardian).Nodup) :
    ∃ table, Marks E.terms.guardians.toNat table (before.map PublicKey.guardian) ∧
      enter (Array.replicate E.terms.guardians.toNat false)
          ((before ++ rest).map PublicKey.guardian) =
        enter table (rest.map PublicKey.guardian) := by
  have range : ∀ i ∈ before.map PublicKey.guardian, 1 ≤ i ∧ i ≤ (E.terms.guardians.toNat : ℤ) := by
    intro i hi
    obtain ⟨K, hK, rfl⟩ := List.mem_map.1 hi
    obtain ⟨⟨h1, hn⟩, -⟩ := PublicKey.check_eq_ok_iff.1 (fit K hK)
    omega
  obtain ⟨table, m, hrest⟩ :=
    enter_append (marks_replicate E.terms.guardians.toNat) (by omega) range fresh
  exact ⟨table, m, by rw [List.map_append, hrest]⟩

/-- The first key that fails its test is reported with its guardian, whatever stands behind it. -/
theorem combine_of_unfit {before after : List PublicKey} {K : PublicKey} {e : Error}
    (fit : ∀ K' ∈ before, K'.check E = .ok ()) (failed : K.check E = .error e) :
    combine E (before ++ K :: after) =
      .error (.error (e.within s!"Clé publique du gardien {K.guardian}")) := by
  rw [PublicKey.check_eq] at failed
  obtain ⟨flaw, hflaw, rfl⟩ := keyOutcome_eq_error_iff.1 failed
  exact combineBy_of_unfit (m := Id) (firstUnfit_append_cons fit hflaw after)

/-- Among keys that fit, the earliest repetition is reported. -/
theorem combine_of_repeated {before after : List PublicKey} {K : PublicKey}
    (hmax : E.terms.guardians ≤ maxGuardian)
    (fit : ∀ K' ∈ before ++ K :: after, K'.check E = .ok ())
    (fresh : (before.map PublicKey.guardian).Nodup)
    (again : K.guardian ∈ before.map PublicKey.guardian) :
    combine E (before ++ K :: after) = .error (.error (.ofIncomplete .duplicate [K.guardian])) := by
  obtain ⟨table, m, hrest⟩ :=
    exists_table (K :: after) hmax (fun K' h ↦ fit K' (List.mem_append_left _ h)) fresh
  obtain ⟨⟨h1, hn⟩, -⟩ := PublicKey.check_eq_ok_iff.1 (fit K (by simp))
  rw [List.map_cons, enter_again m (by omega) h1 (by omega) again] at hrest
  exact combineBy_of_enter (m := Id) (firstUnfit_eq_none fit) hrest

/-- Among different keys that fit, the missing numbers are reported in ascending order. -/
theorem combine_of_absent {missing : List ℤ} (hmax : E.terms.guardians ≤ maxGuardian)
    (fit : ∀ K ∈ keys, K.check E = .ok ()) (distinct : (keys.map PublicKey.guardian).Nodup)
    (gap : missing ≠ []) (ascending : missing.Pairwise (· < ·))
    (exact : ∀ i, i ∈ missing ↔
      (1 ≤ i ∧ i ≤ E.terms.guardians) ∧ i ∉ keys.map PublicKey.guardian) :
    combine E keys = .error (.error (.ofIncomplete .missing missing)) := by
  obtain ⟨table, m, hrest⟩ := exists_table [] hmax fit distinct
  have hmissing : JointKey.absent table = missing := by
    refine absent_eq m ascending fun i ↦ ?_
    have hn : (1 ≤ i ∧ i ≤ E.terms.guardians) ↔ 1 ≤ i ∧ i ≤ (E.terms.guardians.toNat : ℤ) := by
      omega
    rw [exact, hn]
  rw [List.append_nil] at hrest
  cases missing with
  | nil => exact absurd rfl gap
  | cons i is => exact combineBy_of_absent (m := Id) (firstUnfit_eq_none fit) hrest hmissing

/-- Keys of all guardians combine to the product of their shares. -/
theorem combine_of_complete {shares : List ℕ} (hone : 1 ≤ E.terms.guardians)
    (hmax : E.terms.guardians ≤ maxGuardian) (fit : ∀ K ∈ keys, K.check E = .ok ())
    (distinct : (keys.map PublicKey.guardian).Nodup)
    (covered : ∀ i, 1 ≤ i → i ≤ E.terms.guardians → i ∈ keys.map PublicKey.guardian)
    (shared : keys.map PublicKey.share = shares.map .ok) :
    combine E keys = .ok ⟨shares.prod % E.group.p⟩ := by
  obtain ⟨table, m, hrest⟩ := exists_table [] hmax fit distinct
  have hmissing : JointKey.absent table = [] := by
    refine absent_eq m List.Pairwise.nil fun i ↦ iff_of_false List.not_mem_nil ?_
    rintro ⟨⟨h1, hn⟩, hi⟩
    exact hi (covered i h1 (by omega))
  -- With no key at all the product would not be reduced, but the first guardian has one.
  have hne : shares ≠ [] := by
    rintro rfl
    have hkeys : keys = [] := by simpa using shared
    have hmem := covered 1 (Int.le_refl 1) hone
    rw [hkeys] at hmem
    exact List.not_mem_nil hmem
  rw [List.append_nil] at hrest
  rw [← productMod_eq _ hne, ← make_int]
  exact combineBy_of_product (m := Id) (firstUnfit_eq_none fit) hrest hmissing
    (product_eq shared _ 1)

/-! ### One of the cases applies -/

/-- Keys that fit have shares, since at least one commitment is asked for. -/
theorem exists_shares (hk : 1 ≤ E.terms.quorum) (fit : ∀ K ∈ keys, K.check E = .ok ()) :
    ∃ shares : List ℕ, keys.map PublicKey.share = shares.map .ok := by
  refine ⟨keys.map fun K ↦ K.commitments.headD 0, ?_⟩
  rw [List.map_map]
  refine List.map_congr_left fun K hK ↦ ?_
  obtain ⟨-, hlen, -⟩ := PublicKey.check_eq_ok_iff.1 (fit K hK)
  rw [Function.comp_apply, PublicKey.share]
  split
  · next h =>
    rw [h, List.length_nil] at hlen
    omega
  · next c cs h => rw [h, List.headD_cons]

/-- If not all keys fit, one of them is the first that does not. -/
theorem exists_first_unfit (h : ¬ ∀ K ∈ keys, K.check E = .ok ()) :
    ∃ before K after e, keys = before ++ K :: after ∧
      (∀ K' ∈ before, K'.check E = .ok ()) ∧ K.check E = .error e := by
  induction keys with
  | nil => exact absurd (fun K hK ↦ absurd hK List.not_mem_nil) h
  | cons K keys ih =>
    cases hK : K.check E with
    | error e => exact ⟨[], K, keys, e, rfl, by simp, hK⟩
    | ok u =>
      have hrest : ¬ ∀ K' ∈ keys, K'.check E = .ok () := fun hall ↦
        h (List.forall_mem_cons.2 ⟨hK, hall⟩)
      obtain ⟨before, K', after, e, rfl, hbefore, he⟩ := ih hrest
      exact ⟨K :: before, K', after, e, rfl, List.forall_mem_cons.2 ⟨hK, hbefore⟩, he⟩

/-- If a guardian has two keys, one key is the first whose guardian had one before. -/
theorem exists_first_repeated (h : ¬ (keys.map PublicKey.guardian).Nodup) :
    ∃ before K after, keys = before ++ K :: after ∧ (before.map PublicKey.guardian).Nodup ∧
      K.guardian ∈ before.map PublicKey.guardian := by
  -- From the end of the list: the last key is to blame only if there is no repetition before it.
  induction keys using List.reverseRecOn with
  | nil => exact absurd List.nodup_nil h
  | append_singleton init K ih =>
    by_cases hinit : (init.map PublicKey.guardian).Nodup
    · refine ⟨init, K, [], rfl, hinit, ?_⟩
      by_contra hK
      refine h ?_
      rw [List.map_append, List.map_singleton]
      exact hinit.append (List.nodup_singleton _) (by simpa using hK)
    · obtain ⟨before, K', after, rfl, hbefore, hmem⟩ := ih hinit
      exact ⟨before, K', after ++ [K], by simp, hbefore, hmem⟩

/-- Every list of keys has one of the four outcomes. -/
theorem exists_outcome (keys : List PublicKey) (hk : 1 ≤ E.terms.quorum)
    (hmax : E.terms.guardians ≤ maxGuardian) : ∃ r, Outcome E keys r := by
  by_cases fit : ∀ K ∈ keys, K.check E = .ok ()
  · by_cases distinct : (keys.map PublicKey.guardian).Nodup
    · obtain ⟨table, m, -⟩ := exists_table [] hmax fit distinct
      have hmem : ∀ i, i ∈ JointKey.absent table ↔
          (1 ≤ i ∧ i ≤ E.terms.guardians) ∧ i ∉ keys.map PublicKey.guardian := by
        intro i
        rw [mem_absent_iff m]
        exact and_congr_left fun _ ↦ by omega
      by_cases gap : JointKey.absent table = []
      · obtain ⟨shares, shared⟩ := exists_shares hk fit
        refine ⟨_, .complete fit distinct (fun i h1 hn ↦ ?_) shared⟩
        by_contra hi
        have := (hmem i).2 ⟨⟨h1, hn⟩, hi⟩
        rw [gap] at this
        exact List.not_mem_nil this
      · exact ⟨_, .absent fit distinct gap (pairwise_absent table) hmem⟩
    · obtain ⟨before, K, after, split, fresh, again⟩ := exists_first_repeated distinct
      exact ⟨_, .repeated fit split fresh again⟩
  · obtain ⟨before, K, after, e, split, hbefore, failed⟩ := exists_first_unfit fit
    exact ⟨_, .unfit split hbefore failed⟩

/-- What the cases say is what comes out. -/
theorem Outcome.combine_eq {r : Except Refusal JointKey} (hone : 1 ≤ E.terms.guardians)
    (hmax : E.terms.guardians ≤ maxGuardian) (h : Outcome E keys r) : combine E keys = r := by
  cases h with
  | unfit split fit failed =>
    subst split
    exact combine_of_unfit fit failed
  | repeated fit split fresh again =>
    subst split
    exact combine_of_repeated hmax fit fresh again
  | absent fit distinct gap ascending exact =>
    exact combine_of_absent hmax fit distinct gap ascending exact
  | complete fit distinct covered shared =>
    exact combine_of_complete hone hmax fit distinct covered shared

/-- **Combining comes to an outcome exactly if the outcome is the one that the keys have.** -/
theorem combine_eq_iff (hk : 1 ≤ E.terms.quorum) (hkn : E.terms.quorum ≤ E.terms.guardians)
    (hmax : E.terms.guardians ≤ maxGuardian) (r : Except Refusal JointKey) :
    combine E keys = r ↔ Outcome E keys r := by
  have hone : 1 ≤ E.terms.guardians := by omega
  constructor
  · rintro rfl
    obtain ⟨r, hr⟩ := exists_outcome keys hk hmax
    rwa [hr.combine_eq hone hmax]
  · exact Outcome.combine_eq hone hmax

/-- Numbers of guardians are all of them, each once, exactly when they neither repeat nor leave a
gap. -/
theorem coe_eq_Icc_iff {n : ℤ} {indices : List ℤ} (range : ∀ i ∈ indices, 1 ≤ i ∧ i ≤ n) :
    (↑indices : Multiset ℤ) = (Finset.Icc 1 n).val ↔
      indices.Nodup ∧ ∀ i, 1 ≤ i → i ≤ n → i ∈ indices := by
  constructor
  · intro h
    refine ⟨?_, fun i h1 hn ↦ ?_⟩
    · rw [← Multiset.coe_nodup, h]
      exact (Finset.Icc 1 n).nodup
    · rw [← Multiset.mem_coe, h, Finset.mem_val, Finset.mem_Icc]
      exact ⟨h1, hn⟩
  · rintro ⟨distinct, covered⟩
    refine (Multiset.Nodup.ext (Multiset.coe_nodup.2 distinct) (Finset.Icc 1 n).nodup).2 ?_
    intro i
    rw [Multiset.mem_coe, Finset.mem_val, Finset.mem_Icc]
    exact ⟨range i, fun hi ↦ covered i hi.1 hi.2⟩

/-- What a combination with a result says about the keys. -/
theorem outcome_ok_iff (hk : 1 ≤ E.terms.quorum) :
    (∃ J, Outcome E keys (.ok J)) ↔
      (∀ K ∈ keys, K.check E = .ok ()) ∧
        (↑(keys.map PublicKey.guardian) : Multiset ℤ) = (Finset.Icc 1 E.terms.guardians).val := by
  have hcover : (∀ K ∈ keys, K.check E = .ok ()) →
      ((↑(keys.map PublicKey.guardian) : Multiset ℤ) = (Finset.Icc 1 E.terms.guardians).val ↔
        (keys.map PublicKey.guardian).Nodup ∧
          ∀ i, 1 ≤ i → i ≤ E.terms.guardians → i ∈ keys.map PublicKey.guardian) := by
    intro fit
    refine coe_eq_Icc_iff fun i hi ↦ ?_
    obtain ⟨K, hK, rfl⟩ := List.mem_map.1 hi
    exact (PublicKey.check_eq_ok_iff.1 (fit K hK)).1
  constructor
  · rintro ⟨J, h⟩
    cases h with
    | complete fit distinct covered shared => exact ⟨fit, (hcover fit).2 ⟨distinct, covered⟩⟩
  · rintro ⟨fit, hall⟩
    obtain ⟨distinct, covered⟩ := (hcover fit).1 hall
    obtain ⟨shares, shared⟩ := exists_shares hk fit
    exact ⟨_, .complete fit distinct covered shared⟩

/-- **The exact outcome of combining public keys**, for every list of them: the one of the four
cases that applies. There is a joint key exactly when every key fits and the numbers of their
guardians are those from 1 to `n`, each once.

Nothing is asked of the keys, nor of the group: a key that fits has a share and a place in the
table by that alone. -/
theorem combine_outcome (E : Election) (keys : List PublicKey) (hk : 1 ≤ E.terms.quorum)
    (hkn : E.terms.quorum ≤ E.terms.guardians) (hmax : E.terms.guardians ≤ maxGuardian) :
    (∀ r, combine E keys = r ↔ Outcome E keys r) ∧
      ((∃ J, combine E keys = .ok J) ↔
        (∀ K ∈ keys, K.check E = .ok ()) ∧
          (↑(keys.map PublicKey.guardian) : Multiset ℤ) =
            (Finset.Icc 1 E.terms.guardians).val) := by
  refine ⟨combine_eq_iff hk hkn hmax, ?_⟩
  rw [← outcome_ok_iff hk]
  exact exists_congr fun J ↦ combine_eq_iff hk hkn hmax (.ok J)

/-- The second key of guardian 2 is reported, although guardian 3 has none. -/
theorem combine_outcome_second_key :
    1 ≤ Election.threeOverSquares.terms.quorum ∧
      Election.threeOverSquares.terms.quorum ≤ Election.threeOverSquares.terms.guardians ∧
      Election.threeOverSquares.terms.guardians ≤ maxGuardian ∧
      combine .threeOverSquares [⟨2, none, [4, 1]⟩, ⟨1, none, [2, 4]⟩, ⟨2, none, [1, 1]⟩] =
        .error (.error (.ofIncomplete .duplicate [2])) := by
  refine ⟨by decide, by decide, by decide, ?_⟩
  have split : ([⟨2, none, [4, 1]⟩, ⟨1, none, [2, 4]⟩, ⟨2, none, [1, 1]⟩] : List PublicKey) =
      [⟨2, none, [4, 1]⟩, ⟨1, none, [2, 4]⟩] ++ ⟨2, none, [1, 1]⟩ :: [] := rfl
  refine ((combine_outcome .threeOverSquares _ (by decide) (by decide) (by decide)).1 _).2
    (.repeated ?_ split (by decide) (by decide))
  intro K hK
  rw [PublicKey.check_eq_ok_iff]
  revert K
  decide +kernel

end Cases

end ElectionKeys.JointKey
