import Mathlib
import ElectionKeys.Guardian.Joint
import ElectionKeys.Proofs.Document.Field

/-!
# Documents that are malformed

A reader refuses a document for all that is wrong with it, and says that it is malformed unless one
of the problems is an integer that is no guardian number. So to show that a document is malformed it
is not enough to find something wrong with it: there must be no such integer anywhere else. That
problem comes from one place only, the member of the number itself (`Field.guardianNumber`).

`Checked.Numbered` says of a check that it does not have that problem. It passes through everything
that checks are put together from, one lemma for each way: results that are mapped, checks made side
by side or one after the other, items of a list, and members that are required, optional or unknown.
What a value is checked for does not enter, so most lemmas about single fields go through all
outcomes of the check without asking which of them occurs.

* For records without a guardian's number the property holds of every document
  (`Election.numbered_ofMembers`, `JointKey.numbered_ofMembers`).
* For the two kinds of keys it holds if the member of the number is absent or in order
  (`PublicKey.numbered_ofMembers`, `SecretKey.numbered_ofMembers`). It need not be the number of a
  guardian of the election, which is none of the document's business.
* `Document.accept_of_numbered` draws the conclusion. It is used where a document of one kind is
  read as one of another: the member that does not belong there makes it malformed.
-/

namespace ElectionKeys

/-- None of the problems is an integer that is no guardian number. -/
def Numbered (ps : List Problem) : Prop := ∀ p ∈ ps, ∀ n, p.defect ≠ .guardianNumber n

/-- Problems are collected by appending them. -/
theorem numbered_append {ps qs : List Problem} :
    Numbered (ps ++ qs) ↔ Numbered ps ∧ Numbered qs :=
  List.forall_mem_append

/-- Where a problem lies makes no difference. -/
theorem numbered_under {step : PathStep} {ps : List Problem} :
    Numbered (ps.map (Problem.under step)) ↔ Numbered ps :=
  List.forall_mem_map

theorem numbered_singleton {p : Problem} :
    Numbered [p] ↔ ∀ n, p.defect ≠ .guardianNumber n :=
  List.forall_mem_singleton

namespace Checked

variable {α β : Type}

/-- A check that does not fail for an integer that is no guardian number. -/
def Numbered (c : Checked α) : Prop := ElectionKeys.Numbered c.problems

theorem numbered_valid (a : α) : (valid a).Numbered := nofun

theorem numbered_fail {d : Defect} (h : ∀ n, d ≠ .guardianNumber n) :
    (fail d : Checked α).Numbered :=
  numbered_singleton.2 h

/-- What is made of the result does not matter to the problems. -/
theorem Numbered.map {x : Checked α} (h : x.Numbered) (f : α → β) : (f <$> x).Numbered := by
  cases x with
  | valid a => exact numbered_valid _
  | invalid ps => exact h

/-- Of two checks the problems of both are collected. -/
theorem Numbered.seq {f : Checked (α → β)} {x : Checked α} (hf : f.Numbered) (hx : x.Numbered) :
    (f <*> x).Numbered := by
  cases f with
  | valid f => cases x with
    | valid a => exact numbered_valid _
    | invalid ps => exact hx
  | invalid ps => cases x with
    | valid a => exact hf
    | invalid qs => exact numbered_append.2 ⟨hf, hx⟩

theorem Numbered.under {x : Checked α} (h : x.Numbered) (step : PathStep) :
    (x.under step).Numbered := by
  cases x with
  | valid a => exact numbered_valid a
  | invalid ps => exact numbered_under.2 h

/-- A check that is made of the result of another one is either not made or made alone. -/
theorem Numbered.andThen {x : Checked α} {f : α → Checked β} (hx : x.Numbered)
    (hf : ∀ a, (f a).Numbered) : (x.andThen f).Numbered := by
  cases x with
  | valid a => exact hf a
  | invalid ps => exact hx

theorem numbered_eachFrom {check : α → Checked β} (h : ∀ a, (check a).Numbered) (i : ℕ)
    (xs : List α) : (eachFrom check i xs).Numbered := by
  induction xs generalizing i with
  | nil => exact numbered_valid []
  | cons x xs ih => exact (((h x).under _).map _).seq (ih (i + 1))

/-- The items of a list are checked one by one, at their positions. -/
theorem numbered_each {check : α → Checked β} (h : ∀ a, (check a).Numbered) (xs : List α) :
    (each check xs).Numbered :=
  numbered_eachFrom h 0 xs

/-- That a list has no item is no problem with a guardian number either. -/
theorem numbered_eachOfSome {check : α → Checked β} (h : ∀ a, (check a).Numbered)
    (xs : List α) : (eachOfSome check xs).Numbered := by
  rw [eachOfSome]
  split
  · exact numbered_each h xs
  · exact numbered_append.2 ⟨numbered_each h xs, numbered_singleton.2 (by simp)⟩

end Checked

/-! ### Fields -/

namespace Field

open Checked (numbered_valid numbered_fail)

/-- A value that is no integer at all is a problem of another kind. -/
theorem numbered_integer (v : Json) : (integer v).Numbered := by
  cases v <;> first | exact numbered_valid _ | exact numbered_fail (by simp)

theorem numbered_text (v : Json) : (text v).Numbered := by
  cases v <;> first | exact numbered_valid _ | exact numbered_fail (by simp)

theorem numbered_array (v : Json) : (array v).Numbered := by
  cases v <;> first | exact numbered_valid _ | exact numbered_fail (by simp)

/-- A text that is no large number is not taken for a guardian number, whatever is wrong with it. -/
theorem numbered_big (v : Json) : (big v).Numbered := by
  rw [big.eq_def]
  split
  · split
    · exact numbered_valid _
    · exact numbered_fail (by simp)
  · exact numbered_fail (by simp)

/-- A version may have too few items or too many, and some that are no integers. -/
theorem numbered_pair (v : Json) : (pair v).Numbered := by
  refine (numbered_array v).andThen fun vs ↦ ?_
  split
  · exact List.forall_mem_cons.2 ⟨by simp, List.forall_mem_singleton.2 (by simp)⟩
  · exact (((numbered_integer _).under _).map _).seq (List.forall_mem_singleton.2 (by simp))
  · exact (((numbered_integer _).under _).map _).seq ((numbered_integer _).under _)
  · exact numbered_fail (by simp)

theorem numbered_natural (n : ℤ) : (natural n).Numbered := by
  rw [natural]
  split
  · exact numbered_fail (by simp)
  · exact numbered_valid _

theorem numbered_short (n : ℤ) : (short n).Numbered := by
  rw [short]
  split
  · exact numbered_fail (by simp)
  · split
    · exact numbered_fail (by simp)
    · exact numbered_valid _

/-- Coefficients and commitments are arrays of large numbers. -/
theorem numbered_bigs (v : Json) : (bigs v).Numbered :=
  (numbered_array v).andThen (Checked.numbered_each numbered_big)

theorem numbered_someBigs (v : Json) : (someBigs v).Numbered :=
  (numbered_array v).andThen (Checked.numbered_eachOfSome numbered_big)

variable {α : Type} {m : Json.Members} {name : String}

/-- A member that is absent is no integer, and otherwise its check decides. -/
theorem numbered_required {check : Json → Checked α}
    (h : ∀ v, m.get? name = some v → (check v).Numbered) : (required m name check).Numbered := by
  rw [required]
  split
  · exact List.forall_mem_singleton.2 (by simp)
  · next v hv => exact (h v hv).under _

/-- The case of a check that never has the problem, whatever value it is given. -/
theorem numbered_required_of_forall {check : Json → Checked α} (h : ∀ v, (check v).Numbered) :
    (required m name check).Numbered :=
  numbered_required fun v _ ↦ h v

/-- A member that may be absent is checked only where it is there and not null. -/
theorem numbered_optional {check : Json → Checked α} (h : ∀ v, (check v).Numbered) :
    (optional m name check).Numbered := by
  rw [optional]
  split
  · exact numbered_valid _
  · exact numbered_valid _
  · next v _ _ => exact ((h v).map _).under _

/-- No member is unknown exactly when each has one of the names. -/
theorem unknown_eq_nil_iff {names : List String} :
    unknown names m = [] ↔ ∀ p ∈ m, p.1 ∈ names := by
  rw [unknown, List.map_eq_nil_iff, List.filter_eq_nil_iff]
  simp

/-- An unknown member is a problem of its own kind. -/
theorem numbered_onlyKnown (names : List String) (m : Json.Members) :
    (onlyKnown names m).Numbered := by
  rw [onlyKnown]
  split
  · exact numbered_valid _
  · next ps hps =>
    have hunknown : ElectionKeys.Numbered (unknown names m) := List.forall_mem_map.2 (by simp)
    exact hunknown

theorem onlyKnown_eq_valid_iff {names : List String} :
    onlyKnown names m = .valid () ↔ ∀ p ∈ m, p.1 ∈ names := by
  rw [← unknown_eq_nil_iff, onlyKnown]
  split
  · next h => simp [h]
  · next h => exact iff_of_false (by simp) fun hnil ↦ h hnil

end Field

/-! ### Documents -/

namespace Document

variable {α : Type} [Document α] {m : Json.Members} {ps : List Problem}

/-- An object makes a record exactly when its members do, and none of them is unknown. -/
theorem ofJson_object_eq_valid_iff {a : α} :
    ofJson α (.object m) = .valid a ↔ ofMembers m = .valid a ∧ ∀ p ∈ m, p.1 ∈ names α := by
  rw [ofJson, Checked.seq_eq_valid_iff, ← Field.onlyKnown_eq_valid_iff]
  constructor
  · rintro ⟨f, u, hmembers, hknown, rfl⟩
    obtain ⟨b, hb, rfl⟩ := Checked.map_eq_valid_iff.1 hmembers
    exact ⟨hb, hknown⟩
  · rintro ⟨hmembers, hknown⟩
    exact ⟨_, (), Checked.map_eq_valid_iff.2 ⟨a, hmembers, rfl⟩, hknown, rfl⟩

/-- The problems of an object are those of its members and the unknown ones among them. -/
theorem numbered_ofJson_object (h : (ofMembers m : Checked α).Numbered) :
    (ofJson α (.object m)).Numbered :=
  (h.map _).seq (Field.numbered_onlyKnown _ _)

/-- A value of whatever shape has no problem with a guardian number if no object has one. -/
theorem numbered_ofJson (h : ∀ m, (ofMembers m : Checked α).Numbered) (v : Json) :
    (ofJson α v).Numbered := by
  cases v with
  | object m => exact numbered_ofJson_object (h m)
  | _ => exact Checked.numbered_fail (by simp)

end Document

/-! ### Records of each type -/

/-- Numbers of bits are integers that must not be negative. -/
theorem PrimeShape.numbered_ofMembers (m : Json.Members) :
    (Document.ofMembers m : Checked PrimeShape).Numbered := by
  have hbits : ∀ v, ((Field.integer v).andThen Field.natural).Numbered :=
    fun v ↦ (Field.numbered_integer v).andThen Field.numbered_natural
  have hsource : ∀ v, (DigitSource.ofJson v).Numbered := by
    intro v
    rw [DigitSource.ofJson.eq_def]
    split
    · split
      · exact Checked.numbered_valid _
      · exact Checked.numbered_fail (by simp)
    · exact Checked.numbered_fail (by simp)
  exact (((((Field.numbered_required_of_forall hbits).map _).seq
    (Field.numbered_required_of_forall hbits)).seq
      (Field.numbered_required_of_forall hbits)).seq
        (Field.numbered_required_of_forall hsource)).seq
          (Field.numbered_required_of_forall hbits)

/-- A group has no member that is the number of a guardian. -/
theorem SchnorrGroup.numbered_ofMembers (m : Json.Members) :
    (Document.ofMembers m : Checked SchnorrGroup).Numbered :=
  ((((((Field.numbered_optional Field.numbered_pair).map _).seq
    (Field.numbered_required_of_forall
      (Document.numbered_ofJson PrimeShape.numbered_ofMembers))).seq
      (Field.numbered_required_of_forall Field.numbered_big)).seq
        (Field.numbered_required_of_forall Field.numbered_big)).seq
          (Field.numbered_required_of_forall Field.numbered_big)).seq
            (Field.numbered_required_of_forall Field.numbered_big)

/-- How many guardians there are is not the number of one: above sixteen bits it is a problem like
any other. -/
theorem Terms.numbered_ofMembers (m : Json.Members) :
    (Document.ofMembers m : Checked Terms).Numbered := by
  have hshort : ∀ v, ((Field.integer v).andThen Field.short).Numbered :=
    fun v ↦ (Field.numbered_integer v).andThen Field.numbered_short
  exact ((((Field.numbered_required_of_forall hshort).map _).seq
    (Field.numbered_required_of_forall hshort)).seq
      (Field.numbered_required_of_forall Field.numbered_text)).seq
        (Field.numbered_required_of_forall Field.numbered_text)

theorem Election.numbered_ofMembers (m : Json.Members) :
    (Document.ofMembers m : Checked Election).Numbered :=
  ((Field.numbered_required_of_forall
    (Document.numbered_ofJson SchnorrGroup.numbered_ofMembers)).map _).seq
      (Field.numbered_required_of_forall (Document.numbered_ofJson Terms.numbered_ofMembers))

theorem JointKey.numbered_ofMembers (m : Json.Members) :
    (Document.ofMembers m : Checked JointKey).Numbered :=
  (Field.numbered_required_of_forall Field.numbered_big).map _

/-- The members of a key have no problem with a guardian number if its own is in order, or is not
there. -/
theorem PublicKey.numbered_ofMembers {m : Json.Members}
    (h : ∀ v, m.get? "i" = some v → (Field.guardian v).Numbered) :
    (Document.ofMembers m : Checked PublicKey).Numbered :=
  (((Field.numbered_required h).map _).seq (Field.numbered_optional Field.numbered_text)).seq
    (Field.numbered_required_of_forall Field.numbered_someBigs)

/-- A secret key has one more array of large numbers. -/
theorem SecretKey.numbered_ofMembers {m : Json.Members}
    (h : ∀ v, m.get? "i" = some v → (Field.guardian v).Numbered) :
    (Document.ofMembers m : Checked SecretKey).Numbered :=
  ((((Field.numbered_required h).map _).seq (Field.numbered_optional Field.numbered_text)).seq
    (Field.numbered_required_of_forall Field.numbered_bigs)).seq
      (Field.numbered_required_of_forall Field.numbered_someBigs)

end ElectionKeys
