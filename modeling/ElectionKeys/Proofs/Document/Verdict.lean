import Mathlib
import ElectionKeys.Proofs.Document.Schema

/-!
# What becomes of a text that is read

Reading ends in one of three ways (`Verdict`): with a record, with an error about an integer that is
no guardian number, or with an error that calls the document malformed. The problems of a document
are collected before the reader chooses between the two errors, and it chooses by looking through
all of them for one particular defect. So what it says does not follow from any single problem.

`Checked.foreign?` is what that search finds. It goes through everything that checks are put
together from, as the problems do (`Checked.foreign?_seq`), and stops only at the member of a key
that is its guardian number (`Field.foreign?_guardian_eq_some_iff`). What else is wrong with the
document, and in which order, has no part in it; only whether the text is JSON at all, whether it is
an object, and what the last of its members of that name is.
-/

namespace ElectionKeys

/-! ### Integers that are no guardian numbers -/

/-- The integer that a problem is about, if it is that the integer is no guardian number. -/
def Problem.foreign? (p : Problem) : Option ℤ :=
  match p.defect with
  | .guardianNumber n => some n
  | _ => none

theorem Numbered.findSome?_foreign? {ps : List Problem} (h : Numbered ps) :
    ps.findSome? Problem.foreign? = none := by
  rw [List.findSome?_eq_none_iff]
  intro p hp
  rw [Problem.foreign?]
  split
  · next n hn => exact absurd hn (h p hp n)
  · rfl

namespace Checked

variable {α β : Type}

/-- The first of the integers among the problems of a check that are no guardian numbers. -/
def foreign? (c : Checked α) : Option ℤ := c.problems.findSome? Problem.foreign?

theorem foreign?_valid (a : α) : (valid a).foreign? = none := rfl

/-- A check without the problem reports no foreign number. -/
theorem Numbered.foreign?_eq_none {c : Checked α} (h : c.Numbered) : c.foreign? = none :=
  ElectionKeys.Numbered.findSome?_foreign? h

/-- What is made of the result does not matter to the search. -/
theorem foreign?_map (f : α → β) (x : Checked α) : (f <$> x).foreign? = x.foreign? := by
  rcases x with a | ps <;> rfl

/-- Of two checks the problems of the first are searched first. -/
theorem foreign?_seq (f : Checked (α → β)) (x : Checked α) :
    (f <*> x).foreign? = f.foreign?.or x.foreign? := by
  rcases f with f | ps <;> rcases x with a | qs
  · rfl
  · rfl
  · exact Option.or_none.symm
  · exact List.findSome?_append

/-- Nor does the place of a problem matter. -/
theorem foreign?_under (step : PathStep) (x : Checked α) :
    (x.under step).foreign? = x.foreign? := by
  rcases x with a | ps
  · rfl
  · exact List.findSome?_map

end Checked

namespace Field

variable {m : Json.Members} {name : String} {n : ℤ}

/-- The member of a guardian's number reports an integer literal outside the range, and nothing
else. -/
theorem foreign?_guardian_eq_some_iff {v : Json} :
    (guardian v).foreign? = some n ↔ v = .int n ∧ ¬ (1 ≤ n ∧ n ≤ 65535) := by
  have hint : ∀ k : ℤ, (guardian (.int k)).foreign? = some n ↔
      k = n ∧ ¬ (1 ≤ n ∧ n ≤ 65535) := by
    intro k
    show (guardianNumber k).foreign? = _ ↔ _
    rw [guardianNumber]
    split
    · next h =>
      refine iff_of_false (by simp [Checked.foreign?_valid]) ?_
      rintro ⟨rfl, hout⟩
      exact hout h
    · next h =>
      show some k = some n ↔ _
      rw [Option.some.injEq]
      refine (and_iff_left_of_imp ?_).symm
      rintro rfl
      exact h
  have hother : (none : Option ℤ) = some n ↔ False := by simp
  rcases v with _ | b | k | x | s | vs | ms
  case int => simp [hint]
  all_goals exact hother.trans (by simp)

/-- A member that has to be there is looked at for its guardian number if it is there. -/
theorem foreign?_required_guardian_eq_some_iff :
    (required m name guardian).foreign? = some n ↔
      m.get? name = some (.int n) ∧ ¬ (1 ≤ n ∧ n ≤ 65535) := by
  rw [required]
  split
  · next hnone =>
    show none = some n ↔ _
    simp [hnone]
  · next v hv => rw [Checked.foreign?_under, foreign?_guardian_eq_some_iff, hv, Option.some.injEq]

end Field

namespace Document

/-- Unknown members report no number, so those of the type decide. -/
theorem foreign?_ofJson_object (α : Type) [Document α] (m : Json.Members) :
    (ofJson α (.object m)).foreign? = (ofMembers m : Checked α).foreign? := by
  rw [ofJson, Checked.foreign?_seq, Checked.foreign?_map,
    (Field.numbered_onlyKnown _ m).foreign?_eq_none, Option.or_none]

end Document

/-- Of the members of a key it is its guardian number alone that can be foreign. -/
theorem PublicKey.foreign?_ofMembers (m : Json.Members) :
    (Document.ofMembers m : Checked PublicKey).foreign? =
      (Field.required m "i" Field.guardian).foreign? := by
  show (PublicKey.mk <$> Field.required _ _ _ <*> Field.optional _ _ _
    <*> Field.required _ _ _).foreign? = _
  rw [Checked.foreign?_seq, Checked.foreign?_seq, Checked.foreign?_map,
    (Field.numbered_optional Field.numbered_text).foreign?_eq_none,
    (Field.numbered_required_of_forall Field.numbered_someBigs).foreign?_eq_none, Option.or_none,
    Option.or_none]

theorem SecretKey.foreign?_ofMembers (m : Json.Members) :
    (Document.ofMembers m : Checked SecretKey).foreign? =
      (Field.required m "i" Field.guardian).foreign? := by
  show (SecretKey.mk <$> Field.required _ _ _ <*> Field.optional _ _ _ <*> Field.required _ _ _
    <*> Field.required _ _ _).foreign? = _
  rw [Checked.foreign?_seq, Checked.foreign?_seq, Checked.foreign?_seq, Checked.foreign?_map,
    (Field.numbered_optional Field.numbered_text).foreign?_eq_none,
    (Field.numbered_required_of_forall Field.numbered_bigs).foreign?_eq_none,
    (Field.numbered_required_of_forall Field.numbered_someBigs).foreign?_eq_none, Option.or_none,
    Option.or_none, Option.or_none]

namespace DocumentType

variable {T : DocumentType} {n : ℤ}

/-- **A value has a foreign guardian number exactly if it is an object whose member of that name is
an integer out of range**, and is checked as a key. -/
theorem foreign?_ofJson_eq_some_iff {v : Json} :
    (Document.ofJson T.Content v).foreign? = some n ↔
      (T = publicKey ∨ T = secretKey) ∧
        ∃ m : Json.Members, v = .object m ∧ m.get? "i" = some (.int n) ∧ ¬ (1 ≤ n ∧ n ≤ 65535) := by
  have hkey : ∀ {α : Type} [Document α],
      (∀ m, (Document.ofMembers m : Checked α).foreign? =
        (Field.required m "i" Field.guardian).foreign?) →
      ((Document.ofJson α v).foreign? = some n ↔
        ∃ m : Json.Members, v = .object m ∧ m.get? "i" = some (.int n) ∧
          ¬ (1 ≤ n ∧ n ≤ 65535)) := by
    intro α _ hmembers
    rcases v with _ | b | k | x | s | vs | m
    case object =>
      rw [Document.foreign?_ofJson_object, hmembers, Field.foreign?_required_guardian_eq_some_iff]
      simp
    all_goals exact iff_of_false nofun (by simp)
  have hother : ∀ {α : Type} [Document α],
      (∀ m, (Document.ofMembers m : Checked α).Numbered) →
      (Document.ofJson α v).foreign? ≠ some n := by
    intro α _ hmembers h
    rw [(Document.numbered_ofJson hmembers v).foreign?_eq_none] at h
    cases h
  cases T with
  | shape => exact iff_of_false (hother PrimeShape.numbered_ofMembers) (by simp)
  | group => exact iff_of_false (hother SchnorrGroup.numbered_ofMembers) (by simp)
  | terms => exact iff_of_false (hother Terms.numbered_ofMembers) (by simp)
  | election => exact iff_of_false (hother Election.numbered_ofMembers) (by simp)
  | publicKey => exact (hkey PublicKey.foreign?_ofMembers).trans (by simp)
  | secretKey => exact (hkey SecretKey.foreign?_ofMembers).trans (by simp)
  | jointKey => exact iff_of_false (hother JointKey.numbered_ofMembers) (by simp)

end DocumentType

/-! ### Verdicts -/

/-- What can become of a text that is read as a document of a type. -/
inductive Verdict (T : DocumentType)
  | record (a : T.Content)
  /-- The integer is no guardian number. -/
  | foreign (n : ℤ)
  | malformed (problems : List Problem)

/-- How a foreign guardian number of a document is worded. -/
theorem Error.message_outsideGuardians (n : ℤ) :
    (outsideGuardians (.int n) maxGuardian).message =
      s!"Le numéro de gardien {n} n'est pas dans 1..=65535" := by
  have hshown : (Json.int n).shown = toString n := by
    rw [Json.shown, Json.quotedText]
    exact nofun
  show "Le numéro de gardien " ++ (Json.int n).shown ++ " n'est pas dans 1..=" ++ "65535" =
    "Le numéro de gardien " ++ toString n ++ " n'est pas dans 1..=65535"
  rw [hshown, String.append_assoc]
  rfl

namespace Verdict

variable {T : DocumentType} {n : ℤ}

/-- The outcome of a reader with the verdict. -/
def outcome : Verdict T → Except Error T.Content
  | record a => .ok a
  | foreign n =>
    .error
      { failure := .index .indexRange (.int n)
        message := s!"Le numéro de gardien {n} n'est pas dans 1..=65535"
        context := [s!"Lecture de {Document.title T.Content}"]
        numbers := [n, 65535] }
  | malformed problems =>
    .error
      { failure := .document .malformed (some (Document.title T.Content)) none (.problems problems)
        message := s!"Lecture de {Document.title T.Content}"
        context := []
        numbers := [] }

/-- Different verdicts are different outcomes, so that a document has one verdict only. -/
theorem outcome_injective : Function.Injective (outcome (T := T)) := by
  intro v w h
  rcases v with a | n | ps <;> rcases w with b | k | qs <;> simp_all [outcome]

/-- A foreign guardian number is reported as everywhere else, and as one that was read. -/
theorem outcome_foreign (n : ℤ) :
    (foreign n : Verdict T).outcome =
      .error ((Error.outsideGuardians (.int n) maxGuardian).within
        s!"Lecture de {Document.title T.Content}") := by
  rw [outcome, Error.within, Error.message_outsideGuardians]
  rfl

/-- The verdict on a value that has been checked. -/
def ofChecked (c : Checked T.Content) : Verdict T :=
  match c with
  | .valid a => record a
  | .invalid ps =>
    match ps.findSome? Problem.foreign? with
    | some n => foreign n
    | none => malformed ps

/-- **The reader gives the verdict on what has been checked.** -/
theorem accept_eq (c : Checked T.Content) :
    Document.accept T.Content c = (ofChecked c).outcome := by
  rcases c with a | ps
  · rfl
  · have hrefuse : Document.refuse T.Content ps = match ps.findSome? Problem.foreign? with
      | some n => (Error.outsideGuardians (.int n) maxGuardian).within
          s!"Lecture de {Document.title T.Content}"
      | none =>
        { failure := .document .malformed (some (Document.title T.Content)) none (.problems ps)
          message := s!"Lecture de {Document.title T.Content}" } := rfl
    rw [Document.accept, hrefuse, ofChecked]
    rcases ps.findSome? Problem.foreign? with _ | n
    · rfl
    · exact (outcome_foreign n).symm

theorem ofChecked_eq_foreign_iff {c : Checked T.Content} :
    ofChecked c = foreign n ↔ c.foreign? = some n := by
  rcases c with a | ps
  · exact iff_of_false nofun nofun
  · rw [ofChecked, Checked.foreign?, Checked.problems]
    rcases ps.findSome? Problem.foreign? with _ | k <;> simp

end Verdict

/-! ### Texts -/

/-- The text is an object whose last member with the name of a guardian number is an integer that is
none. -/
def Json.NamesForeign (text : String) (n : ℤ) : Prop :=
  ∃ m : Members, readWritten? text = some (.object m) ∧ m.Last "i" (.int n) ∧
    ¬ (1 ≤ n ∧ n ≤ 65535)

namespace Document

variable {T : DocumentType} {text : String} {bytes : Bytes} {n : ℤ}

/-- All that is wrong with a text as a document of a type, or the record that it is. -/
def examine (T : DocumentType) (text : String) : Checked T.Content :=
  match Json.read? text with
  | some v => ofJson T.Content v
  | none => .fail .unreadable

/-- **Reading a text is passing the verdict on it.** -/
theorem read_eq_outcome : read T.Content text = (Verdict.ofChecked (examine T text)).outcome := by
  rw [← Verdict.accept_eq, read, examine]
  rcases Json.read? text with _ | v <;> rfl

theorem exists_verdict (T : DocumentType) (text : String) :
    ∃ v : Verdict T, read T.Content text = v.outcome :=
  ⟨_, read_eq_outcome⟩

/-- What is foreign in a text is so in the value as it is written, of which settling keeps the last
member of each name. -/
theorem foreign?_examine_eq_some_iff :
    (examine T text).foreign? = some n ↔
      (T = .publicKey ∨ T = .secretKey) ∧ Json.NamesForeign text n := by
  rw [examine, Json.read?_eq, Json.NamesForeign]
  rcases Json.readWritten? text with _ | v
  · exact iff_of_false nofun (by simp)
  · show (ofJson T.Content v.settled).foreign? = some n ↔ _
    rw [DocumentType.foreign?_ofJson_eq_some_iff]
    refine and_congr_right fun _ ↦ ?_
    constructor
    · rintro ⟨l, hv, hget, hout⟩
      obtain ⟨m, rfl, rfl⟩ := Json.Members.settled_eq_object_iff.1 hv
      exact ⟨m, rfl, Json.Members.get?_settle_eq_int_iff.1 hget, hout⟩
    · rintro ⟨m, hv, hlast, hout⟩
      obtain rfl := Option.some.inj hv
      exact ⟨m.settle, Json.settled_object m, Json.Members.get?_settle_eq_int_iff.2 hlast, hout⟩

/-- A foreign number is reported exactly for keys, and exactly if the last member of that name at
the top of the document has it. -/
theorem read_eq_foreign_iff :
    read T.Content text = (Verdict.foreign n).outcome ↔
      (T = .publicKey ∨ T = .secretKey) ∧ Json.NamesForeign text n := by
  rw [read_eq_outcome, Verdict.outcome_injective.eq_iff, Verdict.ofChecked_eq_foreign_iff,
    foreign?_examine_eq_some_iff]

/-- Bytes that are no text are malformed, and others are judged as the text that they are. -/
theorem readBytes_cases (T : DocumentType) (bytes : Bytes) :
    (∃ text, bytes = Bytes.ofText text ∧ readBytes T.Content bytes = read T.Content text) ∨
      (∀ text, bytes ≠ Bytes.ofText text) ∧
        readBytes T.Content bytes = (Verdict.malformed [⟨[], .unreadable⟩]).outcome := by
  rw [readBytes]
  rcases h : bytes.toText? with _ | text
  · refine .inr ⟨fun text htext ↦ ?_, Verdict.accept_eq (.fail .unreadable)⟩
    rw [Bytes.toText?_eq_some_iff.2 htext] at h
    cases h
  · exact .inl ⟨text, Bytes.toText?_eq_some_iff.1 h, rfl⟩

theorem exists_verdict_readBytes (T : DocumentType) (bytes : Bytes) :
    ∃ v : Verdict T, readBytes T.Content bytes = v.outcome := by
  obtain ⟨text, -, h⟩ | ⟨-, h⟩ := readBytes_cases T bytes
  · rw [h]
    exact exists_verdict T text
  · exact ⟨_, h⟩

/-- The same for bytes, which have to be those of a text. -/
theorem readBytes_eq_foreign_iff :
    readBytes T.Content bytes = (Verdict.foreign n).outcome ↔
      (T = .publicKey ∨ T = .secretKey) ∧
        ∃ text, bytes = Bytes.ofText text ∧ Json.NamesForeign text n := by
  obtain ⟨text, hbytes, h⟩ | ⟨hno, h⟩ := readBytes_cases T bytes
  · rw [h, read_eq_foreign_iff]
    refine and_congr_right fun _ ↦ ?_
    constructor
    · exact fun hforeign ↦ ⟨text, hbytes, hforeign⟩
    · rintro ⟨text', hbytes', hforeign⟩
      have htext := Bytes.toText?_eq_some_iff.2 hbytes
      rw [Bytes.toText?_eq_some_iff.2 hbytes', Option.some.injEq] at htext
      exact htext ▸ hforeign
  · refine iff_of_false (fun h' ↦ ?_) fun h' ↦ ?_
    · cases Verdict.outcome_injective (h.symm.trans h')
    · obtain ⟨-, text, hbytes, -⟩ := h'
      exact hno text hbytes

/-- A text is of the form of a type exactly if the verdict is a record. -/
theorem exists_form_iff :
    (∃ v a, Json.readWritten? text = some v ∧ T.form v a) ↔
      ∃ a, read T.Content text = (Verdict.record a).outcome := by
  rw [exists_comm]
  exact exists_congr fun a ↦ (read_eq_ok_iff_of_decides T.decides_form).symm

/-- **A text is a record, names a foreign guardian, or is malformed**, and it is one of the three
only. It names a foreign guardian for the two kinds of keys alone, and exactly if it is JSON, an
object, and the last of its members `i` is an integer outside the guardian numbers, which the error
carries. Whatever else may be wrong with it makes no difference, and nothing else is reported in
this way. In all other cases in which it is not of the form of its type it is malformed. Of bytes
the same holds if they are those of a text. -/
theorem read_verdict (T : DocumentType) (text : String) :
    Json.read? text = (Json.readWritten? text).map Json.settled ∧
    (∃! v : Verdict T, read T.Content text = v.outcome) ∧
    (∀ n : ℤ, read T.Content text = (Verdict.foreign n).outcome ↔
      (T = .publicKey ∨ T = .secretKey) ∧ Json.NamesForeign text n) ∧
    ((∃ ps, read T.Content text = (Verdict.malformed ps).outcome) ↔
      (¬ ∃ v a, Json.readWritten? text = some v ∧ T.form v a) ∧
        ¬ ((T = .publicKey ∨ T = .secretKey) ∧ ∃ n, Json.NamesForeign text n)) ∧
    ∀ bytes, (∃! v : Verdict T, readBytes T.Content bytes = v.outcome) ∧
      ∀ n : ℤ, readBytes T.Content bytes = (Verdict.foreign n).outcome ↔
        (T = .publicKey ∨ T = .secretKey) ∧
          ∃ text, bytes = Bytes.ofText text ∧ Json.NamesForeign text n := by
  have unique : ∀ {r : Except Error T.Content}, (∃ v : Verdict T, r = v.outcome) →
      ∃! v : Verdict T, r = v.outcome := by
    rintro r ⟨v, rfl⟩
    exact ⟨v, rfl, fun w hw ↦ Verdict.outcome_injective hw.symm⟩
  refine ⟨Json.read?_eq text, unique (exists_verdict T text), fun n ↦ read_eq_foreign_iff, ?_,
    fun bytes ↦ ⟨unique (exists_verdict_readBytes T bytes), fun n ↦ readBytes_eq_foreign_iff⟩⟩
  rw [exists_form_iff, ← exists_and_left]
  simp only [← read_eq_foreign_iff]
  obtain ⟨v, hv⟩ := exists_verdict T text
  rw [hv]
  simp only [Verdict.outcome_injective.eq_iff]
  rcases v with a | n | ps <;> simp

/-- Of three values for the number of the guardian the last counts, and neither its size nor the
other problems of the document hide it. -/
example :
    (examine .publicKey
      ("\x7b\"x\": [], \"i\": 1, \"opt_name\": 7, \"i\": null, "
        ++ "\"i\": -99999999999999999999\x7d")).foreign? = some (-99999999999999999999) := by
  decide +kernel

end Document

end ElectionKeys
