import Mathlib
import ElectionKeys.Guardian.Joint
import ElectionKeys.Proofs.Document.Refusal
import ElectionKeys.Proofs.Json.Written

/-!
# What a document may say

A `Form` says of a value as it is written which record it denotes, if it denotes one. The forms of
the seven types of documents are put together from those of single values and of members, without
the checks and in the words of a description: which members there have to be, which there may be,
and what each of them is.

A check decides a form (`Decides`) if it gives the record that the form says, and fails where the
form says none. It sees the value after repeated names are settled, while the form is about the
value as it is written, so that of the members of one name the form says itself that the last
counts. Each check decides its form, part by part, and `Document.read_eq_ok_iff_of_decides` puts the
reader of texts in front.
-/

namespace ElectionKeys

/-! ### Forms -/

/-- The records that values denote: at most one each, and none for a value that is not of the
form. -/
abbrev Form (α : Type) := Json → α → Prop

/-- The last member of the name is of the form. -/
def Json.Members.Required {α : Type} (m : Json.Members) (name : String) (F : Form α) (a : α) :
    Prop :=
  ∃ v, m.Last name v ∧ F v a

/-- The last member of the name is of the form, or null, or there is none. -/
def Json.Members.Optional {α : Type} (m : Json.Members) (name : String) (F : Form α) :
    Option α → Prop
  | none => (∀ x ∈ m, x.1 ≠ name) ∨ m.Last name .null
  | some a => m.Required name F a

namespace Form

variable {α : Type}

/-- An integer literal within bounds. -/
def integer (bounds : ℤ → Prop) : Form ℤ := fun v n ↦ v = .int n ∧ bounds n

/-- A text, whatever its characters. -/
def text : Form String := fun v s ↦ v = .text s

/-- A null is no text, which is what tells an absent name from an empty one. -/
theorem not_text_null (s : String) : ¬ text .null s := by simp [text]

/-- One of the two names. -/
def source : Form DigitSource := fun v s ↦
  v = .text "Ln2" ∧ s = .ln2 ∨ v = .text "EulerMascheroniConstant" ∧ s = .eulerMascheroni

/-- An array of two integer literals. -/
def pair : Form (ℤ × ℤ) := fun v x ↦ v = .array [.int x.1, .int x.2]

theorem not_pair_null (x : ℤ × ℤ) : ¬ pair .null x := by simp [pair]

/-- The text of the marker and the hexadecimal form of the number. -/
def big : Form ℕ := fun v n ↦
  ∃ cs, v = .text ("base16:" ++ String.ofList cs) ∧ BigNumber.IsHex cs n

/-- An array of values of a form. -/
def each (F : Form α) : Form (List α) := fun v xs ↦ ∃ vs, v = .array vs ∧ List.Forall₂ F vs xs

/-- An array of values of a form, at least one. -/
def eachOfSome (F : Form α) : Form (List α) := fun v xs ↦ F.each v xs ∧ xs ≠ []

/-- An object whose members have no other names than those given, and are as they should be. -/
def object (names : List String) (members : Json.Members → α → Prop) : Form α := fun v a ↦
  ∃ m, v = .object m ∧ (∀ x ∈ m, x.1 ∈ names) ∧ members m a

/-! ### The types of documents -/

/-- Four numbers of bits and a source of digits. -/
def shape : Form PrimeShape :=
  object ["q_bits_total", "p_bits_total", "p_bits_msb_fixed_1", "p_middle_bits_source",
    "p_bits_lsb_fixed_1"] fun m s ↦
      m.Required "q_bits_total" (integer (0 ≤ ·)) s.qBits ∧
      m.Required "p_bits_total" (integer (0 ≤ ·)) s.pBits ∧
      m.Required "p_bits_msb_fixed_1" (integer (0 ≤ ·)) s.topOnes ∧
      m.Required "p_middle_bits_source" source s.middle ∧
      m.Required "p_bits_lsb_fixed_1" (integer (0 ≤ ·)) s.bottomOnes

/-- A version, which may be absent, a shape and four large numbers. -/
def group : Form SchnorrGroup :=
  object ["opt_version", "generation_parameters", "p", "q", "r", "g"] fun m G ↦
    m.Optional "opt_version" pair G.version ∧
    m.Required "generation_parameters" shape G.shape ∧
    m.Required "p" big G.p ∧
    m.Required "q" big G.q ∧
    m.Required "r" big G.r ∧
    m.Required "g" big G.g

/-- Two numbers of sixteen bits and two texts. -/
def terms : Form Terms :=
  object ["n", "k", "date", "info"] fun m T ↦
    m.Required "n" (integer fun n ↦ 0 ≤ n ∧ n ≤ 65535) T.guardians ∧
    m.Required "k" (integer fun k ↦ 0 ≤ k ∧ k ≤ 65535) T.quorum ∧
    m.Required "date" text T.date ∧
    m.Required "info" text T.info

/-- A group and terms. -/
def election : Form Election :=
  object ["fixed_parameters", "varying_parameters"] fun m E ↦
    m.Required "fixed_parameters" group E.group ∧
    m.Required "varying_parameters" terms E.terms

/-- The number of a guardian, a name that may be absent, and commitments. -/
def publicKey : Form PublicKey :=
  object ["i", "opt_name", "coefficient_commitments"] fun m K ↦
    m.Required "i" (integer fun i ↦ 1 ≤ i ∧ i ≤ 65535) K.guardian ∧
    m.Optional "opt_name" text K.name ∧
    m.Required "coefficient_commitments" big.eachOfSome K.commitments

/-- The same with coefficients, of which there need not be any. -/
def secretKey : Form SecretKey :=
  object ["i", "opt_name", "secret_coefficients", "coefficient_commitments"] fun m S ↦
    m.Required "i" (integer fun i ↦ 1 ≤ i ∧ i ≤ 65535) S.guardian ∧
    m.Optional "opt_name" text S.name ∧
    m.Required "secret_coefficients" big.each S.coefficients ∧
    m.Required "coefficient_commitments" big.eachOfSome S.commitments

/-- One large number. -/
def jointKey : Form JointKey :=
  object ["joint_election_public_key"] fun m J ↦
    m.Required "joint_election_public_key" big J.value

end Form

/-! ### Checks that decide a form -/

/-- A check gives the record that a value as it is written denotes, and fails where it denotes
none. -/
def Decides {α : Type} (check : Json → Checked α) (F : Form α) : Prop :=
  ∀ v a, check v.settled = .valid a ↔ F v a

namespace Field

variable {α : Type} {m : Json.Members} {name : String} {check : Json → Checked α}

/-- A member that may be absent has no value where it is absent or null. -/
theorem optional_eq_valid_none_iff :
    optional m name check = .valid none ↔ m.get? name = none ∨ m.get? name = some .null := by
  rw [optional]
  split
  · next hget => simp [hget]
  · next hget => simp [hget]
  · next v hnull hget =>
    refine iff_of_false (fun h ↦ ?_) (by simpa [hget] using hnull)
    obtain ⟨a, -, ha⟩ := Checked.map_eq_valid_iff.1 (Checked.under_eq_valid_iff.1 h)
    cases ha

/-- A member that is there, where null is not what the check asks for. -/
theorem optional_eq_valid_some_iff (hnull : ∀ a, check .null ≠ .valid a) {a : α} :
    optional m name check = .valid (some a) ↔ required m name check = .valid a := by
  rw [optional, required]
  split
  · next hget => simp [hget]
  · next hget => simp [hget, Checked.under_eq_valid_iff, hnull]
  · next v _ hget =>
    rw [hget, Checked.under_eq_valid_iff, Checked.under_eq_valid_iff]
    refine Checked.map_eq_valid_iff.trans ?_
    simp

end Field

namespace Decides

open Json (settled)

theorem integer : Decides Field.integer (Form.integer fun _ ↦ True) := by
  intro v n
  cases v with
  | int k => simp [settled, Field.integer, Form.integer]
  | _ =>
    exact iff_of_false (by simp [settled, Field.integer, Checked.fail])
      (by simp [Form.integer])

/-- An integer that then passes a check of its range. -/
theorem integer_andThen {range : ℤ → Checked ℤ} {bounds : ℤ → Prop}
    (h : ∀ n m, range n = .valid m ↔ bounds n ∧ n = m) :
    Decides (fun v ↦ (Field.integer v).andThen range) (Form.integer bounds) := by
  intro v m
  rw [Checked.andThen_eq_valid_iff]
  constructor
  · rintro ⟨n, hn, hrange⟩
    obtain ⟨hbounds, rfl⟩ := (h n m).1 hrange
    exact ⟨((integer v n).1 hn).1, hbounds⟩
  · rintro ⟨rfl, hbounds⟩
    exact ⟨m, rfl, (h m m).2 ⟨hbounds, rfl⟩⟩

theorem bits : Decides (fun v ↦ (Field.integer v).andThen Field.natural)
    (Form.integer (0 ≤ ·)) :=
  integer_andThen fun _ _ ↦ Field.natural_eq_valid_iff

theorem short : Decides (fun v ↦ (Field.integer v).andThen Field.short)
    (Form.integer fun n ↦ 0 ≤ n ∧ n ≤ 65535) :=
  integer_andThen fun _ _ ↦ Field.short_eq_valid_iff

theorem guardian : Decides Field.guardian (Form.integer fun i ↦ 1 ≤ i ∧ i ≤ 65535) :=
  integer_andThen fun _ _ ↦ Field.guardianNumber_eq_valid_iff

theorem text : Decides Field.text Form.text := by
  intro v s
  cases v with
  | text t => simp [settled, Field.text, Form.text]
  | _ => exact iff_of_false (by simp [settled, Field.text, Checked.fail]) (by simp [Form.text])

theorem source : Decides DigitSource.ofJson Form.source := by
  have hname : ∀ (t : String) (s : DigitSource), DigitSource.ofJson (.text t) = .valid s ↔
      t = s.text := by
    intro t s
    rw [← DigitSource.ofText?_eq_some_iff, DigitSource.ofJson]
    rcases DigitSource.ofText? t with _ | s' <;> simp [Checked.fail]
  intro v s
  cases v with
  | text t =>
    show DigitSource.ofJson (.text t) = _ ↔ _
    rw [hname]
    cases s <;> simp [Form.source, DigitSource.text]
  | _ =>
    exact iff_of_false (by simp [settled, DigitSource.ofJson, Checked.fail])
      (by simp [Form.source])

theorem big : Decides Field.big Form.big := by
  have hnumber : ∀ (t : String) (n : ℕ), Field.big (.text t) = .valid n ↔
      BigNumber.ofText t = .ok n := by
    intro t n
    rw [Field.big]
    rcases BigNumber.ofText t with _ | n' <;> simp [Checked.fail]
  intro v n
  cases v with
  | text t =>
    show Field.big (.text t) = _ ↔ _
    rw [hnumber, BigNumber.ofText_eq_ok_iff]
    simp [Form.big]
  | _ =>
    exact iff_of_false (by simp [settled, Field.big, Checked.fail]) (by simp [Form.big])

/-- An array is settled item by item, so its items are those of an array as it was written. -/
theorem array_eq_valid_iff {v : Json} {vs : List Json} :
    Field.array v.settled = .valid vs ↔ ∃ us, v = .array us ∧ us.map settled = vs := by
  cases v with
  | array us => simp [Json.settled_array, Field.array]
  | _ => exact iff_of_false (by simp [settled, Field.array, Checked.fail]) (by simp)

theorem pair : Decides Field.pair Form.pair := by
  have hinteger : ∀ (v : Json) (n : ℤ), Field.integer v.settled = .valid n ↔ v = .int n := by
    intro v n
    rw [integer v n, Form.integer, and_true]
  intro v x
  rw [Field.pair, Checked.andThen_eq_valid_iff]
  constructor
  · rintro ⟨vs, harray, hvs⟩
    obtain ⟨us, rfl, rfl⟩ := array_eq_valid_iff.1 harray
    rcases us with _ | ⟨u, _ | ⟨w, _ | ⟨_, _⟩⟩⟩
    · cases hvs
    · obtain ⟨_, _, -, hmissing, -⟩ := Checked.seq_eq_valid_iff.1 hvs
      cases hmissing
    · obtain ⟨_, b, hfirst, hb, hx⟩ := Checked.seq_eq_valid_iff.1 hvs
      obtain ⟨a, ha, rfl⟩ := Checked.map_eq_valid_iff.1 hfirst
      subst hx
      rw [Form.pair, (hinteger u a).1 (Checked.under_eq_valid_iff.1 ha),
        (hinteger w b).1 (Checked.under_eq_valid_iff.1 hb)]
    · cases hvs
  · rintro rfl
    exact ⟨_, array_eq_valid_iff.2 ⟨_, rfl, rfl⟩, rfl⟩

variable {α : Type} {check : Json → Checked α} {F : Form α}

/-- The items of an array are right exactly when they are of the form, one by one. -/
theorem map_eq_iff (h : Decides check F) {us : List Json} {as : List α} :
    (us.map settled).map check = as.map .valid ↔ List.Forall₂ F us as := by
  induction us generalizing as with
  | nil => cases as <;> simp
  | cons u us ih =>
    cases as with
    | nil => simp
    | cons a as =>
      rw [List.map_cons, List.map_cons, List.map_cons, List.cons.injEq, List.forall₂_cons, h u a,
        ih]

theorem each (h : Decides check F) :
    Decides (fun v ↦ (Field.array v).andThen (Checked.each check)) F.each := by
  intro v as
  rw [Checked.andThen_eq_valid_iff]
  constructor
  · rintro ⟨vs, harray, has⟩
    obtain ⟨us, rfl, rfl⟩ := array_eq_valid_iff.1 harray
    exact ⟨us, rfl, h.map_eq_iff.1 (Checked.each_eq_valid_iff.1 has)⟩
  · rintro ⟨us, rfl, has⟩
    exact ⟨_, array_eq_valid_iff.2 ⟨us, rfl, rfl⟩, Checked.each_eq_valid_iff.2 (h.map_eq_iff.2 has)⟩

theorem eachOfSome (h : Decides check F) :
    Decides (fun v ↦ (Field.array v).andThen (Checked.eachOfSome check)) F.eachOfSome := by
  intro v as
  rw [Form.eachOfSome, ← h.each v as]
  simp only [Checked.andThen_eq_valid_iff, Checked.eachOfSome_eq_valid_iff,
    Checked.each_eq_valid_iff]
  constructor
  · rintro ⟨vs, harray, hne, has⟩
    exact ⟨⟨vs, harray, has⟩, hne⟩
  · rintro ⟨⟨vs, harray, has⟩, hne⟩
    exact ⟨vs, harray, hne, has⟩

/-! ### Members -/

variable {m : Json.Members} {name : String}

theorem required (h : Decides check F) {a : α} :
    Field.required m.settle name check = .valid a ↔ m.Required name F a := by
  rw [Field.required]
  split
  · next hget =>
    refine iff_of_false (by simp) ?_
    rintro ⟨v, hlast, -⟩
    exact Json.Members.get?_settle_eq_none_iff.1 hget _ hlast.mem rfl
  · next u hget =>
    rw [Checked.under_eq_valid_iff]
    constructor
    · intro hcheck
      obtain ⟨v, hlast, rfl⟩ := Json.Members.get?_settle_eq_some_iff.1 hget
      exact ⟨v, hlast, (h v a).1 hcheck⟩
    · rintro ⟨v, hlast, hv⟩
      rw [Json.Members.get?_settle_eq_some_iff.2 ⟨v, hlast, rfl⟩] at hget
      rw [← Option.some.inj hget]
      exact (h v a).2 hv

/-- A form that null is not of, for a member that may be null: what is there is not mistaken for
nothing. -/
theorem optional (h : Decides check F) (hnull : ∀ a, ¬ F .null a) {a? : Option α} :
    Field.optional m.settle name check = .valid a? ↔ m.Optional name F a? := by
  rcases a? with _ | a
  · rw [Field.optional_eq_valid_none_iff, Json.Members.get?_settle_eq_none_iff,
      Json.Members.get?_settle_eq_null_iff, Json.Members.Optional]
  · rw [Field.optional_eq_valid_some_iff fun a ha ↦ hnull a ((h .null a).1 ha), h.required,
      Json.Members.Optional]

/-- Objects are of the form exactly when their members are. -/
theorem ofJson [Document α] {members : Json.Members → α → Prop}
    (h : ∀ m a, Document.ofMembers m.settle = .valid a ↔ members m a) :
    Decides (Document.ofJson α) (Form.object (Document.names α) members) := by
  intro v a
  cases v with
  | object m =>
    rw [Json.settled_object, Document.ofJson_object_eq_valid_iff, h,
      Json.Members.forall_mem_settle_iff]
    simp [Form.object, and_comm]
  | _ =>
    exact iff_of_false (by simp [settled, Document.ofJson, Checked.fail]) (by simp [Form.object])

/-! ### The types of documents -/

theorem shape : Decides (Document.ofJson PrimeShape) Form.shape := by
  refine .ofJson fun m s ↦ ?_
  obtain ⟨q, p, t, middle, b⟩ := s
  show PrimeShape.mk <$> Field.required _ _ _ <*> Field.required _ _ _ <*> Field.required _ _ _
    <*> Field.required _ _ _ <*> Field.required _ _ _ = _ ↔ _
  simp [Checked.seq_eq_valid_iff, Checked.map_eq_valid_iff, bits.required, source.required,
    and_assoc]

theorem group : Decides (Document.ofJson SchnorrGroup) Form.group := by
  refine .ofJson fun m G ↦ ?_
  obtain ⟨version, shape, p, q, r, g⟩ := G
  show SchnorrGroup.mk <$> Field.optional _ _ _ <*> Field.required _ _ _ <*> Field.required _ _ _
    <*> Field.required _ _ _ <*> Field.required _ _ _ <*> Field.required _ _ _ = _ ↔ _
  simp [Checked.seq_eq_valid_iff, Checked.map_eq_valid_iff, pair.optional Form.not_pair_null,
    Decides.shape.required, big.required, and_assoc]

theorem terms : Decides (Document.ofJson Terms) Form.terms := by
  refine .ofJson fun m T ↦ ?_
  obtain ⟨n, k, date, info⟩ := T
  show Terms.mk <$> Field.required _ _ _ <*> Field.required _ _ _ <*> Field.required _ _ _
    <*> Field.required _ _ _ = _ ↔ _
  simp [Checked.seq_eq_valid_iff, Checked.map_eq_valid_iff, short.required, text.required,
    and_assoc]

theorem election : Decides (Document.ofJson Election) Form.election := by
  refine .ofJson fun m E ↦ ?_
  obtain ⟨group, terms⟩ := E
  show Election.mk <$> Field.required _ _ _ <*> Field.required _ _ _ = _ ↔ _
  simp [Checked.seq_eq_valid_iff, Checked.map_eq_valid_iff, Decides.group.required,
    Decides.terms.required]

theorem publicKey : Decides (Document.ofJson PublicKey) Form.publicKey := by
  refine .ofJson fun m K ↦ ?_
  obtain ⟨i, name, commitments⟩ := K
  show PublicKey.mk <$> Field.required _ _ _ <*> Field.optional _ _ _ <*> Field.required _ _ _ = _
    ↔ _
  have hcommitments : Decides Field.someBigs Form.big.eachOfSome := big.eachOfSome
  simp [Checked.seq_eq_valid_iff, Checked.map_eq_valid_iff, guardian.required,
    text.optional Form.not_text_null, hcommitments.required]

theorem secretKey : Decides (Document.ofJson SecretKey) Form.secretKey := by
  refine .ofJson fun m S ↦ ?_
  obtain ⟨i, name, coefficients, commitments⟩ := S
  show SecretKey.mk <$> Field.required _ _ _ <*> Field.optional _ _ _ <*> Field.required _ _ _
    <*> Field.required _ _ _ = _ ↔ _
  have hcoefficients : Decides Field.bigs Form.big.each := big.each
  have hcommitments : Decides Field.someBigs Form.big.eachOfSome := big.eachOfSome
  simp [Checked.seq_eq_valid_iff, Checked.map_eq_valid_iff, guardian.required,
    text.optional Form.not_text_null, hcoefficients.required, hcommitments.required, and_assoc]

theorem jointKey : Decides (Document.ofJson JointKey) Form.jointKey := by
  refine .ofJson fun m J ↦ ?_
  obtain ⟨value⟩ := J
  show JointKey.mk <$> Field.required _ _ _ = _ ↔ _
  simp [Checked.map_eq_valid_iff, big.required]

end Decides

/-- The types of records that are kept as documents. -/
inductive DocumentType
  | shape
  | group
  | terms
  | election
  | publicKey
  | secretKey
  | jointKey
  deriving DecidableEq

namespace DocumentType

/-- The records of a type. -/
def Content : DocumentType → Type
  | shape => PrimeShape
  | group => SchnorrGroup
  | terms => Terms
  | election => Election
  | publicKey => PublicKey
  | secretKey => SecretKey
  | jointKey => JointKey

instance document : (T : DocumentType) → Document T.Content
  | shape => inferInstanceAs (Document PrimeShape)
  | group => inferInstanceAs (Document SchnorrGroup)
  | terms => inferInstanceAs (Document Terms)
  | election => inferInstanceAs (Document Election)
  | publicKey => inferInstanceAs (Document PublicKey)
  | secretKey => inferInstanceAs (Document SecretKey)
  | jointKey => inferInstanceAs (Document JointKey)

/-- The form of the documents of a type. -/
def form : (T : DocumentType) → Form T.Content
  | shape => Form.shape
  | group => Form.group
  | terms => Form.terms
  | election => Form.election
  | publicKey => Form.publicKey
  | secretKey => Form.secretKey
  | jointKey => Form.jointKey

theorem decides_form (T : DocumentType) : Decides (Document.ofJson T.Content) T.form := by
  cases T with
  | shape => exact Decides.shape
  | group => exact Decides.group
  | terms => exact Decides.terms
  | election => exact Decides.election
  | publicKey => exact Decides.publicKey
  | secretKey => exact Decides.secretKey
  | jointKey => exact Decides.jointKey

end DocumentType

/-! ### Texts -/

namespace Document

variable {α : Type} [Document α]

/-- A document is accepted exactly when its check is valid. -/
theorem accept_eq_ok_iff {c : Checked α} {a : α} : accept α c = .ok a ↔ c = .valid a := by
  cases c <;> simp [accept]

/-- If the check of a type decides a form, its reader gives what the form says of the value that is
written in the text. -/
theorem read_eq_ok_iff_of_decides {F : Form α} (h : Decides (ofJson α) F) {text : String} {a : α} :
    read α text = .ok a ↔ ∃ v, Json.readWritten? text = some v ∧ F v a := by
  rw [read, Json.read?_eq]
  rcases Json.readWritten? text with _ | v
  · simp
  · show accept α (ofJson α v.settled) = .ok a ↔ _
    rw [accept_eq_ok_iff, h v a]
    simp

/-- **A document is read exactly if it is of the form of its type**, and as the record that the form
says. The form is about the value as it is written, with all members of its objects; settling them
makes of it the value that the text denotes. -/
theorem read_eq_ok_iff_form (T : DocumentType) (text : String) :
    Json.read? text = (Json.readWritten? text).map Json.settled ∧
      ∀ a : T.Content, read T.Content text = .ok a ↔
        ∃ v, Json.readWritten? text = some v ∧ T.form v a :=
  ⟨Json.read?_eq text, fun _ ↦ read_eq_ok_iff_of_decides T.decides_form⟩

/-- Of a name that is repeated the last member has to be right, and no other. -/
example :
    (read Terms
      "\x7b\"n\": true, \"k\": 2, \"date\": \"\", \"info\": \"\", \"n\": 3\x7d").toOption =
        some ⟨3, 2, "", ""⟩ := by
  decide +kernel

end Document

end ElectionKeys
