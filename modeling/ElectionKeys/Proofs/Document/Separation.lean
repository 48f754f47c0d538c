import Mathlib
import ElectionKeys.Proofs.Document.Schema
import ElectionKeys.Proofs.Storage.Loading

/-!
# A document has one type

No text can be read as records of two types. Each type has a member that its documents have to have,
its `mark`, and none that it does not know. So two types can share a document only if each knows the
mark of the other, and of two different types one does not (`DocumentType.eq_of_mark_mem`).

It is the coefficients alone that keep the two kinds of keys apart. A public key has no member that
a secret key has not, and it is refused as a secret key for what it lacks; a secret key is refused
as a public one for what it has. So nothing that can be added to a document, repeated or put in
another order makes the one out of the other.
-/

namespace ElectionKeys

namespace DocumentType

/-- A member that the documents of a type have to have. -/
def mark : DocumentType → String
  | shape => "q_bits_total"
  | group => "generation_parameters"
  | terms => "n"
  | election => "fixed_parameters"
  | publicKey => "i"
  | secretKey => "secret_coefficients"
  | jointKey => "joint_election_public_key"

/-- Types that know the marks of one another are the same. -/
theorem eq_of_mark_mem {T U : DocumentType} (hT : T.mark ∈ Document.names U.Content)
    (hU : U.mark ∈ Document.names T.Content) : T = U := by
  revert hT hU
  cases T <;> cases U <;> decide

end DocumentType

theorem Json.Members.Required.exists_mem {α : Type} {m : Json.Members} {name : String} {F : Form α}
    {a : α} (h : m.Required name F a) : ∃ x ∈ m, x.1 = name := by
  obtain ⟨v, hlast, -⟩ := h
  exact ⟨_, hlast.mem, rfl⟩

namespace DocumentType

/-- A document of a type is an object with its mark and with no member that the type does not
know. -/
theorem exists_members {T : DocumentType} {v : Json} {a : T.Content} (h : T.form v a) :
    ∃ m, v = .object m ∧ (∀ x ∈ m, x.1 ∈ Document.names T.Content) ∧ ∃ x ∈ m, x.1 = T.mark := by
  cases T with
  | shape =>
    obtain ⟨m, rfl, hknown, hmark, -⟩ := h
    exact ⟨m, rfl, hknown, hmark.exists_mem⟩
  | group =>
    obtain ⟨m, rfl, hknown, -, hmark, -⟩ := h
    exact ⟨m, rfl, hknown, hmark.exists_mem⟩
  | terms =>
    obtain ⟨m, rfl, hknown, hmark, -⟩ := h
    exact ⟨m, rfl, hknown, hmark.exists_mem⟩
  | election =>
    obtain ⟨m, rfl, hknown, hmark, -⟩ := h
    exact ⟨m, rfl, hknown, hmark.exists_mem⟩
  | publicKey =>
    obtain ⟨m, rfl, hknown, hmark, -⟩ := h
    exact ⟨m, rfl, hknown, hmark.exists_mem⟩
  | secretKey =>
    obtain ⟨m, rfl, hknown, -, -, hmark, -⟩ := h
    exact ⟨m, rfl, hknown, hmark.exists_mem⟩
  | jointKey =>
    obtain ⟨m, rfl, hknown, hmark⟩ := h
    exact ⟨m, rfl, hknown, hmark.exists_mem⟩

/-- A value is a document of one type at most. -/
theorem subsingleton_form (v : Json) : {T : DocumentType | ∃ a, T.form v a}.Subsingleton := by
  rintro T ⟨a, hT⟩ U ⟨b, hU⟩
  obtain ⟨m, rfl, hknown, x, hx, hxmark⟩ := exists_members hT
  obtain ⟨m', hm, hknown', y, hy, hymark⟩ := exists_members hU
  obtain rfl := Json.object.inj hm
  exact eq_of_mark_mem (hxmark ▸ hknown' x hx) (hymark ▸ hknown y hy)

theorem subsingleton_read (text : String) :
    {T : DocumentType | ∃ a, Document.read T.Content text = .ok a}.Subsingleton := by
  have hform : ∀ {T : DocumentType} {a : T.Content}, Document.read T.Content text = .ok a →
      ∃ v, Json.readWritten? text = some v ∧ T.form v a :=
    fun {T} _ ↦ (Document.read_eq_ok_iff_of_decides T.decides_form).1
  rintro T ⟨a, hT⟩ U ⟨b, hU⟩
  obtain ⟨v, hv, hT⟩ := hform hT
  obtain ⟨w, hw, hU⟩ := hform hU
  rw [hv, Option.some.injEq] at hw
  subst hw
  exact subsingleton_form v ⟨a, hT⟩ ⟨b, hU⟩

theorem subsingleton_readBytes (bytes : Bytes) :
    {T : DocumentType | ∃ a, Document.readBytes T.Content bytes = .ok a}.Subsingleton := by
  rcases htext : bytes.toText? with _ | text
  · rintro T ⟨a, hT⟩
    rw [Document.readBytes, htext] at hT
    cases hT
  · simp only [Document.readBytes, htext]
    exact subsingleton_read text

end DocumentType

/-! ### Files -/

/-- The type of documents in which records of a kind are kept. -/
def RecordKind.type : RecordKind → DocumentType
  | election => .election
  | secretKey => .secretKey
  | publicKey => .publicKey
  | jointKey => .jointKey

theorem RecordKind.type_injective : Function.Injective type := by
  intro kind kind' h
  revert h
  cases kind <;> cases kind' <;> decide

/-- What is loaded from a file is a document of the type that the load expects. -/
theorem Load.exists_of_run {l : Load} {d : Directory} {path : Path} {x : Record} {t t' : Tape}
    {bytes : Bytes} (hread : d.read path = .ok bytes) (h : l.run d path t = some (.ok x, t')) :
    ∃ a, Document.readBytes l.kind.type.Content bytes = .ok a := by
  have hcontent : Vault.content d path l.kind = .ok bytes := mapError_eq_ok_iff.2 hread
  rw [run_eq, hcontent] at h
  rcases hrecord : l.read bytes with e | y
  · rw [show (Except.ok bytes >>= l.read) = l.read bytes from rfl, hrecord] at h
    cases h
  · cases l with
    | election => exact (map_eq_ok_iff.1 hrecord).imp fun _ ↦ And.left
    | secretKey => exact (map_eq_ok_iff.1 hrecord).imp fun _ ↦ And.left
    | publicKey => exact (map_eq_ok_iff.1 hrecord).imp fun _ ↦ And.left
    | jointKey => exact (map_eq_ok_iff.1 hrecord).imp fun _ ↦ And.left

/-- **A text can be read as records of one type at most**, and so can the bytes of a text. A file
can be loaded as one kind of record at most, in whatever tree and under whatever path it lies, and
under whatever election it is loaded: nothing that can be loaded as a secret key can be loaded as a
public one. -/
theorem Document.readable_as_one_type :
    (∀ text, {T : DocumentType | ∃ a, read T.Content text = .ok a}.Subsingleton) ∧
    (∀ bytes, {T : DocumentType | ∃ a, readBytes T.Content bytes = .ok a}.Subsingleton) ∧
    ∀ bytes, {kind | ∃ (l : Load) (d : Directory) (path : Path) (x : Record) (t t' : Tape),
      l.kind = kind ∧ d.read path = .ok bytes ∧
        l.run d path t = some (.ok x, t')}.Subsingleton := by
  refine ⟨DocumentType.subsingleton_read, DocumentType.subsingleton_readBytes, fun bytes ↦ ?_⟩
  rintro _ ⟨l, d, path, x, t, t', rfl, hread, hrun⟩ _ ⟨l', d', path', x', s, s', rfl, hread', hrun'⟩
  exact RecordKind.type_injective (DocumentType.subsingleton_readBytes bytes
    (Load.exists_of_run hread hrun) (Load.exists_of_run hread' hrun'))

/-- A secret key with its members in another order, one of them twice and an optional one absent. -/
def disorderedKey : String :=
  "\x7b\"coefficient_commitments\": [\"base16:4\"], \"i\": 9, "
    ++ "\"secret_coefficients\": [\"base16:2\"], \"i\": 1\x7d"

/-- The disordered key is read as a secret key, so it is no public key. -/
theorem Document.readable_as_one_type_disordered :
    read SecretKey disorderedKey = .ok ⟨1, none, [2], [4]⟩ ∧
      ∀ K, read PublicKey disorderedKey ≠ .ok K := by
  have hread : read SecretKey disorderedKey = .ok ⟨1, none, [2], [4]⟩ := by
    have hsome : (read SecretKey disorderedKey).toOption = some ⟨1, none, [2], [4]⟩ := by
      decide +kernel
    rcases h : read SecretKey disorderedKey with e | S
    · rw [h] at hsome
      cases hsome
    · rw [h] at hsome
      exact congrArg Except.ok (Option.some.inj hsome)
  refine ⟨hread, fun K hK ↦ ?_⟩
  have hsecret : DocumentType.secretKey ∈
      {T : DocumentType | ∃ a, read T.Content disorderedKey = .ok a} := ⟨_, hread⟩
  have hpublic : DocumentType.publicKey ∈
      {T : DocumentType | ∃ a, read T.Content disorderedKey = .ok a} := ⟨K, hK⟩
  have hsame := readable_as_one_type.1 disorderedKey hsecret hpublic
  cases hsame

end ElectionKeys
