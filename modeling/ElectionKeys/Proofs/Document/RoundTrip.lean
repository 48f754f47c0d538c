import Mathlib
import ElectionKeys.Guardian.Joint
import ElectionKeys.Proofs.Document.Field
import ElectionKeys.Proofs.Json.RoundTrip

/-!
# Records survive being written and read

Two paths lead between a record and its text: the record to its JSON value and the value to its
text. Each is undone on its own. Of the texts, `Json.read?_pretty` says so once for all values, so
what is left for a type of records is that its own checks undo its own `toJson`, and that the values
are readable. That is `Document.Kept`, and everything about texts and bytes follows from it without
looking at the type again (`Document.RoundTrips.of_kept`).

What a record has to satisfy is what its constructor checks, and that its plain integers are not
too long to be read (`PrimeShape.Storable` and so on). Numbers that are written as large numbers
have no limit.

* `Document.roundTrips`: the seven types of documents.
-/

namespace ElectionKeys

/-! ### From values to texts -/

namespace Document

variable {α : Type} [Document α]

/-- The value of a record makes the record again, and keeps to the limits of the reader. -/
structure Kept (a : α) : Prop where
  ofJson_toJson : ofJson α (toJson a) = .valid a
  readable : Json.Readable Json.maxDepth (toJson a)

/-- The text of a record is read as the record. -/
theorem Kept.read_render {a : α} (h : Kept a) : read α (render a) = .ok a := by
  rw [read, render, Json.read?_pretty h.readable]
  show accept α (ofJson α (toJson a)) = .ok a
  rw [h.ofJson_toJson, accept]

/-- So are the bytes of the text, which are the text again. -/
theorem Kept.readBytes_renderBytes {a : α} (h : Kept a) :
    readBytes α (renderBytes a) = .ok a := by
  rw [readBytes, renderBytes, Bytes.toText?_ofText]
  exact h.read_render

/-- The records of a type that satisfy `P` come back from their texts and from the bytes of their
texts. So two of them have different texts, and what is read has the text that it was read from. -/
structure RoundTrips (α : Type) [Document α] (P : α → Prop) : Prop where
  read_render : ∀ a, P a → read α (render a) = .ok a
  readBytes_renderBytes : ∀ a, P a → readBytes α (renderBytes a) = .ok a
  render_injOn : Set.InjOn (render : α → String) {a | P a}
  render_read : ∀ a, P a → (read α (render a)).map render = .ok (render a)
  renderBytes_readBytes :
    ∀ a, P a → (readBytes α (renderBytes a)).map renderBytes = .ok (renderBytes a)

/-- **It is enough to look at the value of a record**: that its own checks undo it, and that it is
readable. -/
theorem RoundTrips.of_kept {P : α → Prop} (h : ∀ a, P a → Kept a) : RoundTrips α P where
  read_render a ha := (h a ha).read_render
  readBytes_renderBytes a ha := (h a ha).readBytes_renderBytes
  render_injOn a ha b hb hab := by
    have hread := (h a ha).read_render
    rw [hab, (h b hb).read_render] at hread
    exact (Except.ok.inj hread).symm
  render_read a ha := by rw [(h a ha).read_render, Except.map]
  renderBytes_readBytes a ha := by rw [(h a ha).readBytes_renderBytes, Except.map]

end Document

/-! ### Readable values -/

open Json (IsShort Readable)

/-- Sixteen bits are at most five digits. -/
theorem Json.isShort_of_le_maxGuardian {n : ℤ} (h : 0 ≤ n ∧ n ≤ maxGuardian) : IsShort n := by
  have hpow : 10 ^ 5 ≤ 10 ^ maxWholeDigits := Nat.pow_le_pow_right (by decide) (by decide)
  have hmax : maxGuardian < 10 ^ 5 := by decide
  refine lt_of_lt_of_le ?_ hpow
  omega

/-- Large numbers are texts, so an array of them is readable however large they are. -/
theorem Json.readable_bigs (ns : List ℕ) : Readable 1 (BigNumber.listToJson ns) := by
  refine .array fun v hv ↦ ?_
  obtain ⟨n, -, rfl⟩ := List.mem_map.1 hv
  exact .text 0 _

/-- A value that may be absent is readable if it is readable where it is there. -/
theorem Json.readable_ofOption {α : Type} {write : α → Json} {depth : ℕ} {a? : Option α}
    (h : ∀ a ∈ a?, Readable depth (write a)) : Readable depth (Json.ofOption write a?) := by
  cases a? with
  | none => exact .null depth
  | some a => exact h a rfl

/-! ### Groups -/

/-- No number of bits is negative, as the constructor demands, or too long to be read. -/
structure PrimeShape.Storable (s : PrimeShape) : Prop where
  qBits : 0 ≤ s.qBits ∧ IsShort s.qBits
  pBits : 0 ≤ s.pBits ∧ IsShort s.pBits
  topOnes : 0 ≤ s.topOnes ∧ IsShort s.topOnes
  bottomOnes : 0 ≤ s.bottomOnes ∧ IsShort s.bottomOnes

/-- Each source of digits has a text of its own. -/
theorem DigitSource.ofJson_text (source : DigitSource) :
    DigitSource.ofJson (.text source.text) = .valid source := by
  rw [DigitSource.ofJson, ofText?_text]

/-- A shape is read from its value, as none of its numbers is negative. -/
theorem PrimeShape.ofJson_toJson {s : PrimeShape} (h : s.Storable) :
    Document.ofJson PrimeShape (Document.toJson s) = .valid s := by
  refine Document.ofJson_object ?_ rfl
  show PrimeShape.mk <$> Field.required _ _ _ <*> Field.required _ _ _ <*> Field.required _ _ _
    <*> Field.required _ _ _ <*> Field.required _ _ _ = _
  rw [Field.required_eq_valid rfl (Field.natural_eq_valid_iff.2 ⟨h.qBits.1, rfl⟩),
    Field.required_eq_valid rfl (Field.natural_eq_valid_iff.2 ⟨h.pBits.1, rfl⟩),
    Field.required_eq_valid rfl (Field.natural_eq_valid_iff.2 ⟨h.topOnes.1, rfl⟩),
    Field.required_eq_valid rfl s.middle.ofJson_text,
    Field.required_eq_valid rfl (Field.natural_eq_valid_iff.2 ⟨h.bottomOnes.1, rfl⟩)]
  rfl

/-- The value of a shape is an object of four integers and a text. -/
theorem PrimeShape.readable {s : PrimeShape} (h : s.Storable) :
    Readable 1 (Document.toJson s) := by
  refine .object (show (Document.names PrimeShape).Nodup by decide) ?_
  simp only [List.forall_mem_cons]
  exact ⟨.int 0 h.qBits.2, .int 0 h.pBits.2, .int 0 h.topOnes.2, .text 0 _, .int 0 h.bottomOnes.2,
    List.forall_mem_nil _⟩

/-- The shape is storable, and the components of the version are not too long to be read. They may
be negative. -/
structure SchnorrGroup.Storable (G : SchnorrGroup) : Prop where
  shape : G.shape.Storable
  version : ∀ v ∈ G.version, IsShort v.1 ∧ IsShort v.2

/-- A group is read from its value, with its version or without one. -/
theorem SchnorrGroup.ofJson_toJson {G : SchnorrGroup} (h : G.Storable) :
    Document.ofJson SchnorrGroup (Document.toJson G) = .valid G := by
  refine Document.ofJson_object ?_ rfl
  show SchnorrGroup.mk <$> Field.optional _ _ _ <*> Field.required _ _ _ <*> Field.required _ _ _
    <*> Field.required _ _ _ <*> Field.required _ _ _ <*> Field.required _ _ _ = _
  rw [Field.optional_eq_valid (fun v : ℤ × ℤ ↦ .array [.int v.1, .int v.2]) rfl (fun v ↦ nofun)
    Field.pair_ints,
    Field.required_eq_valid rfl (PrimeShape.ofJson_toJson h.shape),
    Field.required_eq_valid rfl (Field.big_toJson G.p),
    Field.required_eq_valid rfl (Field.big_toJson G.q),
    Field.required_eq_valid rfl (Field.big_toJson G.r),
    Field.required_eq_valid rfl (Field.big_toJson G.g)]
  rfl

/-- The value of a group has the shape and the version one level below the top. -/
theorem SchnorrGroup.readable {G : SchnorrGroup} (h : G.Storable) :
    Readable 2 (Document.toJson G) := by
  have hversion : Readable 1
      (Json.ofOption (fun v : ℤ × ℤ ↦ .array [.int v.1, .int v.2]) G.version) := by
    refine Json.readable_ofOption fun v hv ↦ .array ?_
    simp only [List.forall_mem_cons]
    exact ⟨.int 0 (h.version v hv).1, .int 0 (h.version v hv).2, List.forall_mem_nil _⟩
  refine .object (show (Document.names SchnorrGroup).Nodup by decide) ?_
  simp only [List.forall_mem_cons]
  exact ⟨hversion, PrimeShape.readable h.shape, .text 1 _, .text 1 _, .text 1 _, .text 1 _,
    List.forall_mem_nil _⟩

/-! ### Elections -/

/-- Both numbers have sixteen bits, as the constructor demands. -/
structure Terms.Storable (T : Terms) : Prop where
  guardians : 0 ≤ T.guardians ∧ T.guardians ≤ maxGuardian
  quorum : 0 ≤ T.quorum ∧ T.quorum ≤ maxGuardian

theorem Terms.ofJson_toJson {T : Terms} (h : T.Storable) :
    Document.ofJson Terms (Document.toJson T) = .valid T := by
  refine Document.ofJson_object ?_ rfl
  show Terms.mk <$> Field.required _ _ _ <*> Field.required _ _ _ <*> Field.required _ _ _
    <*> Field.required _ _ _ = _
  rw [Field.required_eq_valid rfl (Field.short_eq_valid_iff.2 ⟨h.guardians, rfl⟩),
    Field.required_eq_valid rfl (Field.short_eq_valid_iff.2 ⟨h.quorum, rfl⟩),
    Field.required_eq_valid rfl (Field.text_text T.date),
    Field.required_eq_valid rfl (Field.text_text T.info)]
  rfl

theorem Terms.readable {T : Terms} (h : T.Storable) : Readable 1 (Document.toJson T) := by
  refine .object (show (Document.names Terms).Nodup by decide) ?_
  simp only [List.forall_mem_cons]
  exact ⟨.int 0 (Json.isShort_of_le_maxGuardian h.guardians),
    .int 0 (Json.isShort_of_le_maxGuardian h.quorum), .text 0 _, .text 0 _,
    List.forall_mem_nil _⟩

/-- Both parts are storable. -/
structure Election.Storable (E : Election) : Prop where
  group : E.group.Storable
  terms : E.terms.Storable

theorem Election.ofJson_toJson {E : Election} (h : E.Storable) :
    Document.ofJson Election (Document.toJson E) = .valid E := by
  refine Document.ofJson_object ?_ rfl
  show Election.mk <$> Field.required _ _ _ <*> Field.required _ _ _ = _
  rw [Field.required_eq_valid rfl (SchnorrGroup.ofJson_toJson h.group),
    Field.required_eq_valid rfl (Terms.ofJson_toJson h.terms)]
  rfl

/-- The value of an election nests three levels deep, more than any other document. -/
theorem Election.readable {E : Election} (h : E.Storable) : Readable 3 (Document.toJson E) := by
  refine .object (show (Document.names Election).Nodup by decide) ?_
  simp only [List.forall_mem_cons]
  exact ⟨SchnorrGroup.readable h.group, (Terms.readable h.terms).mono (by decide),
    List.forall_mem_nil _⟩

/-! ### Keys -/

/-- The guardian number has sixteen bits and is not 0, and there is a commitment, as the
constructor demands. -/
structure PublicKey.Storable (K : PublicKey) : Prop where
  guardian : 1 ≤ K.guardian ∧ K.guardian ≤ maxGuardian
  commitments : K.commitments ≠ []

theorem Json.readable_guardian {n : ℤ} (depth : ℕ) (h : 1 ≤ n ∧ n ≤ maxGuardian) :
    Readable depth (.int n) :=
  .int depth (isShort_of_le_maxGuardian ⟨by omega, h.2⟩)

theorem PublicKey.ofJson_toJson {K : PublicKey} (h : K.Storable) :
    Document.ofJson PublicKey (Document.toJson K) = .valid K := by
  refine Document.ofJson_object ?_ rfl
  show PublicKey.mk <$> Field.required _ _ _ <*> Field.optional _ _ _ <*> Field.required _ _ _ = _
  rw [Field.required_eq_valid rfl (Field.guardian_int h.guardian),
    Field.optional_eq_valid .text rfl (fun s ↦ nofun) Field.text_text,
    Field.required_eq_valid rfl (Field.someBigs_listToJson h.commitments)]
  rfl

theorem PublicKey.readable {K : PublicKey} (h : K.Storable) :
    Readable 2 (Document.toJson K) := by
  refine .object (show (Document.names PublicKey).Nodup by decide) ?_
  simp only [List.forall_mem_cons]
  exact ⟨Json.readable_guardian 1 h.guardian, Json.readable_ofOption fun s _ ↦ .text 1 s,
    Json.readable_bigs _, List.forall_mem_nil _⟩

/-- The guardian number has sixteen bits and is not 0, and there is a commitment, as the
constructor demands. There need not be a coefficient. -/
structure SecretKey.Storable (S : SecretKey) : Prop where
  guardian : 1 ≤ S.guardian ∧ S.guardian ≤ maxGuardian
  commitments : S.commitments ≠ []

theorem SecretKey.ofJson_toJson {S : SecretKey} (h : S.Storable) :
    Document.ofJson SecretKey (Document.toJson S) = .valid S := by
  refine Document.ofJson_object ?_ rfl
  show SecretKey.mk <$> Field.required _ _ _ <*> Field.optional _ _ _ <*> Field.required _ _ _
    <*> Field.required _ _ _ = _
  rw [Field.required_eq_valid rfl (Field.guardian_int h.guardian),
    Field.optional_eq_valid .text rfl (fun s ↦ nofun) Field.text_text,
    Field.required_eq_valid rfl (Field.bigs_listToJson S.coefficients),
    Field.required_eq_valid rfl (Field.someBigs_listToJson h.commitments)]
  rfl

/-- The value of a secret key has two arrays of texts. -/
theorem SecretKey.readable {S : SecretKey} (h : S.Storable) :
    Readable 2 (Document.toJson S) := by
  refine .object (show (Document.names SecretKey).Nodup by decide) ?_
  simp only [List.forall_mem_cons]
  exact ⟨Json.readable_guardian 1 h.guardian, Json.readable_ofOption fun s _ ↦ .text 1 s,
    Json.readable_bigs _, Json.readable_bigs _, List.forall_mem_nil _⟩

theorem JointKey.ofJson_toJson (J : JointKey) :
    Document.ofJson JointKey (Document.toJson J) = .valid J := by
  refine Document.ofJson_object ?_ rfl
  show JointKey.mk <$> Field.required _ _ _ = _
  rw [Field.required_eq_valid rfl (Field.big_toJson J.value)]
  rfl

theorem JointKey.readable (J : JointKey) : Readable 1 (Document.toJson J) := by
  refine .object (show (Document.names JointKey).Nodup by decide) ?_
  simp only [List.forall_mem_cons]
  exact ⟨.text 0 _, List.forall_mem_nil _⟩

/-! ### All types of documents -/

/-- A record is kept if its checks undo its `toJson` and its value is readable at a depth that does
not exceed the reader's. -/
theorem Document.Kept.of_readable {α : Type} [Document α] {a : α} {depth : ℕ}
    (hjson : ofJson α (toJson a) = .valid a) (hreadable : Readable depth (toJson a))
    (hdepth : depth ≤ Json.maxDepth) : Kept a :=
  ⟨hjson, hreadable.mono hdepth⟩

/-- **Every record that its constructor makes of short plain integers survives being written and
read**, as a text and as bytes, whichever of the seven types it is of. -/
theorem Document.roundTrips :
    RoundTrips PrimeShape PrimeShape.Storable ∧
    RoundTrips SchnorrGroup SchnorrGroup.Storable ∧
    RoundTrips Terms Terms.Storable ∧
    RoundTrips Election Election.Storable ∧
    RoundTrips PublicKey PublicKey.Storable ∧
    RoundTrips SecretKey SecretKey.Storable ∧
    RoundTrips JointKey (fun _ ↦ True) := by
  refine ⟨.of_kept fun s h ↦ ?shape, .of_kept fun G h ↦ ?group, .of_kept fun T h ↦ ?terms,
    .of_kept fun E h ↦ ?election, .of_kept fun K h ↦ ?publicKey, .of_kept fun S h ↦ ?secretKey,
    .of_kept fun J _ ↦ ?jointKey⟩
  case shape => exact .of_readable (PrimeShape.ofJson_toJson h) (PrimeShape.readable h) (by decide)
  case group =>
    exact .of_readable (SchnorrGroup.ofJson_toJson h) (SchnorrGroup.readable h) (by decide)
  case terms => exact .of_readable (Terms.ofJson_toJson h) (Terms.readable h) (by decide)
  case election => exact .of_readable (Election.ofJson_toJson h) (Election.readable h) (by decide)
  case publicKey =>
    exact .of_readable (PublicKey.ofJson_toJson h) (PublicKey.readable h) (by decide)
  case secretKey =>
    exact .of_readable (SecretKey.ofJson_toJson h) (SecretKey.readable h) (by decide)
  case jointKey => exact .of_readable J.ofJson_toJson J.readable (by decide)

/-- A secret key without coefficients, of the last guardian there can be, whose name has characters
that are written as escapes: it can be stored, and comes back. -/
theorem Document.roundTrips_escaped_name :
    (SecretKey.mk maxGuardian (some "\"\\\x01\n") [] [0]).Storable ∧
      read SecretKey (render (SecretKey.mk maxGuardian (some "\"\\\x01\n") [] [0])) =
        .ok (SecretKey.mk maxGuardian (some "\"\\\x01\n") [] [0]) := by
  have hstorable : (SecretKey.mk maxGuardian (some "\"\\\x01\n") [] [0]).Storable :=
    ⟨by decide, by decide⟩
  obtain ⟨-, -, -, -, -, hsecret, -⟩ := roundTrips
  exact ⟨hstorable, hsecret.read_render _ hstorable⟩

end ElectionKeys
