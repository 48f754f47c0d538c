import Mathlib
import ElectionKeys.Proofs.Guardian.JointSecret
import ElectionKeys.Proofs.Storage.Saving
import ElectionKeys.Storage.Vault

/-!
# Records are saved as a whole or not at all

The four kinds of records have one way of being saved: a test, which only for elections draws, and
then the content of a file. `Record` puts the kinds together, and `Record.Saves` says how a save can
end: with a record that fails its test, before any file is looked at; with an access that was
refused; or with the file in its place. `save_eq_some_iff` says that nothing else happens, so
whatever is said of saves is said of these three cases.

What the three cases have in common is that there are no others in which the tree has changed. A
record that fails its test is reported with the error of the test, and neither the path nor the
medium has been looked at. An access that was refused is reported for the kind of record and the
path, with what the medium gave as its reason; the tree is then what it was, temporary files
included. That there is nothing in between is the content of `save_all_or_nothing`.
-/

namespace ElectionKeys

/-- A record of one of the four kinds that are kept in files, with the election that a key belongs
to. -/
inductive Record
  | election (E : Election)
  | secretKey (E : Election) (S : SecretKey)
  | publicKey (E : Election) (K : PublicKey)
  | jointKey (E : Election) (J : JointKey)

namespace Record

/-- The kind of a record. -/
def kind : Record → RecordKind
  | election _ => .election
  | secretKey .. => .secretKey
  | publicKey .. => .publicKey
  | jointKey .. => .jointKey

/-- The content of a file with a record. -/
def bytes : Record → Bytes
  | election E => Document.renderBytes E
  | secretKey _ S => Document.renderBytes S
  | publicKey _ K => Document.renderBytes K
  | jointKey _ J => Document.renderBytes J

/-- The test that a record has to pass. -/
def check : Record → Draw (Except Error Unit)
  | election E => E.check
  | secretKey E S => pure (S.check E)
  | publicKey E K => pure (K.check E)
  | jointKey E J => pure (J.check E)

/-- Saves a record as one of its kind. -/
def save (d : Directory) (h : Directory.Hindrance) (path : Path) :
    Record → Draw (Directory × Except Error Unit)
  | election E => Vault.saveElection d h path E
  | secretKey E S => pure (Vault.saveSecretKey d h E path S)
  | publicKey E K => pure (Vault.savePublicKey d h E path K)
  | jointKey E J => pure (Vault.saveJointKey d h E path J)

variable {x : Record} {d d' : Directory} {h : Directory.Hindrance} {path : Path} {t t' : Tape}
  {r : Except Error Unit}

/-- How the save of a record can end. -/
inductive Saves (x : Record) (d : Directory) (h : Directory.Hindrance) (path : Path) (t t' : Tape) :
    Directory → Except Error Unit → Prop
  /-- The record fails its test. -/
  | unfit {e : Error} (failed : x.check t = some (.error e, t')) :
      Saves x d h path t t' d (.error (e.inVault x.kind path))
  /-- The record passes, and the medium refuses it. -/
  | refused {fault : AccessFault} (passed : x.check t = some (.ok (), t'))
      (failed : d.save h path x.bytes = (d, .error fault)) :
      Saves x d h path t t' d
        (.error ((Vault.accessError "d'écrire" x.kind path fault).inVault x.kind path))
  /-- The record passes, and lies in the place that the path names. -/
  | done {loc : Location} (passed : x.check t = some (.ok (), t')) (free : ∀ step, h step = none)
      (place : d.fileLocation path = .ok loc) :
      Saves x d h path t t' (d.set loc (.file x.bytes)) (.ok ())

/-- Refusals of the medium are reported for the kind of record and the path. -/
theorem saveContent_eq (d : Directory) (h : Directory.Hindrance) (path : Path) (kind : RecordKind)
    (content : Bytes) :
    Vault.saveContent d h path kind content =
      ((d.save h path content).1,
        (d.save h path content).2.mapError (Vault.accessError "d'écrire" kind path)) :=
  rfl

/-- What becomes of a file when the test of its record had the given outcome. -/
theorem saveTested_eq {α : Type} [Document α] (a : α) (kind : RecordKind)
    (outcome : Except Error Unit) :
    Vault.saveTested d h path kind outcome a =
      match outcome with
      | .error e => (d, .error (e.inVault kind path))
      | .ok () =>
        ((d.save h path (Document.renderBytes a)).1,
          (d.save h path (Document.renderBytes a)).2.mapError fun fault ↦
            (Vault.accessError "d'écrire" kind path fault).inVault kind path) := by
  cases outcome with
  | error e => rfl
  | ok u =>
    simp only [Vault.saveTested, saveContent_eq, Vault.about]
    cases (d.save h path (Document.renderBytes a)).2 <;> rfl

/-- All kinds of records are saved in the same way: the test, and then the file. -/
theorem save_eq_bind (x : Record) (d : Directory) (h : Directory.Hindrance) (path : Path) :
    x.save d h path = (x.check >>= fun outcome ↦ pure
      (match outcome with
      | .error e => (d, .error (e.inVault x.kind path))
      | .ok () =>
        ((d.save h path x.bytes).1, (d.save h path x.bytes).2.mapError fun fault ↦
          (Vault.accessError "d'écrire" x.kind path fault).inVault x.kind path))) := by
  cases x with
  | election E =>
    rw [save, Vault.saveElection]
    refine bind_congr fun outcome ↦ ?_
    rw [saveTested_eq]
    rfl
  | secretKey E S =>
    rw [save, Vault.saveSecretKey, saveTested_eq, check, pure_bind]
    rfl
  | publicKey E K =>
    rw [save, Vault.savePublicKey, saveTested_eq, check, pure_bind]
    rfl
  | jointKey E J =>
    rw [save, Vault.saveJointKey, saveTested_eq, check, pure_bind]
    rfl

/-- **A save ends in one of the three ways, and each of them is an end of the save.** -/
theorem save_eq_some_iff :
    x.save d h path t = some ((d', r), t') ↔ Saves x d h path t t' d' r := by
  rw [save_eq_bind, Draw.bind_eq_some_iff]
  constructor
  · rintro ⟨outcome, s, hcheck, hrest⟩
    obtain ⟨hrest, rfl⟩ := Draw.pure_eq_some_iff.1 hrest
    cases outcome with
    | error e =>
      cases hrest
      exact .unfit hcheck
    | ok u =>
      obtain ⟨loc, free, place, hsave⟩ | ⟨fault, hsave⟩ := d.save_cases h path x.bytes
      · simp only [hsave] at hrest
        cases hrest
        exact .done hcheck free place
      · simp only [hsave] at hrest
        cases hrest
        exact .refused hcheck hsave
  · intro hsaves
    cases hsaves with
    | unfit failed => exact ⟨_, _, failed, rfl⟩
    | refused passed failed =>
      refine ⟨_, _, passed, ?_⟩
      simp only [failed]
      rfl
    | done passed free place =>
      refine ⟨_, _, passed, ?_⟩
      simp only [Directory.save_eq_ok free place]
      rfl

/-! ### All or nothing -/

/-- **Saving is atomic**, whatever the tree, the path, the content and the steps at which the medium
stops. Either the file is in its place, from which it is read, and everything else is as before, so
that no temporary file is left; or the error is about the medium, for this kind of record and this
path, and the tree is what it was. It succeeds exactly when no step is hindered and the path names a
place for a file.

So a save of a record of any kind that ends in an error leaves the tree as it was; and where the
record itself is at fault, neither the tree nor the medium has a part in the outcome. -/
theorem save_all_or_nothing :
    (∀ (d : Directory) (h : Directory.Hindrance) (path : Path) (kind : RecordKind)
      (content : Bytes),
      (∃ d' loc, Vault.saveContent d h path kind content = (d', .ok ()) ∧
        d.fileLocation path = .ok loc ∧ d'.read path = .ok content ∧
          d'.get? loc = some (.file content) ∧ ∀ loc', loc' ≠ loc → d'.get? loc' = d.get? loc') ∨
      ∃ e fault, Vault.saveContent d h path kind content = (d, .error e) ∧
        e.failure = .document .medium (some kind.text) (some path.text) (.access fault)) ∧
    (∀ (d : Directory) (h : Directory.Hindrance) (path : Path) (kind : RecordKind)
      (content : Bytes), (Vault.saveContent d h path kind content).2 = .ok () ↔
        (∀ step, h step = none) ∧ ∃ loc, d.fileLocation path = .ok loc) ∧
    (∀ (x : Record) (d : Directory) (h : Directory.Hindrance) (path : Path) (t t' : Tape)
      (d' : Directory) (e : Error), x.save d h path t = some ((d', .error e), t') → d' = d) ∧
    ∀ (x : Record) (t t' : Tape) (e : Error), x.check t = some (.error e, t') →
      ∀ (d : Directory) (h : Directory.Hindrance) (path : Path),
        x.save d h path t = some ((d, .error (e.inVault x.kind path)), t') := by
  refine ⟨fun d h path kind content ↦ ?_, fun d h path kind content ↦ ?_, ?_, ?_⟩
  · rw [saveContent_eq]
    obtain ⟨loc, -, place, hsave⟩ | ⟨fault, hsave⟩ := d.save_cases h path content
    · have hne := Directory.fileLocation_ne_nil place
      refine .inl ⟨d.set loc (.file content), loc, by rw [hsave]; rfl, place,
        Directory.read_set place, ?_, fun loc' hloc' ↦ ?_⟩
      · rw [Directory.get?_set d hne, if_pos rfl]
      · rw [Directory.get?_set d hne, if_neg hloc']
    · exact .inr ⟨_, fault, by rw [hsave]; rfl, rfl⟩
  · rw [saveContent_eq]
    constructor
    · obtain ⟨loc, free, place, -⟩ | ⟨fault, hsave⟩ := d.save_cases h path content
      · exact fun _ ↦ ⟨free, loc, place⟩
      · rw [hsave]
        exact nofun
    · rintro ⟨free, loc, place⟩
      rw [Directory.save_eq_ok free place]
      rfl
  · intro x d h path t t' d' e hsave
    cases save_eq_some_iff.1 hsave with
    | unfit => rfl
    | refused => rfl
  · intro x t t' e failed d h path
    exact save_eq_some_iff.2 (.unfit failed)

/-! ### A joint key that is replaced, or is none -/

theorem check_jointKey_of_not_isElement {E : Election} {J : JointKey}
    (h : ¬ E.group.isElement J.value = true) (t : Tape) :
    ∃ e, (jointKey E J).check t = some (.error e, t) := by
  rw [check, JointKey.check_eq, if_neg h]
  exact ⟨_, rfl⟩

/-- A file with an older joint key. -/
def olderJointKey : Directory :=
  ⟨[(["joint.json"], .file (bytes (.jointKey .threeOverSquares ⟨2⟩)))]⟩

/-- A medium on which no file can be put in the place of another. -/
def irreplaceable : Directory.Hindrance := fun step ↦
  if step = .replace then some (.refused "") else none

/-- The older joint key stays where the medium does not let a new one take its place, and nothing is
done for a number that is no element of the group. -/
theorem save_all_or_nothing_joint_key :
    (∃ d e, (jointKey .threeOverSquares ⟨4⟩).save olderJointKey irreplaceable ⟨["joint.json"]⟩
        ⟨fun _ ↦ 0, 0, 1⟩ = some ((d, .error e), ⟨fun _ ↦ 0, 0, 1⟩) ∧ d = olderJointKey) ∧
      ∃ e, (jointKey .threeOverSquares ⟨3⟩).check ⟨fun _ ↦ 0, 0, 1⟩ =
          some (.error e, ⟨fun _ ↦ 0, 0, 1⟩) ∧
        (jointKey .threeOverSquares ⟨3⟩).save olderJointKey Directory.unhindered ⟨["joint.json"]⟩
            ⟨fun _ ↦ 0, 0, 1⟩ =
          some ((olderJointKey, .error (e.inVault .jointKey ⟨["joint.json"]⟩)),
            ⟨fun _ ↦ 0, 0, 1⟩) := by
  obtain ⟨-, -, unchanged, unfit⟩ := save_all_or_nothing
  constructor
  · have hfails : (Vault.saveJointKey olderJointKey irreplaceable .threeOverSquares
        ⟨["joint.json"]⟩ ⟨4⟩).2.isOk = false := by decide +kernel
    cases hsave : Vault.saveJointKey olderJointKey irreplaceable .threeOverSquares
        ⟨["joint.json"]⟩ ⟨4⟩ with
    | mk d r =>
      cases r with
      | ok u => rw [hsave] at hfails; cases hfails
      | error e =>
        have hrun : (jointKey .threeOverSquares ⟨4⟩).save olderJointKey irreplaceable
            ⟨["joint.json"]⟩ ⟨fun _ ↦ 0, 0, 1⟩ = some ((d, .error e), ⟨fun _ ↦ 0, 0, 1⟩) := by
          rw [save, hsave]
          rfl
        exact ⟨d, e, hrun, unchanged _ _ _ _ _ _ _ _ hrun⟩
  · have hno : ¬ Election.threeOverSquares.group.isElement (⟨3⟩ : JointKey).value = true := by
      decide +kernel
    obtain ⟨e, hcheck⟩ := check_jointKey_of_not_isElement hno ⟨fun _ ↦ 0, 0, 1⟩
    exact ⟨e, hcheck, unfit _ _ _ _ hcheck _ _ _⟩

end Record

end ElectionKeys
