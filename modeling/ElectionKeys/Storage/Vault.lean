import ElectionKeys.Guardian.Joint
import ElectionKeys.Storage.Directory

/-!
# Records in files

The four kinds of records that the setup of an election leaves in files. Whatever is loaded is
tested, and whatever is saved is tested before any file is touched. An error that comes out of here
says in its outermost context which kind of record it is about and which path; what failed, and the
error's own message, are those of the step that failed.
-/

namespace ElectionKeys

/-- The kinds of records that are kept in files. -/
inductive RecordKind
  | election
  | secretKey
  | publicKey
  | jointKey
  deriving DecidableEq

/-- The text of a kind of record. -/
def RecordKind.text : RecordKind → String
  | .election => "paramètres d'élection"
  | .secretKey => "clé secrète de gardien"
  | .publicKey => "clé publique de gardien"
  | .jointKey => "clé publique conjointe"

/-- Failures of documents that come out of the vault are about the kind of record and the path,
whatever they were about before. -/
def Failure.inVault (kind : RecordKind) (path : Path) : Failure → Failure
  | .document f _ _ cause => .document f (some kind.text) (some path.text) cause
  | failure => failure

namespace Error

/-- The error seen from outside the vault. -/
def inVault (kind : RecordKind) (path : Path) (e : Error) : Error :=
  { e with failure := Failure.inVault kind path e.failure }.within s!"{kind.text} ({path})"

end Error

namespace Vault

/-- An outcome seen from outside the vault. -/
def about (kind : RecordKind) (path : Path) (x : Except Error α) : Except Error α :=
  x.mapError (Error.inVault kind path)

/-- The error for an access that the operating system refused. The message ends where the words of
the operating system would follow after a colon: they are no part of it here, and the failure has
the fault itself. -/
def accessError (doing : String) (kind : RecordKind) (path : Path) (fault : AccessFault) :
    Error where
  failure := .document .medium (some kind.text) (some path.text) (.access fault)
  message := s!"Impossible {doing} le fichier ({kind.text})"

/-- The content of a file with a record. -/
def content (d : Directory) (path : Path) (kind : RecordKind) : Except Error Bytes :=
  (d.read path).mapError (accessError "de lire" kind path)

/-- Saves the content of a file with a record, as a whole or not at all. -/
def saveContent (d : Directory) (h : Directory.Hindrance) (path : Path) (kind : RecordKind)
    (content : Bytes) : Directory × Except Error Unit :=
  let (d, outcome) := d.save h path content
  (d, outcome.mapError (accessError "d'écrire" kind path))

/-! ### Loading -/

/-- The record in a file, not yet tested. -/
def readRecord (α : Type) [Document α] (d : Directory) (path : Path) (kind : RecordKind) :
    Except Error α := do
  let bytes ← content d path kind
  Document.readBytes α bytes

/-- The error for a key of another guardian than the one who was asked for. -/
def otherGuardian (kind : RecordKind) (path : Path) (expected found : Int) : Error where
  failure := .index .indexExpected (.int found)
  message :=
    s!"Le numéro de gardien {expected} ne correspond pas au numéro {found} "
      ++ s!"lu dans le fichier ({kind.text}) : {path}"
  numbers := [expected, found]

/-- That a key is the one of the guardian who was asked for, if one was. -/
def expectGuardian (kind : RecordKind) (path : Path) (expected : Option Int) (found : Int) :
    Except Error Unit :=
  match expected with
  | none => .ok ()
  | some i => if i = found then .ok () else .error (otherGuardian kind path i found)

/-- The election in a file. -/
def loadElection (d : Directory) (path : Path) : Draw (Except Error Election) := do
  match readRecord Election d path .election with
  | .error e => pure (about .election path (.error e))
  | .ok E =>
    let outcome ← E.check
    pure (about .election path (outcome.map fun () => E))

/-- The secret key in a file. -/
def loadSecretKey (d : Directory) (E : Election) (path : Path) (expected : Option Int) :
    Except Error SecretKey :=
  about .secretKey path do
    let bytes ← content d path .secretKey
    let S ← SecretKey.receive E (Document.readBytes SecretKey bytes)
    expectGuardian .secretKey path expected S.guardian
    pure S

/-- The public key in a file. -/
def loadPublicKey (d : Directory) (E : Election) (path : Path) (expected : Option Int) :
    Except Error PublicKey :=
  about .publicKey path do
    let bytes ← content d path .publicKey
    let K ← PublicKey.receive E (Document.readBytes PublicKey bytes)
    expectGuardian .publicKey path expected K.guardian
    pure K

/-- The public keys in files, or the first error. -/
def loadPublicKeys (d : Directory) (E : Election) (paths : List Path) :
    Except Error (List PublicKey) :=
  paths.mapM fun path => loadPublicKey d E path none

/-- The joint key in a file. -/
def loadJointKey (d : Directory) (E : Election) (path : Path) : Except Error JointKey :=
  about .jointKey path do
    let bytes ← content d path .jointKey
    JointKey.receive E (Document.readBytes JointKey bytes)

/-! ### Saving -/

/-- Saves a record whose test had the given outcome. -/
def saveTested [Document α] (d : Directory) (h : Directory.Hindrance) (path : Path)
    (kind : RecordKind) (outcome : Except Error Unit) (a : α) : Directory × Except Error Unit :=
  match outcome with
  | .error e => (d, about kind path (.error e))
  | .ok () =>
    let (d, outcome) := saveContent d h path kind (Document.renderBytes a)
    (d, about kind path outcome)

/-- Saves an election that passes its tests. -/
def saveElection (d : Directory) (h : Directory.Hindrance) (path : Path) (E : Election) :
    Draw (Directory × Except Error Unit) := do
  let outcome ← E.check
  pure (saveTested d h path .election outcome E)

/-- Saves a secret key that fits the election. -/
def saveSecretKey (d : Directory) (h : Directory.Hindrance) (E : Election) (path : Path)
    (S : SecretKey) : Directory × Except Error Unit :=
  saveTested d h path .secretKey (S.check E) S

/-- Saves a public key that fits the election. -/
def savePublicKey (d : Directory) (h : Directory.Hindrance) (E : Election) (path : Path)
    (K : PublicKey) : Directory × Except Error Unit :=
  saveTested d h path .publicKey (K.check E) K

/-- Saves a joint key that is an element of the group. -/
def saveJointKey (d : Directory) (h : Directory.Hindrance) (E : Election) (path : Path)
    (J : JointKey) : Directory × Except Error Unit :=
  saveTested d h path .jointKey (J.check E) J

end Vault

end ElectionKeys
