import Mathlib
import ElectionKeys.Proofs.Guardian.Order
import ElectionKeys.Proofs.Storage.Loading

/-!
# Public keys through files

The public keys of the guardians come to the combination through files: each is saved under a path
of its own, the files are loaded in whatever order they are named, and what they hold is combined.
The files add nothing to that and take nothing away.

* A row of saves leaves each key in the place that its path names (`KeyFiles.savePublicKeys_eq_ok`).
  The invariant is that the tree keeps its directories, so that the paths go on naming the same
  places, and that a place has changed only if the key of its guardian was among those saved.
* So what is loaded are the keys themselves, one for each path, and what comes out is what comes out
  of combining them (`KeyFiles.combineFiles_eq`). Which of the outcomes it is depends on the numbers
  of the guardians alone, and those are the list in which their files are named.
-/

namespace ElectionKeys

/-! ### The numbers of the guardians -/

namespace Terms

/-- The numbers of the guardians in ascending order. -/
def numbers (T : Terms) : List ℤ := (List.range' 1 T.guardians.toNat).map Int.ofNat

variable {T : Terms} {i : ℤ}

theorem mem_numbers_iff : i ∈ T.numbers ↔ 1 ≤ i ∧ i ≤ T.guardians := by
  simp only [numbers, List.mem_map, List.mem_range'_1, Int.ofNat_eq_natCast]
  constructor
  · rintro ⟨n, hn, rfl⟩
    omega
  · intro hi
    exact ⟨i.toNat, by omega, by omega⟩

theorem pairwise_numbers (T : Terms) : T.numbers.Pairwise (· < ·) := by
  refine List.Pairwise.map _ (fun a b (h : a < b) ↦ ?_) (List.pairwise_lt_range' 1)
  simp only [Int.ofNat_eq_natCast]
  omega

theorem nodup_numbers (T : Terms) : T.numbers.Nodup := (pairwise_numbers T).imp ne_of_lt

end Terms

/-! ### One file -/

section File

variable {E : Election} {d : Directory} {path : Path} {loc : Location} {K : PublicKey}
  {J : JointKey}

theorem PublicKey.storable_of_check (hk : 1 ≤ E.terms.quorum)
    (hmax : E.terms.guardians ≤ maxGuardian) (h : K.check E = .ok ()) : K.Storable := by
  obtain ⟨⟨h1, hn⟩, hlen, -⟩ := PublicKey.check_eq_ok_iff.1 h
  refine ⟨⟨h1, by omega⟩, fun hnil ↦ ?_⟩
  rw [hnil, List.length_nil] at hlen
  omega

/-- A file in the place that a path names leaves the directories alone. -/
theorem Directory.sameFolders_set_of_place (place : d.fileLocation path = .ok loc)
    (content : Bytes) : SameFolders d (d.set loc (.file content)) := by
  obtain ⟨folder, last, -, -, -, hdir, rfl⟩ := fileLocation_eq_ok_iff.1 place
  exact sameFolders_set_file (by simp) hdir content

/-- What lies in the place that a path names is read under the path. -/
theorem Directory.read_eq_ok {content : Bytes} (place : d.fileLocation path = .ok loc)
    (hget : d.get? loc = some (.file content)) : d.read path = .ok content := by
  refine bind_eq_ok_iff.2 ⟨loc, place, ?_⟩
  rw [hget]

namespace Vault

/-- A record that has passed its test is saved in the place that the path names. -/
theorem saveTested_eq_ok {α : Type} [Document α] (a : α) (kind : RecordKind)
    (place : d.fileLocation path = .ok loc) :
    saveTested d Directory.unhindered path kind (.ok ()) a =
      (d.set loc (.file (Document.renderBytes a)), .ok ()) := by
  have hsave : d.save Directory.unhindered path (Document.renderBytes a) =
      (d.set loc (.file (Document.renderBytes a)), .ok ()) :=
    Directory.save_eq_ok (fun _ ↦ rfl) place
  rw [Record.saveTested_eq]
  simp only [hsave]
  rfl

theorem savePublicKey_eq_ok (hK : K.check E = .ok ()) (place : d.fileLocation path = .ok loc) :
    savePublicKey d Directory.unhindered E path K =
      (d.set loc (.file (Document.renderBytes K)), .ok ()) := by
  rw [savePublicKey, hK, saveTested_eq_ok K _ place]

theorem saveJointKey_eq_ok (hJ : J.check E = .ok ()) (place : d.fileLocation path = .ok loc) :
    saveJointKey d Directory.unhindered E path J =
      (d.set loc (.file (Document.renderBytes J)), .ok ()) := by
  rw [saveJointKey, hJ, saveTested_eq_ok J _ place]

/-- The bytes of a record that passes its test whatever the tape are loaded as the record. -/
theorem run_eq_ok {l : Load} {x : Record} (hread : d.read path = .ok x.bytes) (hx : x.Storable)
    (fits : l.Fits x) (passed : x.check = pure (.ok ())) (hexpected : l.expected = none) :
    l.run d path ⟨fun _ ↦ 0, 0, 0⟩ = some (.ok x, ⟨fun _ ↦ 0, 0, 0⟩) := by
  refine Load.run_of_fits (mapError_eq_ok_iff.2 hread) hx fits (by rw [passed]; rfl) fun i hi ↦ ?_
  rw [hexpected] at hi
  cases hi

theorem loadPublicKey_eq_ok (hread : d.read path = .ok (Document.renderBytes K))
    (hK : K.check E = .ok ()) (storable : K.Storable) : loadPublicKey d E path none = .ok K := by
  have hrun := run_eq_ok (x := .publicKey E K) hread storable (.publicKey E K none)
    (congrArg pure hK) rfl
  obtain ⟨K', hload, heq⟩ := map_eq_ok_iff.1 (Draw.pure_eq_some_iff.1 hrun).1
  obtain ⟨-, rfl⟩ := Record.publicKey.inj heq
  exact hload

theorem loadJointKey_eq_ok (hread : d.read path = .ok (Document.renderBytes J))
    (hJ : J.check E = .ok ()) : loadJointKey d E path = .ok J := by
  have hrun := run_eq_ok (x := .jointKey E J) hread trivial (.jointKey E J) (congrArg pure hJ) rfl
  obtain ⟨J', hload, heq⟩ := map_eq_ok_iff.1 (Draw.pure_eq_some_iff.1 hrun).1
  obtain ⟨-, rfl⟩ := Record.jointKey.inj heq
  exact hload

/-- Keys that are loaded one by one are loaded together. -/
theorem loadPublicKeys_eq_ok {path : ℤ → Path} {key : ℤ → PublicKey} {order : List ℤ}
    (h : ∀ i ∈ order, loadPublicKey d E (path i) none = .ok (key i)) :
    loadPublicKeys d E (order.map path) = .ok (order.map key) := by
  induction order with
  | nil => rfl
  | cons i order ih =>
    obtain ⟨hi, horder⟩ := List.forall_mem_cons.1 h
    rw [loadPublicKeys, List.map_cons, List.mapM_cons]
    refine bind_eq_ok_iff.2 ⟨_, hi, bind_eq_ok_iff.2 ⟨_, ih horder, rfl⟩⟩

end Vault

end File

/-! ### A row of files -/

/-- Saves public keys one after the other, each under its path, unless one of them is refused. -/
def savePublicKeys (E : Election) (d : Directory) :
    List (Path × PublicKey) → Except Error Directory
  | [] => .ok d
  | (path, K) :: rest =>
    match Vault.savePublicKey d Directory.unhindered E path K with
    | (d', .ok ()) => savePublicKeys E d' rest
    | (_, .error e) => .error e

/-- The joint key of the public keys in files. -/
def combineFiles (E : Election) (d : Directory) (paths : List Path) :
    Except Refusal JointKey := do
  let keys ← (Vault.loadPublicKeys d E paths).mapError .error
  JointKey.combine E keys

/-- The secret keys of all guardians of an election, and for the public key of each a path that
names a place for a file, no two of them the same place. Different names of files in one directory
are such paths. -/
structure KeyFiles (E : Election) (d : Directory) where
  secret : ℤ → SecretKey
  path : ℤ → Path
  place : ℤ → Location
  fit : ∀ i ∈ E.terms.numbers, (secret i).check E = .ok ()
  guardian : ∀ i ∈ E.terms.numbers, (secret i).guardian = i
  named : ∀ i ∈ E.terms.numbers, d.fileLocation (path i) = .ok (place i)
  distinct : ∀ i ∈ E.terms.numbers, ∀ j ∈ E.terms.numbers, place i = place j → i = j

namespace KeyFiles

variable {E : Election} {d : Directory} (F : KeyFiles E d) {i : ℤ}

/-- The public key of a guardian. -/
def publicKey (i : ℤ) : PublicKey := (F.secret i).publicPart

theorem check_publicKey (hi : i ∈ E.terms.numbers) : (F.publicKey i).check E = .ok () :=
  SecretKey.check_publicPart (F.fit i hi)

/-- **A row of saves leaves each key in the place that its path names**, and other places as they
were. -/
theorem savePublicKeys_eq_ok {saving : List ℤ} (hsaving : ∀ i ∈ saving, i ∈ E.terms.numbers)
    {e : Directory} (hfolders : Directory.SameFolders d e) :
    ∃ e', savePublicKeys E e (saving.map fun i ↦ (F.path i, F.publicKey i)) = .ok e' ∧
      Directory.SameFolders d e' ∧ ∀ j ∈ E.terms.numbers,
        e'.get? (F.place j) =
          if j ∈ saving then some (.file (Document.renderBytes (F.publicKey j)))
          else e.get? (F.place j) := by
  -- Each save meets the tree that the one before it left behind.
  induction saving generalizing e with
  | nil => exact ⟨e, rfl, hfolders, fun j _ ↦ by simp⟩
  | cons i saving ih =>
    obtain ⟨hi, hrest⟩ := List.forall_mem_cons.1 hsaving
    have place : e.fileLocation (F.path i) = .ok (F.place i) :=
      hfolders.fileLocation_eq_ok_iff.1 (F.named i hi)
    have hsave := Vault.savePublicKey_eq_ok (F.check_publicKey hi) place
    have hkept := Directory.sameFolders_set_of_place place (Document.renderBytes (F.publicKey i))
    obtain ⟨e', hrow, hfolders', hget⟩ := ih hrest fun loc ↦ (hfolders loc).trans (hkept loc)
    refine ⟨e', ?_, hfolders', fun j hj ↦ ?_⟩
    · rw [List.map_cons, savePublicKeys, hsave]
      exact hrow
    · rw [hget j hj, Directory.get?_set e (Directory.fileLocation_ne_nil place)]
      by_cases hji : j = i
      · subst hji
        simp
      · simp [hji, mt (F.distinct j hj i hi) hji]

/-- After the keys of all guardians are saved, each is read under its path. -/
theorem exists_saved {saving : List ℤ} (hsaving : saving.Perm E.terms.numbers) :
    ∃ d', savePublicKeys E d (saving.map fun i ↦ (F.path i, F.publicKey i)) = .ok d' ∧
      ∀ i ∈ E.terms.numbers,
        d'.read (F.path i) = .ok (Document.renderBytes (F.publicKey i)) := by
  obtain ⟨d', hrow, hfolders, hget⟩ :=
    F.savePublicKeys_eq_ok (fun i hi ↦ hsaving.mem_iff.1 hi) fun _ ↦ Iff.rfl
  refine ⟨d', hrow, fun i hi ↦ ?_⟩
  have hfile := hget i hi
  rw [if_pos (hsaving.mem_iff.2 hi)] at hfile
  exact Directory.read_eq_ok (hfolders.fileLocation_eq_ok_iff.1 (F.named i hi)) hfile

/-! ### Lists of names -/

section Names

variable {order : List ℤ} {names : List Path}

/-- A list of the paths is the list of the paths of some guardians. -/
theorem exists_order (h : ∀ path ∈ names, path ∈ E.terms.numbers.map F.path) :
    ∃ order : List ℤ, (∀ i ∈ order, i ∈ E.terms.numbers) ∧ order.map F.path = names := by
  induction names with
  | nil => exact ⟨[], by simp, rfl⟩
  | cons path names ih =>
    obtain ⟨hpath, hnames⟩ := List.forall_mem_cons.1 h
    obtain ⟨i, hi, rfl⟩ := List.mem_map.1 hpath
    obtain ⟨order, horder, rfl⟩ := ih hnames
    exact ⟨i :: order, List.forall_mem_cons.2 ⟨hi, horder⟩, rfl⟩

/-- Different guardians have different paths, since these name different places. -/
theorem path_injOn : Set.InjOn F.path {i | i ∈ E.terms.numbers} := by
  intro i hi j hj hpath
  have hplace : (.ok (F.place i) : Except AccessFault Location) = .ok (F.place j) := by
    rw [← F.named i hi, ← F.named j hj, hpath]
  exact F.distinct i hi j hj (Except.ok.inj hplace)

theorem mem_map_path_iff (horder : ∀ i ∈ order, i ∈ E.terms.numbers) (hi : i ∈ E.terms.numbers) :
    F.path i ∈ order.map F.path ↔ i ∈ order := by
  constructor
  · intro h
    obtain ⟨j, hj, hpath⟩ := List.mem_map.1 h
    rwa [← F.path_injOn (horder j hj) hi hpath]
  · exact List.mem_map_of_mem

theorem nodup_map_path_iff (horder : ∀ i ∈ order, i ∈ E.terms.numbers) :
    (order.map F.path).Nodup ↔ order.Nodup :=
  ⟨List.Nodup.of_map F.path, List.Nodup.map_on fun i hi j hj ↦
    F.path_injOn (horder i hi) (horder j hj)⟩

theorem perm_of_perm_map_path (horder : ∀ i ∈ order, i ∈ E.terms.numbers)
    (h : (order.map F.path).Perm (E.terms.numbers.map F.path)) : order.Perm E.terms.numbers := by
  have hall : ∀ i ∈ E.terms.numbers, i ∈ E.terms.numbers := fun _ ↦ id
  have distinct : order.Nodup := by
    rw [← F.nodup_map_path_iff horder, h.nodup_iff, F.nodup_map_path_iff hall]
    exact E.terms.nodup_numbers
  refine (List.perm_ext_iff_of_nodup distinct E.terms.nodup_numbers).2 fun i ↦ ⟨horder i, ?_⟩
  intro hi
  rw [← F.mem_map_path_iff horder hi, h.mem_iff]
  exact List.mem_map_of_mem hi

end Names

/-! ### What the files combine to -/

section Combination

variable (hE : E.Accepted) (hmax : E.terms.guardians ≤ maxGuardian) {order : List ℤ}

include hE hmax in
/-- **The files are no more and no less than their keys**: what they combine to is what the keys
do. -/
theorem combineFiles_eq {d' : Directory}
    (hread : ∀ i ∈ E.terms.numbers,
      d'.read (F.path i) = .ok (Document.renderBytes (F.publicKey i)))
    (horder : ∀ i ∈ order, i ∈ E.terms.numbers) :
    combineFiles E d' (order.map F.path) = JointKey.combine E (order.map F.publicKey) := by
  obtain ⟨-, -, hk, -⟩ := Election.accepted_iff.1 hE
  have hload : Vault.loadPublicKeys d' E (order.map F.path) = .ok (order.map F.publicKey) := by
    refine Vault.loadPublicKeys_eq_ok fun i hi ↦ ?_
    have hcheck := F.check_publicKey (horder i hi)
    exact Vault.loadPublicKey_eq_ok (hread i (horder i hi)) hcheck
      (PublicKey.storable_of_check hk hmax hcheck)
  rw [combineFiles, hload]
  rfl

/-- The numbers of the guardians whose keys they are. -/
theorem map_guardian (horder : ∀ i ∈ order, i ∈ E.terms.numbers) :
    (order.map F.publicKey).map PublicKey.guardian = order := by
  rw [List.map_map]
  exact (List.map_congr_left fun i hi ↦ F.guardian i (horder i hi)).trans order.map_id

theorem forall_check (horder : ∀ i ∈ order, i ∈ E.terms.numbers) :
    ∀ K ∈ order.map F.publicKey, K.check E = .ok () :=
  List.forall_mem_map.2 fun i hi ↦ F.check_publicKey (horder i hi)

include hE hmax

/-- The keys of all guardians have a joint key, which is an element of the group. -/
theorem exists_joint :
    ∃ J, JointKey.combine E (E.terms.numbers.map F.publicKey) = .ok J ∧ J.check E = .ok () := by
  obtain ⟨-, hone, hk, hkn⟩ := Election.accepted_iff.1 hE
  have hall : ∀ i ∈ E.terms.numbers, i ∈ E.terms.numbers := fun _ ↦ id
  have hguardians := F.map_guardian hall
  obtain ⟨shares, shared⟩ := JointKey.exists_shares hk (F.forall_check hall)
  have hJ := JointKey.combine_of_complete hone hmax (F.forall_check hall)
    (by rw [hguardians]; exact E.terms.nodup_numbers)
    (fun i h1 hn ↦ by rw [hguardians]; exact Terms.mem_numbers_iff.2 ⟨h1, hn⟩) shared
  exact ⟨_, hJ,
    JointKey.check_eq_ok_iff.2 (((JointKey.combine_eq_iff hk hkn hmax _).1 hJ).isElement hE)⟩

omit hE in
/-- If keys are left out, the guardians whose keys they are are missing. -/
theorem combine_of_omitted (horder : ∀ i ∈ order, i ∈ E.terms.numbers) (distinct : order.Nodup)
    {omitted : List ℤ} (gap : omitted ≠ []) (ascending : omitted.Pairwise (· < ·))
    (exact : ∀ i, i ∈ omitted ↔ i ∈ E.terms.numbers ∧ i ∉ order) :
    JointKey.combine E (order.map F.publicKey) =
      .error (.error (.ofIncomplete .missing omitted)) := by
  have hguardians := F.map_guardian horder
  refine JointKey.combine_of_absent hmax (F.forall_check horder) (by rwa [hguardians]) gap ascending
    fun i ↦ ?_
  rw [hguardians, ← Terms.mem_numbers_iff, exact]

omit hE in
/-- If keys come again, the guardian whose key is the first to do so is reported. -/
theorem exists_first_again (horder : ∀ i ∈ order, i ∈ E.terms.numbers) (again : ¬ order.Nodup) :
    ∃ before i after, order = before ++ i :: after ∧ before.Nodup ∧ i ∈ before ∧
      JointKey.combine E (order.map F.publicKey) =
        .error (.error (.ofIncomplete .duplicate [i])) := by
  have hfit := F.forall_check horder
  obtain ⟨_, _, _, hsplit, hfresh, hagain⟩ :=
    JointKey.exists_first_repeated (by rwa [F.map_guardian horder])
  obtain ⟨before, rest, rfl, rfl, hrest⟩ := List.map_eq_append_iff.1 hsplit
  obtain ⟨i, after, rfl, rfl, rfl⟩ := List.map_eq_cons_iff.1 hrest
  have hi : (F.publicKey i).guardian = i := F.guardian i (horder i (by simp))
  have hbefore := F.map_guardian fun j hj ↦ horder j (List.mem_append_left _ hj)
  rw [hsplit] at hfit ⊢
  refine ⟨before, i, after, rfl, by rwa [hbefore] at hfresh, by rwa [hbefore, hi] at hagain, ?_⟩
  rw [JointKey.combine_of_repeated hmax hfit hfresh hagain, hi]

/-- **The setup through files comes to the same as the setup in memory**, for every accepted
election, secret keys that fit it and different paths for the public keys, in whatever tree. The
public keys are saved in any order. If all files are loaded, in any order, the joint key is that of
the public keys in the order of their guardians, and it comes back unchanged from a file of its own.
If files are left out and none is named twice, the guardians whose files they are are reported, in
ascending order; and if a file is named again, the guardian whose file is the first to be. -/
theorem combine_through_files {saving : List ℤ} (hsaving : saving.Perm E.terms.numbers) :
    (∀ i ∈ E.terms.numbers, (F.secret i).publicKey = .ok (F.publicKey i)) ∧
    ∃ d' J, savePublicKeys E d (saving.map fun i ↦ (F.path i, F.publicKey i)) = .ok d' ∧
      JointKey.combine E (E.terms.numbers.map F.publicKey) = .ok J ∧
      (∀ names : List Path, names.Perm (E.terms.numbers.map F.path) →
        combineFiles E d' names = .ok J) ∧
      (∀ path loc, d'.fileLocation path = .ok loc → ∃ d'',
        Vault.saveJointKey d' Directory.unhindered E path J = (d'', .ok ()) ∧
          Vault.loadJointKey d'' E path = .ok J) ∧
      ∀ names : List Path, (∀ path ∈ names, path ∈ E.terms.numbers.map F.path) →
        (names.Nodup → (∃ i ∈ E.terms.numbers, F.path i ∉ names) →
          combineFiles E d' names = .error (.error (.ofIncomplete .missing
            (E.terms.numbers.filter fun i ↦ F.path i ∉ names)))) ∧
        (¬ names.Nodup → ∃ before i after, names = before ++ F.path i :: after ∧
          i ∈ E.terms.numbers ∧ before.Nodup ∧ F.path i ∈ before ∧
            combineFiles E d' names = .error (.error (.ofIncomplete .duplicate [i]))) := by
  obtain ⟨-, -, hk, hkn⟩ := Election.accepted_iff.1 hE
  obtain ⟨d', hrow, hread⟩ := F.exists_saved hsaving
  obtain ⟨J, hJ, hcheck⟩ := F.exists_joint hE hmax
  refine ⟨fun i hi ↦ SecretKey.publicKey_of_check hk hmax (F.fit i hi),
    d', J, hrow, hJ, fun names hnames ↦ ?all, fun path loc place ↦ ?joint,
    fun names hnames ↦ ⟨fun distinct gap ↦ ?omitted, fun again ↦ ?again⟩⟩
  case all =>
    obtain ⟨order, horder, rfl⟩ := F.exists_order fun path hpath ↦ hnames.mem_iff.1 hpath
    have hperm := F.perm_of_perm_map_path horder hnames
    rw [F.combineFiles_eq hE hmax hread horder]
    exact JointKey.combine_eq_ok_of_perm hk hkn hmax (hperm.symm.map F.publicKey) hJ
  case joint =>
    exact ⟨_, Vault.saveJointKey_eq_ok hcheck place,
      Vault.loadJointKey_eq_ok (Directory.read_set place) hcheck⟩
  case omitted =>
    obtain ⟨order, horder, rfl⟩ := F.exists_order hnames
    obtain ⟨i, hi, hnot⟩ := gap
    have hexact : ∀ j, (j ∈ E.terms.numbers.filter fun i ↦ F.path i ∉ order.map F.path) ↔
        j ∈ E.terms.numbers ∧ j ∉ order := by
      intro j
      rw [List.mem_filter, decide_eq_true_iff]
      exact and_congr_right fun hj ↦ not_congr (F.mem_map_path_iff horder hj)
    have hgap := List.ne_nil_of_mem ((hexact i).2 ⟨hi, fun h ↦ hnot (List.mem_map_of_mem h)⟩)
    rw [F.combineFiles_eq hE hmax hread horder]
    exact F.combine_of_omitted hmax horder ((F.nodup_map_path_iff horder).1 distinct) hgap
      (E.terms.pairwise_numbers.filter _) hexact
  case again =>
    obtain ⟨order, horder, rfl⟩ := F.exists_order hnames
    rw [F.nodup_map_path_iff horder] at again
    obtain ⟨before, i, after, rfl, hbefore, hi, hcombine⟩ := F.exists_first_again hmax horder again
    rw [F.combineFiles_eq hE hmax hread horder]
    refine ⟨before.map F.path, i, after.map F.path, by simp, horder i (by simp), ?_,
      List.mem_map_of_mem hi, hcombine⟩
    exact (F.nodup_map_path_iff fun j hj ↦ horder j (List.mem_append_left _ hj)).2 hbefore

end Combination

/-- Names of files for the public keys of three guardians. -/
def threeName (i : ℤ) : String :=
  if i = 1 then "c.json" else if i = 2 then "a.json" else "b.json"

/-- The secret keys of three guardians, and a file in an empty directory for each public key. -/
def three : KeyFiles .threeOverSquares .empty where
  secret i :=
    if i = 1 then ⟨1, some "Ada", [2, 0], [4, 1]⟩
    else if i = 2 then ⟨2, none, [1, 1], [2, 2]⟩
    else ⟨3, none, [2, 1], [4, 2]⟩
  path i := ⟨[threeName i]⟩
  place i := [threeName i]
  fit i hi := by
    rw [SecretKey.check_eq_ok_iff]
    revert i
    decide +kernel
  guardian := by decide
  named i _ := by
    refine Directory.fileLocation_eq_ok_iff.2 ⟨[], threeName i, rfl, ?_, rfl, ?_, rfl⟩
    · rw [threeName]
      split_ifs <;> decide
    · simp [Directory.get?, Directory.empty]
  distinct := by decide

/-- A list has one first item that was there before. -/
theorem eq_of_first_again {α : Type} {before before' after after' : List α} {x y : α}
    (h : before ++ x :: after = before' ++ y :: after') (distinct : before.Nodup)
    (distinct' : before'.Nodup) (again : x ∈ before) (again' : y ∈ before') : x = y := by
  have hfirst : ∀ {b c a a' : List α} {x y : α}, (b ++ c).Nodup → x ∈ b →
      x :: a = c ++ y :: a' → x = y := by
    intro b c a a' x y hnodup hx heq
    rcases c with _ | ⟨z, c⟩
    · exact (List.cons.inj heq).1
    · rw [← (List.cons.inj heq).1] at hnodup
      exact absurd List.mem_cons_self (List.disjoint_of_nodup_append hnodup hx)
  rcases List.append_eq_append_iff.1 h with ⟨c, rfl, hc⟩ | ⟨c, rfl, hc⟩
  · exact hfirst distinct' again hc
  · exact (hfirst distinct again' hc).symm

/-- Three keys are saved. All files together make the joint key 4; without the second guardian's
that one is missing, and of the two that are named again the third guardian's comes first. -/
theorem combine_through_files_three :
    Election.threeOverSquares.Accepted ∧
      Election.threeOverSquares.terms.guardians ≤ maxGuardian ∧
      [3, 1, 2].Perm Election.threeOverSquares.terms.numbers ∧
      ∃ d', savePublicKeys .threeOverSquares .empty
          ([3, 1, 2].map fun i ↦ (three.path i, three.publicKey i)) = .ok d' ∧
        combineFiles .threeOverSquares d' [⟨["b.json"]⟩, ⟨["c.json"]⟩, ⟨["a.json"]⟩] = .ok ⟨4⟩ ∧
        combineFiles .threeOverSquares d' [⟨["b.json"]⟩, ⟨["c.json"]⟩] =
          .error (.error (.ofIncomplete .missing [2])) ∧
        combineFiles .threeOverSquares d'
            [⟨["b.json"]⟩, ⟨["c.json"]⟩, ⟨["b.json"]⟩, ⟨["c.json"]⟩] =
          .error (.error (.ofIncomplete .duplicate [3])) := by
  have hE := Election.threeOverSquares_accepted
  have hmax : Election.threeOverSquares.terms.guardians ≤ maxGuardian := by decide
  have hsaving : [3, 1, 2].Perm Election.threeOverSquares.terms.numbers := by decide
  obtain ⟨-, d', J, hsaved, hJ, hall, -, hnames⟩ := three.combine_through_files hE hmax hsaving
  have hvalue : (JointKey.combine .threeOverSquares
      (Election.threeOverSquares.terms.numbers.map three.publicKey)).toOption = some ⟨4⟩ := by
    decide +kernel
  rw [hJ] at hvalue
  obtain rfl : J = ⟨4⟩ := Option.some.inj hvalue
  have homitted : (Election.threeOverSquares.terms.numbers.filter fun i ↦
      three.path i ∉ ([⟨["b.json"]⟩, ⟨["c.json"]⟩] : List Path)) = [2] := by decide
  refine ⟨hE, hmax, hsaving, d', hsaved, hall _ (by decide), ?_, ?_⟩
  · rw [← homitted]
    exact (hnames _ (by decide)).1 (by decide) ⟨2, by decide, by decide⟩
  · obtain ⟨before, i, after, hsplit, hi, distinct, again, hcombine⟩ :=
      (hnames [⟨["b.json"]⟩, ⟨["c.json"]⟩, ⟨["b.json"]⟩, ⟨["c.json"]⟩] (by decide)).2 (by decide)
    have hsplit' : before ++ three.path i :: after =
        [⟨["b.json"]⟩, ⟨["c.json"]⟩] ++ ⟨["b.json"]⟩ :: [⟨["c.json"]⟩] := hsplit.symm
    have hpath := eq_of_first_again hsplit' distinct (by decide) again (by decide)
    have hthree : i = 3 := three.path_injOn hi (show (3 : ℤ) ∈ _ by decide) hpath
    rw [← hthree]
    exact hcombine

end KeyFiles

end ElectionKeys
