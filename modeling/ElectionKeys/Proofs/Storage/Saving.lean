import Mathlib
import ElectionKeys.Storage.Directory

/-!
# What saving does to a tree

Saving has four steps, of which the medium may hinder any, and a path that may lead nowhere. All of
that comes to two cases: the file is in its place and nothing else has changed, or the tree is
exactly what it was (`save_eq_ok`, `save_cases`).

* The temporary file leaves no trace because its name is new: `freshName` is longer than any
  location of the tree (`ne_fresh`), so taking the file away gives the tree as it was
  (`erase_fresh`).
* Where a path leads depends on the directories of the tree alone (`SameFolders`), and the
  temporary file is none. So the target that is looked up while the temporary file is there is the
  one that the path has without it.
-/

namespace ElectionKeys

/-! ### Sizes of locations -/

theorem Location.size_append (loc loc' : Location) :
    Location.size (loc ++ loc') = Location.size loc + Location.size loc' := by
  induction loc with
  | nil => simp [Location.size]
  | cons part rest ih => rw [List.cons_append, Location.size, Location.size, ih, Nat.add_assoc]

namespace Directory

variable {d e : Directory} {loc folder : Location} {p : Path} {content : Bytes}

/-! ### The temporary file -/

theorem size_le_longest {x : Location × Entry} (h : x ∈ d.entries) : x.1.size ≤ d.longest := by
  rw [longest]
  generalize d.entries = xs at h
  induction xs with
  | nil => cases h
  | cons y rest ih =>
    rw [List.foldr_cons]
    rcases List.mem_cons.1 h with rfl | hrest
    · exact le_max_left _ _
    · exact le_trans (ih hrest) (le_max_right _ _)

theorem length_freshName (d : Directory) (name : String) :
    (d.freshName name).length = name.length + d.longest + 3 := by
  have hdot : ".".length = 1 := rfl
  simp only [freshName, toString, String.length_append, String.length_ofList,
    List.length_replicate, hdot]
  omega

/-- **The name of the temporary file is new**: nothing in the tree lies where it is created. -/
theorem ne_fresh (folder : Location) (name : String) {x : Location × Entry} (h : x ∈ d.entries) :
    x.1 ≠ folder ++ [d.freshName name] := by
  intro hx
  have hsize := size_le_longest h
  rw [hx, Location.size_append, Location.size, Location.size, length_freshName] at hsize
  omega

theorem get?_fresh (d : Directory) (folder : Location) (name : String) :
    d.get? (folder ++ [d.freshName name]) = none := by
  rw [get?, if_neg (by simp), List.lookup_eq_none_iff]
  intro x hx
  simpa using (ne_fresh folder name hx).symm

/-- Taking the temporary file away leaves the tree as it was, whatever was put there before. -/
theorem erase_fresh (d : Directory) (folder : Location) (name : String) (x y : Entry) :
    (d.set (folder ++ [d.freshName name]) x).erase (folder ++ [d.freshName name]) = d ∧
      ((d.set (folder ++ [d.freshName name]) x).set (folder ++ [d.freshName name]) y).erase
        (folder ++ [d.freshName name]) = d := by
  have hnew := Association.erase_of_new fun x h ↦ ne_fresh folder name (d := d) (x := x) h
  simp only [set, erase, Association.erase_put_self, hnew, and_self]

/-! ### Where paths lead -/

/-- A name is followed if a directory lies there, and a step up always. -/
theorem follow_cons_eq_ok_iff {at_ : Location} {part : String} {rest : List String} :
    d.follow at_ (part :: rest) = .ok loc ↔
      if part = ".." then d.follow at_.dropLast rest = .ok loc
      else d.get? (at_ ++ [part]) = some .directory ∧ d.follow (at_ ++ [part]) rest = .ok loc := by
  rw [follow]
  split
  · rfl
  · cases hget : d.get? (at_ ++ [part]) with
    | none => simp
    | some entry => cases entry <;> simp

/-- Two trees have the same directories, whatever else lies in them. -/
def SameFolders (d e : Directory) : Prop :=
  ∀ loc, d.get? loc = some .directory ↔ e.get? loc = some .directory

/-- A file in a place where there is no directory leaves the directories alone. -/
theorem sameFolders_set_file (hne : loc ≠ []) (h : d.get? loc ≠ some .directory)
    (content : Bytes) : SameFolders d (d.set loc (.file content)) := by
  intro loc'
  rw [get?_set d hne]
  split
  · next heq =>
    subst heq
    exact iff_of_false h nofun
  · rfl

theorem SameFolders.follow_eq_ok_iff (h : SameFolders d e) {at_ : Location}
    {parts : List String} : d.follow at_ parts = .ok loc ↔ e.follow at_ parts = .ok loc := by
  induction parts generalizing at_ with
  | nil => rfl
  | cons part rest ih => rw [follow_cons_eq_ok_iff, follow_cons_eq_ok_iff, h, ih, ih]

/-- A path names the place of a file if its last name is one, the names before it lead to a
directory, and no directory lies in the place itself. -/
theorem fileLocation_eq_ok_iff :
    d.fileLocation p = .ok loc ↔
      ∃ folder last, p.parts.getLast? = some last ∧ last ≠ ".." ∧
        d.follow [] p.parent = .ok folder ∧ d.get? (folder ++ [last]) ≠ some .directory ∧
          loc = folder ++ [last] := by
  rw [fileLocation]
  cases hlast : p.parts.getLast? with
  | none => simp
  | some last =>
    simp only [Option.some.injEq]
    split
    · next hup => simp [bind_eq_ok_iff, hup]
    · next hup =>
      rw [bind_eq_ok_iff]
      constructor
      · rintro ⟨folder, hfolder, h⟩
        split at h
        · contradiction
        · next hdir =>
          exact ⟨folder, last, rfl, hup, hfolder, fun hd ↦ hdir hd, (Except.ok.inj h).symm⟩
      · rintro ⟨folder, _, rfl, -, hfolder, hdir, rfl⟩
        refine ⟨folder, hfolder, ?_⟩
        split
        · next h => exact absurd h hdir
        · rfl

/-- The root is no place for a file. -/
theorem fileLocation_ne_nil (place : d.fileLocation p = .ok loc) : loc ≠ [] := by
  obtain ⟨folder, last, -, -, -, -, rfl⟩ := fileLocation_eq_ok_iff.1 place
  simp

theorem SameFolders.fileLocation_eq_ok_iff (h : SameFolders d e) :
    d.fileLocation p = .ok loc ↔ e.fileLocation p = .ok loc := by
  simp only [Directory.fileLocation_eq_ok_iff, h.follow_eq_ok_iff, ne_eq, h _]

/-! ### Ways down to a directory -/

/-- The names down to a location are those of directories, each in the one before it. -/
inductive Stands (d : Directory) : Location → Prop
  | root : Stands d []
  | inside {loc : Location} {part : String} (outer : Stands d loc) (name : part ≠ "..")
      (folder : d.get? (loc ++ [part]) = some .directory) : Stands d (loc ++ [part])

theorem Stands.dropLast (h : Stands d loc) : Stands d loc.dropLast := by
  cases h with
  | root => exact .root
  | inside outer name folder => rwa [List.dropLast_concat]

/-- Wherever names are followed to, there is a way down without steps up. -/
theorem Stands.of_follow {at_ : Location} {parts : List String} (h : Stands d at_)
    (hfollow : d.follow at_ parts = .ok loc) : Stands d loc := by
  induction parts generalizing at_ with
  | nil => exact Except.ok.inj hfollow ▸ h
  | cons part rest ih =>
    rw [follow_cons_eq_ok_iff] at hfollow
    split at hfollow
    · exact ih h.dropLast hfollow
    · next hup => exact ih (h.inside hup hfollow.1) hfollow.2

theorem follow_append (d : Directory) (at_ : Location) (parts rest : List String) :
    d.follow at_ (parts ++ rest) = (d.follow at_ parts >>= fun loc ↦ d.follow loc rest) := by
  induction parts generalizing at_ with
  | nil => rfl
  | cons part parts ih =>
    rw [List.cons_append, follow, follow]
    split
    · exact ih _
    · split
      · rfl
      · rfl
      · exact ih _

/-- A location that stands is reached by its own names. -/
theorem Stands.follow_eq_ok (h : Stands d loc) : d.follow [] loc = .ok loc := by
  induction h with
  | root => rfl
  | inside outer name folder ih =>
    rw [follow_append, ih]
    refine follow_cons_eq_ok_iff.2 ?_
    rw [if_neg name]
    exact ⟨folder, rfl⟩

/-- If the names of a path can be followed, so can the location that their words say. -/
theorem follow_after (h : d.follow [] p.parent = .ok folder) :
    d.follow [] (Location.after [] p.parent) = .ok folder := by
  rw [← follow_eq_ok h]
  exact (Stands.root.of_follow h).follow_eq_ok

/-! ### The outcome of saving -/

/-- The target of the last step is the place that the path names without the temporary file. -/
theorem fileLocation_with_fresh (folder : Location) (content content' : Bytes) :
    ((d.set (folder ++ [d.freshName p.name]) (.file content)).set
        (folder ++ [d.freshName p.name]) (.file content')).fileLocation p = .ok loc ↔
      d.fileLocation p = .ok loc := by
  have hne : folder ++ [d.freshName p.name] ≠ [] := by simp
  have hcreated := sameFolders_set_file hne (by rw [get?_fresh d]; exact nofun) content
  refine ((hcreated.fileLocation_eq_ok_iff).trans ?_).symm
  refine (sameFolders_set_file hne ?_ content').fileLocation_eq_ok_iff
  rw [get?_set d hne, if_pos rfl]
  exact nofun

/-- **An unhindered medium saves a file wherever a path names a place for one**, and changes nothing
else. -/
theorem save_eq_ok {h : Hindrance} (free : ∀ step, h step = none)
    (place : d.fileLocation p = .ok loc) :
    d.save h p content = (d.set loc (.file content), .ok ()) := by
  obtain ⟨folder, last, -, -, hfolder, -, -⟩ := fileLocation_eq_ok_iff.1 place
  have htarget := (fileLocation_with_fresh (p := p) folder [] content).2 place
  simp only [save, follow_after hfolder, free, htarget]
  rw [(erase_fresh d folder p.name _ _).2]

/-- **Saving either puts the file in its place or leaves the tree as it was.** -/
theorem save_cases (d : Directory) (h : Hindrance) (p : Path) (content : Bytes) :
    (∃ loc, (∀ step, h step = none) ∧ d.fileLocation p = .ok loc ∧
      d.save h p content = (d.set loc (.file content), .ok ())) ∨
    ∃ fault, d.save h p content = (d, .error fault) := by
  rw [save]
  split
  · exact .inr ⟨_, rfl⟩
  · next folder hfolder =>
    obtain ⟨hcreated, hwritten⟩ := erase_fresh d folder p.name (.file []) (.file content)
    -- One case for each step at which the medium may stop, and one for the target.
    split
    · exact .inr ⟨_, rfl⟩
    · next hcreate =>
      dsimp only
      split
      · next fault hwrite => exact .inr ⟨fault, by rw [hcreated]⟩
      · next hwrite =>
        split
        · next fault hclose => exact .inr ⟨fault, by rw [hwritten]⟩
        · next hclose =>
          split
          · next fault hreplace => exact .inr ⟨fault, by rw [hwritten]⟩
          · next hreplace =>
            split
            · next fault htarget => exact .inr ⟨fault, by rw [hwritten]⟩
            · next target htarget =>
              refine .inl ⟨target, fun step ↦ ?_, (fileLocation_with_fresh folder _ _).1 htarget,
                by rw [hwritten]⟩
              cases step with
              | create => exact hcreate
              | write => exact hwrite
              | close => exact hclose
              | replace => exact hreplace

/-- What has just been written to a place is read from every path that names the place. -/
theorem read_set (place : d.fileLocation p = .ok loc) :
    (d.set loc (.file content)).read p = .ok content := by
  obtain ⟨folder, last, -, -, -, hdir, rfl⟩ := fileLocation_eq_ok_iff.1 place
  have hne : folder ++ [last] ≠ [] := by simp
  have hplace := ((sameFolders_set_file hne hdir content).fileLocation_eq_ok_iff (p := p)).1 place
  refine bind_eq_ok_iff.2 ⟨_, hplace, ?_⟩
  rw [get?_set d hne, if_pos rfl]

end Directory

end ElectionKeys
