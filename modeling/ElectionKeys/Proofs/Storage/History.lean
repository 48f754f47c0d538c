import Mathlib
import ElectionKeys.Proofs.Storage.Loading

/-!
# Whole runs of saves and loads

Records are saved and loaded under names in one directory, in any order, and nothing else writes
there. Each call has a tape of its own, so nothing is assumed of where the generator stands, and
each save meets a medium that may hinder any of its steps.

`lastSaved` reads off a run which record a name was last saved with. The invariant is that these
records are all that the directory has (`Holds`): a save that ends well puts its record under its
name, and every other call leaves the directory alone (`Call.directory_cases`). So what a load gives
depends on the last save to its name only, and `Loading` says how.

## What a name stands for

A run speaks of names rather than of paths, so that two names are two places of the directory; what
paths do to one another is the business of the module about saving. Of the records nothing is
assumed. A record that fails its test is not saved, and one that is saved has passed at that very
moment, on the tape of that call (`Run.passed`).

A load tests the record again, on another tape. For keys that is the same test. For an election it
is not, and a group that has passed once is only known to pass again if `p` and `q` are prime; so
this is where the loads of elections need a condition that those of keys do not.
-/

namespace ElectionKeys

/-! ### Names of files -/

/-- A name for a file in the directory itself. -/
structure FileName where
  text : String
  no_step_up : text ≠ ".."

namespace FileName

/-- The path that consists of the name. -/
def path (n : FileName) : Path := ⟨[n.text]⟩

theorem fileLocation_eq_ok_iff {n : FileName} {d : Directory} {loc : Location} :
    d.fileLocation n.path = .ok loc ↔ d.get? [n.text] ≠ some .directory ∧ loc = [n.text] := by
  rw [Directory.fileLocation_eq_ok_iff]
  constructor
  · rintro ⟨folder, last, hlast, -, hfolder, hdir, rfl⟩
    cases hlast
    cases hfolder
    exact ⟨hdir, rfl⟩
  · rintro ⟨hdir, rfl⟩
    exact ⟨[], n.text, rfl, n.no_step_up, rfl, hdir, rfl⟩

end FileName

namespace Vault

/-! ### Calls -/

/-- A save or a load. -/
inductive Call
  | save (x : Record) (h : Directory.Hindrance)
  | load (l : Load)

/-- What a call makes of the directory, and the record that it gives if it is a load. -/
def Call.run (d : Directory) (path : Path) : Call → Draw (Directory × Except Error (Option Record))
  | save x h => do
    let (d, outcome) ← x.save d h path
    pure (d, outcome.map fun () ↦ none)
  | load l => do
    let outcome ← l.run d path
    pure (d, outcome.map some)

/-- A call that has come to an end: the name of the file, the call, the tape that it began with, and
its outcome. -/
structure Moment where
  name : FileName
  call : Call
  tape : Tape
  outcome : Except Error (Option Record)

/-- The record that a moment has left under its name, if it is a save that ended well. -/
def Moment.saved (m : Moment) : Option Record :=
  match m.call, m.outcome with
  | .save x _, .ok _ => some x
  | _, _ => none

/-- A run of calls, the last one first, and the directory after it. -/
inductive Run : List Moment → Directory → Prop
  | start : Run [] .empty
  | next {past : List Moment} {d d' : Directory} {t t' : Tape}
    {r : Except Error (Option Record)} (earlier : Run past d) (name : FileName) (call : Call)
    (ended : call.run d name.path t = some ((d', r), t')) : Run (⟨name, call, t, r⟩ :: past) d'

/-- The record of the last save to a name that ended well. -/
def lastSaved (past : List Moment) (name : String) : Option Record :=
  past.findSome? fun m ↦ if m.name.text = name then m.saved else none

variable {past : List Moment} {d d' : Directory} {name : FileName} {call : Call} {t t' : Tape}
  {r : Except Error (Option Record)} {records records' : String → Option Record}

/-! ### Single calls -/

/-- What a call can do to the directory: a save that ends well puts its record, which has passed its
test, under the name, and any other call leaves the directory alone. -/
theorem Call.directory_cases (ended : call.run d name.path t = some ((d', r), t')) :
    (∃ x, Moment.saved ⟨name, call, t, r⟩ = some x ∧ x.check t = some (.ok (), t') ∧
      d' = d.set [name.text] (.file x.bytes)) ∨
    Moment.saved ⟨name, call, t, r⟩ = none ∧ d' = d := by
  cases call with
  | save x h =>
    obtain ⟨⟨d₁, r₁⟩, t₁, hsave, hrest⟩ := Draw.bind_eq_some_iff.1 ended
    cases Draw.pure_eq_some_iff.1 hrest with
    | intro hpair htape =>
      cases hpair
      cases htape
      cases Record.save_eq_some_iff.1 hsave with
      | unfit failed => exact .inr ⟨rfl, rfl⟩
      | refused passed failed => exact .inr ⟨rfl, rfl⟩
      | done passed free place =>
        obtain ⟨-, rfl⟩ := FileName.fileLocation_eq_ok_iff.1 place
        exact .inl ⟨x, rfl, passed, rfl⟩
  | load l =>
    obtain ⟨r₁, t₁, -, hrest⟩ := Draw.bind_eq_some_iff.1 ended
    cases (Draw.pure_eq_some_iff.1 hrest).1
    exact .inr ⟨rfl, rfl⟩

/-! ### What the directory has -/

/-- The directory has the given records under their names, and nothing else. -/
structure Holds (d : Directory) (records : String → Option Record) : Prop where
  file : ∀ name, d.get? [name] = (records name).map fun x ↦ .file x.bytes
  only_files : ∀ loc, loc ≠ [] → (∀ name, loc ≠ [name]) → d.get? loc = none

theorem Holds.empty : Holds .empty fun _ ↦ none where
  file name := if_neg (by simp)
  only_files loc hne _ := if_neg hne

/-- A file under a name takes the place of what the directory had there. -/
theorem Holds.set (holds : Holds d records) (x : Record) (name : String) :
    Holds (d.set [name] (.file x.bytes))
      fun name' ↦ if name = name' then some x else records name' where
  file name' := by
    rw [Directory.get?_set d (by simp), holds.file]
    by_cases h : name = name'
    · rw [if_pos h, if_pos (by rw [h])]
      rfl
    · rw [if_neg h, if_neg fun heq ↦ h (List.singleton_inj.1 heq).symm]
  only_files loc hne hloc := by
    rw [Directory.get?_set d (by simp), if_neg (hloc name), holds.only_files loc hne hloc]

theorem lastSaved_of_saved {m : Moment} {x : Record} (h : m.saved = some x) :
    lastSaved (m :: past) =
      fun name ↦ if m.name.text = name then some x else lastSaved past name := by
  funext name
  rw [lastSaved, List.findSome?_cons, h]
  by_cases hname : m.name.text = name
  · rw [if_pos hname, if_pos hname]
  · rw [if_neg hname, if_neg hname]
    rfl

theorem lastSaved_of_not_saved {m : Moment} (h : m.saved = none) :
    lastSaved (m :: past) = lastSaved past := by
  funext name
  rw [lastSaved, List.findSome?_cons, h, ite_self]
  rfl

/-- **After every call the directory has what was last saved under each name**, and nothing else. -/
theorem Run.holds (run : Run past d) : Holds d (lastSaved past) := by
  induction run with
  | start => exact .empty
  | next earlier name call ended ih =>
    obtain ⟨x, hsaved, -, rfl⟩ | ⟨hsaved, rfl⟩ := Call.directory_cases ended
    · rw [lastSaved_of_saved hsaved]
      exact ih.set x name.text
    · rw [lastSaved_of_not_saved hsaved]
      exact ih

/-- What was saved at a moment of a run passed its test there. -/
theorem Run.passed (run : Run past d) {m : Moment} (hm : m ∈ past) {x : Record}
    (hsaved : m.saved = some x) : ∃ t', x.check m.tape = some (.ok (), t') := by
  induction run with
  | start => cases hm
  | next earlier name call ended ih =>
    rcases List.mem_cons.1 hm with rfl | hearlier
    · obtain ⟨y, hy, passed, -⟩ | ⟨hnone, -⟩ := Call.directory_cases ended
      · cases hsaved.symm.trans hy
        exact ⟨_, passed⟩
      · cases hsaved.symm.trans hnone
    · exact ih hearlier

/-- **Saves go on**: after every run a record that passes its test is saved under any name, unless
the medium hinders it. -/
theorem Run.save_eq (run : Run past d) (name : FileName) {x : Record} {h : Directory.Hindrance}
    (passed : x.check t = some (.ok (), t')) (free : ∀ step, h step = none) :
    x.save d h name.path t = some ((d.set [name.text] (.file x.bytes), .ok ()), t') := by
  have hfile : d.get? [name.text] ≠ some .directory := by
    rw [run.holds.file]
    cases lastSaved past name.text <;> exact nofun
  have place := FileName.fileLocation_eq_ok_iff.2 ⟨hfile, rfl⟩
  exact Record.save_eq_some_iff.2 (.done passed free place)

end Vault

end ElectionKeys
