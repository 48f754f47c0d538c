import Mathlib
import ElectionKeys.Proofs.Document.Separation
import ElectionKeys.Proofs.Document.Verdict
import ElectionKeys.Proofs.Storage.History

/-!
# What is reported when a save or a load fails

An error is made by the one step that fails, and gathers contexts on its way out: at most one from
within, where a document is judged or a part of an election is tested, and last the kind of record
and the path. `Call.FailsAt` says for each of the steps which error it makes and which context comes
from within, and that all steps before it have succeeded. `Error.Reports` says what becomes of this
error outside.

* Errors are made without a context (`Record.context_of_check`, `Election.Fails.context_eq_nil`), so
  those that are reported have no others than the two.
* A call ends in an error exactly if one of its steps fails (`Call.run_eq_error_iff`), and then the
  error is that of the step, seen from outside. Nothing else raises one, and none is lost.
* The outermost context is none of those from within (`Call.FailsAt.header_not_mem`), as it begins
  with the text of a kind of record.
-/

namespace ElectionKeys

/-! ### Errors as they are made -/

section Bare

variable {t t' : Tape} {e : Error}

/-- The report of a group has not passed any context. -/
theorem SchnorrGroup.context_of_check {G : SchnorrGroup} (h : G.check t = some (.error e, t')) :
    e.context = [] := by
  obtain ⟨flaw, s, -, hrest⟩ := Draw.bind_eq_some_iff.1 h
  rcases flaw with _ | flaw
  · cases (Draw.pure_eq_some_iff.1 hrest).1
  · cases (Draw.pure_eq_some_iff.1 hrest).1
    rfl

theorem Terms.context_of_check {T : Terms} (h : T.check = .error e) : e.context = [] := by
  obtain ⟨test, -, rfl⟩ := Terms.check_eq_error_iff.1 h
  rfl

theorem context_of_keyOutcome {i : ℤ} {flaw : Option KeyFlaw} (h : keyOutcome i flaw = .error e) :
    e.context = [] := by
  obtain ⟨f, -, rfl⟩ := keyOutcome_eq_error_iff.1 h
  rfl

/-- Nor has that of a joint key. So whatever context an error has was put there by a step outside
its test. -/
theorem JointKey.context_of_check {E : Election} {J : JointKey} (h : J.check E = .error e) :
    e.context = [] := by
  rw [JointKey.check_eq] at h
  split at h
  · cases h
  · cases h
    rfl

/-- The tests of keys add no context. -/
theorem Record.context_of_check {x : Record} (hkey : x.kind ≠ .election)
    (h : x.check t = some (.error e, t')) : e.context = [] := by
  cases x with
  | election E => exact absurd rfl hkey
  | secretKey E S => exact context_of_keyOutcome (Draw.pure_eq_some_iff.1 h).1
  | publicKey E K => exact context_of_keyOutcome (Draw.pure_eq_some_iff.1 h).1
  | jointKey E J => exact JointKey.context_of_check (Draw.pure_eq_some_iff.1 h).1

end Bare

namespace Election

variable {E : Election} {t t' : Tape} {e : Error}

/-- The test of a part of an election fails with the error, under the context of that part. -/
inductive Fails (E : Election) (t t' : Tape) : Error → String → Prop
  | group {e : Error} (failed : E.group.check t = some (.error e, t')) :
      Fails E t t' e "Validation des paramètres fixes"
  | terms {e : Error} (passed : E.group.check t = some (.ok (), t'))
      (failed : E.terms.check = .error e) : Fails E t t' e "Validation des paramètres variables"

theorem Fails.context_eq_nil {part : String} (h : E.Fails t t' e part) : e.context = [] := by
  rcases h with failed | ⟨-, failed⟩
  · exact SchnorrGroup.context_of_check failed
  · exact Terms.context_of_check failed

/-- The test of an election fails in one of its parts. -/
theorem check_eq_error_iff :
    E.check t = some (.error e, t') ↔
      ∃ inner part, E.Fails t t' inner part ∧ inner.within part = e := by
  rw [Election.check, Draw.bind_eq_some_iff]
  constructor
  · rintro ⟨outcome, s, hgroup, hrest⟩
    rcases outcome with inner | u
    · obtain ⟨he, rfl⟩ := Draw.pure_eq_some_iff.1 hrest
      cases he
      exact ⟨inner, _, .group hgroup, rfl⟩
    · obtain ⟨he, rfl⟩ := Draw.pure_eq_some_iff.1 hrest
      obtain ⟨inner, failed, rfl⟩ := mapError_eq_error_iff.1 he
      exact ⟨inner, _, .terms hgroup failed, rfl⟩
  · rintro ⟨inner, part, failed | ⟨passed, failed⟩, rfl⟩
    · exact ⟨_, _, failed, rfl⟩
    · refine ⟨_, _, passed, Draw.pure_eq_some_iff.2 ⟨?_, rfl⟩⟩
      exact mapError_eq_error_iff.2 ⟨inner, failed, rfl⟩

end Election

/-! ### Steps of loads -/

/-- A key is refused for its guardian exactly if another one was asked for. -/
theorem Vault.expectGuardian_eq_error_iff {kind : RecordKind} {path : Path} {expected : Option ℤ}
    {found : ℤ} {e : Error} :
    expectGuardian kind path expected found = .error e ↔
      ∃ i, expected = some i ∧ i ≠ found ∧ otherGuardian kind path i found = e := by
  rcases expected with _ | i
  · exact iff_of_false nofun (by simp)
  · rw [expectGuardian]
    by_cases h : i = found
    · simp [h]
    · rw [if_neg h, Except.error.injEq]
      simp only [Option.some.injEq, exists_eq_left', ne_eq, h, not_false_eq_true, true_and]

namespace Load

variable {l : Load} {x : Record} {d : Directory} {path : Path} {t t' : Tape} {bytes : Bytes}
  {e : Error}

/-- Reading fails as the document of the kind does. -/
theorem read_eq_error_iff :
    l.read bytes = .error e ↔ Document.readBytes l.kind.type.Content bytes = .error e := by
  cases l <;> exact map_eq_error_iff

/-- What is read is a record of the kind. -/
theorem kind_of_read (h : l.read bytes = .ok x) : x.kind = l.kind := by
  cases l with
  | election => obtain ⟨E, -, rfl⟩ := map_eq_ok_iff.1 h; rfl
  | secretKey => obtain ⟨S, -, rfl⟩ := map_eq_ok_iff.1 h; rfl
  | publicKey => obtain ⟨K, -, rfl⟩ := map_eq_ok_iff.1 h; rfl
  | jointKey => obtain ⟨J, -, rfl⟩ := map_eq_ok_iff.1 h; rfl

/-- Keys are tested while they are read. -/
theorem testError_of_key (hkey : l.kind ≠ .election) (e : Error) :
    l.testError e = e.within s!"Lecture de {Document.title l.kind.type.Content}" := by
  cases l with
  | election => exact absurd rfl hkey
  | secretKey => rfl
  | publicKey => rfl
  | jointKey => rfl

/-- The number that was read is compared with the number that is expected, if both are there. -/
theorem guardianOutcome_eq_error_iff (h : l.read bytes = .ok x) :
    l.guardianOutcome path x = .error e ↔
      ∃ i g, l.expected = some i ∧ x.guardian = some g ∧ i ≠ g ∧
        Vault.otherGuardian l.kind path i g = e := by
  cases l with
  | election => simp [guardianOutcome, expected]
  | secretKey E expected =>
    obtain ⟨S, -, rfl⟩ := map_eq_ok_iff.1 h
    refine Vault.expectGuardian_eq_error_iff.trans (exists_congr fun i ↦ ?_)
    simp [Load.expected, Record.guardian, kind]
  | publicKey E expected =>
    obtain ⟨K, -, rfl⟩ := map_eq_ok_iff.1 h
    refine Vault.expectGuardian_eq_error_iff.trans (exists_congr fun i ↦ ?_)
    simp [Load.expected, Record.guardian, kind]
  | jointKey E => simp [guardianOutcome, expected]

/-- What becomes of a record that fails its test. -/
theorem run_of_failed (h : (Vault.content d path l.kind >>= l.read) = .ok x)
    (failed : x.check t = some (.error e, t')) :
    l.run d path t = some (.error ((l.testError e).inVault l.kind path), t') := by
  rw [run_eq, h]
  exact Draw.bind_eq_some_iff.2 ⟨_, _, failed, rfl⟩

end Load

namespace Error

variable {kind : RecordKind} {path : Path} {inner e : Error} {rest : List String}

/-- The error with the given contexts from within, seen from outside the vault. -/
def leaving (inner : Error) (kind : RecordKind) (path : Path) (rest : List String) : Error :=
  { inner with context := rest }.inVault kind path

/-- An error that has passed nothing leaves the vault with the header only. -/
theorem leaving_nil (bare : inner.context = []) :
    inner.leaving kind path [] = inner.inVault kind path := by
  rw [leaving, ← bare]

theorem leaving_singleton (bare : inner.context = []) (c : String) :
    inner.leaving kind path [c] = (inner.within c).inVault kind path := by
  rw [leaving, within, bare]

/-- An error reports what failed within a file of the given kind at the given path, and the contexts
it was in there. -/
structure Reports (kind : RecordKind) (path : Path) (inner : Error) (rest : List String)
    (e : Error) : Prop where
  /-- No context comes with the error that is not among the given ones. -/
  bare : inner.context = []
  /-- Only failures of documents change. -/
  same : (∀ fault record place cause, inner.failure ≠ .document fault record place cause) →
    e.failure = inner.failure
  /-- Failures of documents are about the file, whatever they were about within. -/
  renamed : ∀ fault record place cause, inner.failure = .document fault record place cause →
    e.failure = .document fault (some kind.text) (some path.text) cause
  message : e.message = inner.message
  context : e.context = s!"{kind.text} ({path})" :: rest
  numbers : e.numbers = inner.numbers
  once : e.context.count s!"{kind.text} ({path})" = 1
  text : e.text = ": ".intercalate (s!"{kind.text} ({path})" :: rest ++ [inner.message])

/-- **The requirements on what an error reports leave one error only**, which is what leaves the
vault. -/
theorem reports_iff (bare : inner.context = []) (hrest : s!"{kind.text} ({path})" ∉ rest) :
    Reports kind path inner rest e ↔ inner.leaving kind path rest = e := by
  constructor
  · intro h
    obtain ⟨failure, message, context, numbers⟩ := e
    obtain rfl : message = inner.message := h.message
    obtain rfl : context = _ := h.context
    obtain rfl : numbers = inner.numbers := h.numbers
    have hfailure : failure = inner.failure.inVault kind path := by
      rcases hinner : inner.failure with _ | _ | _ | _ | _ | ⟨fault, record, place, cause⟩
      case document => exact h.renamed _ _ _ _ hinner
      all_goals exact (h.same (by simp [hinner])).trans hinner
    rw [hfailure]
    rfl
  · rintro rfl
    refine ⟨bare, fun hother ↦ ?_, fun fault record place cause hdocument ↦ ?_, rfl, rfl, rfl, ?_,
      rfl⟩
    · show inner.failure.inVault kind path = _
      rcases hinner : inner.failure with _ | _ | _ | _ | _ | ⟨fault, record, place, cause⟩
      case document => exact absurd hinner (hother _ _ _ _)
      all_goals rfl
    · show inner.failure.inVault kind path = _
      rw [hdocument]
      rfl
    · show List.count _ (_ :: rest) = 1
      rw [List.count_cons_self, List.count_eq_zero.2 hrest]

end Error

/-- The first of several outcomes that is an error is the outcome of all. -/
theorem mapM_eq_error_iff {ε α β : Type} {f : α → Except ε β} {xs : List α} {e : ε} :
    xs.mapM f = .error e ↔ ∃ before x after, xs = before ++ x :: after ∧
      (∀ y ∈ before, ∃ b, f y = .ok b) ∧ f x = .error e := by
  induction xs with
  | nil => exact iff_of_false nofun (by simp)
  | cons x xs ih =>
    -- Either the first outcome is the error, or it is a result and the others have the error.
    rw [List.mapM_cons, bind_eq_error_iff]
    constructor
    · rintro (hx | ⟨b, hb, hrest⟩)
      · exact ⟨[], x, xs, rfl, nofun, hx⟩
      · rcases bind_eq_error_iff.1 hrest with hxs | ⟨_, -, h⟩
        · obtain ⟨before, y, after, rfl, hbefore, hy⟩ := ih.1 hxs
          exact ⟨x :: before, y, after, rfl, List.forall_mem_cons.2 ⟨⟨b, hb⟩, hbefore⟩, hy⟩
        · cases h
    · rintro ⟨before, y, after, hsplit, hbefore, hy⟩
      rcases List.cons_eq_append_iff.1 hsplit with ⟨rfl, h⟩ | ⟨before, rfl, rfl⟩
      · cases h
        exact .inl hy
      · obtain ⟨⟨b, hb⟩, hbefore⟩ := List.forall_mem_cons.1 hbefore
        exact .inr ⟨b, hb, bind_eq_error_iff.2 (.inl (ih.2 ⟨before, y, after, rfl, hbefore, hy⟩))⟩

namespace Vault

variable {c : Call} {l : Load} {x : Record} {d d' : Directory} {path : Path} {t t' : Tape}
  {inner e : Error} {rest : List String} {hindrance : Directory.Hindrance}

/-- The kind of record that a call is about. -/
def Call.kind : Call → RecordKind
  | save x _ => x.kind
  | load l => l.kind

/-- The step of a call that fails, after all before it have succeeded: the error that it makes, and
the contexts that come from within. -/
inductive Call.FailsAt (d : Directory) (path : Path) (t : Tape) :
    Call → Tape → Error → List String → Prop
  /-- The file cannot be read. -/
  | reading {l : Load} {fault : AccessFault} (failed : d.read path = .error fault) :
      FailsAt d path t (load l) t (accessError "de lire" l.kind path fault) []
  /-- The file is malformed. -/
  | malformed {l : Load} {bytes : Bytes} {ps : List Problem} (found : d.read path = .ok bytes)
      (failed : Document.readBytes l.kind.type.Content bytes = (Verdict.malformed ps).outcome) :
      FailsAt d path t (load l) t
        { failure :=
            .document .malformed (some (Document.title l.kind.type.Content)) none (.problems ps)
          message := s!"Lecture de {Document.title l.kind.type.Content}" } []
  /-- The file is the document of a key with an integer that is no guardian number. -/
  | foreign {l : Load} {bytes : Bytes} {n : ℤ} (found : d.read path = .ok bytes)
      (failed : Document.readBytes l.kind.type.Content bytes = (Verdict.foreign n).outcome) :
      FailsAt d path t (load l) t (.outsideGuardians (.int n) maxGuardian)
        [s!"Lecture de {Document.title l.kind.type.Content}"]
  /-- The election in the file fails its test. -/
  | loadedElection {bytes : Bytes} {E : Election} {t' : Tape} {e : Error} {part : String}
      (found : d.read path = .ok bytes) (record : Document.readBytes Election bytes = .ok E)
      (failed : E.Fails t t' e part) : FailsAt d path t (load .election) t' e [part]
  /-- The key in the file fails its test. -/
  | loadedKey {l : Load} {bytes : Bytes} {x : Record} {t' : Tape} {e : Error}
      (key : l.kind ≠ .election) (found : d.read path = .ok bytes) (record : l.read bytes = .ok x)
      (failed : x.check t = some (.error e, t')) :
      FailsAt d path t (load l) t' e [s!"Lecture de {Document.title l.kind.type.Content}"]
  /-- The key in the file is that of another guardian. -/
  | comparing {l : Load} {bytes : Bytes} {x : Record} {t' : Tape} {i g : ℤ}
      (found : d.read path = .ok bytes) (record : l.read bytes = .ok x)
      (passed : x.check t = some (.ok (), t')) (expected : l.expected = some i)
      (guardian : x.guardian = some g) (failed : i ≠ g) :
      FailsAt d path t (load l) t' (otherGuardian l.kind path i g) []
  /-- The election to be saved fails its test. -/
  | savedElection {E : Election} {h : Directory.Hindrance} {t' : Tape} {e : Error} {part : String}
      (failed : E.Fails t t' e part) : FailsAt d path t (save (.election E) h) t' e [part]
  /-- The key to be saved fails its test. -/
  | savedKey {x : Record} {h : Directory.Hindrance} {t' : Tape} {e : Error}
      (key : x.kind ≠ .election) (failed : x.check t = some (.error e, t')) :
      FailsAt d path t (save x h) t' e []
  /-- The file cannot be written. -/
  | writing {x : Record} {h : Directory.Hindrance} {t' : Tape} {fault : AccessFault}
      (passed : x.check t = some (.ok (), t'))
      (failed : d.save h path x.bytes = (d, .error fault)) :
      FailsAt d path t (save x h) t' (accessError "d'écrire" x.kind path fault) []

theorem Call.FailsAt.context_eq_nil (h : FailsAt d path t c t' inner rest) :
    inner.context = [] := by
  cases h with
  | loadedElection found record failed => exact failed.context_eq_nil
  | loadedKey key found record failed =>
    rw [← Load.kind_of_read record] at key
    exact Record.context_of_check key failed
  | savedElection failed => exact failed.context_eq_nil
  | savedKey key failed => exact Record.context_of_check key failed
  | _ => rfl

/-- The texts of the kinds of records begin in other ways than contexts from within. -/
theorem header_ne {s : String} (hs : s.toList.head? = some 'L' ∨ s.toList.head? = some 'V')
    (kind : RecordKind) (path : Path) : s!"{kind.text} ({path})" ≠ s := by
  rintro rfl
  have hheader : s!"{kind.text} ({path})" = kind.text ++ s!" ({path})" := by
    show kind.text ++ " (" ++ path.text ++ ")" = kind.text ++ (" (" ++ path.text ++ ")")
    simp only [String.append_assoc]
  rw [hheader, String.toList_append] at hs
  rcases hs with hs | hs <;> cases kind <;> cases hs

/-- The header of the vault is none of the contexts inside, so it is put there once. -/
theorem Call.FailsAt.header_not_mem (h : FailsAt d path t c t' inner rest) :
    s!"{c.kind.text} ({path})" ∉ rest := by
  have hreading : ∀ title : String, s!"{c.kind.text} ({path})" ≠ s!"Lecture de {title}" := by
    refine fun title ↦ header_ne (.inl ?_) _ _
    rw [show s!"Lecture de {title}" = "Lecture de " ++ title from rfl, String.toList_append]
    rfl
  have hpart : ∀ {E : Election} {part : String}, E.Fails t t' inner part →
      s!"{c.kind.text} ({path})" ≠ part := by
    rintro E part (failed | ⟨passed, failed⟩)
    · exact header_ne (.inr rfl) _ _
    · exact header_ne (.inr rfl) _ _
  cases h with
  | foreign => simpa using hreading _
  | loadedElection found record failed => simpa using hpart failed
  | loadedKey => simpa using hreading _
  | savedElection failed => simpa using hpart failed
  | _ => simp

/-! ### Loads -/

/-- What a load makes of a step that fails. -/
theorem Call.FailsAt.load_eq (h : FailsAt d path t (load l) t' inner rest) :
    l.run d path t = some (.error (inner.leaving l.kind path rest), t') := by
  have hbare := h.context_eq_nil
  have hcontent : ∀ {bytes}, d.read path = .ok bytes → content d path l.kind = .ok bytes :=
    fun found ↦ mapError_eq_ok_iff.2 found
  cases h with
  | reading failed =>
    exact Load.run_of_error (bind_eq_error_iff.2 (.inl (mapError_eq_error_iff.2 ⟨_, failed, rfl⟩)))
  | malformed found failed =>
    exact Load.run_of_error
      (bind_eq_error_iff.2 (.inr ⟨_, hcontent found, Load.read_eq_error_iff.2 failed⟩))
  | foreign found failed =>
    rw [Verdict.outcome_foreign] at failed
    rw [Error.leaving_singleton hbare]
    exact Load.run_of_error
      (bind_eq_error_iff.2 (.inr ⟨_, hcontent found, Load.read_eq_error_iff.2 failed⟩))
  | loadedElection found record failed =>
    rw [Error.leaving_singleton hbare]
    have hrecord : Load.election.read _ = .ok (.election _) := map_eq_ok_iff.2 ⟨_, record, rfl⟩
    exact Load.run_of_failed (bind_eq_ok_iff.2 ⟨_, hcontent found, hrecord⟩)
      (Election.check_eq_error_iff.2 ⟨_, _, failed, rfl⟩)
  | loadedKey key found record failed =>
    rw [Error.leaving_singleton hbare, ← Load.testError_of_key key]
    exact Load.run_of_failed (bind_eq_ok_iff.2 ⟨_, hcontent found, record⟩) failed
  | comparing found record passed expected guardian failed =>
    have houtcome : l.guardianOutcome path _ = .error (otherGuardian l.kind path _ _) :=
      (Load.guardianOutcome_eq_error_iff record).2 ⟨_, _, expected, guardian, failed, rfl⟩
    rw [Load.run_of_passed (bind_eq_ok_iff.2 ⟨_, hcontent found, record⟩) passed, Load.finish,
      houtcome]
    rfl

/-- A load that ends in an error fails at one of its steps. -/
theorem exists_failsAt_of_load (h : l.run d path t = some (.error e, t')) :
    ∃ inner rest, Call.FailsAt d path t (.load l) t' inner rest ∧
      inner.leaving l.kind path rest = e := by
  -- The steps are tried in turn. Where one is seen to fail, what the load makes of it is known.
  rcases hread : d.read path with fault | bytes
  · have hfails : Call.FailsAt d path t (.load l) t _ _ := .reading hread
    cases hfails.load_eq.symm.trans h
    exact ⟨_, _, hfails, rfl⟩
  rcases hrecord : l.read bytes with e₀ | x
  · obtain ⟨v, hv⟩ := Document.exists_verdict_readBytes l.kind.type bytes
    have herror := Load.read_eq_error_iff.1 hrecord
    rcases v with a | n | ps
    · cases hv.symm.trans herror
    · have hfails : Call.FailsAt d path t (.load l) t _ _ := .foreign hread hv
      cases hfails.load_eq.symm.trans h
      exact ⟨_, _, hfails, rfl⟩
    · have hfails : Call.FailsAt d path t (.load l) t _ _ := .malformed hread hv
      cases hfails.load_eq.symm.trans h
      exact ⟨_, _, hfails, rfl⟩
  have hfound : (content d path l.kind >>= l.read) = .ok x :=
    bind_eq_ok_iff.2 ⟨_, mapError_eq_ok_iff.2 hread, hrecord⟩
  rw [Load.run_eq, hfound] at h
  obtain ⟨outcome, s, hcheck, hrest⟩ := Draw.bind_eq_some_iff.1 h
  obtain ⟨hfinish, rfl⟩ := Draw.pure_eq_some_iff.1 hrest
  rcases outcome with e₀ | u
  · by_cases hkey : l.kind = .election
    · cases l with
      | election =>
        obtain ⟨E, hE, rfl⟩ := map_eq_ok_iff.1 hrecord
        obtain ⟨inner, part, failed, rfl⟩ := Election.check_eq_error_iff.1 hcheck
        refine ⟨_, _, .loadedElection hread hE failed, ?_⟩
        rw [Error.leaving_singleton failed.context_eq_nil]
        exact Except.error.inj hfinish
      | _ => cases hkey
    · have hfails : Call.FailsAt d path t (.load l) _ _ _ := .loadedKey hkey hread hrecord hcheck
      refine ⟨_, _, hfails, ?_⟩
      rw [Error.leaving_singleton hfails.context_eq_nil, ← Load.testError_of_key hkey]
      exact Except.error.inj hfinish
  · rw [Load.finish] at hfinish
    rcases houtcome : l.guardianOutcome path x with e₀ | u <;> rw [houtcome] at hfinish
    · obtain ⟨i, g, hexpected, hguardian, hne, rfl⟩ :=
        (Load.guardianOutcome_eq_error_iff hrecord).1 houtcome
      exact ⟨_, _, .comparing hread hrecord hcheck hexpected hguardian hne,
        Except.error.inj hfinish⟩
    · cases hfinish

/-! ### Saves -/

/-- What a save makes of a step that fails. -/
theorem Call.FailsAt.save_eq (h : FailsAt d path t (save x hindrance) t' inner rest) :
    x.save d hindrance path t = some ((d, .error (inner.leaving x.kind path rest)), t') := by
  have hbare := h.context_eq_nil
  cases h with
  | savedElection failed =>
    rw [Error.leaving_singleton hbare]
    exact Record.save_eq_some_iff.2 (.unfit (Election.check_eq_error_iff.2 ⟨_, _, failed, rfl⟩))
  | savedKey key failed =>
    rw [Error.leaving_nil hbare]
    exact Record.save_eq_some_iff.2 (.unfit failed)
  | writing passed failed =>
    rw [Error.leaving_nil hbare]
    exact Record.save_eq_some_iff.2 (.refused passed failed)

/-- A save that ends in an error fails at one of its steps, and leaves the directory alone. -/
theorem exists_failsAt_of_save (h : x.save d hindrance path t = some ((d', .error e), t')) :
    d' = d ∧ ∃ inner rest, Call.FailsAt d path t (.save x hindrance) t' inner rest ∧
      inner.leaving x.kind path rest = e := by
  cases Record.save_eq_some_iff.1 h with
  | unfit failed =>
    refine ⟨rfl, ?_⟩
    by_cases hkey : x.kind = .election
    · cases x with
      | election E =>
        obtain ⟨inner, part, hpart, rfl⟩ := Election.check_eq_error_iff.1 failed
        exact ⟨_, _, .savedElection hpart, Error.leaving_singleton hpart.context_eq_nil _⟩
      | _ => cases hkey
    · exact ⟨_, _, .savedKey hkey failed, Error.leaving_nil (Record.context_of_check hkey failed)⟩
  | refused passed failed => exact ⟨rfl, _, _, .writing passed failed, rfl⟩

/-! ### Calls -/

/-- **A call ends in an error exactly if one of its steps fails**, and the error is that of the
step, seen from outside. The directory is then what it was. -/
theorem Call.run_eq_error_iff {c : Call} :
    c.run d path t = some ((d', .error e), t') ↔
      d' = d ∧ ∃ inner rest, FailsAt d path t c t' inner rest ∧
        inner.leaving c.kind path rest = e := by
  cases c with
  | save x h =>
    constructor
    · intro hrun
      obtain ⟨⟨d₁, outcome⟩, s, hsave, hrest⟩ := Draw.bind_eq_some_iff.1 hrun
      obtain ⟨hpair, rfl⟩ := Draw.pure_eq_some_iff.1 hrest
      obtain ⟨rfl, houtcome⟩ := Prod.mk.inj hpair
      rw [map_eq_error_iff.1 houtcome] at hsave
      exact exists_failsAt_of_save hsave
    · rintro ⟨rfl, inner, rest, hfails, rfl⟩
      exact Draw.bind_eq_some_iff.2 ⟨_, _, hfails.save_eq, rfl⟩
  | load l =>
    constructor
    · intro hrun
      obtain ⟨outcome, s, hload, hrest⟩ := Draw.bind_eq_some_iff.1 hrun
      obtain ⟨hpair, rfl⟩ := Draw.pure_eq_some_iff.1 hrest
      obtain ⟨rfl, houtcome⟩ := Prod.mk.inj hpair
      rw [map_eq_error_iff.1 houtcome] at hload
      exact ⟨rfl, exists_failsAt_of_load hload⟩
    · rintro ⟨rfl, inner, rest, hfails, rfl⟩
      exact Draw.bind_eq_some_iff.2 ⟨_, _, hfails.load_eq, rfl⟩

/-! ### Several files -/

theorem loadPublicKey_eq_error_iff {E : Election} {expected : Option ℤ} (t : Tape) :
    loadPublicKey d E path expected = .error e ↔
      ∃ inner rest, Call.FailsAt d path t (.load (.publicKey E expected)) t inner rest ∧
        inner.leaving .publicKey path rest = e := by
  have hrun : loadPublicKey d E path expected = .error e ↔
      (Load.publicKey E expected).run d path t = some (.error e, t) := by
    rw [Load.run, Draw.pure_eq_some_iff, and_iff_left rfl, map_eq_error_iff]
  rw [hrun]
  constructor
  · exact exists_failsAt_of_load
  · rintro ⟨inner, rest, hfails, rfl⟩
    exact hfails.load_eq

/-! ### Reports -/

theorem Call.FailsAt.reports_iff (h : FailsAt d path t c t' inner rest) :
    Error.Reports c.kind path inner rest e ↔ inner.leaving c.kind path rest = e :=
  Error.reports_iff h.context_eq_nil h.header_not_mem

/-- **Errors about files say what failed and where**, for every call, record, tree, content and
tape. A call ends in an error exactly if one of its steps fails after all before it have succeeded;
and the error has the failure and the message of that step, the kind of record and the path as its
outermost context, once, and inside of that just the context of a document that is read or of a part
of an election, where there is one. Its text is all of these with a colon between them. If it is
about a document, it is about that kind of record and that path, whatever the step had made it
about; all else that a program can act on is as the step made it. The directory is what it was.

Of several files the first that fails is reported in this way. -/
theorem Call.run_error_report :
    (∀ (c : Call) (d d' : Directory) (path : Path) (t t' : Tape) (e : Error),
      c.run d path t = some ((d', .error e), t') ↔
        d' = d ∧ ∃ inner rest, FailsAt d path t c t' inner rest ∧
          Error.Reports c.kind path inner rest e) ∧
    ∀ (d : Directory) (E : Election) (paths : List Path) (t : Tape) (e : Error),
      loadPublicKeys d E paths = .error e ↔
        ∃ before path after, paths = before ++ path :: after ∧
          (∀ p ∈ before, ∃ K, loadPublicKey d E p none = .ok K) ∧
            ∃ inner rest, FailsAt d path t (load (.publicKey E none)) t inner rest ∧
              Error.Reports .publicKey path inner rest e := by
  have hreports : ∀ {c : Call} {d : Directory} {path : Path} {t t' : Tape} {e : Error},
      (∃ inner rest, FailsAt d path t c t' inner rest ∧ inner.leaving c.kind path rest = e) ↔
        ∃ inner rest, FailsAt d path t c t' inner rest ∧
          Error.Reports c.kind path inner rest e := by
    intro c d path t t' e
    exact exists₂_congr fun inner rest ↦ and_congr_right fun h ↦ h.reports_iff.symm
  refine ⟨fun c d d' path t t' e ↦ ?_, fun d E paths t e ↦ ?_⟩
  · rw [run_eq_error_iff, hreports]
  · rw [loadPublicKeys, mapM_eq_error_iff]
    refine exists₃_congr fun before path after ↦ and_congr_right fun _ ↦ and_congr_right fun _ ↦ ?_
    rw [loadPublicKey_eq_error_iff t]
    exact hreports (c := load (.publicKey E none))

/-- The contexts of a file with a number that is no element of the group. -/
example :
    (loadJointKey ⟨[(["joint.json"], .file (Record.jointKey .threeOverSquares ⟨3⟩).bytes)]⟩
      .threeOverSquares ⟨["joint.json"]⟩).mapError Error.text =
        .error ("clé publique conjointe (joint.json): Lecture de JointElectionPublicKey: "
          ++ "La clé publique conjointe n'est pas un élément valide mod p") := by
  decide +kernel

end Vault

end ElectionKeys
