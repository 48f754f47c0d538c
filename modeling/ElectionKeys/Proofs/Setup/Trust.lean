import Mathlib
import ElectionKeys.Guardian.Generate
import ElectionKeys.Guardian.Joint
import ElectionKeys.Proofs.Document.Field
import ElectionKeys.Proofs.Election.Accepted
import ElectionKeys.Setup.Trust

/-!
# Whole runs of requests for trusted groups

A setup answers requests one after the other: for the group of a version, for an election over one,
for a key pair and for a joint key. They share one tape and one `Trust`, and some of them fail.

`Trust.Step` says how one request can go, together with the self-test that is made for it, if any;
`answer_eq_some_iff` says that this is what the requests do. What it comes to for the trust is in
`Step.changes`: it stays as it is, or a group that has just passed is added for a version that had
none. Everything about whole runs (`Trust.Run`) is an induction over that one fact, with
`Trust.Founded` as the invariant.

## What the invariant says, and what it rests on

* That a trusted group has passed its self-test is said of a moment of the run: there is a request
  at which the group was tested, with the tape as it stood there. The self-test draws, so it need
  not pass again at another place of the tape, and nothing here says so.
* That a version passes at most once rests on the order of things inside a request: a version is
  looked up among the trusted ones before it is looked up in the registry, so a self-test is made
  only for a version that is not trusted.
* A request that is refused leaves the trust as it was, whatever it is refused for. This is where
  the two effects of a request come apart, since a self-test that fails has moved the tape.

The registry is a parameter and may list versions whose group cannot be made. Nothing is assumed of
it, and it does not change in the course of a run.
-/

namespace ElectionKeys

theorem Registry.get?_eq_some_iff {R : Registry} {version : List ℤ} {v : ℤ × ℤ}
    {G : Except Refusal SchnorrGroup} :
    R.get? version = some (v, G) ↔ version = [v.1, v.2] ∧ R.entries.lookup v = some G := by
  rw [Registry.get?.eq_def]
  split
  · next a b =>
    rw [Option.map_eq_some_iff]
    constructor
    · rintro ⟨_, hG, h⟩
      cases h
      exact ⟨rfl, hG⟩
    · rintro ⟨h, hG⟩
      cases h
      exact ⟨G, hG, rfl⟩
  · next h =>
    refine iff_of_false nofun ?_
    rintro ⟨rfl, -⟩
    exact h _ _ rfl

namespace Trust

variable {R : Registry} {C C' : Trust} {version : List ℤ} {t t' : Tape}

/-! ### Single requests -/

/-- The terms are sound exactly when they have one guardian or more, not more than a number can
name, and ask for one or more, but not for more than there are. -/
theorem soundTerms_eq_ok_iff {n k : ℤ} {date info : String} {T : Terms} :
    soundTerms n k date info = .ok T ↔
      (1 ≤ k ∧ k ≤ n ∧ n ≤ maxGuardian) ∧ ⟨n, k, date, info⟩ = T := by
  simp only [soundTerms, bind_eq_ok_iff, mapError_eq_ok_iff, Terms.make_eq_ok_iff]
  constructor
  · rintro ⟨_, ⟨hshort, rfl⟩, _, hcheck, h⟩
    have hsound := Terms.check_eq_ok_iff.1 hcheck
    simp only at hsound
    exact ⟨by omega, Except.ok.inj h⟩
  · rintro ⟨hsound, rfl⟩
    exact ⟨_, ⟨by omega, rfl⟩, (), Terms.check_eq_ok_iff.2 (by simp only; omega), rfl⟩

/-- A self-test that was made for a version, and whether the group passed it. -/
structure SelfTest where
  version : ℤ × ℤ
  group : SchnorrGroup
  passed : Bool

/-- How a request for the group of a version can go, with the self-test that is made for it. -/
inductive GroupStep (R : Registry) (C : Trust) (version : List ℤ) (t : Tape) :
    Option SelfTest → Except Refusal SchnorrGroup → Trust → Tape → Prop
  /-- The group is trusted, and is not tested again. -/
  | trusted {G : SchnorrGroup} (found : C.get? version = some G) :
      GroupStep R C version t none (.ok G) C t
  | unknown (untrusted : C.get? version = none) (unknown : R.get? version = none) :
      GroupStep R C version t none (.error (.error (R.unknownVersion version))) C t
  /-- The registry cannot make the group. -/
  | unmade {v : ℤ × ℤ} {refusal : Refusal} (untrusted : C.get? version = none)
      (known : R.get? version = some (v, .error refusal)) :
      GroupStep R C version t none (.error refusal) C t
  | failed {v : ℤ × ℤ} {G : SchnorrGroup} {e : Error} {t' : Tape}
      (untrusted : C.get? version = none) (known : R.get? version = some (v, .ok G))
      (outcome : G.check t = some (.error e, t')) :
      GroupStep R C version t (some ⟨v, G, false⟩) (.error (.error e)) C t'
  | passed {v : ℤ × ℤ} {G : SchnorrGroup} {t' : Tape} (untrusted : C.get? version = none)
      (known : R.get? version = some (v, .ok G)) (outcome : G.check t = some (.ok (), t')) :
      GroupStep R C version t (some ⟨v, G, true⟩) (.ok G) (C.add v G) t'

theorem group_eq_some_iff {r : Except Refusal SchnorrGroup} :
    C.group R version t = some ((r, C'), t') ↔ ∃ test, GroupStep R C version t test r C' t' := by
  constructor
  · intro h
    rw [group] at h
    cases found : C.get? version with
    | some G =>
      rw [found] at h
      obtain ⟨hr, rfl⟩ := Draw.pure_eq_some_iff.1 h
      cases hr
      exact ⟨_, .trusted found⟩
    | none =>
      rw [found] at h
      match known : R.get? version with
      | none =>
        rw [known] at h
        obtain ⟨hr, rfl⟩ := Draw.pure_eq_some_iff.1 h
        cases hr
        exact ⟨_, .unknown found known⟩
      | some (v, .error refusal) =>
        rw [known] at h
        obtain ⟨hr, rfl⟩ := Draw.pure_eq_some_iff.1 h
        cases hr
        exact ⟨_, .unmade found known⟩
      | some (v, .ok G) =>
        rw [known] at h
        obtain ⟨outcome, s, hcheck, hrest⟩ := Draw.bind_eq_some_iff.1 h
        cases outcome with
        | error e =>
          obtain ⟨hr, rfl⟩ := Draw.pure_eq_some_iff.1 hrest
          cases hr
          exact ⟨_, .failed found known hcheck⟩
        | ok u =>
          obtain ⟨hr, rfl⟩ := Draw.pure_eq_some_iff.1 hrest
          cases hr
          exact ⟨_, .passed found known hcheck⟩
  · rintro ⟨test, step⟩
    cases step with
    | trusted found =>
      rw [group, found]
      rfl
    | unknown untrusted unknown =>
      rw [group, untrusted, unknown]
      rfl
    | unmade untrusted known =>
      rw [group, untrusted, known]
      rfl
    | failed untrusted known outcome =>
      rw [group, untrusted, known]
      exact Draw.bind_eq_some_iff.2 ⟨_, _, outcome, rfl⟩
    | passed untrusted known outcome =>
      rw [group, untrusted, known]
      exact Draw.bind_eq_some_iff.2 ⟨_, _, outcome, rfl⟩

/-- What a setup is asked for. -/
inductive Request
  | group (version : List ℤ)
  | election (n k : ℤ) (date info : String) (version : List ℤ)
  | keyPair (E : Election) (given : Json) (name : Option String)
  | jointKey (E : Election) (keys : List PublicKey)

/-- What a setup gives. -/
inductive Answer
  | group (G : SchnorrGroup)
  | election (E : Election)
  | keyPair (pair : KeyPair)
  | jointKey (J : JointKey)

/-- The answer to a request, with the groups that are trusted from then on. -/
def Request.answer (R : Registry) (C : Trust) : Request → Draw (Except Refusal Answer × Trust)
  | .group version => do
    let (r, C) ← C.group R version
    pure (r.map .group, C)
  | .election n k date info version => do
    let (r, C) ← C.election R n k date info version
    pure (r.map .election, C)
  | .keyPair E given name => do
    let r ← KeyPair.generate E given name
    pure (r.map .keyPair, C)
  | .jointKey E keys => pure ((JointKey.combine E keys).map .jointKey, C)

/-- How a request can go, with the self-test that is made for it. -/
inductive Step (R : Registry) (C : Trust) (t : Tape) :
    Request → Option SelfTest → Except Refusal Answer → Trust → Tape → Prop
  | group {version : List ℤ} {test : Option SelfTest} {r : Except Refusal SchnorrGroup}
      {C' : Trust} {t' : Tape} (step : GroupStep R C version t test r C' t') :
      Step R C t (.group version) test (r.map .group) C' t'
  /-- Unsound terms are refused before any group is looked at. -/
  | unsound {n k : ℤ} {date info : String} {version : List ℤ} {refusal : Refusal}
      (terms : soundTerms n k date info = .error refusal) :
      Step R C t (.election n k date info version) none (.error refusal) C t
  | election {n k : ℤ} {date info : String} {version : List ℤ} {T : Terms}
      {test : Option SelfTest} {r : Except Refusal SchnorrGroup} {C' : Trust} {t' : Tape}
      (terms : soundTerms n k date info = .ok T) (step : GroupStep R C version t test r C' t') :
      Step R C t (.election n k date info version) test ((r.map fun G ↦ ⟨G, T⟩).map .election) C' t'
  | keyPair {E : Election} {given : Json} {name : Option String} {r : Except Refusal KeyPair}
      {t' : Tape} (made : KeyPair.generate E given name t = some (r, t')) :
      Step R C t (.keyPair E given name) none (r.map .keyPair) C t'
  | jointKey {E : Election} {keys : List PublicKey} :
      Step R C t (.jointKey E keys) none ((JointKey.combine E keys).map .jointKey) C t

theorem election_eq_some_iff {n k : ℤ} {date info : String} {r : Except Refusal Election} :
    C.election R n k date info version t = some ((r, C'), t') ↔
      (∃ refusal, soundTerms n k date info = .error refusal ∧ r = .error refusal ∧ C = C' ∧
        t = t') ∨
      ∃ T outcome, soundTerms n k date info = .ok T ∧
        C.group R version t = some ((outcome, C'), t') ∧ r = outcome.map fun G ↦ ⟨G, T⟩ := by
  rw [election]
  cases terms : soundTerms n k date info with
  | error refusal =>
    rw [Draw.pure_eq_some_iff]
    constructor
    · rintro ⟨h, rfl⟩
      cases h
      exact .inl ⟨_, rfl, rfl, rfl, rfl⟩
    · rintro (⟨_, h, rfl, rfl, rfl⟩ | ⟨_, _, h, -⟩)
      · cases h
        exact ⟨rfl, rfl⟩
      · cases h
  | ok T =>
    rw [Draw.bind_eq_some_iff]
    constructor
    · rintro ⟨⟨outcome, C''⟩, s, hgroup, hrest⟩
      obtain ⟨hr, rfl⟩ := Draw.pure_eq_some_iff.1 hrest
      cases hr
      exact .inr ⟨T, outcome, rfl, hgroup, rfl⟩
    · rintro (⟨_, h, -⟩ | ⟨_, outcome, h, hgroup, rfl⟩)
      · cases h
      · cases h
        exact ⟨_, _, hgroup, rfl⟩

/-- **A request is answered in one of the ways that a step has.** -/
theorem answer_eq_some_iff {request : Request} {r : Except Refusal Answer} :
    request.answer R C t = some ((r, C'), t') ↔ ∃ test, Step R C t request test r C' t' := by
  constructor
  · intro h
    cases request with
    | group version =>
      obtain ⟨⟨outcome, C''⟩, s, hgroup, hrest⟩ := Draw.bind_eq_some_iff.1 h
      obtain ⟨hr, rfl⟩ := Draw.pure_eq_some_iff.1 hrest
      cases hr
      obtain ⟨test, step⟩ := group_eq_some_iff.1 hgroup
      exact ⟨test, .group step⟩
    | election n k date info version =>
      obtain ⟨⟨outcome, C''⟩, s, helection, hrest⟩ := Draw.bind_eq_some_iff.1 h
      obtain ⟨hr, rfl⟩ := Draw.pure_eq_some_iff.1 hrest
      cases hr
      obtain ⟨_, terms, rfl, rfl, rfl⟩ | ⟨T, outcome, terms, hgroup, rfl⟩ :=
        election_eq_some_iff.1 helection
      · exact ⟨none, .unsound terms⟩
      · obtain ⟨test, step⟩ := group_eq_some_iff.1 hgroup
        exact ⟨test, .election terms step⟩
    | keyPair E given name =>
      obtain ⟨pair, s, hpair, hrest⟩ := Draw.bind_eq_some_iff.1 h
      obtain ⟨hr, rfl⟩ := Draw.pure_eq_some_iff.1 hrest
      cases hr
      exact ⟨none, .keyPair hpair⟩
    | jointKey E keys =>
      obtain ⟨hr, rfl⟩ := Draw.pure_eq_some_iff.1 h
      cases hr
      exact ⟨none, .jointKey⟩
  · rintro ⟨test, step⟩
    cases step with
    | group step => exact Draw.bind_eq_some_iff.2 ⟨_, _, group_eq_some_iff.2 ⟨_, step⟩, rfl⟩
    | unsound terms =>
      exact Draw.bind_eq_some_iff.2
        ⟨_, _, election_eq_some_iff.2 (.inl ⟨_, terms, rfl, rfl, rfl⟩), rfl⟩
    | election terms step =>
      exact Draw.bind_eq_some_iff.2
        ⟨_, _, election_eq_some_iff.2 (.inr ⟨_, _, terms, group_eq_some_iff.2 ⟨_, step⟩, rfl⟩), rfl⟩
    | keyPair made => exact Draw.bind_eq_some_iff.2 ⟨_, _, made, rfl⟩
    | jointKey => rfl

/-! ### What a step does to the trust -/

theorem get?_eq_lookup {v : ℤ × ℤ} {G : Except Refusal SchnorrGroup}
    (known : R.get? version = some (v, G)) : C.get? version = C.groups.lookup v := by
  rw [(Registry.get?_eq_some_iff.1 known).1]
  rfl

/-- What a request does to the trust: nothing, or it adds a group that has just passed its self-test
for a version that had none. -/
inductive Changes (R : Registry) (C : Trust) (t : Tape) :
    Option SelfTest → Trust → Tape → Prop
  | kept {test : Option SelfTest} {t' : Tape} (none : ∀ s ∈ test, s.passed = false) :
      Changes R C t test C t'
  | added {v : ℤ × ℤ} {G : SchnorrGroup} {t' : Tape} (new : C.groups.lookup v = none)
      (known : R.get? [v.1, v.2] = some (v, .ok G)) (outcome : G.check t = some (.ok (), t')) :
      Changes R C t (some ⟨v, G, true⟩) (C.add v G) t'

/-- Nothing is added without a self-test. -/
theorem Changes.untested : Changes R C t none C t' :=
  .kept fun s hs ↦ absurd hs (Option.not_mem_none s)

theorem GroupStep.changes {test : Option SelfTest} {r : Except Refusal SchnorrGroup}
    (step : GroupStep R C version t test r C' t') : Changes R C t test C' t' := by
  cases step with
  | trusted found => exact .untested
  | unknown untrusted unknown => exact .untested
  | unmade untrusted known => exact .untested
  | failed untrusted known outcome => exact .kept fun s hs ↦ by cases hs; rfl
  | passed untrusted known outcome =>
    rw [get?_eq_lookup known] at untrusted
    refine .added untrusted ?_ outcome
    obtain ⟨rfl, hG⟩ := Registry.get?_eq_some_iff.1 known
    exact known

/-- **A step leaves the trust as it is, or adds a group that has just passed its self-test.** -/
theorem Step.changes {request : Request} {test : Option SelfTest} {r : Except Refusal Answer}
    (step : Step R C t request test r C' t') : Changes R C t test C' t' := by
  cases step with
  | group step => exact step.changes
  | unsound terms => exact .untested
  | election terms step => exact step.changes
  | keyPair made => exact .untested
  | jointKey => exact .untested

/-- A request that fails leaves the trust as it is. -/
theorem Step.eq_of_error {request : Request} {test : Option SelfTest} {refusal : Refusal}
    (step : Step R C t request test (.error refusal) C' t') : C' = C := by
  have hgroup : ∀ {version r}, GroupStep R C version t test r C' t' →
      r = .error refusal → C' = C := by
    intro version r step hr
    cases step with
    | passed untrusted known outcome => cases hr
    | _ => rfl
  generalize hr : Except.error refusal = r at step
  cases step with
  | group step => exact hgroup step (map_eq_error_iff.1 hr.symm)
  | election terms step => exact hgroup step (map_eq_error_iff.1 (map_eq_error_iff.1 hr.symm))
  | _ => rfl

/-! ### Runs -/

/-- One request of a run: what it was, where the tape stood, the self-test that was made for it, and
the answer. -/
structure Moment where
  request : Request
  tape : Tape
  test : Option SelfTest
  answer : Except Refusal Answer

/-- Whether a version passed its self-test at a moment. -/
def Moment.passes (v : ℤ × ℤ) (m : Moment) : Bool :=
  m.test.any fun s ↦ s.passed && s.version == v

/-- The requests that a setup has answered, the last one first, with the groups that it trusts since
then and the tape as it stands. A setup begins with no trust. -/
inductive Run (R : Registry) : List Moment → Trust → Tape → Prop
  | start (t : Tape) : Run R [] {} t
  | next {past : List Moment} {C C' : Trust} {t t' : Tape} {request : Request}
      {test : Option SelfTest} {r : Except Refusal Answer} (run : Run R past C t)
      (step : Step R C t request test r C' t') : Run R (⟨request, t, test, r⟩ :: past) C' t'

/-- The trust rests on the requests that were answered: every trusted group is the one that the
registry makes for its version and has passed its self-test, and a version has passed once if it has
a trusted group and never otherwise. -/
structure Founded (R : Registry) (past : List Moment) (C : Trust) : Prop where
  known : ∀ x ∈ C.groups, R.get? [x.1.1, x.1.2] = some (x.1, .ok x.2)
  tested : ∀ x ∈ C.groups, ∃ m ∈ past, m.test = some ⟨x.1, x.2, true⟩ ∧
    ∃ t', x.2.check m.tape = some (.ok (), t')
  once : ∀ v, past.countP (Moment.passes v) = if (C.groups.lookup v).isSome then 1 else 0

theorem Founded.step {past : List Moment} {request : Request} {test : Option SelfTest}
    {r : Except Refusal Answer} (h : Founded R past C) (step : Step R C t request test r C' t') :
    Founded R (⟨request, t, test, r⟩ :: past) C' := by
  cases step.changes with
  | kept hnone =>
    refine ⟨h.known, fun x hx ↦ ?_, fun v ↦ ?_⟩
    · obtain ⟨m, hm, htest⟩ := h.tested x hx
      exact ⟨m, List.mem_cons_of_mem _ hm, htest⟩
    · have hno : ¬ Moment.passes v ⟨request, t, test, r⟩ = true := by
        rw [Moment.passes, Option.any_eq_true]
        rintro ⟨s, hs, hpassed⟩
        simp [hnone s hs] at hpassed
      rw [List.countP_cons_of_neg hno, h.once]
  | @added v G _ hnew known outcome =>
    have hmem : ∀ x ∈ (C.add v G).groups, x = (v, G) ∨ x ∈ C.groups :=
      fun x ↦ Association.mem_put
    refine ⟨fun x hx ↦ ?_, fun x hx ↦ ?_, fun w ↦ ?_⟩
    · rcases hmem x hx with rfl | hx
      · exact known
      · exact h.known x hx
    · rcases hmem x hx with rfl | hx
      · exact ⟨_, List.mem_cons_self, rfl, _, outcome⟩
      · obtain ⟨m, hm, htest⟩ := h.tested x hx
        exact ⟨m, List.mem_cons_of_mem _ hm, htest⟩
    · rw [add, Association.lookup_put, List.countP_cons, h.once]
      by_cases hw : w = v
      · subst hw
        simp [Moment.passes, hnew]
      · rw [if_neg (c := (w == v) = true) (by simpa using hw)]
        simp [Moment.passes, Ne.symm hw]

theorem Run.founded {past : List Moment} (run : Run R past C t) : Founded R past C := by
  induction run with
  | start t =>
    exact ⟨fun x hx ↦ absurd hx List.not_mem_nil, fun x hx ↦ absurd hx List.not_mem_nil,
      fun v ↦ rfl⟩
  | next run step ih => exact ih.step step

/-! ### What a trusting setup gives -/

/-- A trusted group is given as it is, without a look at the tape. -/
theorem group_of_trusted {G : SchnorrGroup} (found : C.get? version = some G) :
    C.group R version t = some ((.ok G, C), t) :=
  group_eq_some_iff.2 ⟨none, .trusted found⟩

/-- What becomes of a request for a group that is not trusted is for its self-test to say, with the
tape as it stands. -/
theorem group_of_untrusted {v : ℤ × ℤ} {G : SchnorrGroup} {r : Except Refusal SchnorrGroup}
    (untrusted : C.get? version = none) (known : R.get? version = some (v, .ok G)) :
    C.group R version t = some ((r, C'), t') ↔
      (∃ e, G.check t = some (.error e, t') ∧ r = .error (.error e) ∧ C' = C) ∨
      (G.check t = some (.ok (), t') ∧ r = .ok G ∧ C' = C.add v G) := by
  rw [group_eq_some_iff]
  constructor
  · rintro ⟨test, step⟩
    cases step with
    | trusted found => simp [untrusted] at found
    | unknown _ unknown => simp [known] at unknown
    | unmade _ known' => simp [known] at known'
    | failed _ known' outcome =>
      cases known.symm.trans known'
      exact .inl ⟨_, outcome, rfl, rfl⟩
    | passed _ known' outcome =>
      cases known.symm.trans known'
      exact .inr ⟨outcome, rfl, rfl⟩
  · rintro (⟨e, outcome, rfl, rfl⟩ | ⟨outcome, rfl, rfl⟩)
    · exact ⟨_, .failed untrusted known outcome⟩
    · exact ⟨_, .passed untrusted known outcome⟩

/-- A group that is given is trusted from then on. -/
theorem get?_of_group {G : SchnorrGroup} (h : C.group R version t = some ((.ok G, C'), t')) :
    C'.get? version = some G := by
  obtain ⟨test, step⟩ := group_eq_some_iff.1 h
  cases step with
  | trusted found => exact found
  | @passed v _ _ untrusted known outcome =>
    rw [get?_eq_lookup known, add, Association.lookup_put, if_pos (beq_self_eq_true v)]

theorem election_of_unsound {n k : ℤ} (date info : String)
    (unsound : ¬ (1 ≤ k ∧ k ≤ n ∧ n ≤ maxGuardian)) :
    ∃ refusal, C.election R n k date info version t = some ((.error refusal, C), t) := by
  cases terms : soundTerms n k date info with
  | error refusal => exact ⟨refusal, election_eq_some_iff.2 (.inl ⟨_, terms, rfl, rfl, rfl⟩)⟩
  | ok T => exact absurd (soundTerms_eq_ok_iff.1 terms).1 unsound

theorem Founded.accepted {past : List Moment} {G : SchnorrGroup} (h : Founded R past C)
    (found : C.get? version = some G) : G.Accepted := by
  rw [get?.eq_def] at found
  split at found
  · next a b =>
    obtain ⟨l₁, l₂, hl, -⟩ := List.lookup_eq_some_iff.1 found
    obtain ⟨m, -, -, t', hcheck⟩ := h.tested ((a, b), G) (by simp [hl])
    exact ⟨_, _, hcheck⟩
  · cases found

/-- **Trust is founded, over whole runs.** After every run of requests, whatever they were and
whichever of them failed:

* each trusted group is the one that the registry makes for its version, and a self-test of it came
  to a good end at a moment of the run, with the tape as it stood then;
* no version has passed its self-test more than once;
* a trusted group is given again without a self-test, and one that is not trusted yet is given if
  and only if it passes the self-test that is then made, so one that failed is tested anew;
* a request that is refused leaves the trust as it was;
* unsound terms are refused without a look at the trusted groups and at the tape, and the elections
  that are given have the terms that were asked for, sound ones, over a group that is trusted. -/
theorem Run.trust_founded {past : List Moment} (run : Run R past C t) :
    (∀ x ∈ C.groups, R.get? [x.1.1, x.1.2] = some (x.1, .ok x.2) ∧
      ∃ m ∈ past, m.test = some ⟨x.1, x.2, true⟩ ∧ ∃ t', x.2.check m.tape = some (.ok (), t')) ∧
    (∀ v, past.countP (Moment.passes v) ≤ 1) ∧
    (∀ version G, C.get? version = some G → C.group R version t = some ((.ok G, C), t)) ∧
    (∀ version v G, C.get? version = none → R.get? version = some (v, .ok G) →
      ∀ r C' t', C.group R version t = some ((r, C'), t') ↔
        (∃ e, G.check t = some (.error e, t') ∧ r = .error (.error e) ∧ C' = C) ∨
        (G.check t = some (.ok (), t') ∧ r = .ok G ∧ C' = C.add v G)) ∧
    (∀ version G C' t', C.group R version t = some ((.ok G, C'), t') →
      C'.get? version = some G ∧ G.Accepted) ∧
    (∀ request refusal C' t',
      Request.answer R C request t = some ((.error refusal, C'), t') → C' = C) ∧
    (∀ (n k : ℤ) date info version, ¬ (1 ≤ k ∧ k ≤ n ∧ n ≤ maxGuardian) →
      ∃ refusal, C.election R n k date info version t = some ((.error refusal, C), t)) ∧
    ∀ (n k : ℤ) date info version E C' t',
      C.election R n k date info version t = some ((.ok E, C'), t') →
        E.terms = ⟨n, k, date, info⟩ ∧ (1 ≤ k ∧ k ≤ n ∧ n ≤ maxGuardian) ∧
          C'.get? version = some E.group ∧ E.group.Accepted := by
  have founded := run.founded
  have given : ∀ version G C' t', C.group R version t = some ((.ok G, C'), t') →
      C'.get? version = some G ∧ G.Accepted := by
    intro version G C' t' h
    obtain ⟨test, step⟩ := group_eq_some_iff.1 h
    exact ⟨get?_of_group h, (founded.step (.group step)).accepted (get?_of_group h)⟩
  refine ⟨fun x hx ↦ ⟨founded.known x hx, founded.tested x hx⟩, fun v ↦ ?_,
    fun version G ↦ group_of_trusted, fun version v G untrusted known r C' t' ↦
      group_of_untrusted untrusted known, given, ?_, fun n k date info version ↦
        election_of_unsound date info, ?_⟩
  · rw [founded.once]
    split <;> omega
  · intro request refusal C' t' h
    obtain ⟨test, step⟩ := answer_eq_some_iff.1 h
    exact step.eq_of_error
  · intro n k date info version E C' t' h
    obtain ⟨_, -, hr, -⟩ | ⟨T, outcome, terms, hgroup, hr⟩ := election_eq_some_iff.1 h
    · cases hr
    · obtain ⟨G, rfl, rfl⟩ := map_eq_ok_iff.1 hr.symm
      obtain ⟨hsound, rfl⟩ := soundTerms_eq_ok_iff.1 terms
      exact ⟨rfl, hsound, given version G C' t' hgroup⟩

/-- Two versions, of which the second stands for a group that never passes its self-test. -/
def oneSoundVersion : Registry :=
  ⟨[((1, 0), .ok .squaresMod7), ((2, 0), .ok { SchnorrGroup.squaresMod7 with p := 0 })]⟩

/-- Unsound terms, a version that fails, one that is not known, and one that passes and is then
given again. -/
theorem trust_founded_five_requests :
    ∃ past C t, Run oneSoundVersion past C t ∧ past.length = 5 ∧
      (∀ v, past.countP (Moment.passes v) ≤ 1) ∧
        C.group oneSoundVersion [1, 0] t = some ((.ok .squaresMod7, C), t) ∧
          ∃ refusal, C.election oneSoundVersion 1 2 "" "" [1, 0] t =
            some ((.error refusal, C), t) := by
  obtain ⟨t, t', hpass⟩ := SchnorrGroup.squaresMod7_accepted
  have hfail : SchnorrGroup.check { SchnorrGroup.squaresMod7 with p := 0 } t =
      some (.error (SchnorrGroup.Flaw.toError .pNotPrime), t) := rfl
  obtain ⟨refusal, hterms⟩ : ∃ refusal, soundTerms 1 2 "" "" = .error refusal := ⟨_, rfl⟩
  have unsound₁ : Step oneSoundVersion {} t (.election 1 2 "" "" [1, 0]) _ _ _ _ := .unsound hterms
  have failed₂ : Step oneSoundVersion {} t (.group [2, 0]) _ _ _ _ :=
    .group (.failed rfl rfl hfail)
  have unknown₃ : Step oneSoundVersion {} t (.group [3]) _ _ _ _ := .group (.unknown rfl rfl)
  have passed₄ : Step oneSoundVersion {} t (.group [1, 0]) _ _ _ _ :=
    .group (.passed rfl rfl hpass)
  have trusted₅ : Step oneSoundVersion ⟨[((1, 0), .squaresMod7)]⟩ t' (.group [1, 0]) _ _ _ _ :=
    .group (.trusted rfl)
  have run := ((((Run.start t).next unsound₁).next failed₂).next unknown₃).next passed₄ |>.next
    trusted₅
  obtain ⟨-, once, again, -, -, -, unsound, -⟩ := run.trust_founded
  exact ⟨_, _, _, run, rfl, once, again [1, 0] _ rfl, unsound 1 2 "" "" [1, 0] (by decide)⟩

end Trust

end ElectionKeys
