import Mathlib
import ElectionKeys.Election.Basic
import ElectionKeys.Proofs.Group.Accepted

/-!
# Elections that are accepted

An election is accepted exactly when its group is and its terms are sound: there is a guardian,
someone has to come, and no more than there are (`Election.accepted_iff`). The terms are tested
after the group and draw nothing, so the tape matters only to the group.

That an election is accepted says that there is a tape on which it passes, not that it passes on
every tape. The difference is in the primality tests alone. What is proved about keys uses the rest:
the generator has the order `q` at most, and the two numbers of the terms are in their ranges.

`threeOverSquares` is the smallest election that is of use for examples: three guardians, of whom
two have to come, over the squares modulo 7. The group has three elements, so that keys can be
written down and every test evaluated.
-/

namespace ElectionKeys

/-- Terms are sound if someone has to come, and no more than there are. -/
theorem Terms.check_eq_ok_iff {T : Terms} :
    T.check = .ok () ↔ 1 ≤ T.guardians ∧ 1 ≤ T.quorum ∧ T.quorum ≤ T.guardians := by
  have h : T.check = .ok () ↔ T.firstFlaw = none := by
    rw [Terms.check]
    cases T.firstFlaw <;> simp
  simp only [h, Terms.firstFlaw, ite_some_eq_none_iff, not_lt, and_true]

/-- Unsound terms are refused for the first requirement that they fail. -/
theorem Terms.check_eq_error_iff {T : Terms} {e : Error} :
    T.check = .error e ↔ ∃ test, T.firstFlaw = some test ∧ flawError test = e := by
  rw [check]
  cases T.firstFlaw <;> simp

namespace Election

/-- The election passes its tests with what some tape holds. -/
def Accepted (E : Election) : Prop := ∃ t t', E.check t = some (.ok (), t')

/-- An election passes on a tape if its group does there. The terms draw nothing. -/
theorem check_eq_ok_iff {E : Election} {t t' : Tape} :
    E.check t = some (.ok (), t') ↔
      E.group.check t = some (.ok (), t') ∧ E.terms.check = .ok () := by
  rw [Election.check, Draw.bind_eq_some_iff]
  constructor
  · rintro ⟨r, s, hgroup, hrest⟩
    cases r with
    | error e => cases (Draw.pure_eq_some_iff.1 hrest).1
    | ok u =>
      obtain ⟨hterms, rfl⟩ := Draw.pure_eq_some_iff.1 hrest
      refine ⟨hgroup, ?_⟩
      cases hT : E.terms.check with
      | error e => rw [hT] at hterms; cases hterms
      | ok u => rfl
  · rintro ⟨hgroup, hterms⟩
    exact ⟨.ok (), t', hgroup, Draw.pure_eq_some_iff.2 ⟨by rw [hterms]; rfl, rfl⟩⟩

/-- An election is accepted if its group is and its terms are sound. -/
theorem accepted_iff {E : Election} :
    E.Accepted ↔ E.group.Accepted ∧
      1 ≤ E.terms.guardians ∧ 1 ≤ E.terms.quorum ∧ E.terms.quorum ≤ E.terms.guardians := by
  simp only [Accepted, SchnorrGroup.Accepted, check_eq_ok_iff, Terms.check_eq_ok_iff,
    exists_and_right]

/-- Three guardians, of whom two have to come, over the squares modulo 7. -/
def threeOverSquares : Election where
  group := .squaresMod7
  terms := { guardians := 3, quorum := 2, date := "", info := "" }

theorem threeOverSquares_accepted : threeOverSquares.Accepted :=
  accepted_iff.2 ⟨SchnorrGroup.squaresMod7_accepted, by decide, by decide, by decide⟩

end Election

end ElectionKeys
