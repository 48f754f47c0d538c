import Mathlib
import ElectionKeys.Arithmetic.Lemmas
import ElectionKeys.Group.SelfTest

/-!
# Groups that pass their self-test

A group is accepted if its self-test comes to a good end on some tape (`SchnorrGroup.Accepted`).
Which tape that was does not matter here: what the proofs about keys take from the self-test are the
tests that draw nothing, in the form of `firstFlaw_eq_none_iff`.

Most of them need only the part that speaks of the generator. `HasGenerator` is that part, and
`Accepted.hasGenerator` is the only way in which it is ever obtained. Neither `p` nor `q` is known
to be prime by it: the self-test lets a composite number pass on some tapes.

The test that the generator is not 1 has no part in either. It stands among the tests, but the range
of the generator has been tested before, so it never finds anything and says nothing new of a group
that passes (`firstFlaw_eq_none_iff`).

`squaresMod7` is an accepted group that is small enough to be tested by evaluation. It is what the
examples and instances of the later modules are built on.
-/

namespace ElectionKeys

/-! ### Draws that come to an end -/

namespace Draw

variable {α β : Type} {t t' : Tape}

theorem pure_eq_some_iff {a b : α} :
    (pure a : Draw α) t = some (b, t') ↔ a = b ∧ t = t' := by
  show some (a, t) = some (b, t') ↔ _
  rw [Option.some.injEq, Prod.mk.injEq]

/-- A sequence of two draws ends if the first does and the second does on what the first leaves. -/
theorem bind_eq_some_iff {x : Draw α} {f : α → Draw β} {b : β} :
    (x >>= f) t = some (b, t') ↔ ∃ a s, x t = some (a, s) ∧ f a s = some (b, t') := by
  show (x t).bind (fun y ↦ f y.1 y.2) = some (b, t') ↔ _
  rw [Option.bind_eq_some_iff]
  constructor
  · rintro ⟨⟨a, s⟩, hx, hf⟩
    exact ⟨a, s, hx, hf⟩
  · rintro ⟨a, s, hx, hf⟩
    exact ⟨(a, s), hx, hf⟩

end Draw

/-- A row of tests finds nothing if its first test does not and the others do not. -/
theorem ite_some_eq_none_iff {α : Type} {c : Prop} [Decidable c] {a : α} {rest : Option α} :
    (if c then some a else rest) = none ↔ ¬ c ∧ rest = none := by
  split
  · next h => simp [h]
  · next h => simp [h]

namespace SchnorrGroup

variable {G : SchnorrGroup}

/-! ### The tests that draw nothing -/

/-- A group passes the tests that draw nothing exactly if it meets what they ask for. That the
generator is not 1 follows from its range. -/
theorem firstFlaw_eq_none_iff :
    G.firstFlaw = none ↔
      (bitLength G.p : ℤ) = G.shape.pBits ∧ (bitLength G.q : ℤ) = G.shape.qBits ∧
        (G.shape.topOnes ≤ G.shape.pBits ∧ G.shape.bottomOnes ≤ G.shape.pBits) ∧
          G.hasFixedBits = true ∧ (2 ≤ G.g ∧ G.g + 2 ≤ G.p) ∧
            G.g ^ G.q % G.p = 1 ∧ G.q * G.r + 1 = G.p := by
  have hone : 2 ≤ G.g ∧ G.g + 2 ≤ G.p → G.g ≠ 1 := by omega
  rw [firstFlaw, firstFlawBy, hasFixedBitsBy_total]
  simp only [Operations.total_powMod, pure_bind, apply_ite Id.run, Id.run_pure, powMod_eq,
    ite_some_eq_none_iff, not_not, not_or, not_lt, and_true]
  constructor
  · intro h
    obtain ⟨hp, hq, hle, hbits, hrange, horder, -, hrelation⟩ := h
    exact ⟨hp, hq, hle, hbits, hrange, horder, hrelation⟩
  · intro h
    obtain ⟨hp, hq, hle, hbits, hrange, horder, hrelation⟩ := h
    exact ⟨hp, hq, hle, hbits, hrange, horder, hone hrange, hrelation⟩

/-! ### Acceptance -/

/-- The group passes its self-test with what some tape holds. -/
def Accepted (G : SchnorrGroup) : Prop := ∃ t t', G.check t = some (.ok (), t')

/-- A group that passes on some tape has no flaw that could be found without drawing. -/
theorem firstFlaw_eq_none_of_check {t t' : Tape} (h : G.check t = some (.ok (), t')) :
    G.firstFlaw = none := by
  obtain ⟨flaw, s, hself, hrest⟩ := Draw.bind_eq_some_iff.1 h
  cases flaw with
  | some f => cases (Draw.pure_eq_some_iff.1 hrest).1
  | none =>
    obtain ⟨b, s₁, -, hp⟩ := Draw.bind_eq_some_iff.1 hself
    cases b with
    | false => cases (Draw.pure_eq_some_iff.1 hp).1
    | true =>
      obtain ⟨b, s₂, -, hq⟩ := Draw.bind_eq_some_iff.1 hp
      cases b with
      | false => cases (Draw.pure_eq_some_iff.1 hq).1
      | true => exact (Draw.pure_eq_some_iff.1 hq).1

/-- What the self-test says about the generator. -/
structure HasGenerator (G : SchnorrGroup) : Prop where
  two_le_g : 2 ≤ G.g
  g_add_two_le : G.g + 2 ≤ G.p
  g_pow_q : G.g ^ G.q % G.p = 1

/-- What acceptance says of the generator, without primality. -/
theorem Accepted.hasGenerator (h : G.Accepted) : G.HasGenerator := by
  obtain ⟨t, t', h⟩ := h
  obtain ⟨-, -, -, -, ⟨hg, hgp⟩, horder, -⟩ :=
    firstFlaw_eq_none_iff.1 (firstFlaw_eq_none_of_check h)
  exact ⟨hg, hgp, horder⟩

namespace HasGenerator

/-- There are numbers modulo `p` besides 0, since the generator lies among them. -/
theorem one_lt_p (h : G.HasGenerator) : 1 < G.p := by
  have := h.two_le_g
  have := h.g_add_two_le
  omega

/-- Exponents of the generator count only modulo `q`. -/
theorem g_pow_mod (h : G.HasGenerator) (a : ℕ) : G.g ^ (a % G.q) % G.p = G.g ^ a % G.p := by
  have hone : G.g ^ G.q ≡ 1 [MOD G.p] := by
    rw [Nat.ModEq, h.g_pow_q, Nat.mod_eq_of_lt h.one_lt_p]
  have hpow : G.g ^ (G.q * (a / G.q)) ≡ 1 [MOD G.p] := by
    have := hone.pow (a / G.q)
    rwa [← pow_mul, one_pow] at this
  calc G.g ^ (a % G.q) % G.p
      = 1 * G.g ^ (a % G.q) % G.p := by rw [one_mul]
    _ = G.g ^ (G.q * (a / G.q)) * G.g ^ (a % G.q) % G.p := (hpow.symm.mul_right _)
    _ = G.g ^ a % G.p := by rw [← pow_add, Nat.div_add_mod]

end HasGenerator

/-! ### A group to compute with -/

/-- Acceptance can be decided by running the self-test. -/
theorem accepted_of_isOk {t : Tape} (h : (G.check t).any (fun x ↦ x.1.isOk) = true) :
    G.Accepted := by
  obtain ⟨⟨r, t'⟩, hcheck, hok⟩ := (Option.any_eq_true _ _).1 h
  cases r with
  | error e => cases hok
  | ok u => exact ⟨t, t', hcheck⟩

/-- The squares modulo 7: a group of order 3, generated by 2. -/
def squaresMod7 : SchnorrGroup where
  shape := { qBits := 2, pBits := 3, topOnes := 1, middle := .ln2, bottomOnes := 1 }
  p := 7
  q := 3
  r := 2
  g := 2

theorem squaresMod7_accepted : squaresMod7.Accepted :=
  accepted_of_isOk (t := { byte := fun _ ↦ 0, place := 0, patience := 1 }) (by decide +kernel)

end SchnorrGroup

end ElectionKeys
