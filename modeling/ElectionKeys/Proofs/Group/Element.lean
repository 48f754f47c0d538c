import Mathlib
import ElectionKeys.Arithmetic.Lemmas
import ElectionKeys.Group.Element
import ElectionKeys.Proofs.Group.Accepted

/-!
# Elements of a group

An element is a natural number below `p` whose power to `q` is 1 modulo `p` (`isElement_iff`). The
elements are closed under the products that keys and joint keys are made of
(`isElement_prod_mod`) and hold the powers of the generator (`HasGenerator.isElement_pow`). All of
this is arithmetic modulo `p` and asks for no prime: what is needed of `p` is only that it is
greater than 1, so that 1 is a remainder.

That elements are closed under products is all that the combination of public keys needs of the
group, and the fixed-width form of what comes out needs only that it is below `p`. The test itself
is a comparison and one modular power. It may be asked of any integer, and no negative one is an
element.
-/

namespace ElectionKeys

namespace SchnorrGroup

variable {G : SchnorrGroup}

/-! ### Membership -/

/-- For a number that is not negative the test is about powers of it. -/
theorem isElement_natCast (c : ℕ) :
    G.isElement c = true ↔ c < G.p ∧ c ^ G.q % G.p = 1 := by
  simp [isElement, isElementBy, apply_ite Id.run, powMod_eq]

/-- Only natural numbers are elements. -/
theorem isElement_iff (x : ℤ) :
    G.isElement x = true ↔ ∃ c : ℕ, x = c ∧ c < G.p ∧ c ^ G.q % G.p = 1 := by
  constructor
  · intro h
    have hx : 0 ≤ x := by
      by_contra hneg
      rw [isElement, isElementBy, if_neg fun hx ↦ hneg hx.1] at h
      cases h
    obtain ⟨c, rfl⟩ := Int.eq_ofNat_of_zero_le hx
    exact ⟨c, rfl, (isElement_natCast c).1 h⟩
  · rintro ⟨c, rfl, hc⟩
    exact (isElement_natCast c).2 hc

/-- What the test says of an element, as a congruence. -/
theorem pow_modEq_one {c : ℕ} (h1 : 1 < G.p) (h : G.isElement c = true) :
    c ^ G.q ≡ 1 [MOD G.p] := by
  rw [Nat.ModEq, ((isElement_natCast c).1 h).2, Nat.mod_eq_of_lt h1]

/-- The remainder of a number is an element if the power of the number is 1. -/
theorem isElement_mod {x : ℕ} (h1 : 1 < G.p) (h : x ^ G.q ≡ 1 [MOD G.p]) :
    G.isElement (x % G.p : ℕ) = true := by
  refine (isElement_natCast _).2 ⟨Nat.mod_lt _ (by omega), ?_⟩
  rw [← Nat.pow_mod, h, Nat.mod_eq_of_lt h1]

/-! ### Products and powers -/

theorem isElement_one (h1 : 1 < G.p) : G.isElement (1 : ℕ) = true :=
  (isElement_natCast 1).2 ⟨h1, by rw [one_pow, Nat.mod_eq_of_lt h1]⟩

/-- Products of elements are elements, once they are reduced. -/
theorem isElement_mul_mod {c d : ℕ} (h1 : 1 < G.p) (hc : G.isElement c = true)
    (hd : G.isElement d = true) : G.isElement (c * d % G.p : ℕ) = true := by
  refine isElement_mod h1 ?_
  have := (pow_modEq_one h1 hc).mul (pow_modEq_one h1 hd)
  rwa [mul_one, ← mul_pow] at this

/-- **Products of elements are elements**, reduced once at the end. -/
theorem isElement_prod_mod {cs : List ℕ} (h1 : 1 < G.p)
    (h : ∀ c ∈ cs, G.isElement c = true) : G.isElement (cs.prod % G.p : ℕ) = true := by
  refine isElement_mod h1 ?_
  induction cs with
  | nil => rw [List.prod_nil, one_pow]
  | cons c cs ih =>
    obtain ⟨hc, hcs⟩ := List.forall_mem_cons.1 h
    have := (pow_modEq_one h1 hc).mul (ih hcs)
    rwa [mul_one, ← mul_pow, ← List.prod_cons] at this

/-- **Powers of the generator are elements.** -/
theorem HasGenerator.isElement_pow (h : G.HasGenerator) (a : ℕ) :
    G.isElement (G.g ^ a % G.p : ℕ) = true := by
  refine isElement_mod h.one_lt_p ?_
  have hg : G.g ^ G.q ≡ 1 [MOD G.p] := by
    rw [Nat.ModEq, h.g_pow_q, Nat.mod_eq_of_lt h.one_lt_p]
  have := hg.pow a
  rwa [one_pow, ← pow_mul, mul_comm, pow_mul] at this

/-- The product of powers of the generator is the power to the sum. -/
theorem prod_map_pow_mod (g p : ℕ) (as : List ℕ) :
    (as.map fun a ↦ g ^ a % p).prod % p = g ^ as.sum % p := by
  induction as with
  | nil => rfl
  | cons a as ih =>
    rw [List.map_cons, List.prod_cons, List.sum_cons, pow_add, Nat.mod_mul_mod, Nat.mul_mod, ih,
      ← Nat.mul_mod]

end SchnorrGroup

end ElectionKeys
