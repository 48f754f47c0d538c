import Mathlib
import ElectionKeys.Proofs.Group.Element

/-!
# The elements are the powers of the generator

Membership is a test of one power: `x ^ q` is 1 modulo `p`. With `p` and `q` prime, an accepted
group passes exactly the `q` powers of its generator by this test, each of which has one exponent
below `q` (`elements_eq_powers`).

Two facts carry this, and they rest on different primes.

* The generator has order exactly `q`, since `q` is prime and `g` is not 1
  (`isPrimitiveRoot_g`).
* There is no other element, since modulo the prime `p` the polynomial `X ^ q - 1` has at most `q`
  roots. This is `IsPrimitiveRoot.eq_pow_of_pow_eq_one`.

That `p - 1` is no element is the one place where the upper bound of the generator counts: for
`q = 2` it would be the only element beside 1.
-/

namespace ElectionKeys.SchnorrGroup

variable {G : SchnorrGroup}

/-! ### Remainders -/

/-- An element is a number below `p` that is a root of `X ^ q - 1` modulo `p`. -/
theorem isElement_natCast_iff (h1 : 1 < G.p) (c : ℕ) :
    G.isElement c = true ↔ c < G.p ∧ (c : ZMod G.p) ^ G.q = 1 := by
  have hone : (1 : ZMod G.p) = (1 : ℕ) := Nat.cast_one.symm
  rw [isElement_natCast, hone, ← Nat.cast_pow, ZMod.natCast_eq_natCast_iff', Nat.mod_eq_of_lt h1]

/-- Numbers below `p` are equal when their remainders modulo `p` are. -/
theorem eq_of_natCast_eq {c d : ℕ} (hc : c < G.p) (hd : d < G.p)
    (h : (c : ZMod G.p) = (d : ZMod G.p)) : c = d := by
  rwa [ZMod.natCast_eq_natCast_iff', Nat.mod_eq_of_lt hc, Nat.mod_eq_of_lt hd] at h

/-- A power that is reduced is the power modulo `p`. -/
theorem natCast_pow_mod (a : ℕ) : ((G.g ^ a % G.p : ℕ) : ZMod G.p) = (G.g : ZMod G.p) ^ a := by
  rw [ZMod.natCast_mod, Nat.cast_pow]

namespace HasGenerator

variable (h : G.HasGenerator)
include h

/-- The range of the generator excludes 1. -/
theorem g_ne_one : (G.g : ZMod G.p) ≠ 1 := by
  intro hg
  have h2 := h.two_le_g
  have hp := h.g_add_two_le
  have hone := eq_of_natCast_eq (by omega) h.one_lt_p (hg.trans Nat.cast_one.symm)
  omega

/-- It excludes `p - 1` as well, so the generator is no square root of 1. -/
theorem g_ne_neg_one : (G.g : ZMod G.p) ≠ -1 := by
  intro hg
  have hp := h.g_add_two_le
  have hsum : ((G.g + 1 : ℕ) : ZMod G.p) = (0 : ℕ) := by
    rw [Nat.cast_add, hg, Nat.cast_one, Nat.cast_zero, neg_add_cancel]
  have hzero := eq_of_natCast_eq (by omega) (by omega) hsum
  omega

theorem g_pow_q_eq_one : (G.g : ZMod G.p) ^ G.q = 1 := by
  rw [← natCast_pow_mod, h.g_pow_q, Nat.cast_one]

/-- **The generator has order exactly `q`.** -/
theorem isPrimitiveRoot_g (hq : G.q.Prime) : IsPrimitiveRoot (G.g : ZMod G.p) G.q := by
  have : Fact G.q.Prime := ⟨hq⟩
  have horder : orderOf (G.g : ZMod G.p) = G.q := orderOf_eq_prime h.g_pow_q_eq_one h.g_ne_one
  have := IsPrimitiveRoot.orderOf (G.g : ZMod G.p)
  rwa [horder] at this

/-! ### Powers of the generator -/

/-- An exponent below `q` is determined by the power. -/
theorem pow_injOn (hq : G.q.Prime) :
    Set.InjOn (fun a : ℕ ↦ ((G.g ^ a % G.p : ℕ) : ℤ)) {a | a < G.q} := by
  intro a ha b hb hab
  refine (h.isPrimitiveRoot_g hq).pow_inj ha hb ?_
  rw [← natCast_pow_mod, ← natCast_pow_mod, Int.ofNat_inj.1 hab]

/-- **There is no other element than the powers of the generator.** -/
theorem exists_pow_of_isElement (hp : G.p.Prime) (hq : G.q.Prime) {c : ℕ}
    (hc : G.isElement c = true) : ∃ a < G.q, c = G.g ^ a % G.p := by
  have : Fact G.p.Prime := ⟨hp⟩
  have : NeZero G.q := ⟨hq.ne_zero⟩
  obtain ⟨hlt, hpow⟩ := (isElement_natCast_iff h.one_lt_p c).1 hc
  obtain ⟨a, ha, hroot⟩ := (h.isPrimitiveRoot_g hq).eq_pow_of_pow_eq_one hpow
  refine ⟨a, ha, eq_of_natCast_eq hlt (Nat.mod_lt _ hp.pos) ?_⟩
  rw [natCast_pow_mod, hroot]

/-- **The elements are the powers of the generator**, each with an exponent below the order. -/
theorem isElement_iff_exists_pow (hp : G.p.Prime) (hq : G.q.Prime) (x : ℤ) :
    G.isElement x = true ↔ ∃ a < G.q, x = (G.g ^ a % G.p : ℕ) := by
  constructor
  · intro hx
    obtain ⟨c, rfl, -⟩ := (isElement_iff x).1 hx
    obtain ⟨a, ha, hc⟩ := h.exists_pow_of_isElement hp hq hx
    exact ⟨a, ha, by rw [← hc]⟩
  · rintro ⟨a, -, rfl⟩
    exact h.isElement_pow a

/-- There are as many elements as the order says. -/
theorem ncard_elements (hp : G.p.Prime) (hq : G.q.Prime) :
    {x : ℤ | G.isElement x = true}.ncard = G.q := by
  have himage : {x : ℤ | G.isElement x = true} =
      (fun a : ℕ ↦ ((G.g ^ a % G.p : ℕ) : ℤ)) '' {a | a < G.q} := by
    ext x
    rw [Set.mem_ofPred_eq, h.isElement_iff_exists_pow hp hq]
    constructor
    · rintro ⟨a, ha, rfl⟩
      exact ⟨a, ha, rfl⟩
    · rintro ⟨a, ha, rfl⟩
      exact ⟨a, ha, rfl⟩
  have hrange : {a : ℕ | a < G.q} = ↑(Finset.range G.q) := by
    ext a
    simp
  rw [himage, (h.pow_injOn hq).ncard_image, hrange, Set.ncard_coe_finset,
    Finset.card_range]

/-! ### Inverses, and what is no element -/

/-- The power to the remaining exponent is the inverse. -/
theorem exists_inverse {x : ℤ} (hx : G.isElement x = true) (hq : 0 < G.q) :
    ∃ y : ℤ, G.isElement y = true ∧ x * y % G.p = 1 := by
  obtain ⟨c, rfl, hc⟩ := (isElement_iff x).1 hx
  have hone := pow_modEq_one h.one_lt_p hx
  have hinv : c * (c ^ (G.q - 1) % G.p) % G.p = 1 := by
    rw [Nat.mul_mod_mod, ← pow_succ', Nat.sub_add_cancel hq, hc.2]
  refine ⟨(c ^ (G.q - 1) % G.p : ℕ), isElement_mod h.one_lt_p ?_, by exact_mod_cast hinv⟩
  have := hone.pow (G.q - 1)
  rwa [one_pow, ← pow_mul, mul_comm, pow_mul] at this

/-- `p - 1` is -1, whose power to an odd `q` is not 1; and an accepted group has no even `q`. -/
theorem not_isElement_pred (hp : G.p.Prime) (hq : G.q.Prime) :
    ¬ G.isElement ((G.p : ℤ) - 1) = true := by
  have : Fact G.p.Prime := ⟨hp⟩
  have h2 := h.two_le_g
  have hgp := h.g_add_two_le
  have hcast : (G.p : ℤ) - 1 = ((G.p - 1 : ℕ) : ℤ) := by omega
  have hneg : ((G.p - 1 : ℕ) : ZMod G.p) = -1 := by
    rw [Nat.cast_sub (by omega), ZMod.natCast_self, Nat.cast_one, zero_sub]
  rw [hcast, isElement_natCast_iff h.one_lt_p, hneg]
  rintro ⟨-, hpow⟩
  rcases hq.eq_two_or_odd' with htwo | hodd
  · have hg := h.g_pow_q_eq_one
    rw [htwo, sq, mul_self_eq_one_iff] at hg
    exact hg.elim h.g_ne_one h.g_ne_neg_one
  · rw [hodd.neg_one_pow] at hpow
    have hsum : ((1 + 1 : ℕ) : ZMod G.p) = (0 : ℕ) := by
      rw [Nat.cast_add, Nat.cast_one, Nat.cast_zero]
      nth_rewrite 1 [← hpow]
      rw [neg_add_cancel]
    have hzero := eq_of_natCast_eq (by omega) (by omega) hsum
    omega

end HasGenerator

/-- Zero is no element, since no power of it is 1. -/
theorem not_isElement_zero (hq : 0 < G.q) : ¬ G.isElement 0 = true := by
  intro h
  obtain ⟨-, hpow⟩ := (isElement_natCast 0).1 h
  rw [zero_pow (by omega), Nat.zero_mod] at hpow
  exact absurd hpow (by decide)

theorem not_isElement_of_outside {x : ℤ} (hx : x < 0 ∨ (G.p : ℤ) ≤ x) : ¬ G.isElement x = true := by
  intro h
  obtain ⟨c, rfl, hc, -⟩ := (isElement_iff x).1 h
  omega

/-- **A validated group is exactly the cyclic group that its generator generates.** With `p` and `q`
prime, an integer is an element exactly when it is the power of the generator to an exponent below
`q`, of which there is only one. So there are `q` elements, closed under products and inverses
modulo `p`; 1 is one of them, and neither 0 nor `p - 1` nor any integer outside `[0, p)` is. -/
theorem elements_eq_powers (G : SchnorrGroup) (hG : G.Accepted) (hp : G.p.Prime)
    (hq : G.q.Prime) :
    (∀ x : ℤ, G.isElement x = true ↔ ∃ a < G.q, x = (G.g ^ a % G.p : ℕ)) ∧
      (∀ a < G.q, ∀ b < G.q, G.g ^ a % G.p = G.g ^ b % G.p → a = b) ∧
        {x : ℤ | G.isElement x = true}.ncard = G.q ∧
          (∀ x y : ℤ, G.isElement x = true → G.isElement y = true →
            G.isElement (x * y % G.p) = true) ∧
            (∀ x : ℤ, G.isElement x = true →
              ∃ y : ℤ, G.isElement y = true ∧ x * y % G.p = 1) ∧
              G.isElement 1 = true ∧ ¬ G.isElement 0 = true ∧
                ¬ G.isElement ((G.p : ℤ) - 1) = true ∧
                  ∀ x : ℤ, x < 0 ∨ (G.p : ℤ) ≤ x → ¬ G.isElement x = true := by
  have h := hG.hasGenerator
  refine ⟨h.isElement_iff_exists_pow hp hq, ?_, h.ncard_elements hp hq, ?_,
    fun x hx ↦ h.exists_inverse hx hq.pos, isElement_one h.one_lt_p,
    not_isElement_zero hq.pos, h.not_isElement_pred hp hq, fun x ↦ not_isElement_of_outside⟩
  · intro a ha b hb hab
    exact h.pow_injOn hq ha hb (congrArg _ hab)
  · intro x y hx hy
    obtain ⟨c, rfl, -⟩ := (isElement_iff x).1 hx
    obtain ⟨d, rfl, -⟩ := (isElement_iff y).1 hy
    exact_mod_cast isElement_mul_mod h.one_lt_p hx hy

/-- Modulo 7 the elements are the three powers of 2. -/
theorem elements_eq_powers_squaresMod7 :
    squaresMod7.Accepted ∧ squaresMod7.p.Prime ∧ squaresMod7.q.Prime ∧
      {x : ℤ | squaresMod7.isElement x = true}.ncard = 3 ∧
        ¬ squaresMod7.isElement 6 = true := by
  have hp : squaresMod7.p.Prime := by norm_num [squaresMod7]
  have hq : squaresMod7.q.Prime := by norm_num [squaresMod7]
  obtain ⟨-, -, hcard, -, -, -, -, hpred, -⟩ :=
    elements_eq_powers squaresMod7 squaresMod7_accepted hp hq
  exact ⟨squaresMod7_accepted, hp, hq, hcard, hpred⟩

end ElectionKeys.SchnorrGroup
