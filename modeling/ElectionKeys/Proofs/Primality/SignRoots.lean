import Mathlib

/-!
# Units with a power that is 1 or -1

For odd `n` the units modulo `n` whose power to `m` is 1 or -1 are a subgroup, `signRoots n m`. For
composite `n` it is small, if `m` is an exponent for which -1 is a power and for which `2 * m`
divides `n - 1`. There are two cases.

* **`n` has the square of a prime `p` as a factor.** Some unit has the order `p`, and `p` does not
  divide `n - 1`. So the units with the power 1 to `n - 1` are at most one in `p`
  (`mul_card_ker_le`); and of the numbers below `n` those that `p` divides are no units either
  (`totient_mul_le`).
* **`n` is a product of different primes.** Then there are powers to `m` that are 1 modulo some of
  the primes and -1 modulo the others (`exists_mixed`). With three factors there are two of them
  that differ by more than their signs. With two primes there is one, and some power to `m` has a
  square other than 1, since `q - 1` divides `p * q - 1` for no greater prime `q`. In both cases
  the subgroup is at most half of another one, and that at most half of all units
  (`four_mul_card_signRoots_le`).
-/

namespace ElectionKeys.Primality

/-! ### Subgroups -/

/-- A proper subgroup has at most half of the elements. -/
theorem two_mul_card_le {U : Type} [Group U] [Finite U] {H K : Subgroup U} (hle : H ≤ K) {x : U}
    (hK : x ∈ K) (hH : x ∉ H) : 2 * Nat.card H ≤ Nat.card K := by
  obtain ⟨c, hc⟩ := Subgroup.card_dvd_of_le hle
  have hpos : 0 < Nat.card K := Nat.card_pos
  have h0 : c ≠ 0 := by
    rintro rfl
    omega
  have h1 : c ≠ 1 := by
    rintro rfl
    have heq := Subgroup.eq_of_le_of_card_ge hle (by omega)
    exact hH (heq ▸ hK)
  rw [hc, mul_comm]
  exact Nat.mul_le_mul_left _ (by omega)

/-- An element with the square 1 generates a subgroup of no more than two elements. -/
theorem mem_zpowers_iff_of_mul_self {U : Type} [Group U] {x y : U} (hx : x * x = 1) :
    y ∈ Subgroup.zpowers x ↔ y = 1 ∨ y = x := by
  constructor
  · rw [Subgroup.mem_zpowers_iff]
    rintro ⟨i, rfl⟩
    obtain ⟨j, rfl | rfl⟩ := Int.even_or_odd' i
    · left
      rw [zpow_mul, zpow_ofNat, sq, hx, one_zpow]
    · right
      rw [zpow_add, zpow_mul, zpow_ofNat, sq, hx, one_zpow, one_mul, zpow_one]
  · rintro (rfl | rfl)
    · exact one_mem _
    · exact Subgroup.mem_zpowers _

/-- The units whose power is 1 or -1. -/
def signRoots (n m : ℕ) : Subgroup (ZMod n)ˣ :=
  (Subgroup.zpowers (-1)).comap (powMonoidHom m)

variable {n m : ℕ}

theorem mem_signRoots {u : (ZMod n)ˣ} : u ∈ signRoots n m ↔ u ^ m = 1 ∨ u ^ m = -1 := by
  rw [signRoots, Subgroup.mem_comap, powMonoidHom_apply,
    mem_zpowers_iff_of_mul_self (by rw [neg_mul_neg, one_mul])]

theorem mul_self_of_mem_signRoots {u : (ZMod n)ˣ} (hu : u ∈ signRoots n m) : u ^ m * u ^ m = 1 := by
  rcases mem_signRoots.1 hu with h | h
  · rw [h, one_mul]
  · rw [h, neg_mul_neg, one_mul]

/-- **Two powers that differ by more than their signs leave at most a quarter of the units.** -/
theorem four_mul_card_signRoots_le [NeZero n] {x y : (ZMod n)ˣ} (hsq : x ^ m * x ^ m = 1)
    (hx : x ∉ signRoots n m) (hy : y ∉ signRoots n m) (hpos : y ^ m ≠ x ^ m)
    (hneg : y ^ m ≠ -x ^ m) : 4 * Nat.card (signRoots n m) ≤ n.totient := by
  -- Between them and all units are those whose power is up to its sign 1 or that of `x`.
  let K := (Subgroup.zpowers (-1) ⊔ Subgroup.zpowers (x ^ m)).comap (powMonoidHom m)
  have hle : signRoots n m ≤ K := Subgroup.comap_mono le_sup_left
  have hxK : x ∈ K := Subgroup.mem_sup_right (Subgroup.mem_zpowers _)
  have hyK : y ∉ K := by
    intro hmem
    obtain ⟨e, he, v, hv, hev⟩ := Subgroup.mem_sup.1 (Subgroup.mem_comap.1 hmem)
    rw [mem_zpowers_iff_of_mul_self (by rw [neg_mul_neg, one_mul])] at he
    rw [mem_zpowers_iff_of_mul_self hsq] at hv
    rw [powMonoidHom_apply] at hev
    rw [mem_signRoots, not_or] at hy
    obtain rfl | rfl := he
    · obtain rfl | rfl := hv
      · exact hy.1 (by rw [← hev, one_mul])
      · exact hpos (by rw [← hev, one_mul])
    · obtain rfl | rfl := hv
      · exact hy.2 (by rw [← hev, mul_one])
      · exact hneg (by rw [← hev, neg_one_mul])
  calc 4 * Nat.card (signRoots n m) = 2 * (2 * Nat.card (signRoots n m)) := by ring
    _ ≤ 2 * Nat.card K := Nat.mul_le_mul_left 2 (two_mul_card_le hle hxK hx)
    _ ≤ Nat.card (⊤ : Subgroup (ZMod n)ˣ) := two_mul_card_le le_top (Subgroup.mem_top y) hyK
    _ = n.totient := by
      rw [Subgroup.card_top, Nat.card_eq_fintype_card, ZMod.card_units_eq_totient]

/-! ### The square of a prime as a factor -/

section Square

variable {p : ℕ} (hp : p.Prime)
include hp

/-- Of the numbers below a multiple of a prime, those that it divides are not coprime to it. -/
theorem totient_mul_le (k : ℕ) : (p * k).totient ≤ (p - 1) * k := by
  induction k using Nat.strongRecOn with
  | ind k ih =>
    by_cases hk : p ∣ k
    · obtain ⟨j, rfl⟩ := hk
      rw [Nat.totient_mul_of_prime_of_dvd hp (dvd_mul_right p j)]
      rcases Nat.eq_zero_or_pos j with rfl | hj
      · simp
      · have hlt : j < p * j := lt_mul_of_one_lt_left hj hp.one_lt
        calc p * (p * j).totient ≤ p * ((p - 1) * j) := Nat.mul_le_mul_left p (ih j hlt)
          _ = (p - 1) * (p * j) := by ring
    · rw [Nat.totient_mul_of_prime_of_not_dvd hp hk]
      exact Nat.mul_le_mul_left _ (Nat.totient_le k)

omit hp in
theorem one_add_pow_of_mul_self {R : Type} [CommRing R] {a : R} (ha : a * a = 0) (j : ℕ) :
    (1 + a) ^ j = 1 + j * a := by
  induction j with
  | zero => rw [pow_zero, Nat.cast_zero, zero_mul, add_zero]
  | succ j ih =>
    rw [pow_succ, ih, Nat.cast_succ]
    linear_combination (j : R) * ha

/-- **If the square of a prime divides a modulus, some unit has the prime as its order**: it is one
more than the modulus divided by the prime. -/
theorem exists_orderOf_eq {j : ℕ} (hj : 0 < j) :
    ∃ v : (ZMod (p * (p * j)))ˣ, orderOf v = p := by
  have : Fact p.Prime := ⟨hp⟩
  have hsquare : ((p * j : ℕ) : ZMod (p * (p * j))) * (p * j : ℕ) = 0 := by
    rw [← Nat.cast_mul, ZMod.natCast_eq_zero_iff]
    exact ⟨j, by ring⟩
  have hpow := one_add_pow_of_mul_self hsquare p
  rw [← Nat.cast_mul, ZMod.natCast_self, add_zero] at hpow
  refine ⟨Units.ofPowEqOne _ p hpow hp.ne_zero, orderOf_eq_prime (Units.ext hpow) fun hone ↦ ?_⟩
  have hval := congrArg Units.val hone
  rw [Units.val_ofPowEqOne, Units.val_one, add_eq_left, ZMod.natCast_eq_zero_iff] at hval
  have hle := Nat.le_of_dvd (Nat.mul_pos hp.pos hj) hval
  have hlt : p * j < p * (p * j) := lt_mul_of_one_lt_left (Nat.mul_pos hp.pos hj) hp.one_lt
  omega

omit hp in
/-- A unit whose order is prime to an exponent takes no part in the units with the power 1. -/
theorem mul_card_ker_le [NeZero n] {v : (ZMod n)ˣ} (hv : orderOf v = p) (hcop : p.Coprime m) :
    p * Nat.card (powMonoidHom m : (ZMod n)ˣ →* (ZMod n)ˣ).ker ≤ n.totient := by
  let H := (powMonoidHom m : (ZMod n)ˣ →* (ZMod n)ˣ).ker
  have horder : orderOf (v ^ m) = p := by rw [Nat.Coprime.orderOf_pow (hv.symm ▸ hcop), hv]
  have hdvd : p ∣ H.index := by
    rw [Subgroup.index_ker, ← horder]
    exact Subgroup.orderOf_dvd_natCard _ ⟨v, rfl⟩
  have hle := Nat.le_of_dvd (Nat.pos_of_ne_zero Subgroup.index_ne_zero_of_finite) hdvd
  calc p * Nat.card H ≤ H.index * Nat.card H := Nat.mul_le_mul_right _ hle
    _ = n.totient := by
      rw [mul_comm, Subgroup.card_mul_index, Nat.card_eq_fintype_card, ZMod.card_units_eq_totient]

/-- **With the square of an odd prime as a factor of `n`, fewer than a quarter of all numbers below
`n` have the power 1 to `n - 1`.** -/
theorem four_mul_card_ker_lt (h2 : p ≠ 2) (hn : 0 < n) (hsq : p * p ∣ n) :
    4 * Nat.card (powMonoidHom (n - 1) : (ZMod n)ˣ →* (ZMod n)ˣ).ker < n := by
  have : NeZero n := ⟨hn.ne'⟩
  obtain ⟨j, hj⟩ := hsq
  rw [mul_assoc] at hj
  have hjpos : 0 < j := by
    rcases Nat.eq_zero_or_pos j with rfl | h
    · omega
    · exact h
  have hcop : p.Coprime (n - 1) := by
    rw [hp.coprime_iff_not_dvd]
    intro hdvd
    have hone := (Nat.dvd_sub_iff_right hn (Dvd.intro _ hj.symm)).1 hdvd
    exact hp.one_lt.ne' (Nat.dvd_one.1 hone)
  have hcard : p * Nat.card (powMonoidHom (n - 1) : (ZMod n)ˣ →* (ZMod n)ˣ).ker ≤
      p * ((p - 1) * j) := by
    have hv : ∃ v : (ZMod n)ˣ, orderOf v = p := by
      rw [hj]
      exact exists_orderOf_eq hp hjpos
    obtain ⟨v, hv⟩ := hv
    refine (mul_card_ker_le hv hcop).trans ?_
    rw [hj, Nat.totient_mul_of_prime_of_dvd hp (dvd_mul_right p j)]
    exact Nat.mul_le_mul_left p (totient_mul_le hp j)
  have hle := Nat.le_of_mul_le_mul_left hcard hp.pos
  have h3 : 3 ≤ p := by
    have := hp.two_le
    omega
  obtain ⟨q, rfl⟩ := Nat.exists_eq_add_of_le h3
  rw [show 3 + q - 1 = 2 + q by omega] at hle
  calc 4 * Nat.card (powMonoidHom (n - 1) : (ZMod n)ˣ →* (ZMod n)ˣ).ker
      ≤ 4 * ((2 + q) * j) := Nat.mul_le_mul_left 4 hle
    _ < (3 + q) * ((3 + q) * j) := by nlinarith [Nat.zero_le (q * j), Nat.zero_le (q * q * j)]
    _ = n := hj.symm

end Square

/-! ### Different primes -/

section Chinese

variable {n₁ n₂ : ℕ} (hn : n₁ * n₂ = n) (hcop : n₁.Coprime n₂) (h₁ : n₁ ∣ n) (h₂ : n₂ ∣ n)

theorem neg_one_ne_one_of_two_lt (h2 : 2 < n) : (-1 : (ZMod n)ˣ) ≠ 1 := by
  have : Fact (2 < n) := ⟨h2⟩
  exact fun h ↦ ZMod.neg_one_ne_one (congrArg Units.val h)

theorem unitsMap_neg (u : (ZMod n)ˣ) : ZMod.unitsMap h₁ (-u) = -ZMod.unitsMap h₁ u :=
  Units.ext (map_neg (ZMod.castHom h₁ (ZMod n₁)) u.val)

/-- What is -1 modulo a factor differs from what is 1. -/
theorem ne_of_unitsMap (h2 : 2 < n₁) {u v : (ZMod n)ˣ} (hu : ZMod.unitsMap h₁ u = -1)
    (hv : ZMod.unitsMap h₁ v = 1) : u ≠ v := by
  rintro rfl
  exact neg_one_ne_one_of_two_lt h2 (hu.symm.trans hv)

include hn hcop

/-- **A unit modulo a product is a pair of units modulo its coprime factors.** -/
theorem bijective_unitsMap :
    Function.Bijective ((ZMod.unitsMap h₁).prod (ZMod.unitsMap h₂)) := by
  subst hn
  let e := ZMod.chineseRemainder hcop
  have hfst : ∀ z, ZMod.castHom h₁ (ZMod n₁) z = (e z).1 :=
    fun z ↦ DFunLike.congr_fun (RingHom.ext_zmod _ ((RingHom.fst _ _).comp e.toRingHom)) z
  have hsnd : ∀ z, ZMod.castHom h₂ (ZMod n₂) z = (e z).2 :=
    fun z ↦ DFunLike.congr_fun (RingHom.ext_zmod _ ((RingHom.snd _ _).comp e.toRingHom)) z
  have heq : ⇑((ZMod.unitsMap h₁).prod (ZMod.unitsMap h₂)) =
      (Units.mapEquiv e.toMulEquiv).trans MulEquiv.prodUnits := by
    funext x
    exact Prod.ext (Units.ext (hfst x)) (Units.ext (hsnd x))
  rw [heq]
  exact MulEquiv.bijective _

/-- **If -1 is a power, so is a number that is -1 modulo one factor and 1 modulo the other.** -/
theorem exists_mixed {a : (ZMod n)ˣ} (ha : a ^ m = -1) :
    ∃ x : (ZMod n)ˣ, ZMod.unitsMap h₁ (x ^ m) = -1 ∧ ZMod.unitsMap h₂ (x ^ m) = 1 ∧
      x ^ m * x ^ m = 1 := by
  obtain ⟨hinj, hsurj⟩ := bijective_unitsMap hn hcop h₁ h₂
  obtain ⟨x, hx⟩ := hsurj (ZMod.unitsMap h₁ a, 1)
  obtain ⟨hx₁, hx₂⟩ := Prod.mk.inj hx
  have hneg : ZMod.unitsMap h₁ (x ^ m) = -1 := by
    rw [map_pow, hx₁, ← map_pow, ha, unitsMap_neg, map_one]
  have hone : ZMod.unitsMap h₂ (x ^ m) = 1 := by rw [map_pow, hx₂, one_pow]
  refine ⟨x, hneg, hone, hinj ?_⟩
  rw [MonoidHom.prod_apply, map_mul, map_mul, hneg, hone, neg_mul_neg, one_mul, one_mul, map_one]
  rfl

end Chinese

/-- **Three factors.** -/
theorem four_mul_card_signRoots_le_of_three [NeZero n] {n₁ n₂ n₃ : ℕ} (hn : n₁ * (n₂ * n₃) = n)
    (h₁₂ : n₁.Coprime n₂) (h₁₃ : n₁.Coprime n₃) (h₂₃ : n₂.Coprime n₃) (h₁ : 2 < n₁) (h₂ : 2 < n₂)
    (h₃ : 2 < n₃) {a : (ZMod n)ˣ} (ha : a ^ m = -1) :
    4 * Nat.card (signRoots n m) ≤ n.totient := by
  have hn' : n₂ * (n₁ * n₃) = n := by rw [← hn]; ring
  have hd₁ : n₁ ∣ n := Dvd.intro _ hn
  have hd₂ : n₂ ∣ n := Dvd.intro _ hn'
  have hd₂₃ : n₂ * n₃ ∣ n := Dvd.intro_left _ hn
  have hd₁₃ : n₁ * n₃ ∣ n := Dvd.intro_left _ hn'
  have hd₃ : n₃ ∣ n := (dvd_mul_left n₃ n₂).trans hd₂₃
  have hone : ∀ {k j : ℕ} (hkj : k ∣ j) (hj : j ∣ n) (hk : k ∣ n) {u : (ZMod n)ˣ},
      ZMod.unitsMap hj u = 1 → ZMod.unitsMap hk u = 1 := by
    intro k j hkj hj hk u hu
    rw [← ZMod.unitsMap_comp hkj hj, MonoidHom.comp_apply, hu, map_one]
  -- Modulo the three factors the powers are (-1, 1, 1) and (1, -1, 1).
  obtain ⟨x, hx₁, hx₂₃, hxx⟩ := exists_mixed hn (h₁₂.mul_right h₁₃) hd₁ hd₂₃ ha
  obtain ⟨y, hy₂, hy₁₃, -⟩ := exists_mixed hn' (h₁₂.symm.mul_right h₂₃) hd₂ hd₁₃ ha
  have hx₂ := hone (dvd_mul_right n₂ n₃) hd₂₃ hd₂ hx₂₃
  have hx₃ := hone (dvd_mul_left n₃ n₂) hd₂₃ hd₃ hx₂₃
  have hy₁ := hone (dvd_mul_right n₁ n₃) hd₁₃ hd₁ hy₁₃
  have hy₃ := hone (dvd_mul_left n₃ n₁) hd₁₃ hd₃ hy₁₃
  have hminus : ∀ {k : ℕ} (hk : k ∣ n), ZMod.unitsMap hk (-1) = -1 := by
    intro k hk
    rw [unitsMap_neg, map_one]
  refine four_mul_card_signRoots_le (y := y) hxx ?_ ?_ ?_ ?_
  · rw [mem_signRoots, not_or]
    exact ⟨ne_of_unitsMap hd₁ h₁ hx₁ (map_one _), (ne_of_unitsMap hd₂ h₂ (hminus hd₂) hx₂).symm⟩
  · rw [mem_signRoots, not_or]
    exact ⟨ne_of_unitsMap hd₂ h₂ hy₂ (map_one _), (ne_of_unitsMap hd₁ h₁ (hminus hd₁) hy₁).symm⟩
  · exact ne_of_unitsMap hd₂ h₂ hy₂ hx₂
  · exact (ne_of_unitsMap hd₃ h₃ (by rw [unitsMap_neg, hx₃]) hy₃).symm

/-- A generator modulo the greater of two primes has a power other than 1 to their product less
one. -/
theorem exists_pow_ne_one {p q : ℕ} (hn : p * q = n) (hp : p.Prime) (hq : q.Prime) (hpq : p < q) :
    ∃ y : (ZMod n)ˣ, y ^ (n - 1) ≠ 1 := by
  have : NeZero n := ⟨by rw [← hn]; exact (Nat.mul_pos hp.pos hq.pos).ne'⟩
  have : Fact q.Prime := ⟨hq⟩
  have : IsCyclic (ZMod q)ˣ := ZMod.isCyclic_units_prime hq
  obtain ⟨g, hg⟩ := IsCyclic.exists_ofOrder_eq_natCard (α := (ZMod q)ˣ)
  obtain ⟨y, rfl⟩ := ZMod.unitsMap_surjective (Dvd.intro_left p hn) g
  refine ⟨y, fun hy ↦ ?_⟩
  rw [Nat.card_eq_fintype_card, ZMod.card_units] at hg
  have hdvd : q - 1 ∣ n - 1 := by
    rw [← hg, orderOf_dvd_iff_pow_eq_one, ← map_pow, hy, map_one]
  have hp1 := hp.one_lt
  have hsum : n - 1 = p * (q - 1) + (p - 1) := by
    rw [← hn, Nat.mul_sub, mul_one]
    have := Nat.mul_le_mul_left p hq.one_lt.le
    omega
  rw [hsum, Nat.dvd_add_right (dvd_mul_left _ _)] at hdvd
  have := Nat.le_of_dvd (by omega) hdvd
  omega

/-- **Two primes.** -/
theorem four_mul_card_signRoots_le_of_two [NeZero n] {p q : ℕ} (hn : p * q = n) (hp : p.Prime)
    (hq : q.Prime) (hp2 : 2 < p) (hpq : p < q) (hdvd : 2 * m ∣ n - 1) {a : (ZMod n)ˣ}
    (ha : a ^ m = -1) : 4 * Nat.card (signRoots n m) ≤ n.totient := by
  have hcop : p.Coprime q := (Nat.coprime_primes hp hq).2 hpq.ne
  obtain ⟨x, hx₁, hx₂, hxx⟩ :=
    exists_mixed hn hcop (Dvd.intro _ hn) (Dvd.intro_left _ hn) ha
  obtain ⟨y, hy⟩ := exists_pow_ne_one hn hp hq hpq
  have hyy : y ^ m * y ^ m ≠ 1 := by
    intro h
    obtain ⟨c, hc⟩ := hdvd
    exact hy (by rw [hc, mul_comm 2, pow_mul, pow_mul, sq, h, one_pow])
  refine four_mul_card_signRoots_le hxx ?_ (fun h ↦ hyy (mul_self_of_mem_signRoots h)) ?_ ?_
  · rw [mem_signRoots, not_or]
    refine ⟨ne_of_unitsMap _ hp2 hx₁ (map_one _), (ne_of_unitsMap _ (hp2.trans hpq) ?_ hx₂).symm⟩
    rw [unitsMap_neg, map_one]
  · intro h
    exact hyy (by rw [h, hxx])
  · intro h
    exact hyy (by rw [h, neg_mul_neg, hxx])

/-- **A quarter of the units, for a composite product of different odd primes.** -/
theorem four_mul_card_signRoots_le_of_squarefree (hodd : n % 2 = 1) (h1 : 1 < n)
    (hcomposite : ¬ n.Prime) (hsq : Squarefree n) (hdvd : 2 * m ∣ n - 1) {a : (ZMod n)ˣ}
    (ha : a ^ m = -1) : 4 * Nat.card (signRoots n m) ≤ n.totient := by
  have : NeZero n := ⟨by omega⟩
  have hfactor : ∀ {k}, k ∣ n → k ≠ 1 → 2 < k := by
    intro k hk hk1
    have hkodd : k % 2 = 1 := Nat.odd_iff.1 ((Nat.odd_iff.2 hodd).of_dvd_nat hk)
    omega
  obtain ⟨k, hk⟩ := Nat.minFac_dvd n
  have hp := Nat.minFac_prime h1.ne'
  have hk1 : k ≠ 1 := by
    rintro rfl
    rw [mul_one] at hk
    exact hcomposite (hk ▸ hp)
  have hkn : k ∣ n := Dvd.intro_left _ hk.symm
  have hpn := Nat.minFac_dvd n
  obtain ⟨hpk, -, hksq⟩ := Nat.squarefree_mul_iff.1 (hk ▸ hsq)
  by_cases hkprime : k.Prime
  · have hle : n.minFac ≤ k := Nat.minFac_le_of_dvd hkprime.two_le hkn
    have hne : n.minFac ≠ k := (Nat.coprime_primes hp hkprime).1 hpk
    exact four_mul_card_signRoots_le_of_two hk.symm hp hkprime (hfactor hpn hp.ne_one)
      (Nat.lt_of_le_of_ne hle hne) hdvd ha
  · obtain ⟨l, hl⟩ := Nat.minFac_dvd k
    have hq := Nat.minFac_prime hk1
    have hl1 : l ≠ 1 := by
      rintro rfl
      rw [mul_one] at hl
      exact hkprime (hl ▸ hq)
    have hqk := Nat.minFac_dvd k
    have hlk : l ∣ k := Dvd.intro_left _ hl.symm
    obtain ⟨hql, -, -⟩ := Nat.squarefree_mul_iff.1 (hl ▸ hksq)
    exact four_mul_card_signRoots_le_of_three (by rw [← hl, ← hk]) (hpk.coprime_dvd_right hqk)
      (hpk.coprime_dvd_right hlk) hql (hfactor hpn hp.ne_one)
      (hfactor (hqk.trans hkn) hq.ne_one) (hfactor (hlk.trans hkn) hl1) ha

end ElectionKeys.Primality
