import Mathlib
import ElectionKeys.Text.Digits

/-!
# Digits as numbers

The last digit of a number in base `b` is its remainder, and the digits before it are those of the
quotient (`digits_eq`). `ofDigits?_digits` says that the reader undoes the printer. What the
readers of larger texts need to know of a written number is its characters
(`exists_of_mem_digits`), its first one (`head?_digits_ne`) and its length, from both sides
(`length_digits_le`, `lt_length_digits`).
-/

namespace ElectionKeys

/-! ### Positional notation -/

namespace Positional

theorem value_lastDigits (b count n : Nat) : value b (lastDigits b count n) = n % b ^ count := by
  induction count generalizing n with
  | zero => simp [lastDigits, Nat.mod_one]
  | succ k ih =>
    rw [lastDigits, value_append_singleton, ih, Nat.pow_succ, Nat.mul_comm (b ^ k) b, Nat.mod_mul,
      Nat.mul_comm b, Nat.add_comm]

theorem lt_of_mem_lastDigits {b count n d : Nat} (hb : 0 < b) (h : d ∈ lastDigits b count n) :
    d < b := by
  induction count generalizing n with
  | zero => simp [lastDigits] at h
  | succ k ih =>
    rcases List.mem_append.1 h with h | h
    · exact ih h
    · rw [List.mem_singleton.1 h]
      exact Nat.mod_lt _ hb

theorem value_dropWhile (b : Nat) (ds : List Nat) :
    value b (ds.dropWhile (· == 0)) = value b ds := by
  induction ds with
  | nil => rfl
  | cons d ds ih =>
    by_cases hd : d = 0
    · subst hd
      simpa [value] using ih
    · simp [hd]

/-- A number below `b ^ k` has the same digits however many more than `k` are asked for, but for
the zeros in front. -/
theorem dropWhile_lastDigits {b k : Nat} (n more : Nat) (h : n < b ^ k) :
    (lastDigits b (more + k) n).dropWhile (· == 0) =
      (lastDigits b k n).dropWhile (· == 0) := by
  have h0 : n / Nat.pow b k = 0 := Nat.div_eq_of_lt h
  have zeros : ∀ more, ∀ d ∈ lastDigits b more 0, (d == 0) = true := by
    intro more
    induction more with
    | zero => simp [lastDigits]
    | succ m ih =>
      intro d hd
      rw [lastDigits, Nat.zero_div, Nat.zero_mod] at hd
      rcases List.mem_append.1 hd with hd | hd
      · exact ih d hd
      · simp [List.mem_singleton.1 hd]
  rw [lastDigits_add, h0, List.dropWhile_append_of_pos (zeros more)]

/-- What digits denote is the sum of the digits with the powers of the base. -/
theorem value_eq_ofDigits (b : Nat) (ds : List Nat) : value b ds = Nat.ofDigits b ds.reverse := by
  induction ds using List.reverseRecOn with
  | nil => rfl
  | append_singleton ds d ih =>
    rw [value_append_singleton, ih, List.reverse_append, List.reverse_singleton,
      List.singleton_append, Nat.ofDigits_cons, Nat.mul_comm, Nat.add_comm]

end Positional

/-! ### Text -/

namespace Text

theorem lt_pow_enoughDigits {b : Nat} (hb : 2 ≤ b) (n : Nat) : n < b ^ enoughDigits b n := by
  have hl : 1 ≤ b.log2 := (Nat.le_log2 (by omega)).2 (by omega)
  have h1 : n < 2 ^ (n.log2 + 1) := Nat.lt_log2_self
  have h2 : n.log2 + 1 ≤ b.log2 * enoughDigits b n := by
    have := Nat.lt_mul_div_succ n.log2 hl
    exact this
  have h3 : 2 ^ b.log2 ≤ b := Nat.log2_self_le (by omega)
  calc n < 2 ^ (n.log2 + 1) := h1
    _ ≤ 2 ^ (b.log2 * enoughDigits b n) := Nat.pow_le_pow_right (by omega) h2
    _ = (2 ^ b.log2) ^ enoughDigits b n := Nat.pow_mul ..
    _ ≤ b ^ enoughDigits b n := Nat.pow_le_pow_left h3 _

/-- The digits of a number that is not zero, however many are worked out. -/
theorem digits_eq_map {b n k : Nat} (hb : 2 ≤ b) (hn : n ≠ 0) (hk : n < b ^ k) :
    digits b n = ((Positional.lastDigits b k n).dropWhile (· == 0)).map digitChar := by
  have same : ∀ j, n < b ^ j →
      (Positional.lastDigits b k n).dropWhile (· == 0) =
        (Positional.lastDigits b j n).dropWhile (· == 0) := by
    intro j hj
    rcases Nat.le_total k j with h | h
    · obtain ⟨more, rfl⟩ := Nat.exists_eq_add_of_le' h
      rw [Positional.dropWhile_lastDigits n more hk]
    · obtain ⟨more, rfl⟩ := Nat.exists_eq_add_of_le' h
      rw [Positional.dropWhile_lastDigits n more hj]
  rw [digits]
  split
  · next h =>
    have hlt : n < b := by omega
    rw [same 1 (by simpa using hlt)]
    simp [Positional.lastDigits, Nat.mod_eq_of_lt hlt, hn]
  · rw [Positional.write_eq, same _ (lt_pow_enoughDigits hb n)]

theorem dropWhile_lastDigits_ne_nil {b n k : Nat} (hn : n ≠ 0) (hk : n < b ^ k) :
    (Positional.lastDigits b k n).dropWhile (· == 0) ≠ [] := by
  intro h
  have hv := Positional.value_dropWhile b (Positional.lastDigits b k n)
  rw [h, Positional.value_nil, Positional.value_lastDigits, Nat.mod_eq_of_lt hk] at hv
  exact hn hv.symm

/-- The digits of a number are those of its quotient by the base, and then its remainder. -/
theorem digits_eq (b n : Nat) :
    digits b n =
      if b < 2 ∨ n < b then [digitChar n] else digits b (n / b) ++ [digitChar (n % b)] := by
  split
  · next h => rw [digits, if_pos h]
  · next h =>
    have hb : 2 ≤ b := by omega
    have hq : n / b ≠ 0 := (Nat.div_pos (by omega) (by omega)).ne'
    have hk := lt_pow_enoughDigits hb n
    have hqk : n / b < b ^ enoughDigits b n := Nat.lt_of_le_of_lt (Nat.div_le_self n b) hk
    have hk' : n < b ^ (enoughDigits b n + 1) :=
      Nat.lt_of_lt_of_le hk (Nat.pow_le_pow_right (by omega) (Nat.le_succ _))
    rw [digits_eq_map hb (by omega) hk', digits_eq_map hb hq hqk, Positional.lastDigits,
      List.dropWhile_append, List.isEmpty_eq_false_iff.2 (dropWhile_lastDigits_ne_nil hq hqk)]
    simp

/-- What stands behind a prefix is found behind it. -/
theorem isPrefixOf?_append (cs rest : List Char) : cs.isPrefixOf? (cs ++ rest) = some rest := by
  induction cs with
  | nil => simp [List.isPrefixOf?]
  | cons c cs ih => simp [List.isPrefixOf?, ih]

theorem digits_ne_nil (b n : Nat) : digits b n ≠ [] := by
  rw [digits_eq]
  split <;> simp

/-- The reader of digits undoes the writing of each of them. -/
theorem mapM_digitBelow?_map {b : Nat} (hb : b ≤ 16) (ds : List Nat) (h : ∀ d ∈ ds, d < b) :
    (ds.map digitChar).mapM (digitBelow? b) = some ds := by
  induction ds with
  | nil => rfl
  | cons d ds ih =>
    have hd : d < b := h d (by simp)
    have hc : digitBelow? b (digitChar d) = some d := by
      rw [digitBelow?, digitValue?_digitChar (by omega)]
      simp [hd]
    rw [List.map_cons, List.mapM_cons, hc, ih fun e he => h e (by simp [he])]
    rfl

theorem ofDigits?_digits {b : Nat} (hb : 2 ≤ b) (hb' : b ≤ 16) (n : Nat) :
    ofDigits? b (digits b n) = some n := by
  rw [ofDigits?.eq_2 b _ (digits_ne_nil b n)]
  by_cases hn : n < b
  · rw [digits, if_pos (Or.inr hn)]
    have h := mapM_digitBelow?_map hb' [n] (by simpa using hn)
    rw [List.map_singleton] at h
    rw [h, Option.map_some, Positional.read_eq]
    simp [Positional.value]
  · have hk := lt_pow_enoughDigits hb n
    have below : ∀ d ∈ (Positional.lastDigits b (enoughDigits b n) n).dropWhile (· == 0), d < b :=
      fun d hd => Positional.lt_of_mem_lastDigits (by omega) (List.dropWhile_subset _ hd)
    rw [digits_eq_map hb (by omega) hk, mapM_digitBelow?_map hb' _ below, Option.map_some,
      Positional.read_eq, Positional.value_dropWhile, Positional.value_lastDigits,
      Nat.mod_eq_of_lt hk]

theorem digitChar_ne_zero {d : Nat} (h : d < 16) (h0 : d ≠ 0) : digitChar d ≠ '0' := by
  intro hc
  have hd := digitValue?_digitChar h
  rw [hc] at hd
  exact h0 (Option.some.inj hd).symm

/-- What stands in a written number are digits of its base. -/
theorem exists_of_mem_digits {b n : Nat} (hb : 2 ≤ b) {c : Char} (h : c ∈ digits b n) :
    ∃ d, d < b ∧ c = digitChar d := by
  by_cases hn : n < b
  · rw [digits, if_pos (Or.inr hn), List.mem_singleton] at h
    exact ⟨n, hn, h⟩
  · rw [digits_eq_map hb (by omega) (lt_pow_enoughDigits hb n)] at h
    obtain ⟨d, hd, rfl⟩ := List.mem_map.1 h
    exact ⟨d, Positional.lt_of_mem_lastDigits (by omega) (List.dropWhile_subset _ hd), rfl⟩

/-- No written number but zero starts with a zero. -/
theorem head?_digits_ne {b n : Nat} (hb : 2 ≤ b) (hb' : b ≤ 16) (hn : n ≠ 0) :
    (digits b n).head? ≠ some '0' := by
  have hk := lt_pow_enoughDigits hb n
  rw [digits_eq_map hb hn hk, List.head?_map]
  intro h
  obtain ⟨d, hd, hc⟩ := Option.map_eq_some_iff.1 h
  have hmem := List.dropWhile_subset _ (List.mem_of_head? hd)
  have hlt := Positional.lt_of_mem_lastDigits (by omega) hmem
  have hnot := List.head?_dropWhile_not (· == 0) (Positional.lastDigits b (enoughDigits b n) n)
  rw [hd] at hnot
  exact digitChar_ne_zero (by omega) (by simpa using hnot) hc

/-- A number below a power of the base has no more digits than the exponent says, if that is at
least the one digit that every number has. -/
theorem length_digits_le {b n k : Nat} (hb : 2 ≤ b) (hk : 1 ≤ k) (h : n < b ^ k) :
    (digits b n).length ≤ k := by
  by_cases hn : n = 0
  · rw [digits, if_pos (Or.inr (by omega))]
    exact hk
  · rw [digits_eq_map hb hn h, List.length_map]
    exact Nat.le_trans (List.dropWhile_suffix _).length_le
      (Nat.le_of_eq (Positional.length_lastDigits b k n))

/-- A number that is not below a power of the base has more digits than the exponent says. -/
theorem lt_length_digits {b n k : Nat} (hb : 2 ≤ b) (h : b ^ k ≤ n) : k < (digits b n).length := by
  induction k generalizing n with
  | zero => exact List.length_pos_iff.2 (digits_ne_nil b n)
  | succ k ih =>
    have hbn : b ≤ n := Nat.le_trans (Nat.le_self_pow (Nat.succ_ne_zero k) b) h
    have hquotient : b ^ k ≤ n / b := (Nat.le_div_iff_mul_le (by omega)).2 h
    rw [digits_eq, if_neg (by omega), List.length_append, List.length_singleton]
    exact Nat.succ_lt_succ (ih hquotient)

end Text

end ElectionKeys
