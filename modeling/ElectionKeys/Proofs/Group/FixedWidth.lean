import Mathlib
import ElectionKeys.Arithmetic.Lemmas
import ElectionKeys.Bytes.Lemmas
import ElectionKeys.Group.Element
import ElectionKeys.Text.Lemmas

/-!
# Forms of a fixed length

A number can be written on a given number of bytes in one way at most, and a byte string of that
length denotes one number. So writing and reading are one relation between numbers and byte strings,
seen from its two sides (`Bytes.encode_eq_ok_iff`, `Bytes.decode_eq_ok_iff`). The writer alone has
an exception: it has no form of length zero for any number, not even for 0, which is what the empty
byte string denotes.

A group narrows the relation to the numbers below `p`. Its width is never zero when there is such a
number (`SchnorrGroup.one_le_width`), so the exception is out of reach there. It leaves byte
strings of the right length that denote `p` or more, and these are refused.

Byte strings of one length are compared like the numbers that they denote, because all that follows
a byte is less than one unit of it (`Bytes.toNat_lt_toNat_iff`).
-/

namespace ElectionKeys

namespace Bytes

variable {bytes : Bytes} {x length : ℤ} {n : ℕ}

/-! ### Numbers on a given length -/

/-- Bytes are the digits of a number in base 256, from the leading one on. -/
theorem toNat_eq_ofDigits (bytes : Bytes) :
    bytes.toNat = Nat.ofDigits 256 (bytes.map UInt8.toNat).reverse := by
  rw [toNat, Positional.read_eq, Positional.value_eq_ofDigits]

/-- So many bytes hold the numbers of eight times as many bits. -/
theorem bitLength_le_mul_eight_iff {k : ℕ} : bitLength n ≤ 8 * k ↔ n < 256 ^ k := by
  rw [bitLength_le_iff, pow_mul]
  norm_num

/-- **Decoding succeeds exactly for bytes of the length asked for**, and gives their number. -/
theorem decode_eq_ok_iff :
    decode bytes length = .ok n ↔ (bytes.length : ℤ) = length ∧ bytes.toNat = n := by
  rw [decode]
  split
  · next h => simp [h]
  · next h => simp [h]

/-- The number has to fit, and the length to be one that a number can have. -/
theorem exists_encode_iff :
    (∃ bytes, encode x length = .ok bytes) ↔ 1 ≤ length ∧ 0 ≤ x ∧ x < 256 ^ length.toNat := by
  have hfits : ∀ {k : ℕ}, (k : ℤ) = length → 0 ≤ x →
      ((bitLength x.toNat : ℤ) ≤ 8 * length ↔ x < 256 ^ length.toNat) := by
    rintro k rfl h0
    obtain ⟨n, rfl⟩ := Int.eq_ofNat_of_zero_le h0
    rw [Int.toNat_natCast, Int.toNat_natCast]
    exact_mod_cast bitLength_le_mul_eight_iff
  rw [encode]
  split
  · next h =>
    obtain ⟨h0, h1, hbits⟩ := h
    have := (hfits (Int.toNat_of_nonneg (by omega)) h0).1 hbits
    simp [h0, h1, this]
  · next h =>
    refine iff_of_false (by simp) ?_
    rintro ⟨h1, h0, hlt⟩
    exact h ⟨h0, h1, (hfits (Int.toNat_of_nonneg (by omega)) h0).2 hlt⟩

/-- **What a number is written as is what is read as the number**, but for the length zero. -/
theorem encode_eq_ok_iff :
    encode x length = .ok bytes ↔ 1 ≤ length ∧ (bytes.length : ℤ) = length ∧ x = bytes.toNat := by
  constructor
  · intro h
    obtain ⟨h1, h0, hlt⟩ := exists_encode_iff.1 ⟨bytes, h⟩
    obtain ⟨n, rfl⟩ := Int.eq_ofNat_of_zero_le h0
    have hn : n < 256 ^ length.toNat := by exact_mod_cast hlt
    rw [encode] at h
    split at h
    · cases h
      rw [length_ofNat, toNat_ofNat, Int.toNat_natCast, Nat.mod_eq_of_lt hn]
      exact ⟨h1, Int.toNat_of_nonneg (by omega), rfl⟩
    · cases h
  · rintro ⟨h1, rfl, rfl⟩
    have hbits := bitLength_le_mul_eight_iff.2 bytes.toNat_lt
    rw [encode, if_pos ⟨by omega, h1, by rw [Int.toNat_natCast]; omega⟩, Int.toNat_natCast,
      Int.toNat_natCast, ofNat_toNat]

/-! ### Order -/

/-- The leading byte counts for as much as all bytes behind it can hold. -/
theorem toNat_cons (b : UInt8) (bytes : Bytes) :
    toNat (b :: bytes) = b.toNat * 256 ^ bytes.length + toNat bytes := by
  have hsingle : toNat [b] = b.toNat := by simpa using toNat_append_singleton [] b
  rw [← List.singleton_append, toNat_append, hsingle]

/-- Multiples of a unit with less than a unit on top are compared by the multiple first. -/
theorem mul_add_lt_mul_add_iff {a b u r s : ℕ} (hr : r < u) (hs : s < u) :
    a * u + r < b * u + s ↔ a < b ∨ a = b ∧ r < s := by
  rcases Nat.lt_trichotomy a b with hlt | rfl | hgt
  · have : (a + 1) * u ≤ b * u := Nat.mul_le_mul_right u hlt
    rw [Nat.succ_mul] at this
    exact iff_of_true (by omega) (.inl hlt)
  · simp
  · have : (b + 1) * u ≤ a * u := Nat.mul_le_mul_right u hgt
    rw [Nat.succ_mul] at this
    exact iff_of_false (by omega) (by omega)

/-- **Byte strings of one length sort as the numbers that they denote.** -/
theorem toNat_lt_toNat_iff {bytes other : Bytes} (h : bytes.length = other.length) :
    bytes.toNat < other.toNat ↔ List.Lex (· < ·) bytes other := by
  induction bytes generalizing other with
  | nil =>
    rw [List.eq_nil_of_length_eq_zero h.symm]
    simp
  | cons b bytes ih =>
    rcases other with _ | ⟨c, other⟩
    · cases h
    have hrest : bytes.length = other.length := Nat.succ.inj h
    have hlt : toNat bytes < 256 ^ other.length := hrest ▸ toNat_lt bytes
    rw [toNat_cons, toNat_cons, hrest, mul_add_lt_mul_add_iff hlt (toNat_lt other),
      List.cons_lex_cons_iff, ih hrest, UInt8.lt_iff_toNat_lt, UInt8.toNat_inj]

end Bytes

namespace SchnorrGroup

variable {G : SchnorrGroup} {bytes : Bytes} {x : ℤ} {n : ℕ}

/-! ### Numbers below `p` -/

/-- The bytes of `p` are enough for every number up to it. -/
theorem lt_pow_width (G : SchnorrGroup) : G.p < 256 ^ G.width := by
  refine Bytes.bitLength_le_mul_eight_iff.1 ?_
  rw [width, byteCount]
  omega

theorem one_le_width (hp : 0 < G.p) : 1 ≤ G.width := by
  have h := G.lt_pow_width
  rcases Nat.eq_zero_or_pos G.width with h0 | h0
  · rw [h0, pow_zero] at h
    omega
  · exact h0

theorem decode_eq_ok_iff :
    G.decode bytes = .ok n ↔ bytes.length = G.width ∧ bytes.toNat = n ∧ n < G.p := by
  rw [decode]
  rcases h : Bytes.decode bytes G.width with fault | m
  · refine iff_of_false (by simp) ?_
    rintro ⟨hlength, hn, -⟩
    rw [Bytes.decode_eq_ok_iff.2 ⟨by rw [hlength], hn⟩] at h
    cases h
  · obtain ⟨hlength, rfl⟩ := Bytes.decode_eq_ok_iff.1 h
    rw [Nat.cast_inj] at hlength
    show (if _ then _ else _) = _ ↔ _
    split
    · next hlt =>
      rw [Except.ok.injEq, and_iff_right hlength]
      exact ⟨fun h ↦ ⟨h, h ▸ hlt⟩, fun h ↦ h.1⟩
    · next hlt =>
      refine iff_of_false (by simp) ?_
      rintro ⟨-, rfl, hn⟩
      exact hlt hn

theorem encode_eq_ok_iff :
    G.encode x = .ok bytes ↔ bytes.length = G.width ∧ x = bytes.toNat ∧ x < G.p := by
  rw [encode]
  split
  · next h =>
    have hwidth : (1 : ℤ) ≤ G.width := by exact_mod_cast one_le_width (G := G) (by omega)
    rw [mapError_eq_ok_iff, Bytes.encode_eq_ok_iff, and_iff_right hwidth, Nat.cast_inj,
      and_iff_left h.2]
  · next h =>
    refine iff_of_false (by simp) ?_
    rintro ⟨-, rfl, hlt⟩
    exact h ⟨by omega, hlt⟩

/-- The form of a number below `p` is what is read as the number. -/
theorem encode_eq_ok_iff_decode :
    G.encode x = .ok bytes ↔ ∃ n : ℕ, x = n ∧ G.decode bytes = .ok n := by
  simp only [encode_eq_ok_iff, decode_eq_ok_iff]
  constructor
  · rintro ⟨hlength, rfl, hlt⟩
    exact ⟨_, rfl, hlength, rfl, by exact_mod_cast hlt⟩
  · rintro ⟨_, rfl, hlength, rfl, hlt⟩
    exact ⟨hlength, rfl, by exact_mod_cast hlt⟩

/-- **A number below `p` has a form of exactly `width` bytes, and reads back from it.** -/
theorem decode_encode (h : n < G.p) :
    ∃ bytes, G.encode n = .ok bytes ∧ bytes.length = G.width ∧ G.decode bytes = .ok n := by
  have hvalue : Bytes.toNat (Bytes.ofNat G.width n) = n := by
    rw [Bytes.toNat_ofNat, Nat.mod_eq_of_lt (h.trans G.lt_pow_width)]
  have hread : G.decode (Bytes.ofNat G.width n) = .ok n :=
    decode_eq_ok_iff.2 ⟨Bytes.length_ofNat _ _, hvalue, h⟩
  exact ⟨_, encode_eq_ok_iff_decode.2 ⟨n, rfl, hread⟩, Bytes.length_ofNat _ _, hread⟩

theorem exists_encode_iff : (∃ bytes, G.encode x = .ok bytes) ↔ 0 ≤ x ∧ x < G.p := by
  constructor
  · rintro ⟨bytes, h⟩
    obtain ⟨-, rfl, hlt⟩ := encode_eq_ok_iff.1 h
    exact ⟨by omega, hlt⟩
  · rintro ⟨h0, hlt⟩
    obtain ⟨n, rfl⟩ := Int.eq_ofNat_of_zero_le h0
    obtain ⟨bytes, h, -⟩ := decode_encode (G := G) (n := n) (by exact_mod_cast hlt)
    exact ⟨bytes, h⟩

end SchnorrGroup

/-- **Forms of a fixed length are a bijection.** An integer has a form on a given length exactly
when it fits and the length is at least 1, and that form is what is read as the integer; a byte
string has the length that it is read with exactly when its value is read. So every byte string that
is not empty is the form of what is read from it.

In a group, whatever its `p` is, the integers with a form are those from 0 to below `p`, and the
byte strings with a number are those of `width` bytes whose value is below `p`. Writing and reading
are inverses between the two, and the numbers sort as their forms do, byte by byte from the
front. -/
theorem Bytes.fixed_length_bijective :
    (∀ x length : ℤ,
      (∃ bytes, encode x length = .ok bytes) ↔ 1 ≤ length ∧ 0 ≤ x ∧ x < 256 ^ length.toNat) ∧
    (∀ (x length : ℤ) (bytes : Bytes), encode x length = .ok bytes ↔
      1 ≤ length ∧ (bytes.length : ℤ) = length ∧
        ∃ n : ℕ, x = n ∧ decode bytes length = .ok n) ∧
    (∀ (bytes : Bytes) (length : ℤ) (n : ℕ), decode bytes length = .ok n ↔
      (bytes.length : ℤ) = length ∧ n = Nat.ofDigits 256 (bytes.map UInt8.toNat).reverse) ∧
    (∀ (bytes : Bytes) (length : ℤ), 1 ≤ length ∧ (bytes.length : ℤ) = length ↔
      ∃ n : ℕ, decode bytes length = .ok n ∧ encode n length = .ok bytes) ∧
    ∀ G : SchnorrGroup,
      (∀ x : ℤ, (∃ bytes, G.encode x = .ok bytes) ↔ 0 ≤ x ∧ x < G.p) ∧
      (∀ bytes : Bytes, (∃ n, G.decode bytes = .ok n) ↔
        bytes.length = G.width ∧ Nat.ofDigits 256 (bytes.map UInt8.toNat).reverse < G.p) ∧
      (∀ (x : ℤ) (bytes : Bytes),
        G.encode x = .ok bytes ↔ ∃ n : ℕ, x = n ∧ G.decode bytes = .ok n) ∧
      ∀ (x y : ℤ) (bytes other : Bytes), G.encode x = .ok bytes → G.encode y = .ok other →
        (x < y ↔ List.Lex (· < ·) bytes other) := by
  refine ⟨fun x length ↦ exists_encode_iff, fun x length bytes ↦ ?_, fun bytes length n ↦ ?_,
    fun bytes length ↦ ?_, fun G ↦ ⟨fun x ↦ SchnorrGroup.exists_encode_iff, fun bytes ↦ ?_,
      fun x bytes ↦ SchnorrGroup.encode_eq_ok_iff_decode, fun x y bytes other hx hy ↦ ?_⟩⟩
  · simp only [encode_eq_ok_iff, decode_eq_ok_iff]
    constructor
    · rintro ⟨h1, hlength, rfl⟩
      exact ⟨h1, hlength, _, rfl, hlength, rfl⟩
    · rintro ⟨h1, hlength, _, rfl, -, rfl⟩
      exact ⟨h1, hlength, rfl⟩
  · rw [decode_eq_ok_iff, toNat_eq_ofDigits, eq_comm (a := n)]
  · simp [encode_eq_ok_iff, decode_eq_ok_iff]
  · rw [← toNat_eq_ofDigits]
    simp [SchnorrGroup.decode_eq_ok_iff]
  · obtain ⟨hbytes, rfl, -⟩ := SchnorrGroup.encode_eq_ok_iff.1 hx
    obtain ⟨hother, rfl, -⟩ := SchnorrGroup.encode_eq_ok_iff.1 hy
    rw [Nat.cast_lt]
    exact toNat_lt_toNat_iff (hbytes.trans hother.symm)

/-- A modulus that needs a second byte only for 256. -/
def SchnorrGroup.modulo257 : SchnorrGroup where
  shape := { qBits := 2, pBits := 9, topOnes := 1, middle := .ln2, bottomOnes := 1 }
  p := 257
  q := 2
  r := 128
  g := 256

/-- Where the first byte changes, the forms of neighbours are in order; the forms of 257 and of -1
are missing. -/
theorem Bytes.fixed_length_bijective_modulo257 :
    SchnorrGroup.modulo257.encode 255 = .ok [0, 255] ∧
      SchnorrGroup.modulo257.encode 256 = .ok [1, 0] ∧
      List.Lex (· < ·) ([0, 255] : Bytes) [1, 0] ∧
      (¬ ∃ bytes, SchnorrGroup.modulo257.encode 257 = .ok bytes) ∧
      (¬ ∃ bytes, SchnorrGroup.modulo257.encode (-1) = .ok bytes) ∧
      ¬ ∃ n, SchnorrGroup.modulo257.decode [1, 1] = .ok n := by
  obtain ⟨-, -, -, -, hgroup⟩ := fixed_length_bijective
  obtain ⟨hencode, hdecode, -, horder⟩ := hgroup .modulo257
  have hlow : SchnorrGroup.modulo257.encode 255 = .ok [0, 255] := by rfl
  have hhigh : SchnorrGroup.modulo257.encode 256 = .ok [1, 0] := by rfl
  refine ⟨hlow, hhigh, (horder _ _ _ _ hlow hhigh).1 (by decide), ?_, ?_, ?_⟩
  · rw [hencode]
    decide
  · rw [hencode]
    decide
  · rw [hdecode]
    decide

end ElectionKeys
