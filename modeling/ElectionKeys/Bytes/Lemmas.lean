import Mathlib
import ElectionKeys.Bytes.BigEndian

/-!
# Byte strings as numbers

A number written on `length` bytes reads back as its remainder modulo `256 ^ length`, and a byte
string of that length denotes a number below it and is what that number is written as: so the byte
strings of a length and the numbers below `256 ^ length` are the same.
-/

namespace ElectionKeys.Bytes

/-- A number that is written in too few bytes loses its leading part. -/
theorem toNat_ofNat (length n : Nat) : toNat (ofNat length n) = n % 256 ^ length := by
  induction length generalizing n with
  | zero => simp [Nat.mod_one]
  | succ k ih =>
    rw [ofNat_succ, toNat_append_singleton, ih, Nat.pow_succ, Nat.mul_comm (256 ^ k) 256,
      Nat.mod_mul, UInt8.toNat_ofNat']
    omega

/-- The bytes behind give the leading ones their weight. -/
theorem toNat_append (high low : Bytes) :
    toNat (high ++ low) = toNat high * 256 ^ low.length + toNat low := by
  have h := Positional.value_append 256 (high.map UInt8.toNat) (low.map UInt8.toNat)
  rw [← List.map_append, List.length_map] at h
  rw [toNat, toNat, toNat, Positional.read_eq, Positional.read_eq, Positional.read_eq]
  exact h

theorem toNat_lt (bytes : Bytes) : toNat bytes < 256 ^ bytes.length := by
  induction bytes using List.reverseRecOn with
  | nil => exact Nat.one_pos
  | append_singleton bytes b ih =>
    have := b.toNat_lt
    rw [toNat_append_singleton, List.length_append, List.length_singleton, Nat.pow_succ]
    omega

/-- Bytes are written back in their own length. -/
theorem ofNat_toNat (bytes : Bytes) : ofNat bytes.length (toNat bytes) = bytes := by
  induction bytes using List.reverseRecOn with
  | nil => rfl
  | append_singleton bytes b ih =>
    have hlast : UInt8.ofNat (toNat bytes * 256 + b.toNat) = b := by
      refine UInt8.toNat_inj.1 ?_
      have := b.toNat_lt
      rw [UInt8.toNat_ofNat']
      omega
    have hrest : (toNat bytes * 256 + b.toNat) / 256 = toNat bytes := by
      have := b.toNat_lt
      omega
    rw [toNat_append_singleton, List.length_append, List.length_singleton, ofNat_succ, hlast,
      hrest, ih]

end ElectionKeys.Bytes
