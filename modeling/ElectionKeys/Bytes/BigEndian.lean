import ElectionKeys.Arithmetic.BitLength
import ElectionKeys.Arithmetic.Positional

/-!
# Byte strings and fixed-length numbers

A byte string is a list of bytes, read as a number with its most significant byte first. Beside the
plain reading and writing stand the checked forms `encode` and `decode`, which take the length from
their caller and refuse a number, or a byte string, that does not have it.
-/

namespace ElectionKeys

/-- A finite string of bytes. -/
abbrev Bytes := List UInt8

namespace Bytes

/-- The number that a byte string denotes, most significant byte first. -/
def toNat (bytes : Bytes) : Nat :=
  Positional.read 256 (bytes.map UInt8.toNat)

/-- The last `length` bytes of the number `n`, most significant first. -/
def ofNat (length n : Nat) : Bytes :=
  (Positional.write 256 length n).map UInt8.ofNat

@[simp] theorem ofNat_zero (n : Nat) : ofNat 0 n = [] := rfl

theorem ofNat_succ (length n : Nat) :
    ofNat (length + 1) n = ofNat length (n / 256) ++ [UInt8.ofNat n] := by
  have h : UInt8.ofNat (n % 256) = UInt8.ofNat n := UInt8.toNat_inj.1 (by simp)
  simp [ofNat, Positional.write_eq, Positional.lastDigits, h]

@[simp] theorem length_ofNat (length n : Nat) : (ofNat length n).length = length := by
  simp [ofNat, Positional.write_eq]

@[simp] theorem toNat_nil : toNat [] = 0 := rfl

theorem toNat_append_singleton (bytes : Bytes) (b : UInt8) :
    toNat (bytes ++ [b]) = toNat bytes * 256 + b.toNat := by
  simp [toNat, Positional.read_eq, Positional.value_append_singleton]

/-! ### Fixed length -/

/-- Why a number and a length do not go together. -/
inductive LengthFault
  /-- The number is negative, or needs more than `length` bytes. -/
  | doesNotFit (length : Int)
  /-- A byte string of `found` bytes stands where `expected` bytes belong. -/
  | wrongLength (expected : Int) (found : Nat)
  deriving DecidableEq

/-- The wording of a length fault. -/
def LengthFault.message : LengthFault → String
  | .doesNotFit length => s!"La valeur ne tient pas sur {length} octets"
  | .wrongLength expected found => s!"{expected} octets attendus, {found} reçus"

/-- The number `x` on exactly `length` bytes. No number at all has a form of length zero. -/
def encode (x length : Int) : Except LengthFault Bytes :=
  if 0 ≤ x ∧ 1 ≤ length ∧ (bitLength x.toNat : Int) ≤ 8 * length then
    .ok (ofNat length.toNat x.toNat)
  else
    .error (.doesNotFit length)

/-- The number that a byte string of exactly `length` bytes denotes. -/
def decode (bytes : Bytes) (length : Int) : Except LengthFault Nat :=
  if (bytes.length : Int) = length then .ok bytes.toNat
  else .error (.wrongLength length bytes.length)

/-! ### Text -/

/-- The bytes of a text in UTF-8. -/
def ofText (text : String) : Bytes :=
  text.toUTF8.data.toList

/-- The text that well-formed UTF-8 spells. -/
def toText? (bytes : Bytes) : Option String :=
  String.fromUTF8? ⟨bytes.toArray⟩

theorem toText?_ofText (text : String) : (ofText text).toText? = some text := by
  have h : (⟨(ofText text).toArray⟩ : ByteArray) = text.toByteArray := by simp [ofText]
  rw [toText?, h, String.fromUTF8?, dif_pos text.isValidUTF8]
  rfl

/-- Bytes spell at most one text, and they are the bytes of that text. -/
theorem toText?_eq_some_iff {bytes : Bytes} {text : String} :
    bytes.toText? = some text ↔ bytes = ofText text := by
  refine ⟨fun h => ?_, fun h => h ▸ toText?_ofText text⟩
  rw [toText?, String.fromUTF8?] at h
  split at h
  · injection h with h
    rw [← h]
    rfl
  · contradiction

end Bytes

end ElectionKeys
