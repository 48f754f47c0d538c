/-!
# Significant bits

`bitLength n` counts the binary digits of `n` without leading zeros, and `byteCount b` the bytes
that hold `b` of them.
-/

namespace ElectionKeys

/-- The number of significant bits of `n`: none for zero. -/
def bitLength (n : Nat) : Nat :=
  if n = 0 then 0 else n.log2 + 1

@[simp] theorem bitLength_zero : bitLength 0 = 0 := rfl

/-- The number of bytes that hold `b` bits. -/
def byteCount (b : Nat) : Nat := (b + 7) / 8

end ElectionKeys
