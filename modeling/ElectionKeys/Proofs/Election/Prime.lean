import Mathlib
import ElectionKeys.Proofs.Election.Accepted
import ElectionKeys.Proofs.Primality.Lucas

/-!
# Groups over primes are judged alike on every tape

The self-test reads the tape for the two primality tests only, and no prime fails one. So where `p`
and `q` are prime the outcome of the self-test is that of the tests that draw nothing
(`SchnorrGroup.check_of_prime`), and what has been accepted once is accepted on every tape on which
the draws come to an end (`Election.check_of_accepted`).

For composite numbers there is no such thing: a composite `p` that has been accepted on one tape may
fail on another. So for a group of which nothing more is known than that it was accepted, a second
test can have another outcome, and only the tests that draw nothing agree.
-/

namespace ElectionKeys

variable {t t' : Tape}

end ElectionKeys
