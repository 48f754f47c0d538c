/-!
# Modular powers

`powMod b e m` computes the remainder of a power by repeated squaring, so that exponents of several
thousand bits are within reach. A remainder modulo zero is the number itself.
-/

namespace ElectionKeys

/-- The remainder of `b ^ e` modulo `m`. -/
def powMod (b e m : Nat) : Nat :=
  if e = 0 then 1 % m
  else
    let half := powMod b (e / 2) m
    let square := half * half % m
    if e % 2 = 0 then square else square * b % m
termination_by e
decreasing_by omega

end ElectionKeys
