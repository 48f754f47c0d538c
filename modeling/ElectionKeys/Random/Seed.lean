import ElectionKeys.Random.Sponge
import ElectionKeys.Random.Tape

/-!
# Tapes from seeds

The tape of a seed is the output of SHAKE256 for the name of its purpose, the length of the seed on
eight bytes, and the seed. Equal seeds give equal tapes, and no seed's input is the beginning of
another's.
-/

namespace ElectionKeys

/-- The name that keeps these tapes apart from other uses of the same function. -/
def seedDomain : String := "eg_core.csprng.v1"

/-- The number of bytes that a seed should have. -/
def seedBytes : Nat := 64

/-- The message that a seed stands for. -/
def seedMessage (seed : Bytes) : Bytes :=
  Bytes.ofText seedDomain ++ Bytes.ofNat 8 seed.length ++ seed

/-- The tape of a seed. Its blocks are worked out once, as far as it is read. -/
def Tape.ofSeed (seed : Bytes) : Tape :=
  let start := Sponge.absorb (seedMessage seed)
  let kept := Sponge.pages Sponge.keptHeight start
  { byte := Sponge.readKept start kept, place := 0, patience := 1 <<< 62 }

/-- The bytes of the tape of a seed are those of the stream for its message. -/
theorem Tape.byte_ofSeed (seed : Bytes) (i : Nat) :
    (Tape.ofSeed seed).byte i = Sponge.stream (seedMessage seed) i :=
  Sponge.readKept_pages _ i

end ElectionKeys
