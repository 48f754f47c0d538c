import ElectionKeys.Bytes.BigEndian

/-!
# Tapes and draws

A tape is an endless row of bytes and a place in it. A draw reads on from that place, gives a value
and leaves the tape where it stopped; a draw that fails to end gives nothing.

A draw by rejection repeats a simpler draw until its value is acceptable. On some tapes that goes on
for ever, so every tape says how many values a draw may look at before it counts as endless: its
`patience`. What a draw gives never depends on the patience, only whether it gives anything.
-/

namespace ElectionKeys

/-- An endless row of bytes, the place of the next one, and how many values a draw by rejection
looks at before it counts as endless. -/
structure Tape where
  byte : Nat → UInt8
  place : Nat
  patience : Nat

namespace Tape

/-- The next bytes of a tape. -/
def peek (t : Tape) (n : Nat) : Bytes :=
  (List.range' t.place n).map t.byte

/-- The tape after its next bytes. -/
def skip (t : Tape) (n : Nat) : Tape := { t with place := t.place + n }

end Tape

/-- A computation that reads a tape, and may fail to end. -/
abbrev Draw (α : Type) := StateT Tape Option α

namespace Draw

/-- The next bytes. -/
def bytes (n : Nat) : Draw Bytes := fun t => some (t.peek n, t.skip n)

/-- The first of up to `tries` values of a draw that is acceptable. -/
def firstOf (draw : Draw α) (ok : α → Bool) : Nat → Draw α
  | 0 => fun _ => none
  | tries + 1 => do
    let x ← draw
    if ok x then pure x else firstOf draw ok tries

/-- Repeats a draw until its value is acceptable. -/
def repeatUntil (draw : Draw α) (ok : α → Bool) : Draw α :=
  fun t => firstOf draw ok t.patience t

/-- Does the draws of a list one after the other. -/
def replicate (draw : Draw α) : Nat → Draw (List α)
  | 0 => pure []
  | n + 1 => do
    let x ← draw
    let xs ← replicate draw n
    pure (x :: xs)

end Draw

end ElectionKeys
