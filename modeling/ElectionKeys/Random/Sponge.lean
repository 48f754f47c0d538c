import ElectionKeys.Bytes.BigEndian

/-!
# The SHAKE256 sponge

The Keccak permutation on 1600 bits and the extendable-output function SHAKE256 built on it. The
state is a square of five times five lanes of 64 bits: plane `y` holds the lanes `(x, y)`.

`stream seed i` is byte number `i` of the output. `Pages` holds the same bytes in a tree of blocks
that are worked out once and on demand, so that reading on costs one permutation per block, and any
byte is a few steps away.
-/

namespace ElectionKeys.Sponge

/-- Five lanes. -/
structure Plane where
  x0 : UInt64
  x1 : UInt64
  x2 : UInt64
  x3 : UInt64
  x4 : UInt64

/-- A lane turned left by the given number of bits, of which only the remainder modulo 64 counts. -/
def rotate (a k : UInt64) : UInt64 := (a <<< k) ||| (a >>> (64 - k))

namespace Plane

/-- The sum of two planes, bit by bit without carry. -/
def add (p q : Plane) : Plane :=
  ⟨p.x0 ^^^ q.x0, p.x1 ^^^ q.x1, p.x2 ^^^ q.x2, p.x3 ^^^ q.x3, p.x4 ^^^ q.x4⟩

/-- A plane with each lane turned left by a number of bits of its own. -/
def turn (p : Plane) (k0 k1 k2 k3 k4 : UInt64) : Plane :=
  ⟨rotate p.x0 k0, rotate p.x1 k1, rotate p.x2 k2, rotate p.x3 k3, rotate p.x4 k4⟩

/-- Mixes each lane with the two after it. -/
def mix (p : Plane) : Plane :=
  ⟨p.x0 ^^^ (~~~p.x1 &&& p.x2), p.x1 ^^^ (~~~p.x2 &&& p.x3), p.x2 ^^^ (~~~p.x3 &&& p.x4),
    p.x3 ^^^ (~~~p.x4 &&& p.x0), p.x4 ^^^ (~~~p.x0 &&& p.x1)⟩

end Plane

/-- The state of the permutation. -/
structure State where
  y0 : Plane
  y1 : Plane
  y2 : Plane
  y3 : Plane
  y4 : Plane

namespace State

/-- The lanes of a state, plane by plane. -/
def lanes (s : State) : List UInt64 :=
  [s.y0, s.y1, s.y2, s.y3, s.y4].flatMap fun p => [p.x0, p.x1, p.x2, p.x3, p.x4]

/-- The state with the given lanes, plane by plane. -/
def ofLanes (lane : Nat → UInt64) : State :=
  let plane (i : Nat) : Plane := ⟨lane i, lane (i + 1), lane (i + 2), lane (i + 3), lane (i + 4)⟩
  ⟨plane 0, plane 5, plane 10, plane 15, plane 20⟩

/-- The sum of two states, bit by bit without carry. -/
def add (s t : State) : State :=
  ⟨s.y0.add t.y0, s.y1.add t.y1, s.y2.add t.y2, s.y3.add t.y3, s.y4.add t.y4⟩

end State

/-! ### The permutation -/

/-- The constants that the rounds add to the first lane. -/
def roundConstants : List UInt64 := [
  0x0000000000000001, 0x0000000000008082, 0x800000000000808A, 0x8000000080008000,
  0x000000000000808B, 0x0000000080000001, 0x8000000080008081, 0x8000000000008009,
  0x000000000000008A, 0x0000000000000088, 0x0000000080008009, 0x000000008000000A,
  0x000000008000808B, 0x800000000000008B, 0x8000000000008089, 0x8000000000008003,
  0x8000000000008002, 0x8000000000000080, 0x000000000000800A, 0x800000008000000A,
  0x8000000080008081, 0x8000000000008080, 0x0000000080000001, 0x8000000080008008]

/-- Adds to each lane the parities of the two columns beside it. -/
def theta (s : State) : State :=
  let c := (((s.y0.add s.y1).add s.y2).add s.y3).add s.y4
  let d : Plane := ⟨c.x4 ^^^ rotate c.x1 1, c.x0 ^^^ rotate c.x2 1, c.x1 ^^^ rotate c.x3 1,
    c.x2 ^^^ rotate c.x4 1, c.x3 ^^^ rotate c.x0 1⟩
  s.add ⟨d, d, d, d, d⟩

/-- Turns each lane. -/
def rho (s : State) : State :=
  ⟨s.y0.turn 0 1 62 28 27, s.y1.turn 36 44 6 55 20, s.y2.turn 3 10 43 25 39,
    s.y3.turn 41 45 15 21 8, s.y4.turn 18 2 61 56 14⟩

/-- Moves lane `(x, y)` to `(y, 2 x + 3 y)`. -/
def pi (s : State) : State :=
  ⟨⟨s.y0.x0, s.y1.x1, s.y2.x2, s.y3.x3, s.y4.x4⟩, ⟨s.y0.x3, s.y1.x4, s.y2.x0, s.y3.x1, s.y4.x2⟩,
    ⟨s.y0.x1, s.y1.x2, s.y2.x3, s.y3.x4, s.y4.x0⟩, ⟨s.y0.x4, s.y1.x0, s.y2.x1, s.y3.x2, s.y4.x3⟩,
    ⟨s.y0.x2, s.y1.x3, s.y2.x4, s.y3.x0, s.y4.x1⟩⟩

/-- Mixes each lane with the two after it in its plane. -/
def chi (s : State) : State := ⟨s.y0.mix, s.y1.mix, s.y2.mix, s.y3.mix, s.y4.mix⟩

/-- Adds a constant to the first lane. -/
def iota (c : UInt64) (s : State) : State := { s with y0 := { s.y0 with x0 := s.y0.x0 ^^^ c } }

/-- One round with its constant. -/
def round (s : State) (c : UInt64) : State := iota c (chi (pi (rho (theta s))))

/-- The permutation. -/
def permute (s : State) : State := roundConstants.foldl round s

/-! ### Absorbing -/

/-- The number of bytes that go in or come out between two permutations. -/
def rate : Nat := 136

/-- The number that bytes denote with the least significant first. -/
def littleEndian (bytes : Bytes) : Nat := bytes.foldr (fun b n => n * 256 + b.toNat) 0

/-- A message with the suffix of the extendable-output functions, filled up to whole blocks. -/
def padded (message : Bytes) : Bytes :=
  let missing := rate - message.length % rate
  if missing = 1 then message ++ [0x9F]
  else message ++ 0x1F :: List.replicate (missing - 2) 0 ++ [0x80]

/-- The state with a block added to its first lanes. -/
def addBlock (s : State) (block : Bytes) : State :=
  s.add (State.ofLanes fun i => UInt64.ofNat (littleEndian ((block.drop (8 * i)).take 8)))

/-- The state after the given number of blocks of a message. -/
def absorbBlocks : Nat → State → Bytes → State
  | 0, s, _ => s
  | blocks + 1, s, message =>
    absorbBlocks blocks (permute (addBlock s (message.take rate))) (message.drop rate)

/-- The state that a message leaves. -/
def absorb (message : Bytes) : State :=
  let blocks := padded message
  absorbBlocks (blocks.length / rate) (State.ofLanes fun _ => 0) blocks

/-! ### Squeezing -/

/-- The bytes of a lane, least significant first. -/
def laneBytes (a : UInt64) : List UInt8 :=
  [a, a >>> 8, a >>> 16, a >>> 24, a >>> 32, a >>> 40, a >>> 48, a >>> 56].map UInt64.toUInt8

/-- The bytes that a state gives. -/
def block (s : State) : Array UInt8 := ((s.lanes.flatMap laneBytes).take rate).toArray

/-- The state after `k` more permutations. -/
def advance : Nat → State → State
  | 0, s => s
  | k + 1, s => advance k (permute s)

/-- Byte number `i` of the output from a state on. -/
def streamFrom (s : State) (i : Nat) : UInt8 :=
  (block (advance (i / rate) s)).getD (i % rate) 0

/-- Byte number `i` of the output for a message. -/
def stream (message : Bytes) (i : Nat) : UInt8 := streamFrom (absorb message) i

theorem advance_add (a b : Nat) (s : State) : advance (a + b) s = advance b (advance a s) := by
  induction a generalizing s with
  | zero => rw [Nat.zero_add, advance]
  | succ a ih => rw [Nat.succ_add, advance, ih, advance]

/-! ### Blocks worked out once -/

/-- Blocks of output in a tree, of which each part is worked out when it is first asked for. A leaf
has one block and the state that gave it, and a node the two halves of its blocks with their common
size. -/
inductive Pages
  | page (bytes : Array UInt8) (state : State)
  | halves (size : Nat) (first second : Thunk Pages)

namespace Pages

/-- The state after the blocks of a tree. -/
def after : Pages → State
  | page _ s => permute s
  | halves _ _ second => second.get.after

/-- Byte `j` of block `k`. -/
def byte : Pages → Nat → Nat → UInt8
  | page bytes _, _, j => bytes.getD j 0
  | halves size first second, k, j =>
    if k < size then first.get.byte k j else second.get.byte (k - size) j

end Pages

/-- The tree of the given height over the blocks of output from a state on. Its second half starts
where the first ends. -/
def pages : Nat → State → Pages
  | 0, s => .page (block s) s
  | height + 1, s =>
    let first := Thunk.mk fun _ => pages height s
    .halves (1 <<< height) first (Thunk.mk fun _ => pages height first.get.after)

theorem two_halves (height : Nat) : 1 <<< (height + 1) = 1 <<< height + 1 <<< height := by
  rw [Nat.shiftLeft_succ, Nat.two_mul]

theorem after_pages (height : Nat) (s : State) :
    (pages height s).after = advance (1 <<< height) s := by
  induction height generalizing s with
  | zero => rw [pages, Pages.after, Nat.shiftLeft_zero, advance, advance]
  | succ h ih =>
    simp only [pages, Pages.after, Thunk.get]
    rw [ih, ih, ← advance_add, two_halves]

theorem byte_pages {height k : Nat} (j : Nat) (s : State) (hk : k < 1 <<< height) :
    (pages height s).byte k j = (block (advance k s)).getD j 0 := by
  induction height generalizing k s with
  | zero =>
    obtain rfl : k = 0 := Nat.lt_one_iff.1 hk
    rw [pages, Pages.byte, advance]
  | succ h ih =>
    simp only [pages, Pages.byte, Thunk.get]
    split
    · next h1 => exact ih s h1
    · next h1 =>
      rw [two_halves] at hk
      rw [ih _ (by omega), after_pages, ← advance_add, Nat.add_sub_cancel' (by omega)]

/-- The height of the tree of kept blocks. -/
def keptHeight : Nat := 20

/-- How many blocks are kept: more than any run reads. -/
def keptBlocks : Nat := 1 <<< keptHeight

/-- Byte number `i` of the output from a state on, read from kept blocks where they reach. -/
def readKept (start : State) (kept : Pages) (i : Nat) : UInt8 :=
  if i / rate < keptBlocks then kept.byte (i / rate) (i % rate)
  else streamFrom start i

theorem readKept_pages (s : State) (i : Nat) :
    readKept s (pages keptHeight s) i = streamFrom s i := by
  rw [readKept]
  split
  · next h => exact byte_pages _ s h
  · rfl

end ElectionKeys.Sponge
