/-!
# Positional notation

The digits of a number in a base, as a list of numbers with the most significant first. `value` and
`lastDigits` go digit by digit: they say what reading and writing are. `read` and `write` cut their
task in halves until few digits are left, so that the work on a million digits is that of a few
large products and quotients. `read_eq` and `write_eq` say that the halves make no difference.
-/

namespace ElectionKeys.Positional

/-- The number that digits in base `b` denote. -/
def value (b : Nat) (ds : List Nat) : Nat := ds.foldl (fun n d => n * b + d) 0

/-- The last `count` digits of `n` in base `b`, with zeros in front if `n` has not as many. -/
def lastDigits (b : Nat) : Nat → Nat → List Nat
  | 0, _ => []
  | count + 1, n => lastDigits b count (n / b) ++ [n % b]

/-! ### In halves -/

/-- How often a list of digits is cut in halves: until no part has more than fifteen. -/
def cuts (count : Nat) : Nat := (count / 8).log2

/-- The number that digits denote, read in parts after some cuts. -/
def readCut (b : Nat) : Nat → List Nat → Nat
  | 0, ds => value b ds
  | k + 1, ds =>
    let high := ds.length / 2
    readCut b k (ds.take high) * Nat.pow b (ds.length - high) + readCut b k (ds.drop high)

/-- The number that digits in base `b` denote. -/
def read (b : Nat) (ds : List Nat) : Nat := readCut b (cuts ds.length) ds

/-- The last digits of a number, written in parts after some cuts. -/
def writeCut (b : Nat) : Nat → Nat → Nat → List Nat
  | 0, count, n => lastDigits b count n
  | k + 1, count, n =>
    let low := count / 2
    let unit := Nat.pow b low
    writeCut b k (count - low) (n / unit) ++ writeCut b k low (n % unit)

/-- The last `count` digits of `n` in base `b`. -/
def write (b count n : Nat) : List Nat := writeCut b (cuts count) count n

/-! ### Reading -/

@[simp] theorem value_nil (b : Nat) : value b [] = 0 := rfl

theorem value_append_singleton (b : Nat) (ds : List Nat) (d : Nat) :
    value b (ds ++ [d]) = value b ds * b + d := by
  simp [value]

/-- To read on from a number is to shift it past the further digits. -/
theorem foldl_eq_add_value (b n : Nat) (ds : List Nat) :
    ds.foldl (fun n d => n * b + d) n = n * Nat.pow b ds.length + value b ds := by
  induction ds generalizing n with
  | nil => exact (Nat.mul_one n).symm
  | cons d ds ih =>
    rw [value, List.foldl_cons, List.foldl_cons, ih, ih (0 * b + d), Nat.zero_mul, Nat.zero_add,
      Nat.add_mul, Nat.add_assoc, Nat.mul_assoc]
    congr 2
    exact Nat.mul_comm _ _

theorem value_append (b : Nat) (hs ls : List Nat) :
    value b (hs ++ ls) = value b hs * Nat.pow b ls.length + value b ls := by
  rw [value, List.foldl_append, foldl_eq_add_value]
  rfl

theorem readCut_eq (b k : Nat) (ds : List Nat) : readCut b k ds = value b ds := by
  induction k generalizing ds with
  | zero => rfl
  | succ k ih =>
    simp only [readCut, ih]
    have h := value_append b (ds.take (ds.length / 2)) (ds.drop (ds.length / 2))
    rw [List.take_append_drop, List.length_drop] at h
    exact h.symm

theorem read_eq (b : Nat) (ds : List Nat) : read b ds = value b ds := readCut_eq b _ ds

/-! ### Writing -/

@[simp] theorem length_lastDigits (b count n : Nat) : (lastDigits b count n).length = count := by
  induction count generalizing n with
  | zero => rfl
  | succ k ih => simp [lastDigits, ih]

/-- The last digits do not depend on what stands before them. -/
theorem lastDigits_mod (b count n : Nat) :
    lastDigits b count (n % Nat.pow b count) = lastDigits b count n := by
  induction count generalizing n with
  | zero => rfl
  | succ k ih =>
    have hq : n % Nat.pow b (k + 1) / b = n / b % Nat.pow b k := by
      rw [show Nat.pow b (k + 1) = b * Nat.pow b k from Nat.mul_comm _ _]
      exact Nat.mod_mul_right_div_self n b _
    have hr : n % Nat.pow b (k + 1) % b = n % b := by
      rw [show Nat.pow b (k + 1) = b * Nat.pow b k from Nat.mul_comm _ _]
      exact Nat.mod_mul_right_mod n b _
    rw [lastDigits, lastDigits, hq, hr, ih]

theorem lastDigits_add (b high low n : Nat) :
    lastDigits b (high + low) n =
      lastDigits b high (n / Nat.pow b low) ++ lastDigits b low n := by
  induction low generalizing n with
  | zero => simp [lastDigits]
  | succ k ih =>
    have h : n / Nat.pow b (k + 1) = n / b / Nat.pow b k := by
      rw [Nat.div_div_eq_div_mul]
      congr 1
      exact Nat.mul_comm _ _
    rw [← Nat.add_assoc, lastDigits, ih, lastDigits, h, List.append_assoc]

theorem writeCut_eq (b k count n : Nat) : writeCut b k count n = lastDigits b count n := by
  induction k generalizing count n with
  | zero => rfl
  | succ k ih =>
    simp only [writeCut, ih, lastDigits_mod]
    rw [← lastDigits_add, Nat.sub_add_cancel (Nat.div_le_self count 2)]

theorem write_eq (b count n : Nat) : write b count n = lastDigits b count n :=
  writeCut_eq b _ count n

end ElectionKeys.Positional
