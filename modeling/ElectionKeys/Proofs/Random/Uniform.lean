import Mathlib
import ElectionKeys.Bytes.Lemmas
import ElectionKeys.Proofs.Random.Draws

/-!
# All byte strings of a length

What is drawn from a tape of independent and equally likely bytes is a matter of counting byte
strings: of all strings of a length, how many are there for which a draw has a given answer. The
length has to be enough for all that the draw may read.

* The byte strings of a length are the numbers below a power of 256 (`Bytes.sum_toNat`), and the
  remainders of these modulo a power of two are equally frequent (`sum_range_mul_mod`).
* A string that is read in two parts is counted part by part (`Bytes.card_filter_append`), and what
  stands after the first part is a tape for each second part (`Tape.Begins.skip`). This is what
  makes successive draws independent.
* If each of some values is given by equally many strings (`Draw.EquallyLikely`), a share of the
  values is a share of the strings (`Draw.EquallyLikely.mul_card_le`). A draw by rejection may run
  out of attempts: such strings give no value, and are not counted among those on which it ends.
-/

namespace ElectionKeys

/-! ### Counting byte strings -/

/-- What depends on a remainder is summed up once for each block. -/
theorem sum_range_mul_mod (f : ℕ → ℕ) (count size : ℕ) :
    ∑ z ∈ Finset.range (count * size), f (z % size) = count * ∑ v ∈ Finset.range size, f v := by
  induction count with
  | zero => rw [Nat.zero_mul, Nat.zero_mul, Finset.sum_range_zero]
  | succ count ih =>
    have hlast : ∑ v ∈ Finset.range size, f ((count * size + v) % size) =
        ∑ v ∈ Finset.range size, f v := by
      refine Finset.sum_congr rfl fun v hv ↦ ?_
      rw [Nat.mul_add_mod', Nat.mod_eq_of_lt (Finset.mem_range.1 hv)]
    rw [Nat.succ_mul, Finset.sum_range_add, ih, hlast, Nat.succ_mul]

/-- The byte strings that hold `b` bits are the numbers of `b` bits, each with every filling of the
surplus bits. -/
theorem pow_byteCount (b : ℕ) : 256 ^ byteCount b = 2 ^ (8 * byteCount b - b) * 2 ^ b := by
  have hle : b ≤ 8 * byteCount b := by
    rw [byteCount]
    omega
  rw [← pow_add, Nat.sub_add_cancel hle, pow_mul]
  rfl

namespace Bytes

variable {length m n : ℕ}

theorem exists_ofFn {w : Bytes} (h : w.length = length) :
    ∃ f : Fin length → UInt8, List.ofFn f = w := by
  subst h
  exact ⟨w.get, List.ofFn_get w⟩

/-- **The byte strings of a length are the numbers below a power of 256.** -/
theorem sum_toNat (f : ℕ → ℕ) :
    ∑ w : Fin length → UInt8, f (toNat (List.ofFn w)) = ∑ z ∈ Finset.range (256 ^ length), f z := by
  refine Finset.sum_bij (fun w _ ↦ toNat (List.ofFn w)) (fun w _ ↦ ?_) (fun w _ v _ h ↦ ?_)
    (fun z hz ↦ ?_) fun _ _ ↦ rfl
  · have hlt := toNat_lt (List.ofFn w)
    rw [List.length_ofFn] at hlt
    exact Finset.mem_range.2 hlt
  · have hw := ofNat_toNat (List.ofFn w)
    have hv := ofNat_toNat (List.ofFn v)
    rw [List.length_ofFn] at hw hv
    exact List.ofFn_injective (by rw [← hw, ← hv, h])
  · obtain ⟨w, hw⟩ := exists_ofFn (length_ofNat length z)
    refine ⟨w, Finset.mem_univ w, ?_⟩
    rw [hw, toNat_ofNat, Nat.mod_eq_of_lt (Finset.mem_range.1 hz)]

/-- **Byte strings that are read in two parts are counted part by part.** -/
theorem card_filter_append (P : Bytes → Prop) [DecidablePred P] :
    (Finset.univ.filter fun w : Fin (m + n) → UInt8 ↦ P (List.ofFn w)).card =
      ∑ u : Fin m → UInt8,
        (Finset.univ.filter fun v : Fin n → UInt8 ↦ P (List.ofFn u ++ List.ofFn v)).card := by
  simp only [Finset.card_filter]
  rw [← Fintype.sum_prod_type', ← (Fin.appendEquiv m n).sum_comp]
  refine Finset.sum_congr rfl fun x _ ↦ ?_
  rw [← List.ofFn_fin_append]
  rfl

end Bytes

/-! ### Tapes that begin with a byte string -/

namespace Tape

variable {m n patience : ℕ} {tape : Bytes → Tape}

/-- Looking further ahead is looking ahead twice. -/
theorem peek_add (t : Tape) (m n : ℕ) : t.peek (m + n) = t.peek m ++ (t.skip m).peek n := by
  rw [peek, ← List.range'_append_1, List.map_append]
  rfl

theorem skip_add (t : Tape) (m n : ℕ) : t.skip (m + n) = (t.skip m).skip n := by
  rw [skip, skip, skip, Nat.add_assoc]

theorem length_peek (t : Tape) (n : ℕ) : (t.peek n).length = n := by
  rw [peek, List.length_map, List.length_range']

/-- The tape with the given bytes from its place on. -/
def holding (t : Tape) (w : Bytes) : Tape :=
  { t with byte := fun i ↦ if i < t.place then t.byte i else w[i - t.place]?.getD (t.byte i) }

/-- A tape that holds a word gives it. -/
theorem peek_holding (t : Tape) (w : Bytes) : (t.holding w).peek w.length = w := by
  refine List.ext_getElem (length_peek _ _) fun i _ hi ↦ ?_
  have hplace : ¬ t.place + i < t.place := Nat.not_lt.2 (Nat.le_add_right t.place i)
  simp only [peek, List.getElem_map, List.getElem_range', one_mul, holding, if_neg hplace,
    Nat.add_sub_cancel_left, List.getElem?_eq_getElem hi, Option.getD_some]

/-- For each byte string of a length there is a tape that begins with it. All have one patience. -/
def Begins (length patience : ℕ) (tape : Bytes → Tape) : Prop :=
  ∀ w, w.length = length → (tape w).peek length = w ∧ (tape w).patience = patience

theorem begins_holding (t : Tape) (length : ℕ) : Begins length t.patience t.holding := by
  rintro w rfl
  exact ⟨t.peek_holding w, rfl⟩

/-- The beginning of what a tape holds is what is read first. -/
theorem Begins.peek_eq (h : Begins (m + n) patience tape) {u v : Bytes} (hu : u.length = m)
    (hv : v.length = n) : (tape (u ++ v)).peek m = u := by
  have hw := (h (u ++ v) (by rw [List.length_append, hu, hv])).1
  rw [peek_add] at hw
  exact (List.append_inj hw (by rw [length_peek, hu])).1

/-- **After a part has been read, what follows begins with the other part.** -/
theorem Begins.skip (h : Begins (m + n) patience tape) {u : Bytes} (hu : u.length = m) :
    Begins n patience fun v ↦ (tape (u ++ v)).skip m := by
  intro v hv
  obtain ⟨hw, hpatience⟩ := h (u ++ v) (by rw [List.length_append, hu, hv])
  rw [peek_add] at hw
  exact ⟨(List.append_inj hw (by rw [length_peek, hu])).2, hpatience⟩

end Tape

/-! ### How often a value is drawn -/

namespace Draw

variable {α β : Type} [DecidableEq α] {draw : Draw α} {tape : Bytes → Tape}
  {length patience enough : ℕ} {values chosen : Finset α}

/-- What a draw gives, without the tape that it leaves. -/
def value (draw : Draw α) (t : Tape) : Option α := (draw t).map Prod.fst

omit [DecidableEq α] in
theorem value_eq_some_iff {t : Tape} {a : α} :
    value draw t = some a ↔ ∃ t', draw t = some (a, t') := by
  simp [value]

omit [DecidableEq α] in
/-- After a draw the second one is made on the tape that it leaves. -/
theorem value_bind {f : α → Draw β} {t t' : Tape} {a : α} (h : draw t = some (a, t')) :
    value (draw >>= f) t = value (f a) t' := by
  show ((draw t).bind fun y ↦ f y.1 y.2).map Prod.fst = _
  rw [h]
  rfl

/-- Of the byte strings of a length, the number of those for which a draw gives a value. -/
def frequency (draw : Draw α) (tape : Bytes → Tape) (length : ℕ) (a : α) : ℕ :=
  (Finset.univ.filter fun w : Fin length → UInt8 ↦ value draw (tape (List.ofFn w)) = some a).card

/-- Of the byte strings of a length, the number of those on which a draw ends. -/
def endings (draw : Draw α) (tape : Bytes → Tape) (length : ℕ) : ℕ :=
  (Finset.univ.filter fun w : Fin length → UInt8 ↦
    (value draw (tape (List.ofFn w))).isSome = true).card

/-- **A draw that begins with a value read from a block of bytes is counted block by block.** -/
theorem frequency_block_bind {block : Draw β} {f : β → Draw α} {a : α} {m : ℕ} (read : Bytes → β)
    (g : β → ℕ) (hblock : ∀ t, block t = some (read (t.peek m), t.skip m))
    (htape : Tape.Begins (m + length) patience tape)
    (hf : ∀ v tape, Tape.Begins length patience tape → frequency (f v) tape length a = g v) :
    frequency (block >>= f) tape (m + length) a =
      ∑ u : Fin m → UInt8, g (read (List.ofFn u)) := by
  rw [frequency, Bytes.card_filter_append fun w ↦ value (block >>= f) (tape w) = some a]
  refine Finset.sum_congr rfl fun u _ ↦ ?_
  have hlength : (List.ofFn u).length = m := List.length_ofFn
  rw [← hf _ _ (htape.skip hlength), frequency]
  refine congrArg Finset.card (Finset.filter_congr fun v _ ↦ ?_)
  rw [value_bind (hblock _), htape.peek_eq hlength List.length_ofFn]

/-- A row is given as often as its rest is drawn, if it begins as it has to. -/
theorem frequency_cons (draw : Draw (List α)) (tape : Bytes → Tape) (length : ℕ) (a b : α)
    (as : List α) :
    frequency (do let rest ← draw; pure (a :: rest)) tape length (b :: as) =
      if a = b then frequency draw tape length as else 0 := by
  have hvalue : ∀ t, value (do let rest ← draw; pure (a :: rest)) t = some (b :: as) ↔
      a = b ∧ value draw t = some as := by
    intro t
    rw [value_eq_some_iff, value_eq_some_iff]
    constructor
    · rintro ⟨t', h⟩
      obtain ⟨rest, s, hrest, h⟩ := bind_eq_some_iff.1 h
      obtain ⟨hcons, -⟩ := pure_eq_some_iff.1 h
      obtain ⟨rfl, rfl⟩ := List.cons.inj hcons
      exact ⟨rfl, s, hrest⟩
    · rintro ⟨rfl, s, hrest⟩
      exact ⟨s, bind_eq_some_iff.2 ⟨as, s, hrest, rfl⟩⟩
  simp only [frequency, hvalue]
  split
  · next h => simp only [h, true_and]
  · next h => simp only [h, false_and, Finset.filter_false, Finset.card_empty]

/-- How often some value is drawn is how often each of them is drawn, together. -/
theorem sum_frequency (draw : Draw α) (tape : Bytes → Tape) (length : ℕ) (values : Finset α) :
    ∑ a ∈ values, frequency draw tape length a =
      (Finset.univ.filter fun w : Fin length → UInt8 ↦
        ∃ a ∈ values, value draw (tape (List.ofFn w)) = some a).card := by
  have hdisjoint : (values : Set α).PairwiseDisjoint fun a ↦
      Finset.univ.filter fun w : Fin length → UInt8 ↦ value draw (tape (List.ofFn w)) = some a := by
    intro a _ b _ hne
    refine Finset.disjoint_filter.2 fun w _ ha hb ↦ hne ?_
    exact Option.some.inj (ha.symm.trans hb)
  simp only [frequency]
  rw [← Finset.card_biUnion hdisjoint]
  congr 1
  ext w
  simp only [Finset.mem_biUnion, Finset.mem_filter, Finset.mem_univ, true_and]

/-- A draw gives each of some values equally often, as soon as the byte strings are long enough. -/
def EquallyLikely (patience enough : ℕ) (draw : Draw α) (values : Finset α) : Prop :=
  ∀ length, enough ≤ length → ∃ count, ∀ tape, Tape.Begins length patience tape →
    ∀ a ∈ values, frequency draw tape length a = count

/-- **A share of the values is at most as large a share of the byte strings on which the draw
ends.** -/
theorem EquallyLikely.mul_card_le (h : EquallyLikely patience enough draw values)
    (hlength : enough ≤ length) (htape : Tape.Begins length patience tape)
    (hchosen : chosen ⊆ values) {c : ℕ} (hcard : c * chosen.card ≤ values.card) :
    c * (Finset.univ.filter fun w : Fin length → UInt8 ↦
        ∃ a ∈ chosen, value draw (tape (List.ofFn w)) = some a).card ≤
      endings draw tape length := by
  obtain ⟨count, hcount⟩ := h length hlength
  have hconst : ∀ s ⊆ values, ∑ a ∈ s, frequency draw tape length a = s.card * count := by
    intro s hs
    rw [Finset.sum_congr rfl fun a ha ↦ hcount tape htape a (hs ha), Finset.sum_const, smul_eq_mul]
  calc _ = c * chosen.card * count := by rw [← sum_frequency, hconst chosen hchosen, mul_assoc]
    _ ≤ values.card * count := Nat.mul_le_mul_right count hcard
    _ = _ := by rw [← hconst values subset_rfl, sum_frequency]
    _ ≤ endings draw tape length := by
      refine Finset.card_le_card (Finset.monotone_filter_right _ fun w _ hvalue ↦ ?_)
      obtain ⟨a, -, ha⟩ := hvalue
      exact Option.isSome_iff_exists.2 ⟨a, ha⟩

end Draw

end ElectionKeys
