/-!
# Associations

An association is a list of keys with their values, in the order in which the keys came first. A new
value of a key takes the place of the old one; a new key goes to the end. The view of an association
is `List.lookup`: `lookup_put` and `lookup_erase` say what the two operations do to it, and
`erase_put_self` and `erase_of_new` that a new key can be taken back without a trace.
-/

namespace ElectionKeys.Association

variable {α β : Type} [BEq α]

/-- Puts a value under a key: in the place of the key's value if it has one, else at the end. -/
def put : List (α × β) → α → β → List (α × β)
  | [], a, b => [(a, b)]
  | (k, v) :: rest, a, b => if k == a then (a, b) :: rest else (k, v) :: put rest a b

/-- Takes a key and its value away. -/
def erase (l : List (α × β)) (a : α) : List (α × β) :=
  l.filter fun x => x.1 != a

theorem lookup_cons_eq (x : α × β) (l : List (α × β)) (k : α) :
    (x :: l).lookup k = if k == x.1 then some x.2 else l.lookup k := by
  rw [List.lookup_cons]
  split <;> simp_all

/-- All that is there after a value is put under a key is that, or was there before. -/
theorem mem_put {l : List (α × β)} {a : α} {b : β} {x : α × β} (h : x ∈ put l a b) :
    x = (a, b) ∨ x ∈ l := by
  induction l with
  | nil => simpa [put] using h
  | cons y rest ih =>
    rw [put] at h
    split at h
    · rcases List.mem_cons.1 h with rfl | h
      · exact .inl rfl
      · exact .inr (List.mem_cons_of_mem _ h)
    · rcases List.mem_cons.1 h with rfl | h
      · exact .inr List.mem_cons_self
      · exact (ih h).imp id (List.mem_cons_of_mem _)

variable [LawfulBEq α]

theorem lookup_put (l : List (α × β)) (a : α) (b : β) (k : α) :
    (put l a b).lookup k = if k == a then some b else l.lookup k := by
  induction l with
  | nil => simp [put, lookup_cons_eq]
  | cons x rest ih =>
    by_cases hx : x.1 = a
    · by_cases h : k = a <;> simp [put, lookup_cons_eq, hx, h]
    · by_cases h : k = a
      · subst h
        simp [put, lookup_cons_eq, hx, ih, Ne.symm hx]
      · simp [put, lookup_cons_eq, hx, ih, h]

theorem erase_cons (x : α × β) (l : List (α × β)) (a : α) :
    erase (x :: l) a = if x.1 == a then erase l a else x :: erase l a := by
  by_cases hx : x.1 = a <;> simp [erase, hx]

theorem lookup_erase (l : List (α × β)) (a k : α) :
    (erase l a).lookup k = if k == a then none else l.lookup k := by
  induction l with
  | nil => simp [erase]
  | cons x rest ih =>
    by_cases hx : x.1 = a
    · rw [erase_cons, hx, if_pos (beq_self_eq_true a), ih, lookup_cons_eq, hx]
      split <;> rfl
    · rw [erase_cons, if_neg (by simpa using hx), lookup_cons_eq, lookup_cons_eq, ih]
      by_cases h : k = a
      · subst h
        simp [Ne.symm hx]
      · simp [h]

/-- Erasing a key leaves nothing of what was put under it. -/
theorem erase_put_self (l : List (α × β)) (a : α) (b : β) : erase (put l a b) a = erase l a := by
  induction l with
  | nil => simp [erase, put]
  | cons x rest ih =>
    by_cases hx : x.1 = a
    · simp [put, erase_cons, hx]
    · simp [put, erase_cons, hx, ih]

/-- Erasing a key that is not there changes nothing. -/
theorem erase_of_new {l : List (α × β)} {a : α} (h : ∀ x ∈ l, x.1 ≠ a) : erase l a = l := by
  refine List.filter_eq_self.2 fun x hx => ?_
  simpa using h x hx

/-- A new key goes to the end. -/
theorem put_of_new {l : List (α × β)} {a : α} (h : ∀ x ∈ l, x.1 ≠ a) (b : β) :
    put l a b = l ++ [(a, b)] := by
  induction l with
  | nil => rfl
  | cons x rest ih =>
    have hx : x.1 ≠ a := h x (by simp)
    simp [put, hx, ih fun y hy => h y (by simp [hy])]

/-- The keys stay in the order in which they came first. -/
theorem map_fst_put (l : List (α × β)) (a : α) (b : β) :
    (put l a b).map Prod.fst =
      if (l.map Prod.fst).contains a then l.map Prod.fst else l.map Prod.fst ++ [a] := by
  induction l with
  | nil => simp [put]
  | cons x rest ih =>
    by_cases hx : x.1 = a
    · simp [put, hx]
    · by_cases h : (rest.map Prod.fst).contains a
      · simp_all [put]
      · simp_all [put, Ne.symm hx]

end ElectionKeys.Association
