import Mathlib
import ElectionKeys.Json.Reader

/-!
# Objects that repeat a name

The reader settles repeated names while it reads: of two members of one name the last counts. What
stood in the text is lost by then, so nothing that is said of the value says which member of a
document counted, or that the others did not.

Here the two things that the reader does at once are taken apart. `readWritten?` reads a text and
keeps all members of its objects, and `settled` drops those that do not count, at every depth.
`read?_eq` says that the reader does the one and then the other; so it reads a text exactly when
the text can be read as written. Which member of an object counts is said by `Members.Last`, and
`get?_settle_eq_some_iff` says that it is the one that is found under the name.
-/

namespace ElectionKeys.Json

/-! ### Values as they are written -/

mutual

/-- The value without the members that do not count: each object has each name once, with the last
of its values. -/
def settled : Json → Json
  | .array vs => .array (settledItems vs)
  | .object m => .object (Members.collect (settledValues m))
  | v => v

/-- The items of an array without the members that do not count. -/
def settledItems : List Json → List Json
  | [] => []
  | v :: vs => settled v :: settledItems vs

/-- The members of an object, all of them, without those inside them that do not count. -/
def settledValues : Members → Members
  | [] => []
  | (name, v) :: m => (name, settled v) :: settledValues m

end

/-- An array is settled by settling its items. -/
theorem settledItems_eq (vs : List Json) : settledItems vs = vs.map settled := by
  induction vs with
  | nil => rfl
  | cons v vs ih => rw [settledItems, ih, List.map_cons]

theorem settledValues_eq (m : Members) : settledValues m = m.map (Prod.map id settled) := by
  induction m with
  | nil => rfl
  | cons x m ih => rw [settledValues, ih, List.map_cons, Prod.map, id]

/-- The members of an object that count. -/
def Members.settle (m : Members) : Members := Members.collect (m.map (Prod.map id settled))

theorem settled_array (vs : List Json) : settled (.array vs) = .array (vs.map settled) := by
  rw [settled, settledItems_eq]

/-- An object is settled by settling the values of its members and keeping the last of each name. -/
theorem settled_object (m : Members) : settled (.object m) = .object m.settle := by
  rw [settled, settledValues_eq, Members.settle]

/-! ### Which member counts -/

namespace Members

/-- The value of the last member of a name. -/
def Last (m : Members) (name : String) (v : Json) : Prop :=
  ∃ before after, m = before ++ (name, v) :: after ∧ ∀ x ∈ after, x.1 ≠ name

variable {m : Members} {name : String}

/-- The last member of a name is a member. -/
theorem Last.mem {v : Json} (h : m.Last name v) : (name, v) ∈ m := by
  obtain ⟨before, after, rfl, -⟩ := h
  exact List.mem_append_right _ List.mem_cons_self

/-- A member at the end is the last of its name, and does not matter to other names. -/
theorem last_concat_iff (x : String × Json) (v : Json) :
    Last (m ++ [x]) name v ↔ if name = x.1 then x.2 = v else m.Last name v := by
  constructor
  · rintro ⟨before, after, hsplit, hafter⟩
    rcases List.eq_nil_or_concat after with rfl | ⟨after, y, rfl⟩
    · obtain ⟨-, hx⟩ := List.append_inj' hsplit rfl
      rw [List.singleton_inj] at hx
      rw [hx, if_pos rfl]
    · rw [List.concat_eq_append, ← List.cons_append, ← List.append_assoc] at hsplit
      obtain ⟨rfl, hx⟩ := List.append_inj' hsplit rfl
      rw [List.singleton_inj] at hx
      subst hx
      rw [List.concat_eq_append] at hafter
      rw [if_neg (hafter x (by simp)).symm]
      exact ⟨before, after, rfl, fun z hz ↦ hafter z (by simp [hz])⟩
  · split
    · next hname =>
      rintro rfl
      exact ⟨m, [], by rw [hname], fun z hz ↦ absurd hz List.not_mem_nil⟩
    · next hname =>
      rintro ⟨before, after, rfl, hafter⟩
      refine ⟨before, after ++ [x], by simp, fun z hz ↦ ?_⟩
      rcases List.mem_append.1 hz with hz | hz
      · exact hafter z hz
      · rw [List.mem_singleton.1 hz]
        exact Ne.symm hname

/-- Collecting goes from left to right, so that a member at the end is put last. -/
theorem collect_concat (m : Members) (x : String × Json) :
    collect (m ++ [x]) = Association.put (collect m) x.1 x.2 := by
  rw [collect, List.foldl_append, List.foldl_cons, List.foldl_nil, collect]

/-- **Of the members of one name the last counts.** -/
theorem get?_collect_eq_some_iff {v : Json} : (collect m).get? name = some v ↔ m.Last name v := by
  -- From the end of the list, as the members are put into the object one after the other.
  induction m using List.reverseRecOn with
  | nil =>
    refine iff_of_false (by simp [collect, get?]) ?_
    rintro ⟨before, after, h, -⟩
    simp at h
  | append_singleton m x ih =>
    rw [collect_concat, get?, Association.lookup_put, last_concat_iff, ← ih, get?]
    by_cases hname : name = x.1
    · simp [hname]
    · simp [hname]

/-- Collecting neither adds a name nor loses one. -/
theorem mem_map_fst_collect : name ∈ (collect m).map Prod.fst ↔ name ∈ m.map Prod.fst := by
  induction m using List.reverseRecOn with
  | nil => simp [collect]
  | append_singleton m x ih =>
    rw [collect_concat, Association.map_fst_put, List.map_append, List.mem_append, ← ih]
    split
    · next hmem =>
      rw [List.contains_iff_mem] at hmem
      refine (or_iff_left_of_imp fun hname ↦ ?_).symm
      rw [List.map_singleton, List.mem_singleton] at hname
      rwa [hname]
    · rw [List.mem_append, List.map_singleton]

/-- Nothing is found under a name that no member has. -/
theorem get?_collect_eq_none_iff : (collect m).get? name = none ↔ ∀ x ∈ m, x.1 ≠ name := by
  have hnot : ∀ l : Members, (∀ x ∈ l, x.1 ≠ name) ↔ name ∉ l.map Prod.fst := by
    intro l
    rw [List.mem_map, not_exists]
    exact forall_congr' fun x ↦ not_and.symm
  rw [hnot m, ← mem_map_fst_collect, ← hnot, get?, List.lookup_eq_none_iff]
  exact forall₂_congr fun x _ ↦ by rw [bne_iff_ne, ne_comm]

/-- Changing the values does not change which member is the last of a name. -/
theorem last_map_iff {f : Json → Json} {u : Json} :
    Last (m.map (Prod.map id f)) name u ↔ ∃ v, m.Last name v ∧ f v = u := by
  constructor
  · rintro ⟨before, after, hsplit, hafter⟩
    obtain ⟨b, c, rfl, rfl, hc⟩ := List.map_eq_append_iff.1 hsplit
    obtain ⟨x, a, rfl, hx, rfl⟩ := List.map_eq_cons_iff.1 hc
    obtain ⟨n, v⟩ := x
    obtain ⟨rfl, rfl⟩ := Prod.mk.inj hx
    exact ⟨v, ⟨b, a, rfl, fun y hy ↦ hafter (Prod.map id f y) (List.mem_map_of_mem hy)⟩, rfl⟩
  · rintro ⟨v, ⟨before, after, rfl, hafter⟩, rfl⟩
    refine ⟨before.map (Prod.map id f), after.map (Prod.map id f), by simp, ?_⟩
    exact List.forall_mem_map.2 hafter

/-- What is found under a name in the members that count. -/
theorem get?_settle_eq_some_iff {u : Json} :
    m.settle.get? name = some u ↔ ∃ v, m.Last name v ∧ settled v = u := by
  rw [settle, get?_collect_eq_some_iff, last_map_iff]

/-- Nothing is found under a name that no member has. -/
theorem get?_settle_eq_none_iff : m.settle.get? name = none ↔ ∀ x ∈ m, x.1 ≠ name := by
  rw [settle, get?_collect_eq_none_iff]
  exact List.forall_mem_map

/-- Settling changes only objects, at whatever depth, so that other values show what they were. -/
theorem settled_eq_null_iff {v : Json} : settled v = .null ↔ v = .null := by
  cases v <;> simp [settled]

theorem settled_eq_int_iff {v : Json} {n : ℤ} : settled v = .int n ↔ v = .int n := by
  cases v <;> simp [settled]

theorem settled_eq_object_iff {v : Json} {l : Members} :
    settled v = .object l ↔ ∃ m : Members, v = .object m ∧ m.settle = l := by
  cases v <;> simp [settled, settle, settledValues_eq]

theorem get?_settle_eq_null_iff : m.settle.get? name = some .null ↔ m.Last name .null := by
  rw [get?_settle_eq_some_iff]
  simp [settled_eq_null_iff]

theorem get?_settle_eq_int_iff {n : ℤ} :
    m.settle.get? name = some (.int n) ↔ m.Last name (.int n) := by
  rw [get?_settle_eq_some_iff]
  simp [settled_eq_int_iff]

/-- The names that count are those that are written. -/
theorem forall_mem_settle_iff {names : List String} :
    (∀ x ∈ m.settle, x.1 ∈ names) ↔ ∀ x ∈ m, x.1 ∈ names := by
  have hnames : ∀ n, n ∈ m.settle.map Prod.fst ↔ n ∈ m.map Prod.fst := by
    intro n
    rw [settle, mem_map_fst_collect, List.map_map]
    rfl
  rw [← List.forall_mem_map (f := Prod.fst) (P := (· ∈ names)),
    ← List.forall_mem_map (f := Prod.fst) (P := (· ∈ names))]
  simp only [hnames]

end Members

/-! ### Reading without settling -/

/-- A value in which an array or object holds what the given reader reads, with all members of an
object. -/
def writtenOver (limit : ℕ) (inner : Reader Json) : Reader Json
  | '[' :: cs => (body ']' limit inner cs).map fun (vs, cs) ↦ (.array vs, cs)
  | '\x7b' :: cs => (body '\x7d' limit (member limit inner) cs).map fun (m, cs) ↦ (.object m, cs)
  | cs => scalar limit cs

/-- A value with all members of its objects, in which arrays and objects that hold something nest at
most as deep as the second argument says. -/
def written (limit : ℕ) : ℕ → Reader Json
  | 0, cs => writtenOver limit (fun _ ↦ none) cs
  | depth + 1, cs => writtenOver limit (written limit depth) cs

/-- The value that a whole text denotes, with all members of its objects as they are written. -/
def readWritten? (text : String) : Option Json :=
  match written text.toList.length maxDepth (skipBlanks text.toList) with
  | some (v, cs) => if skipBlanks cs = [] then some v else none
  | none => none

/-- What one reader reads is what the other reads, changed by a function. -/
def Follows {α β : Type} (f : α → β) (r : Reader β) (s : Reader α) : Prop :=
  ∀ cs, r cs = (s cs).map (Prod.map f id)

section Follows

variable {α β : Type} {f : α → β} {r : Reader β} {s : Reader α}

/-- Readers of parts that follow one another make readers of rows of parts that do. -/
theorem Follows.separated (h : Follows f r s) (close : Char) (limit : ℕ) :
    Follows (List.map f) (separated close r limit) (separated close s limit) := by
  intro cs
  induction limit generalizing cs with
  | zero => rfl
  | succ limit ih =>
    rcases hs : s (skipBlanks cs) with _ | ⟨x, tail⟩
    · simp [Json.separated, h _, hs]
    rcases hskip : skipBlanks tail with _ | ⟨c, rest⟩
    · simp [Json.separated, h _, hs, hskip]
    · simp only [Json.separated, h _, hs, Option.map_some, Prod.map, id, Option.bind_eq_bind,
        Option.bind_some, hskip]
      split
      · rw [ih rest]
        rcases Json.separated close s limit rest with _ | ⟨xs, tail⟩ <;> rfl
      · split <;> rfl

theorem Follows.body (h : Follows f r s) (close : Char) (limit : ℕ) :
    Follows (List.map f) (body close limit r) (body close limit s) := by
  intro cs
  rw [Json.body, Json.body]
  rcases skipBlanks cs with _ | ⟨c, rest⟩
  · rfl
  · show (if c = close then _ else _) = Option.map _ (if c = close then _ else _)
    split
    · rfl
    · exact h.separated close limit (c :: rest)

end Follows

/-- The same for the value of a member, whose name is kept. -/
theorem Follows.member {f : Json → Json} {r s : Reader Json} (h : Follows f r s) (limit : ℕ) :
    Follows (Prod.map id f) (member limit r) (member limit s) := by
  intro cs
  rcases cs with _ | ⟨c, cs⟩
  · rfl
  by_cases hc : c = '"'
  · subst hc
    rw [Json.member, Json.member]
    rcases quoted limit cs with _ | ⟨name, tail⟩
    · rfl
    rcases hskip : skipBlanks tail with _ | ⟨d, rest⟩
    · simp [hskip]
    by_cases hd : d = ':'
    · subst hd
      simp only [Option.bind_eq_bind, Option.bind_some, hskip, h _]
      rcases s (skipBlanks rest) with _ | ⟨v, after⟩ <;> rfl
    · simp [hskip, hd]
  · simp [Json.member, hc]

/-! ### Reading and then settling -/

theorem eq_of_word {w : String} {u v : Json} {cs rest : List Char}
    (h : word w u cs = some (v, rest)) : v = u := by
  obtain ⟨_, -, hv⟩ := Option.map_eq_some_iff.1 h
  exact (Prod.mk.inj hv).1.symm

theorem settled_of_unsigned {negative : Bool} {v : Json} {cs rest : List Char}
    (h : unsigned negative cs = some (v, rest)) : settled v = v := by
  rw [unsigned] at h
  obtain ⟨⟨whole, cs₁⟩, -, h⟩ := Option.bind_eq_some_iff.1 h
  obtain ⟨_, -, h⟩ := Option.bind_eq_some_iff.1 h
  obtain ⟨⟨after?, cs₂⟩, -, h⟩ := Option.bind_eq_some_iff.1 h
  obtain ⟨⟨exponent?, cs₃⟩, -, h⟩ := Option.bind_eq_some_iff.1 h
  dsimp only at h
  split at h
  · rw [← (Prod.mk.inj (Option.some.inj h)).1]
    rfl
  · rw [← (Prod.mk.inj (Option.some.inj h)).1]
    rfl

/-- A value that is neither array nor object is settled. -/
theorem settled_of_scalar {limit : ℕ} {cs rest : List Char} {v : Json}
    (h : scalar limit cs = some (v, rest)) : settled v = v := by
  rw [scalar.eq_def] at h
  split at h
  · cases h
  split at h
  · obtain ⟨_, -, hv⟩ := Option.map_eq_some_iff.1 h
    rw [← (Prod.mk.inj hv).1]
    rfl
  iterate 5
    split at h
    · rw [eq_of_word h]
      rfl
  split at h
  · split at h
    · rw [eq_of_word h]
      rfl
    · exact settled_of_unsigned h
  · exact settled_of_unsigned h

theorem follows_scalar (limit : ℕ) : Follows settled (scalar limit) (scalar limit) := by
  intro cs
  rcases h : scalar limit cs with _ | ⟨v, rest⟩
  · rfl
  · rw [Option.map_some, Prod.map, settled_of_scalar h, id]

/-- Settling an array or object is settling its parts, and for an object what it makes of them. -/
theorem Follows.valueOver {r s : Reader Json} (h : Follows settled r s) (limit : ℕ) :
    Follows settled (valueOver limit r) (writtenOver limit s) := by
  intro cs
  by_cases hbracket : ∃ rest, cs = '[' :: rest
  · obtain ⟨rest, rfl⟩ := hbracket
    rw [Json.valueOver.eq_1, writtenOver.eq_1, h.body ']' limit rest, Option.map_map,
      Option.map_map]
    refine congrArg (fun g ↦ Option.map g _) (funext fun x ↦ ?_)
    simp [settled_array]
  by_cases hbrace : ∃ rest, cs = '\x7b' :: rest
  · obtain ⟨rest, rfl⟩ := hbrace
    rw [Json.valueOver.eq_2, writtenOver.eq_2, (h.member limit).body '\x7d' limit rest,
      Option.map_map, Option.map_map]
    refine congrArg (fun g ↦ Option.map g _) (funext fun x ↦ ?_)
    simp [settled_object, Members.settle]
  · rw [Json.valueOver.eq_3 limit r cs (not_exists.1 hbracket) (not_exists.1 hbrace),
      writtenOver.eq_3 limit s cs (not_exists.1 hbracket) (not_exists.1 hbrace)]
    exact follows_scalar limit cs

/-- **The reader makes of every text the settled form of what is written there**, at every depth. -/
theorem follows_value (limit depth : ℕ) :
    Follows settled (value limit depth) (written limit depth) := by
  induction depth with
  | zero => exact Follows.valueOver (r := fun _ ↦ none) (s := fun _ ↦ none) (fun _ ↦ rfl) limit
  | succ depth ih => exact ih.valueOver limit

/-- **A text denotes what is left when the value that is written in it is settled.** -/
theorem read?_eq (text : String) : read? text = (readWritten? text).map settled := by
  rw [read?, readWithin?, readWritten?]
  simp only [follows_value _ _ _]
  rcases written text.toList.length maxDepth (skipBlanks text.toList) with _ | ⟨v, rest⟩
  · rfl
  · show (if skipBlanks rest = [] then _ else _) =
      Option.map _ (if skipBlanks rest = [] then _ else _)
    split <;> rfl

end ElectionKeys.Json
