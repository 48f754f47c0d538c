import Mathlib
import ElectionKeys.Proofs.Json.Tokens

/-!
# Reading what was written

The reader gives back every value that the printer writes, in every layout whose gaps are blanks, as
long as the value keeps to the limits of the reader (`Readable`).

* `separated_further`, `body_further`: parts with commas between them read as the list of the parts.
  The reader of a part is a parameter, so this is one induction on the list for the items of arrays
  and for the members of objects.
* `reads_write`: by induction on the value, each constructor is read from what it is written as. The
  induction needs the statement for every text behind the value, since that is where the next item
  starts.
* `read?_pretty`: the same for whole texts.

## The limits, and what stands behind a value

`Readable` has the limits of the reader: how long an integer may be, how deep arrays and objects may
nest, and that an object has each name once. A value outside of it is still printed. What becomes of
its text is another matter, and for integers that are too long it is settled in the module about
overlong values.

Fractions are left out. They are written with the shortest digits that denote them, which need not
be the digits they were read from, and no record has one.

A number ends where its characters do, so that a text behind it could carry it on. All statements
are for texts that do not (`Stops`); a comma, a closing character and the end of a line are such.
-/

namespace ElectionKeys.Json

/-! ### Which values can be read back -/

/-- A number with no more digits than the reader takes. -/
def IsShort (n : ℤ) : Prop := n.natAbs < 10 ^ maxWholeDigits

/-- A value that keeps to the limits of the reader and of which the text says everything: its
integers are not too long, its arrays and objects that hold something nest at most as deep as the
number says, and its objects have each name once. Numbers that are not written as integers are left
out, since the printer rounds them. -/
inductive Readable : ℕ → Json → Prop
  | null (depth : ℕ) : Readable depth .null
  | bool (depth : ℕ) (b : Bool) : Readable depth (.bool b)
  | int (depth : ℕ) {n : ℤ} (h : IsShort n) : Readable depth (.int n)
  | text (depth : ℕ) (s : String) : Readable depth (.text s)
  | noItems (depth : ℕ) : Readable depth (.array [])
  | noMembers (depth : ℕ) : Readable depth (.object [])
  | array {depth : ℕ} {vs : List Json} (h : ∀ v ∈ vs, Readable depth v) :
    Readable (depth + 1) (.array vs)
  | object {depth : ℕ} {ms : Members} (hnames : (ms.map Prod.fst).Nodup)
    (h : ∀ m ∈ ms, Readable depth m.2) : Readable (depth + 1) (.object ms)

/-- What can be read with some depth left can be read with more. -/
theorem Readable.mono {d e : ℕ} {v : Json} (h : Readable d v) (hde : d ≤ e) : Readable e v := by
  induction h generalizing e with
  | null => exact .null e
  | bool _ b => exact .bool e b
  | int _ h => exact .int e h
  | text _ s => exact .text e s
  | noItems => exact .noItems e
  | noMembers => exact .noMembers e
  | array _ ih =>
    obtain ⟨k, rfl⟩ := Nat.exists_eq_add_of_le' (Nat.le_of_add_left_le hde)
    exact .array fun v hv ↦ ih v hv (by omega)
  | object hnames _ ih =>
    obtain ⟨k, rfl⟩ := Nat.exists_eq_add_of_le' (Nat.le_of_add_left_le hde)
    exact .object hnames fun m hm ↦ ih m hm (by omega)

/-! ### Parts with commas between them -/

/-- The text starts with a character that is no blank and not the given one. -/
def Opens (close : Char) (cs : List Char) : Prop :=
  ∃ c ds, cs = c :: ds ∧ isBlank c = false ∧ c ≠ close

/-- What opens with a character that is no blank is where the next part starts. -/
theorem Opens.skipBlanks {close : Char} {cs : List Char} (h : Opens close cs) (rest : List Char) :
    skipBlanks (cs ++ rest) = cs ++ rest := by
  obtain ⟨c, ds, rfl, hc, -⟩ := h
  exact skipBlanks_cons hc (ds ++ rest)

/-- A character that closes a list of parts: one that neither is a comma nor could be skipped or
taken for part of a number. -/
structure Closes (close : Char) : Prop where
  ne_comma : close ≠ ','
  not_blank : isBlank close = false
  stops : isDigit close = false ∧ close ≠ '.' ∧ close ≠ 'e' ∧ close ≠ 'E'

section Separated

variable {α : Type} {part : Reader α} {w : α → List Char} {close : Char} {gap last : List Char}

/-- One step reads one part and decides by the character behind it. -/
theorem separated_succ {lead : List Char} (hlead : ∀ c ∈ lead, isBlank c = true) {x : α}
    {cs : List Char} (hreads : Reads part cs x) (hopens : Opens close cs) {tail : List Char}
    (htail : Stops tail) {c : Char} {rest : List Char} (hskip : skipBlanks tail = c :: rest)
    (fuel : ℕ) :
    separated close part (fuel + 1) (lead ++ (cs ++ tail)) =
      if c = ',' then (separated close part fuel rest).map fun y ↦ (x :: y.1, y.2)
      else if c = close then some ([x], rest) else none := by
  rw [separated, skipBlanks_append hlead, hopens.skipBlanks, hreads tail htail]
  simp only [Option.bind_eq_bind, Option.bind_some, hskip]
  split
  · cases separated close part fuel rest <;> rfl
  · rfl

/-- Parts as they are written behind the first one. -/
def further (gap : List Char) (w : α → List Char) (xs : List α) : List Char :=
  xs.flatMap fun x ↦ ',' :: (gap ++ w x)

/-- What stands behind the first part starts with a comma, a gap and the next part. -/
theorem further_cons (x : α) (xs : List α) (rest : List Char) :
    further gap w (x :: xs) ++ rest = ',' :: (gap ++ (w x ++ (further gap w xs ++ rest))) := by
  simp [further]

/-- Behind every part stands a comma or what closes the parts, so a number among them ends where its
digits do. -/
theorem stops_further (gap : List Char) (w : α → List Char) (hclose : Closes close)
    (hlast : ∀ c ∈ last, isBlank c = true) (xs : List α) (rest : List Char) :
    Stops (further gap w xs ++ (last ++ close :: rest)) := by
  cases xs with
  | nil => exact (stops_cons hclose.stops).append_blanks hlast
  | cons x xs => exact stops_cons (by decide)

/-- **Parts with commas between them, each with a gap in front, read as the list of the parts.** -/
theorem separated_further (hclose : Closes close) (hgap : ∀ c ∈ gap, isBlank c = true)
    (hlast : ∀ c ∈ last, isBlank c = true) (lead : List Char)
    (hlead : ∀ c ∈ lead, isBlank c = true) {x : α} {xs : List α}
    (hreads : ∀ y ∈ x :: xs, Reads part (w y) y) (hopens : ∀ y ∈ x :: xs, Opens close (w y))
    {fuel : ℕ} (hfuel : xs.length < fuel) (rest : List Char) :
    separated close part fuel (lead ++ (w x ++ (further gap w xs ++ (last ++ close :: rest)))) =
      some (x :: xs, rest) := by
  have hx := hreads x List.mem_cons_self
  have hox := hopens x List.mem_cons_self
  have hstops := stops_further gap w hclose hlast xs rest
  obtain ⟨k, rfl⟩ : ∃ k, fuel = k + 1 := ⟨fuel - 1, by omega⟩
  -- Each step leaves the reader in front of the gap before the next part, so the statement is for
  -- every first part and every gap in front of it.
  induction xs generalizing x lead k with
  | nil =>
    have hskip : skipBlanks (last ++ close :: rest) = close :: rest := by
      rw [skipBlanks_append hlast, skipBlanks_cons hclose.not_blank]
    rw [further, List.flatMap_nil, List.nil_append] at hstops ⊢
    rw [separated_succ hlead hx hox hstops hskip, if_neg hclose.ne_comma, if_pos rfl]
  | cons y ys ih =>
    rw [List.length_cons] at hfuel
    obtain ⟨j, rfl⟩ : ∃ j, k = j + 1 := ⟨k - 1, by omega⟩
    have hrest := ih gap hgap (fun z hz ↦ hreads z (List.mem_cons_of_mem x hz))
      (fun z hz ↦ hopens z (List.mem_cons_of_mem x hz)) (hreads y (by simp)) (hopens y (by simp))
      (stops_further gap w hclose hlast ys rest) j (by omega)
    rw [further_cons] at hstops ⊢
    rw [separated_succ hlead hx hox hstops (skipBlanks_cons (by decide) _), if_pos rfl, hrest,
      Option.map_some]

/-- The parts behind the first one are no more than the text is long, and none of them is longer. -/
theorem length_further_bounds (gap : List Char) (w : α → List Char) (xs : List α) :
    xs.length ≤ (further gap w xs).length ∧
      ∀ y ∈ xs, (w y).length ≤ (further gap w xs).length := by
  refine ⟨length_le_length_flatMap (fun x ↦ List.cons_ne_nil _ _) xs, fun y hy ↦ ?_⟩
  obtain ⟨front, back, rfl⟩ := List.append_of_mem hy
  rw [further, List.flatMap_append, List.flatMap_cons]
  simp only [List.length_append, List.length_cons]
  omega

/-- What stands between an opening and a closing character reads as the list of the parts, if each
part that keeps to the limit is read. -/
theorem body_further (hclose : Closes close) (hgap : ∀ c ∈ gap, isBlank c = true)
    (hlast : ∀ c ∈ last, isBlank c = true) {x : α} {xs : List α} {limit : ℕ}
    (hlimit : (w x).length + (further gap w xs).length < limit)
    (hopens : ∀ y ∈ x :: xs, Opens close (w y))
    (hreads : ∀ y ∈ x :: xs, (w y).length ≤ limit → Reads part (w y) y) (rest : List Char) :
    body close limit part (gap ++ (w x ++ (further gap w xs ++ (last ++ close :: rest)))) =
      some (x :: xs, rest) := by
  obtain ⟨hcount, hbound⟩ := length_further_bounds gap w xs
  have hparts : ∀ y ∈ x :: xs, Reads part (w y) y := by
    intro y hy
    refine hreads y hy ?_
    rcases List.mem_cons.1 hy with rfl | hy
    · omega
    · have hle := hbound y hy
      omega
  have hread := separated_further hclose hgap hlast [] (fun c h ↦ nomatch h) hparts hopens
    (show xs.length < limit by omega) rest
  -- The gap in front is skipped before the first character decides whether there is a part.
  rw [List.nil_append] at hread
  rw [body, skipBlanks_append hgap, (hopens x List.mem_cons_self).skipBlanks]
  obtain ⟨c, ds, hc, -, hne⟩ := hopens x List.mem_cons_self
  rw [hc, List.cons_append] at hread ⊢
  rw [← hread]
  exact if_neg hne

/-- Nothing between the two characters reads as no parts. -/
theorem body_close (hclose : Closes close) (limit : ℕ) (rest : List Char) :
    body close limit part (close :: rest) = some ([], rest) := by
  rw [body, skipBlanks_cons hclose.not_blank]
  exact if_pos rfl

end Separated

/-! ### Values that hold no others -/

section Scalar

variable {limit : ℕ} {inner : Reader Json}

/-- What is read whatever arrays and objects hold is read at every depth. -/
theorem Reads.of_valueOver {depth : ℕ} {cs : List Char} {v : Json}
    (h : ∀ inner, Reads (valueOver limit inner) cs v) : Reads (value limit depth) cs v := by
  cases depth with
  | zero => exact h fun _ ↦ none
  | succ depth => exact h (value limit depth)

/-- A word is read as what it stands for, whatever follows. Not even a letter behind it makes a
difference at this place. -/
theorem word_append (text : String) (v : Json) (rest : List Char) :
    word text v (text.toList ++ rest) = some (v, rest) := by
  rw [word, Text.isPrefixOf?_append, Option.map_some]

theorem reads_null : Reads (valueOver limit inner) "null".toList .null :=
  fun rest _ ↦ word_append "ull" .null rest

theorem reads_true : Reads (valueOver limit inner) "true".toList (.bool true) :=
  fun rest _ ↦ word_append "rue" (.bool true) rest

theorem reads_false : Reads (valueOver limit inner) "false".toList (.bool false) :=
  fun rest _ ↦ word_append "alse" (.bool false) rest

/-- The first character of a number is one of ten, by which the reader knows it for a number. -/
theorem digits_eq_cons (n : ℕ) : ∃ d ds, d < 10 ∧ Text.digits 10 n = Text.digitChar d :: ds := by
  cases hds : Text.digits 10 n with
  | nil => exact absurd hds (Text.digits_ne_nil 10 n)
  | cons c ds =>
    obtain ⟨d, hd, rfl⟩ := Text.exists_of_mem_digits (n := n) (by decide)
      (hds ▸ List.mem_cons_self : c ∈ Text.digits 10 n)
    exact ⟨d, ds, hd, rfl⟩

theorem valueOver_digitChar {d : ℕ} (h : d < 10) (cs : List Char) :
    valueOver limit inner (Text.digitChar d :: cs) = unsigned false (Text.digitChar d :: cs) := by
  interval_cases d <;> rfl

theorem valueOver_minus {d : ℕ} (h : d < 10) (cs : List Char) :
    valueOver limit inner ('-' :: Text.digitChar d :: cs) =
      unsigned true (Text.digitChar d :: cs) := by
  interval_cases d <;> rfl

/-- An integer is read with its sign, if its digits are not too many. -/
theorem reads_int {n : ℤ} (h : IsShort n) :
    Reads (valueOver limit inner) (intChars n) (.int n) := by
  intro rest hrest
  obtain ⟨d, ds, hd, hds⟩ := digits_eq_cons n.natAbs
  have hread := fun negative ↦ unsigned_digits negative h rest hrest
  rw [hds] at hread
  rw [intChars, hds]
  split
  · next hneg =>
    rw [List.cons_append, List.cons_append, valueOver_minus hd, ← List.cons_append, hread true,
      if_pos rfl, show -(n.natAbs : ℤ) = n by omega]
  · next hneg =>
    rw [List.cons_append, valueOver_digitChar hd, ← List.cons_append, hread false,
      if_neg Bool.false_ne_true, show (n.natAbs : ℤ) = n by omega]

/-- A text is read back from its quoted form. -/
theorem reads_text {s : String} (h : (quote s).length ≤ limit) :
    Reads (valueOver limit inner) (quote s) (.text s) := by
  intro rest _
  rw [quote_append]
  show (quoted limit (s.toList.flatMap escapeChar ++ '"' :: rest)).map _ = _
  rw [quoted_quote h, Option.map_some]

end Scalar

/-! ### Members -/

/-- A member as it is written. -/
def writeMember (L : Layout) (level : ℕ) (m : String × Json) : List Char :=
  quote m.1 ++ ':' :: (L.afterColon ++ write L level m.2)

/-- A member is its quoted name, a colon and its value, with the gap of the layout between the last
two. -/
theorem reads_member {L : Layout} (hL : L.Blank) {level limit : ℕ} {inner : Reader Json}
    {m : String × Json} (hname : (quote m.1).length ≤ limit)
    (hopens : Opens ']' (write L level m.2)) (hreads : Reads inner (write L level m.2) m.2) :
    Reads (member limit inner) (writeMember L level m) m := by
  intro rest hrest
  have hcolon : isBlank ':' = false := by decide
  rw [writeMember, List.append_assoc, quote_append, member, quoted_quote hname]
  simp only [Option.bind_eq_bind, Option.bind_some, List.cons_append, List.append_assoc,
    skipBlanks_cons hcolon, skipBlanks_append hL.afterColon, hopens.skipBlanks, hreads rest hrest]

theorem opens_writeMember (L : Layout) (level : ℕ) (m : String × Json) :
    Opens '}' (writeMember L level m) :=
  ⟨'"', _, rfl, by decide, by decide⟩

/-- Collecting members of different names appends one after the other. -/
theorem foldl_put_eq_append {ms : Members} (l : Members) (h : ((l ++ ms).map Prod.fst).Nodup) :
    ms.foldl (fun l m ↦ Association.put l m.1 m.2) l = l ++ ms := by
  -- The object that is being collected is a prefix of the members, so no put replaces a value.
  induction ms generalizing l with
  | nil => exact (List.append_nil l).symm
  | cons m ms ih =>
    rw [List.append_cons] at h
    have hnew : ∀ x ∈ l, x.1 ≠ m.1 := by
      intro x hx heq
      rw [List.map_append, List.map_append, List.append_assoc] at h
      exact (List.nodup_append.1 h).2.2 x.1 (List.mem_map_of_mem hx) m.1 (by simp) heq
    rw [List.foldl_cons, Association.put_of_new hnew, ih _ h, ← List.append_cons]

/-- Members of different names are the members of the object that they denote. -/
theorem collect_of_nodup {ms : Members} (h : (ms.map Prod.fst).Nodup) : Members.collect ms = ms :=
  foldl_put_eq_append [] h

/-! ### Values -/

/-- The printer writes items as parts with commas between them. -/
theorem writeItems_eq (L : Layout) (level : ℕ) (vs : List Json) :
    writeItems L level vs = further (L.lineAt level) (write L level) vs := by
  induction vs with
  | nil => rw [writeItems, further, List.flatMap_nil]
  | cons v vs ih => rw [writeItems, ih, further, further, List.flatMap_cons, List.cons_append]

/-- The printer writes members in the same way. -/
theorem writeMembers_eq (L : Layout) (level : ℕ) (ms : Members) :
    writeMembers L level ms = further (L.lineAt level) (writeMember L level) ms := by
  induction ms with
  | nil => rw [writeMembers, further, List.flatMap_nil]
  | cons m ms ih => simp [writeMembers, ih, further, writeMember]

theorem write_array (L : Layout) (level : ℕ) (v : Json) (vs : List Json) (rest : List Char) :
    write L level (.array (v :: vs)) ++ rest =
      '[' :: (L.lineAt (level + 1) ++ (write L (level + 1) v ++
        (further (L.lineAt (level + 1)) (write L (level + 1)) vs ++
          (L.lineAt level ++ ']' :: rest)))) := by
  simp [write, writeItems_eq]

theorem write_object (L : Layout) (level : ℕ) (m : String × Json) (ms : Members)
    (rest : List Char) :
    write L level (.object (m :: ms)) ++ rest =
      '\x7b' :: (L.lineAt (level + 1) ++ (writeMember L (level + 1) m ++
        (further (L.lineAt (level + 1)) (writeMember L (level + 1)) ms ++
          (L.lineAt level ++ '\x7d' :: rest)))) := by
  simp [write, writeMembers_eq, writeMember]

theorem opens_int (L : Layout) (level : ℕ) (n : ℤ) : Opens ']' (write L level (.int n)) := by
  have hdigit : ∀ d < 10, isBlank (Text.digitChar d) = false ∧ Text.digitChar d ≠ ']' := by decide
  obtain ⟨d, ds, hd, hds⟩ := digits_eq_cons n.natAbs
  rw [write, intChars, hds]
  split
  · exact ⟨'-', _, rfl, by decide, by decide⟩
  · exact ⟨_, ds, rfl, hdigit d hd⟩

theorem opens_array (L : Layout) (level : ℕ) (vs : List Json) :
    Opens ']' (write L level (.array vs)) := by
  cases vs with
  | nil => exact ⟨'[', _, rfl, by decide, by decide⟩
  | cons v vs => exact ⟨'[', _, rfl, by decide, by decide⟩

theorem opens_object (L : Layout) (level : ℕ) (ms : Members) :
    Opens ']' (write L level (.object ms)) := by
  cases ms with
  | nil => exact ⟨'\x7b', _, rfl, by decide, by decide⟩
  | cons m ms => exact ⟨'\x7b', _, rfl, by decide, by decide⟩

/-- No value is written with a blank in front, or starts like the end of an array. -/
theorem opens_write {depth : ℕ} {v : Json} (h : Readable depth v) (L : Layout) (level : ℕ) :
    Opens ']' (write L level v) := by
  cases h with
  | null => exact ⟨'n', _, rfl, by decide, by decide⟩
  | bool _ b =>
    cases b with
    | false => exact ⟨'f', _, rfl, by decide, by decide⟩
    | true => exact ⟨'t', _, rfl, by decide, by decide⟩
  | int => exact opens_int L level _
  | text => exact ⟨'"', _, rfl, by decide, by decide⟩
  | noItems => exact opens_array L level []
  | noMembers => exact opens_object L level []
  | array => exact opens_array L level _
  | object => exact opens_object L level _

theorem closes_bracket : Closes ']' := ⟨by decide, by decide, by decide⟩

theorem closes_brace : Closes '\x7d' := ⟨by decide, by decide, by decide⟩

/-- A bracket starts an array. -/
theorem valueOver_bracket (limit : ℕ) (inner : Reader Json) (cs : List Char) :
    valueOver limit inner ('[' :: cs) =
      (body ']' limit inner cs).map fun x ↦ (.array x.1, x.2) :=
  rfl

/-- A brace starts an object, of whose members the last of each name counts. -/
theorem valueOver_brace (limit : ℕ) (inner : Reader Json) (cs : List Char) :
    valueOver limit inner ('\x7b' :: cs) =
      (body '\x7d' limit (member limit inner) cs).map fun x ↦
        (.object (Members.collect x.1), x.2) :=
  rfl

section Nested

variable {L : Layout} {limit level : ℕ} {inner : Reader Json}

/-- An array is read if its items are, as far as they keep to the limit of the array. -/
theorem reads_array (hL : L.Blank) {vs : List Json}
    (hlimit : (write L level (.array vs)).length ≤ limit)
    (hopens : ∀ v ∈ vs, Opens ']' (write L (level + 1) v))
    (hreads : ∀ v ∈ vs, (write L (level + 1) v).length ≤ limit →
      Reads inner (write L (level + 1) v) v) :
    Reads (valueOver limit inner) (write L level (.array vs)) (.array vs) := by
  intro rest _
  cases vs with
  | nil =>
    rw [write, List.cons_append, List.singleton_append, valueOver_bracket,
      body_close closes_bracket, Option.map_some]
  | cons v vs =>
    have hlen := congrArg List.length (write_array L level v vs [])
    simp only [List.append_nil, List.length_cons, List.length_append] at hlen
    rw [write_array, valueOver_bracket, body_further closes_bracket (hL.lineAt _) (hL.lineAt _)
      (by omega) hopens hreads, Option.map_some]

/-- An object is read if its names are different and the values under them are read, as far as
they keep to the limit of the object. -/
theorem reads_object (hL : L.Blank) {ms : Members} (hnames : (ms.map Prod.fst).Nodup)
    (hlimit : (write L level (.object ms)).length ≤ limit)
    (hopens : ∀ m ∈ ms, Opens ']' (write L (level + 1) m.2))
    (hreads : ∀ m ∈ ms, (write L (level + 1) m.2).length ≤ limit →
      Reads inner (write L (level + 1) m.2) m.2) :
    Reads (valueOver limit inner) (write L level (.object ms)) (.object ms) := by
  intro rest _
  cases ms with
  | nil =>
    rw [write, List.cons_append, List.singleton_append, valueOver_brace, body_close closes_brace,
      Option.map_some, collect_of_nodup hnames]
  | cons m ms =>
    have hlen := congrArg List.length (write_object L level m ms [])
    simp only [List.append_nil, List.length_cons, List.length_append] at hlen
    have hmembers : ∀ y ∈ m :: ms, (writeMember L (level + 1) y).length ≤ limit →
        Reads (member limit inner) (writeMember L (level + 1) y) y := by
      intro y hy hle
      rw [writeMember] at hle
      simp only [List.length_cons, List.length_append] at hle
      exact reads_member hL (by omega) (hopens y hy) (hreads y hy (by omega))
    have hopensMember : ∀ y ∈ m :: ms, Opens '\x7d' (writeMember L (level + 1) y) :=
      fun y _ ↦ opens_writeMember L (level + 1) y
    rw [write_object, valueOver_brace, body_further closes_brace (hL.lineAt _) (hL.lineAt _)
      (by omega) hopensMember hmembers, Option.map_some, collect_of_nodup hnames]

end Nested

/-- **The reader takes what is written for a value as the value**, with any depth at which it is
readable and under any limit that the text keeps to. -/
theorem reads_write {L : Layout} (hL : L.Blank) {depth : ℕ} {v : Json} (h : Readable depth v)
    (limit level : ℕ) (hlimit : (write L level v).length ≤ limit) :
    Reads (value limit depth) (write L level v) v := by
  -- The items of an array stand one level deeper, so the statement is for every level.
  induction h generalizing level with
  | null depth => exact .of_valueOver fun inner ↦ reads_null
  | bool depth b =>
    cases b with
    | false => exact .of_valueOver fun inner ↦ reads_false
    | true => exact .of_valueOver fun inner ↦ reads_true
  | int depth h => exact .of_valueOver fun inner ↦ reads_int h
  | text depth s => exact .of_valueOver fun inner ↦ reads_text hlimit
  | noItems depth =>
    exact .of_valueOver fun inner ↦
      reads_array hL hlimit (List.forall_mem_nil _) (List.forall_mem_nil _)
  | noMembers depth =>
    exact .of_valueOver fun inner ↦
      reads_object hL List.nodup_nil hlimit (List.forall_mem_nil _) (List.forall_mem_nil _)
  | @array depth vs hvs ih =>
    exact reads_array hL hlimit (fun v hv ↦ opens_write (hvs v hv) L _) fun v hv ↦ ih v hv _
  | @object depth ms hnames hms ih =>
    exact reads_object hL hnames hlimit (fun m hm ↦ opens_write (hms m hm) L _)
      fun m hm ↦ ih m hm _

/-- The characters of a document: the printed value and the end of its line. -/
theorem toList_pretty_append (v : Json) :
    (v.pretty ++ "\n").toList = write .pretty 0 v ++ ['\n'] := by
  rw [String.toList_append, pretty, String.toList_ofList]
  rfl

/-- **A text that is nothing but a printed value and the end of its line reads as the value.** -/
theorem read?_pretty {v : Json} (h : Readable maxDepth v) : read? (v.pretty ++ "\n") = some v := by
  have hopens := (opens_write h .pretty 0).skipBlanks ['\n']
  have hlen : (write .pretty 0 v).length ≤ (write .pretty 0 v ++ ['\n']).length := by
    rw [List.length_append]
    omega
  have hreads := reads_write Layout.blank_pretty h _ 0 hlen ['\n'] (stops_cons (by decide))
  rw [read?, readWithin?, toList_pretty_append]
  simp only [hopens, hreads]
  rfl

end ElectionKeys.Json
