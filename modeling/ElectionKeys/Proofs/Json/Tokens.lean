import Mathlib
import ElectionKeys.Json.Printer
import ElectionKeys.Json.Reader
import ElectionKeys.Text.Lemmas

/-!
# Reading printed tokens

The reader gives back the numbers and the texts that the printer writes. A number has no end of its
own: it goes on as long as its characters do. So what a reader makes of a printed token is said for
every text behind it that does not carry a number on (`Stops`), and `Reads` is that statement for
any reader and any token.

* `unsigned_digits`: the decimal digits of a number read as the number, up to the limit on their
  count, which is the only thing that can go wrong.
* `quoted_quote`: a quoted text reads as the text, whatever characters it has. Each of them is read
  from its own escape in one step (`characters_escapeChar`), so the reader needs one step a
  character and one for the closing quote.
-/

namespace ElectionKeys.Json

/-! ### Blanks -/

theorem skipBlanks_append {blanks : List Char} (h : ∀ c ∈ blanks, isBlank c = true)
    (rest : List Char) : skipBlanks (blanks ++ rest) = skipBlanks rest :=
  List.dropWhile_append_of_pos h

/-- What starts with another character is left alone. -/
theorem skipBlanks_cons {c : Char} (h : isBlank c = false) (cs : List Char) :
    skipBlanks (c :: cs) = c :: cs := by
  rw [skipBlanks, List.dropWhile_cons_of_neg (by simp [h])]

/-- A layout puts nothing but blanks between tokens. -/
structure Layout.Blank (L : Layout) : Prop where
  lineAt : ∀ level, ∀ c ∈ L.lineAt level, isBlank c = true
  afterColon : ∀ c ∈ L.afterColon, isBlank c = true

/-- The layout of documents ends lines and sets them in, and has a space behind each colon. -/
theorem Layout.blank_pretty : Layout.pretty.Blank where
  lineAt level c h := by
    rcases List.mem_cons.1 h with rfl | h
    · rfl
    · rw [List.eq_of_mem_replicate h]
      rfl
  afterColon c h := by
    rw [List.mem_singleton.1 h]
    rfl

/-! ### What does not carry a number on -/

/-- The text does not start with a character that could belong to the number before it. -/
def Stops (rest : List Char) : Prop :=
  ∀ c ∈ rest.head?, isDigit c = false ∧ c ≠ '.' ∧ c ≠ 'e' ∧ c ≠ 'E'

/-- The first character decides. -/
theorem stops_cons {c : Char} {cs : List Char}
    (h : isDigit c = false ∧ c ≠ '.' ∧ c ≠ 'e' ∧ c ≠ 'E') : Stops (c :: cs) := by
  intro d hd
  rw [List.head?_cons, Option.mem_some_iff] at hd
  exact hd ▸ h

/-- No blank belongs to a number. -/
theorem stops_of_isBlank {c : Char} (h : isBlank c = true) :
    isDigit c = false ∧ c ≠ '.' ∧ c ≠ 'e' ∧ c ≠ 'E' := by
  simp only [isBlank, Bool.or_eq_true, decide_eq_true_eq] at h
  rcases h with ((rfl | rfl) | rfl) | rfl <;> decide

theorem Stops.append_blanks {blanks rest : List Char} (h : Stops rest)
    (hblanks : ∀ c ∈ blanks, isBlank c = true) : Stops (blanks ++ rest) := by
  cases blanks with
  | nil => exact h
  | cons c cs => exact stops_cons (stops_of_isBlank (hblanks c List.mem_cons_self))

/-- The reader takes `cs` for `a`, whatever stands behind it, as long as it does not carry a number
on. -/
def Reads {α : Type} (r : Reader α) (cs : List Char) (a : α) : Prop :=
  ∀ rest, Stops rest → r (cs ++ rest) = some (a, rest)

/-! ### Numbers -/

theorem isDigit_digitChar {d : ℕ} (h : d < 10) : isDigit (Text.digitChar d) = true := by
  revert d
  decide

theorem isDigit_of_mem_digits {n : ℕ} {c : Char} (h : c ∈ Text.digits 10 n) :
    isDigit c = true := by
  obtain ⟨d, hd, rfl⟩ := Text.exists_of_mem_digits (by decide) h
  exact isDigit_digitChar hd

/-- A run of digits is read as far as it goes. -/
theorem digitRun_append {ds rest : List Char} (hne : ds ≠ []) (hds : ∀ c ∈ ds, isDigit c = true)
    (hrest : Stops rest) : digitRun (ds ++ rest) = some (ds, rest) := by
  -- The run ends where the rest begins, because the rest does not start with a digit.
  have hstart : rest.takeWhile isDigit = [] ∧ rest.dropWhile isDigit = rest := by
    cases rest with
    | nil => exact ⟨rfl, rfl⟩
    | cons c cs =>
      have hc := (hrest c (by simp)).1
      exact ⟨List.takeWhile_cons_of_neg (by simp [hc]), List.dropWhile_cons_of_neg (by simp [hc])⟩
  rw [digitRun, List.span_eq_takeWhile_dropWhile, List.takeWhile_append_of_pos hds,
    List.dropWhile_append_of_pos hds, hstart.1, hstart.2, List.append_nil]
  cases ds with
  | nil => exact absurd rfl hne
  | cons c cs => rfl

/-- The digits of a number are the whole part of it, also those of zero, which has a rule of its
own. -/
theorem wholePart_digits (n : ℕ) : Reads wholePart (Text.digits 10 n) (Text.digits 10 n) := by
  intro rest hrest
  by_cases hn : n = 0
  · subst hn
    rfl
  -- Only zero starts with a zero, so every other number is read as a run.
  · have hrun := digitRun_append (Text.digits_ne_nil 10 n) (fun c ↦ isDigit_of_mem_digits) hrest
    have hhead := Text.head?_digits_ne (by decide) (by decide : 10 ≤ 16) hn
    cases hds : Text.digits 10 n with
    | nil => exact absurd hds (Text.digits_ne_nil 10 n)
    | cons c cs =>
      rw [hds] at hrun hhead
      rw [List.cons_append, wholePart, ← List.cons_append, hrun]
      rintro _ ⟨⟩
      exact hhead rfl

/-- What does not carry a number on has no point in front. -/
theorem fractionPart_of_stops {rest : List Char} (h : Stops rest) :
    fractionPart rest = some (none, rest) := by
  rw [fractionPart]
  rintro cs rfl
  exact (h '.' rfl).2.1 rfl

/-- Nor does it start with the letter of an exponent. -/
theorem exponentPart_of_stops {rest : List Char} (h : Stops rest) :
    exponentPart rest = some (none, rest) := by
  rw [exponentPart]
  · rintro cs rfl
    exact (h 'e' rfl).2.2.1 rfl
  · rintro cs rfl
    exact (h 'E' rfl).2.2.2 rfl

/-- **The decimal digits of a number read as the number**, if there are not too many of them. -/
theorem unsigned_digits (negative : Bool) {n : ℕ} (h : n < 10 ^ maxWholeDigits) :
    Reads (unsigned negative) (Text.digits 10 n) (.int (if negative then -(n : ℤ) else n)) := by
  intro rest hrest
  have hlen : (Text.digits 10 n).length ≤ maxWholeDigits :=
    Text.length_digits_le (by decide) (by decide) h
  have hvalue : decimal (Text.digits 10 n) = n := by
    rw [decimal, Text.ofDigits?_digits (by decide) (by decide), Option.getD_some]
  rw [unsigned, wholePart_digits n rest hrest]
  simp only [Option.bind_eq_bind, Option.bind_some, guard, hlen, if_true,
    fractionPart_of_stops hrest, exponentPart_of_stops hrest, hvalue, Option.pure_def]

/-! ### Text -/

/-- The printer's hexadecimal digits are lower case, and the reader takes either case. -/
theorem hexValue?_lowerHexDigit {d : ℕ} (h : d < 16) : hexValue? (lowerHexDigit d) = some d := by
  revert d
  decide

/-- The escape of a control character without a short form names the character. -/
theorem unicodeEscape_control {c : Char} (h : c.toNat < 32) (cs : List Char) :
    unicodeEscape ('0' :: '0' :: lowerHexDigit (c.toNat / 16) :: lowerHexDigit (c.toNat % 16) ::
      cs) = some (c, cs) := by
  have hzero : hexValue? '0' = some 0 := by decide
  have hunit : ((0 * 16 + 0) * 16 + c.toNat / 16) * 16 + c.toNat % 16 = c.toNat := by omega
  have hsmall : c.toNat < 0xD800 ∨ 0xDFFF < c.toNat := by omega
  have hhigh := hexValue?_lowerHexDigit (show c.toNat / 16 < 16 by omega)
  have hlow := hexValue?_lowerHexDigit (show c.toNat % 16 < 16 by omega)
  simp only [unicodeEscape, hexUnit, hzero, hhigh, hlow, Option.bind_eq_bind, Option.bind_some,
    hunit, if_pos hsmall, Char.ofNat_toNat]

/-- One step reads one character from what the printer makes of it. -/
theorem characters_escapeChar (fuel : ℕ) (c : Char) (cs : List Char) :
    characters (fuel + 1) (escapeChar c ++ cs) =
      (characters fuel cs).map fun x ↦ (c :: x.1, x.2) := by
  have hescape : ∀ (d : Char) (ds : List Char), escaped (d :: ds) = some (c, cs) →
      characters (fuel + 1) ('\\' :: d :: ds) =
        (characters fuel cs).map fun x ↦ (c :: x.1, x.2) := by
    intro d ds h
    rw [characters, if_neg (by decide), if_pos rfl, h]
    simp only [Option.bind_eq_bind, Option.bind_some]
    cases characters fuel cs <;> rfl
  -- The escapes of two characters come first, then that of six, then the character itself.
  rw [escapeChar]
  split_ifs with h1 h2 h3 h4 h5 h6 h7 h8
  · exact hescape '"' cs (by rw [h1]; rfl)
  · exact hescape '\\' cs (by rw [h2]; rfl)
  · exact hescape 'n' cs (by rw [h3]; rfl)
  · exact hescape 'r' cs (by rw [h4]; rfl)
  · exact hescape 't' cs (by rw [h5]; rfl)
  · exact hescape 'b' cs (by rw [h6]; rfl)
  · exact hescape 'f' cs (by rw [h7]; rfl)
  · exact hescape 'u' _ (unicodeEscape_control h8 cs)
  · rw [List.singleton_append, characters, if_neg h1, if_neg h2, if_neg h8]
    cases characters fuel cs <;> rfl

/-- One step a character, and one for the closing quote. -/
theorem characters_flatMap {s : List Char} {fuel : ℕ} (h : s.length < fuel) (rest : List Char) :
    characters fuel (s.flatMap escapeChar ++ '"' :: rest) = some (s, rest) := by
  induction s generalizing fuel with
  | nil =>
    obtain ⟨k, rfl⟩ := Nat.exists_eq_add_of_lt h
    rfl
  | cons c s ih =>
    obtain ⟨k, rfl⟩ : ∃ k, fuel = k + 1 := ⟨fuel - 1, by omega⟩
    rw [List.flatMap_cons, List.append_assoc, characters_escapeChar,
      ih (by rw [List.length_cons] at h; omega)]
    rfl

theorem escapeChar_ne_nil (c : Char) : escapeChar c ≠ [] := by
  rw [escapeChar]
  split_ifs <;> simp

/-- A text that is put together of nonempty pieces is at least as long as there are pieces. -/
theorem length_le_length_flatMap {α : Type} {f : α → List Char} (hf : ∀ x, f x ≠ [])
    (xs : List α) : xs.length ≤ (xs.flatMap f).length := by
  induction xs with
  | nil => exact Nat.le_refl 0
  | cons x xs ih =>
    have hx := List.length_pos_iff.2 (hf x)
    rw [List.flatMap_cons, List.length_append, List.length_cons]
    omega

theorem quote_append (s : String) (rest : List Char) :
    quote s ++ rest = '"' :: (s.toList.flatMap escapeChar ++ '"' :: rest) := by
  simp [quote]

/-- **A quoted text reads as the text**, under any limit that its own length allows. -/
theorem quoted_quote {s : String} {limit : ℕ} (h : (quote s).length ≤ limit) (rest : List Char) :
    quoted limit (s.toList.flatMap escapeChar ++ '"' :: rest) = some (s, rest) := by
  have hlen := length_le_length_flatMap escapeChar_ne_nil s.toList
  have hquote : (quote s).length = (s.toList.flatMap escapeChar).length + 2 := by
    simp [quote]
  rw [quoted, characters_flatMap (by omega)]
  simp

end ElectionKeys.Json
