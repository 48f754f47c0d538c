import Mathlib
import ElectionKeys.Text.BigNumber
import ElectionKeys.Text.Lemmas

/-!
# The text of a large number

The printer writes the marker and the digits of the number; the reader takes the marker off, reads
the digits and refuses a leading zero. That a text which is written reads back rests on what
`Text.digits` is known to write: digits that read back, and a leading zero only where it is the one
digit there is (`ofText_toText`).

That no other text is read as the number is a fact about the reader, which by itself takes any run
of digits. `IsHex` says without the reader or the printer what it lets through, and `IsHex.eq` that
this is one form for each number: but for zero it is positional notation, whose first digit is not
zero. All other texts are refused, and `Refused` says for what.
-/

namespace ElectionKeys.BigNumber

/-- The text of a number is the marker and its digits. -/
theorem toList_toText (n : ℕ) : (toText n).toList = marker.toList ++ Text.digits 16 n := by
  rw [toText, String.toList_append, String.toList_ofList]

/-- Digits that are written are read as the number. -/
theorem ofDigits_digits (n : ℕ) : ofDigits (Text.digits 16 n) = .ok n := by
  rw [ofDigits, Text.ofDigits?_digits (by decide) (by decide)]
  refine if_neg ?_
  rintro ⟨hlen, hhead⟩
  by_cases hn : n = 0
  · subst hn
    exact absurd hlen (by decide)
  · exact Text.head?_digits_ne (by decide) (by decide) hn hhead

/-- **The text of a number denotes the number.** -/
theorem ofText_toText (n : ℕ) : ofText (toText n) = .ok n := by
  rw [ofText, toList_toText, Text.isPrefixOf?_append]
  exact ofDigits_digits n

/-! ### The texts that denote a number -/

/-- The upper case hexadecimal digits in the order of their values. -/
def hexDigits : List Char :=
  ['0', '1', '2', '3', '4', '5', '6', '7', '8', '9', 'A', 'B', 'C', 'D', 'E', 'F']

/-- Characters are the hexadecimal digits of a number, with no zero in front of others. -/
structure IsHex (cs : List Char) (n : ℕ) : Prop where
  ne_nil : cs ≠ []
  digits : ∀ c ∈ cs, c ∈ hexDigits
  leading : cs.head? = some '0' → cs = ['0']
  value : Nat.ofDigits 16 (cs.map hexDigits.idxOf).reverse = n

theorem digitValue?_of_mem {c : Char} (h : c ∈ hexDigits) :
    Text.digitValue? c = some (hexDigits.idxOf c) := by
  have hall : hexDigits.map Text.digitValue? = (List.range 16).map some := by decide
  have hlt : hexDigits.idxOf c < 16 := List.idxOf_lt_length_of_mem h
  have hidx : (hexDigits.map Text.digitValue?)[hexDigits.idxOf c]? = some (Text.digitValue? c) := by
    rw [List.getElem?_map, List.getElem?_idxOf h, Option.map_some]
  rw [hall, List.getElem?_map, List.getElem?_range hlt, Option.map_some] at hidx
  exact (Option.some.inj hidx).symm

/-- No other character has a value. -/
theorem mem_of_digitValue? {c : Char} {d : ℕ} (h : Text.digitValue? c = some d) :
    c ∈ hexDigits := by
  rw [← Char.ofNat_toNat c]
  rw [Text.digitValue?] at h
  split at h
  · next hc =>
    have h0 : 48 ≤ c.toNat := hc.1
    have h9 : c.toNat ≤ 57 := hc.2
    interval_cases c.toNat <;> decide
  · split at h
    · next hc =>
      have hA : 65 ≤ c.toNat := hc.1
      have hF : c.toNat ≤ 70 := hc.2
      interval_cases c.toNat <;> decide
    · cases h

/-- The value of a hexadecimal digit is its place among the sixteen. -/
theorem digitBelow?_eq_some_iff {c : Char} {d : ℕ} :
    Text.digitBelow? 16 c = some d ↔ c ∈ hexDigits ∧ hexDigits.idxOf c = d := by
  rw [Text.digitBelow?, Option.filter_eq_some_iff]
  constructor
  · rintro ⟨h, -⟩
    have hc := mem_of_digitValue? h
    rw [digitValue?_of_mem hc] at h
    exact ⟨hc, Option.some.inj h⟩
  · rintro ⟨hc, rfl⟩
    have hlt : hexDigits.idxOf c < 16 := List.idxOf_lt_length_of_mem hc
    exact ⟨digitValue?_of_mem hc, by simpa using hlt⟩

theorem mapM_digitBelow?_eq_some_iff {cs : List Char} {ds : List ℕ} :
    cs.mapM (Text.digitBelow? 16) = some ds ↔
      (∀ c ∈ cs, c ∈ hexDigits) ∧ cs.map hexDigits.idxOf = ds := by
  induction cs generalizing ds with
  | nil => simp
  | cons c cs ih =>
    simp only [List.mapM_cons, Option.bind_eq_bind, Option.bind_eq_some_iff, ih,
      digitBelow?_eq_some_iff, List.forall_mem_cons, List.map_cons]
    constructor
    · rintro ⟨d, ⟨hc, rfl⟩, _, ⟨hcs, rfl⟩, hds⟩
      exact ⟨⟨hc, hcs⟩, Option.some.inj hds⟩
    · rintro ⟨⟨hc, hcs⟩, rfl⟩
      exact ⟨_, ⟨hc, rfl⟩, _, ⟨hcs, rfl⟩, rfl⟩

/-- Only zero itself may start with a zero. -/
theorem no_leading_zero_iff {cs : List Char} :
    ¬ (1 < cs.length ∧ cs.head? = some '0') ↔ (cs.head? = some '0' → cs = ['0']) := by
  rcases cs with _ | ⟨c, _ | ⟨d, rest⟩⟩ <;> simp

/-- A run of digits is read if there is a digit, and nothing but digits. -/
theorem ofDigits?_eq_some_iff {cs : List Char} {n : ℕ} :
    Text.ofDigits? 16 cs = some n ↔
      cs ≠ [] ∧ (∀ c ∈ cs, c ∈ hexDigits) ∧
        Nat.ofDigits 16 (cs.map hexDigits.idxOf).reverse = n := by
  by_cases hnil : cs = []
  · subst hnil
    exact iff_of_false (by simp [Text.ofDigits?]) fun h ↦ h.1 rfl
  rw [Text.ofDigits?.eq_2 16 cs hnil, Option.map_eq_some_iff, and_iff_right hnil]
  simp only [mapM_digitBelow?_eq_some_iff, Positional.read_eq,
    Positional.value_eq_ofDigits]
  constructor
  · rintro ⟨_, ⟨hdigits, rfl⟩, hn⟩
    exact ⟨hdigits, hn⟩
  · rintro ⟨hdigits, hn⟩
    exact ⟨_, ⟨hdigits, rfl⟩, hn⟩

/-- Digits denote nothing if there are none, or a character that is none. -/
theorem ofDigits?_eq_none_iff {cs : List Char} :
    Text.ofDigits? 16 cs = none ↔ cs = [] ∨ ∃ c ∈ cs, c ∉ hexDigits := by
  rw [← not_iff_not, ← ne_eq, Option.ne_none_iff_exists']
  simp [ofDigits?_eq_some_iff]

/-- One digit or more is read, and more than one only if the first is no zero. -/
theorem ofDigits_eq_ok_iff {cs : List Char} {n : ℕ} : ofDigits cs = .ok n ↔ IsHex cs n := by
  rw [ofDigits]
  rcases hread : Text.ofDigits? 16 cs with _ | m
  · refine iff_of_false (by simp) fun h ↦ ?_
    rw [ofDigits?_eq_some_iff.2 ⟨h.ne_nil, h.digits, h.value⟩] at hread
    cases hread
  · obtain ⟨hnil, hdigits, rfl⟩ := ofDigits?_eq_some_iff.1 hread
    show (if _ then _ else _) = _ ↔ _
    split
    · next hzero =>
      exact iff_of_false (by simp) fun h ↦ no_leading_zero_iff.2 h.leading hzero
    · next hzero =>
      rw [Except.ok.injEq]
      exact ⟨fun h ↦ ⟨hnil, hdigits, no_leading_zero_iff.1 hzero, h⟩, fun h ↦ h.value⟩

/-- What follows the marker is the rest of the text. -/
theorem isPrefixOf?_marker_eq_some_iff {text : String} {cs : List Char} :
    marker.toList.isPrefixOf? text.toList = some cs ↔ text = "base16:" ++ String.ofList cs := by
  rw [List.isPrefixOf?_eq_some_iff_append_eq, ← marker, ← String.toList_inj,
    String.toList_append, String.toList_ofList, eq_comm]

/-- **A text denotes a number exactly when it is the marker and the hexadecimal form of the
number.** -/
theorem ofText_eq_ok_iff {text : String} {n : ℕ} :
    ofText text = .ok n ↔ ∃ cs, text = "base16:" ++ String.ofList cs ∧ IsHex cs n := by
  rw [ofText]
  split
  · next hnone =>
    refine iff_of_false (by simp) ?_
    rintro ⟨cs, htext, -⟩
    rw [isPrefixOf?_marker_eq_some_iff.2 htext] at hnone
    cases hnone
  · next cs hcs =>
    rw [ofDigits_eq_ok_iff]
    constructor
    · exact fun h ↦ ⟨cs, isPrefixOf?_marker_eq_some_iff.1 hcs, h⟩
    · rintro ⟨cs', htext, h⟩
      rw [isPrefixOf?_marker_eq_some_iff.2 htext] at hcs
      rwa [← Option.some.inj hcs]

/-! ### One text for each number -/

/-- Digits that are not just a zero are those of their value in positional notation. -/
theorem IsHex.digits_eq {cs : List Char} {n : ℕ} (h : IsHex cs n) (h0 : cs ≠ ['0']) :
    Nat.digits 16 n = (cs.map hexDigits.idxOf).reverse := by
  have hlt : ∀ d ∈ (cs.map hexDigits.idxOf).reverse, d < 16 := by
    intro d hd
    obtain ⟨c, hc, rfl⟩ := List.mem_map.1 (List.mem_reverse.1 hd)
    exact List.idxOf_lt_length_of_mem (h.digits c hc)
  rw [← h.value]
  refine Nat.digits_ofDigits 16 (by decide) _ hlt fun hne ↦ ?_
  rcases cs with _ | ⟨c, rest⟩
  · exact absurd rfl h.ne_nil
  have hget := List.getElem?_idxOf (h.digits c List.mem_cons_self)
  have hlast : ((c :: rest).map hexDigits.idxOf).reverse.getLast hne = hexDigits.idxOf c := by simp
  rw [hlast]
  intro hzero
  rw [hzero] at hget
  exact h0 (h.leading (congrArg some (Option.some.inj hget).symm))

theorem IsHex.eq_zero_iff {cs : List Char} {n : ℕ} (h : IsHex cs n) : n = 0 ↔ cs = ['0'] := by
  constructor
  · intro hn
    by_contra h0
    have hdigits := h.digits_eq h0
    rw [hn, Nat.digits_zero, eq_comm, List.reverse_eq_nil_iff, List.map_eq_nil_iff] at hdigits
    exact h.ne_nil hdigits
  · rintro rfl
    exact h.value.symm

/-- **A number has one hexadecimal form.** -/
theorem IsHex.eq {cs ds : List Char} {n : ℕ} (hcs : IsHex cs n) (hds : IsHex ds n) : cs = ds := by
  by_cases hn : n = 0
  · rw [hcs.eq_zero_iff.1 hn, hds.eq_zero_iff.1 hn]
  · have hmap : cs.map hexDigits.idxOf = ds.map hexDigits.idxOf := by
      rw [← List.reverse_inj, ← hcs.digits_eq (mt hcs.eq_zero_iff.2 hn),
        ← hds.digits_eq (mt hds.eq_zero_iff.2 hn)]
    -- Among the digits, a value has one character.
    have hback : ∀ {es : List Char}, (∀ c ∈ es, c ∈ hexDigits) →
        (es.map hexDigits.idxOf).map (hexDigits[·]?) = es.map some := by
      intro es hes
      rw [List.map_map]
      exact List.map_congr_left fun c hc ↦ List.getElem?_idxOf (hes c hc)
    have hsome : cs.map some = ds.map some := by rw [← hback hcs.digits, hmap, hback hds.digits]
    exact List.map_injective_iff.2 (Option.some_injective _) hsome

/-- **The digits of a number are the only ones that denote it.** -/
theorem isHex_iff_eq_digits {cs : List Char} {n : ℕ} : IsHex cs n ↔ cs = Text.digits 16 n := by
  have hdigits : IsHex (Text.digits 16 n) n := ofDigits_eq_ok_iff.1 (ofDigits_digits n)
  constructor
  · exact fun h ↦ h.eq hdigits
  · rintro rfl
    exact hdigits

/-- **The reader takes a text for a number exactly if it is the printer's text of it.** -/
theorem ofText_eq_ok_iff_eq_toText {text : String} {n : ℕ} :
    ofText text = .ok n ↔ text = toText n := by
  simp only [ofText_eq_ok_iff, isHex_iff_eq_digits, exists_eq_right]
  rfl

/-- Every integer that is not negative has a text, and no other. -/
theorem toText?_eq_ok_iff {x : ℤ} {text : String} :
    toText? x = .ok text ↔ ∃ n : ℕ, x = n ∧ text = toText n := by
  rw [toText?]
  split
  · next hneg =>
    refine iff_of_false (by simp) ?_
    rintro ⟨n, rfl, -⟩
    omega
  · next hnonneg =>
    obtain ⟨n, rfl⟩ := Int.eq_ofNat_of_zero_le (not_lt.1 hnonneg)
    simp [eq_comm]

/-! ### Texts that denote none -/

/-- Why a text denotes no number: it does not start with the marker, or something else than digits
comes behind it, or nothing at all, or a zero with more digits behind it. -/
inductive Refused (text : String) : Fault → Prop
  | markerMissing (missing : ∀ cs, text ≠ "base16:" ++ String.ofList cs) :
      Refused text .markerMissing
  | notDigits {cs : List Char} (behind : text = "base16:" ++ String.ofList cs)
      (wrong : cs = [] ∨ ∃ c ∈ cs, c ∉ hexDigits) : Refused text .notDigits
  | leadingZero {cs : List Char} (behind : text = "base16:" ++ String.ofList ('0' :: cs))
      (more : cs ≠ []) (digits : ∀ c ∈ cs, c ∈ hexDigits) : Refused text .leadingZero

/-- Digits are refused for what is no digit, also where there are none, and otherwise for a zero in
front. -/
theorem ofDigits_eq_error_iff {cs : List Char} {fault : Fault} :
    ofDigits cs = .error fault ↔
      fault = .notDigits ∧ (cs = [] ∨ ∃ c ∈ cs, c ∉ hexDigits) ∨
      fault = .leadingZero ∧ ∃ ds, cs = '0' :: ds ∧ ds ≠ [] ∧ ∀ c ∈ ds, c ∈ hexDigits := by
  rw [ofDigits]
  rcases hread : Text.ofDigits? 16 cs with _ | n
  · have hwrong := ofDigits?_eq_none_iff.1 hread
    have hno : ¬ ∃ ds, cs = '0' :: ds ∧ ds ≠ [] ∧ ∀ c ∈ ds, c ∈ hexDigits := by
      rintro ⟨ds, rfl, -, hds⟩
      obtain hnil | ⟨c, hc, hnot⟩ := hwrong
      · cases hnil
      · exact hnot (List.forall_mem_cons.2 ⟨by decide, hds⟩ c hc)
    simp [hwrong, hno, eq_comm]
  · obtain ⟨hnil, hdigits, -⟩ := ofDigits?_eq_some_iff.1 hread
    have hright : ¬ (cs = [] ∨ ∃ c ∈ cs, c ∉ hexDigits) := by
      rintro (h | ⟨c, hc, hnot⟩)
      · exact hnil h
      · exact hnot (hdigits c hc)
    rcases cs with _ | ⟨c, ds⟩
    · exact absurd rfl hnil
    have hds := (List.forall_mem_cons.1 hdigits).2
    simp only [hright, and_false, false_or]
    show (if _ then _ else _) = _ ↔ _
    split
    · next hzero =>
      obtain ⟨hmore, hc⟩ := hzero
      obtain rfl := Option.some.inj hc
      rw [Except.error.injEq, eq_comm]
      refine (and_iff_left ⟨ds, rfl, ?_, hds⟩).symm
      rintro rfl
      exact absurd hmore (by simp)
    · next hzero =>
      refine iff_of_false (by simp) ?_
      rintro ⟨-, _, hcons, hmore, -⟩
      obtain ⟨rfl, rfl⟩ := List.cons.inj hcons
      exact hzero ⟨by simpa [List.length_pos_iff] using hmore, rfl⟩

/-- **A text that denotes no number is refused for what is wrong with it.** -/
theorem ofText_eq_error_iff {text : String} {fault : Fault} :
    ofText text = .error fault ↔ Refused text fault := by
  have hbehind : ∀ {cs}, text = "base16:" ++ String.ofList cs → ofText text = ofDigits cs := by
    intro cs htext
    rw [ofText, isPrefixOf?_marker_eq_some_iff.2 htext]
  constructor
  · intro h
    by_cases hmarker : ∃ cs, text = "base16:" ++ String.ofList cs
    · obtain ⟨cs, htext⟩ := hmarker
      rw [hbehind htext] at h
      obtain ⟨rfl, hwrong⟩ | ⟨rfl, ds, rfl, hmore, hds⟩ := ofDigits_eq_error_iff.1 h
      · exact .notDigits htext hwrong
      · exact .leadingZero htext hmore hds
    · have hnone : marker.toList.isPrefixOf? text.toList = none :=
        Option.eq_none_iff_forall_ne_some.2 fun cs hcs ↦
          hmarker ⟨cs, isPrefixOf?_marker_eq_some_iff.1 hcs⟩
      rw [ofText, hnone] at h
      cases h
      exact .markerMissing fun cs htext ↦ hmarker ⟨cs, htext⟩
  · rintro (missing | ⟨htext, wrong⟩ | ⟨htext, more, digits⟩)
    · rw [ofText]
      split
      · rfl
      · next cs hcs => exact absurd (isPrefixOf?_marker_eq_some_iff.1 hcs) (missing cs)
    · rw [hbehind htext]
      exact ofDigits_eq_error_iff.2 (.inl ⟨rfl, wrong⟩)
    · rw [hbehind htext]
      exact ofDigits_eq_error_iff.2 (.inr ⟨rfl, _, rfl, more, digits⟩)

/-- A text is refused exactly when no number has it. -/
theorem exists_refused_iff {text : String} :
    (∃ fault, Refused text fault) ↔ ∀ n, text ≠ toText n := by
  simp only [← ofText_eq_error_iff, ne_eq, ← ofText_eq_ok_iff_eq_toText]
  rcases ofText text with fault | n <;> simp

/-- Numbers and the texts that denote them, as inverses of one another. -/
def textEquiv : ℕ ≃ {text // ∃ n, ofText text = .ok n} where
  toFun n := ⟨toText n, n, ofText_toText n⟩
  invFun text := (ofText text).toOption.getD 0
  left_inv n := by
    show (ofText (toText n)).toOption.getD 0 = n
    rw [ofText_toText]
    rfl
  right_inv := by
    rintro ⟨text, n, h⟩
    refine Subtype.ext ?_
    show toText ((ofText text).toOption.getD 0) = text
    rw [ofText_eq_ok_iff_eq_toText.1 h, ofText_toText]
    rfl

/-- **Every natural number has exactly one text.** A text denotes a number exactly when it is what
the printer writes for it; no integer below zero has a text. Any other text is refused, for the
marker, for what stands behind it or for a leading zero. So printing and reading are inverses
between the natural numbers and the texts that are read. -/
theorem text_canonical :
    (∀ (text : String) (n : ℕ), ofText text = .ok n ↔ text = toText n) ∧
    (∀ (text : String) (x : ℤ), toText? x = .ok text ↔ ∃ n : ℕ, x = n ∧ ofText text = .ok n) ∧
    (∀ n : ℕ, ∃! text, ofText text = .ok n) ∧
    (∀ text fault, ofText text = .error fault ↔ Refused text fault) ∧
    (∀ text, (∃ fault, Refused text fault) ↔ ∀ n, text ≠ toText n) ∧
    ∃ e : ℕ ≃ {text // ∃ n, ofText text = .ok n},
      (∀ n, (e n : String) = toText n) ∧
        ∀ text : {text // ∃ n, ofText text = .ok n}, ofText text = .ok (e.symm text) := by
  refine ⟨fun text n ↦ ofText_eq_ok_iff_eq_toText, fun text x ↦ ?_, fun n ↦ ?_,
    fun text fault ↦ ofText_eq_error_iff, fun text ↦ exists_refused_iff, textEquiv,
    fun n ↦ rfl, fun text ↦ ?_⟩
  · simp only [toText?_eq_ok_iff, ofText_eq_ok_iff_eq_toText]
  · exact ⟨_, ofText_toText n, fun text h ↦ ofText_eq_ok_iff_eq_toText.1 h⟩
  · obtain ⟨n, h⟩ := text.2
    show ofText text = .ok ((ofText text).toOption.getD 0)
    rw [h]
    rfl

/-- Zero has its one text, and neither a second zero, a sign, a separator, a small letter, a digit
of full width nor the bare marker makes another text out of it. -/
example :
    ofText "base16:0" = .ok 0 ∧ ofText "base16:00" = .error .leadingZero ∧
      ofText "base16:-0" = .error .notDigits ∧ ofText "base16:0_0" = .error .notDigits ∧
      ofText "base16:a" = .error .notDigits ∧ ofText "base16:０" = .error .notDigits ∧
      ofText "base16:" = .error .notDigits ∧ ofText " base16:0" = .error .markerMissing := by
  decide +kernel

end ElectionKeys.BigNumber
