import ElectionKeys.Document.Basic

/-!
# Groups

A group of prime order `q` inside the multiplicative group modulo the prime `p = q * r + 1`, with a
generator `g`, and the declared shape of the two primes. Nothing here checks that the numbers keep
what the words promise: that is what `SchnorrGroup.selfTest` is for.
-/

namespace ElectionKeys

/-- A constant whose digits nobody chose, as a source of the middle bits of `p`. -/
inductive DigitSource
  | ln2
  | eulerMascheroni
  deriving DecidableEq

namespace DigitSource

/-- The name of a source in documents. -/
def text : DigitSource → String
  | .ln2 => "Ln2"
  | .eulerMascheroni => "EulerMascheroniConstant"

/-- The source of a name. -/
def ofText? (s : String) : Option DigitSource :=
  if s = "Ln2" then some .ln2
  else if s = "EulerMascheroniConstant" then some .eulerMascheroni
  else none

@[simp] theorem ofText?_text (s : DigitSource) : ofText? s.text = some s := by
  cases s <;> rfl

theorem ofText?_eq_some_iff {t : String} {s : DigitSource} : ofText? t = some s ↔ t = s.text := by
  constructor
  · intro h
    simp only [ofText?] at h
    split at h
    · next h1 => injection h with h; rw [← h, h1]; rfl
    · split at h
      · next h2 => injection h with h; rw [← h, h2]; rfl
      · contradiction
  · rintro rfl
    exact ofText?_text s

end DigitSource

/-- How the primes are declared to look: their sizes in bits, how many bits of `p` are set at its
top and at its bottom, and where the bits between come from. The numbers are integers, as they are
declared; `PrimeShape.make` and documents refuse those below 0. -/
structure PrimeShape where
  qBits : Int
  pBits : Int
  topOnes : Int
  middle : DigitSource
  bottomOnes : Int
  deriving DecidableEq

/-- A group of order `q` modulo `p`, generated by `g`, with the version of the standard that it
belongs to, if any. -/
structure SchnorrGroup where
  version : Option (Int × Int) := none
  shape : PrimeShape
  p : Nat
  q : Nat
  r : Nat
  g : Nat
  deriving DecidableEq

/-! ### Documents -/

/-- The name of a source of digits as a value. -/
def DigitSource.ofJson : Json → Checked DigitSource
  | .text s =>
    match ofText? s with
    | some source => .valid source
    | none => .fail .notASource
  | _ => .fail .notASource

instance : Document PrimeShape where
  title := "FixedParameterGenerationParameters"
  names :=
    ["q_bits_total", "p_bits_total", "p_bits_msb_fixed_1", "p_middle_bits_source",
      "p_bits_lsb_fixed_1"]
  ofMembers m :=
    let bits (v : Json) : Checked Int := (Field.integer v).andThen Field.natural
    PrimeShape.mk
      <$> Field.required m "q_bits_total" bits
      <*> Field.required m "p_bits_total" bits
      <*> Field.required m "p_bits_msb_fixed_1" bits
      <*> Field.required m "p_middle_bits_source" DigitSource.ofJson
      <*> Field.required m "p_bits_lsb_fixed_1" bits
  toJson s :=
    .object [
      ("q_bits_total", .int s.qBits),
      ("p_bits_total", .int s.pBits),
      ("p_bits_msb_fixed_1", .int s.topOnes),
      ("p_middle_bits_source", .text s.middle.text),
      ("p_bits_lsb_fixed_1", .int s.bottomOnes)]

/-- A large number as a value. -/
def BigNumber.toJson (n : Nat) : Json := .text (BigNumber.toText n)

/-- A value that may be absent. -/
def Json.ofOption (toJson : α → Json) : Option α → Json
  | none => .null
  | some a => toJson a

instance : Document SchnorrGroup where
  title := "FixedParameters"
  names := ["opt_version", "generation_parameters", "p", "q", "r", "g"]
  ofMembers m :=
    SchnorrGroup.mk
      <$> Field.optional m "opt_version" Field.pair
      <*> Field.required m "generation_parameters" (Document.ofJson PrimeShape)
      <*> Field.required m "p" Field.big
      <*> Field.required m "q" Field.big
      <*> Field.required m "r" Field.big
      <*> Field.required m "g" Field.big
  toJson G :=
    .object [
      ("opt_version", .ofOption (fun v => .array [.int v.1, .int v.2]) G.version),
      ("generation_parameters", Document.toJson G.shape),
      ("p", BigNumber.toJson G.p),
      ("q", BigNumber.toJson G.q),
      ("r", BigNumber.toJson G.r),
      ("g", BigNumber.toJson G.g)]

/-! ### Records made of numbers -/

/-- The shape with the given numbers of bits. -/
def PrimeShape.make (qBits pBits topOnes : Int) (middle : DigitSource) (bottomOnes : Int) :
    Except Refusal PrimeShape :=
  Document.build <| PrimeShape.mk
    <$> (Field.natural qBits).under (.name "q_bits_total")
    <*> (Field.natural pBits).under (.name "p_bits_total")
    <*> (Field.natural topOnes).under (.name "p_bits_msb_fixed_1")
    <*> pure middle
    <*> (Field.natural bottomOnes).under (.name "p_bits_lsb_fixed_1")

/-- The group with the given numbers. A version that is given has to be a pair of them. -/
def SchnorrGroup.make (version : Option (List Int)) (shape : PrimeShape) (p q r g : Int) :
    Except Refusal SchnorrGroup :=
  let pair? : Checked (Option (Int × Int)) :=
    match version with
    | none => .valid none
    | some v => (Field.pair (.array (v.map .int))).map some
  Document.build <| SchnorrGroup.mk
    <$> pair?.under (.name "opt_version")
    <*> pure shape
    <*> (Field.bigOfInt p).under (.name "p")
    <*> (Field.bigOfInt q).under (.name "q")
    <*> (Field.bigOfInt r).under (.name "r")
    <*> (Field.bigOfInt g).under (.name "g")

end ElectionKeys
