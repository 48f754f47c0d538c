import ElectionKeys.Guardian.Check

/-!
# The joint key

The joint key of an election is the product of the guardians' shares modulo `p`. It is only formed
of public keys that fit the election, and only if each guardian has exactly one key among them.
-/

namespace ElectionKeys

/-- The joint key of an election. -/
structure JointKey where
  value : Nat
  deriving DecidableEq

instance : Document JointKey where
  title := "JointElectionPublicKey"
  names := ["joint_election_public_key"]
  ofMembers m := JointKey.mk <$> Field.required m "joint_election_public_key" Field.big
  toJson J := .object [("joint_election_public_key", BigNumber.toJson J.value)]

namespace JointKey

/-- The joint key with the given value: a natural number, or the text of one. -/
def make (v : Json) : Except Refusal JointKey :=
  let number : Checked Nat :=
    match v with
    | .int n => Field.bigOfInt n
    | v => Field.big v
  Document.build (JointKey.mk <$> number.under (.name "joint_election_public_key"))

/-- Why public keys do not combine. -/
inductive CombineFlaw
  | unfit (guardian : Int) (flaw : KeyFlaw)
  /-- The number of a key that fits the election is no guardian number. -/
  | unnumbered (e : Error)
  /-- The table of guardians has no place for one of them. -/
  | noPlace
  | repeated (guardian : Int)
  | absent (guardians : List Int)
  /-- A key that fits the election has no commitment. -/
  | noCommitment

/-- What a reason not to combine is reported as. -/
def CombineFlaw.toRefusal : CombineFlaw → Refusal
  | .unfit i flaw => .error ((flaw.toError i).within s!"Clé publique du gardien {i}")
  | .unnumbered e => .error e
  | .noPlace => .noPlace
  | .repeated i => .error (.ofIncomplete .duplicate [i])
  | .absent is => .error (.ofIncomplete .missing is)
  | .noCommitment => .noCommitment

/-- The numbers of the guardians without a mark, in ascending order. -/
def absent (table : Array Bool) : List Int :=
  ((List.range table.size).filter fun place => table[place]? == some false).map
    fun place => Int.ofNat (place + 1)

/-- The error for a joint key that is no element of the group. -/
def notAnElement : Error where
  failure := .key .subgroup none
  message := "La clé publique conjointe n'est pas un élément valide mod p"

/-! ### The combination by any operations

Whether a key has come is marked in a table with a place for each guardian of the election. -/

section Operations

variable [Monad m] (ops : Operations m)

/-- The first key, in order, that does not fit the election: the number of its guardian and the
flaw. -/
def firstUnfitBy (E : Election) : List PublicKey → m (Option (Int × KeyFlaw))
  | [] => pure none
  | K :: rest => do
    match ← K.firstFlawBy ops E with
    | some flaw => pure (some (K.guardian, flaw))
    | none => firstUnfitBy E rest

/-- The table after the given numbers have come one after the other, unless one of them comes for
the second time. -/
def enterBy (table : Array Bool) : List Int → m (Except CombineFlaw (Array Bool))
  | [] => pure (.ok table)
  | i :: rest =>
    match GuardianIndex.ofInt i with
    | .error e => pure (.error (.unnumbered e))
    | .ok g => do
      match ← ops.marked table g.slot with
      | none => pure (.error .noPlace)
      | some true => pure (.error (.repeated i))
      | some false => do
        let table ← ops.mark table g.slot
        enterBy table rest

/-- The product of a number with the first commitments of keys, reduced modulo `p` after each
factor. -/
def productBy (p product : Nat) : List PublicKey → m (Except CombineFlaw Nat)
  | [] => pure (.ok product)
  | K :: rest => do
    match ← ops.first K.commitments with
    | none => pure (.error .noCommitment)
    | some c => do
      let product ← ops.remainder (product * c) p
      productBy p product rest

/-- The joint key of an election from public keys in any order, or the first reason against it:
a key that does not fit, then a guardian with two keys, then guardians without a key. -/
def combineBy (E : Election) (keys : List PublicKey) : m (Except Refusal JointKey) := do
  match ← firstUnfitBy ops E keys with
  | some (i, flaw) => pure (.error (CombineFlaw.unfit i flaw).toRefusal)
  | none =>
    match ← enterBy ops (Array.replicate E.terms.guardians.toNat false)
        (keys.map PublicKey.guardian) with
    | .error flaw => pure (.error flaw.toRefusal)
    | .ok table =>
      match absent table with
      | i :: is => pure (.error (CombineFlaw.absent (i :: is)).toRefusal)
      | [] => do
        match ← productBy ops E.group.p 1 keys with
        | .error flaw => pure (.error flaw.toRefusal)
        | .ok product => pure (make (.int product))

/-- That a joint key is an element of the group. -/
def checkBy (E : Election) (J : JointKey) : m (Except Error Unit) := do
  let element ← E.group.isElementBy ops J.value
  pure (if element then .ok () else .error notAnElement)

end Operations

/-! ### The combination as it is run -/

/-- The first key, in order, that does not fit the election: the number of its guardian and the
flaw. -/
def firstUnfit (E : Election) (keys : List PublicKey) : Option (Int × KeyFlaw) :=
  Id.run (firstUnfitBy .total E keys)

/-- The table after the given numbers have come one after the other, unless one of them comes for
the second time. -/
def enter (table : Array Bool) (is : List Int) : Except CombineFlaw (Array Bool) :=
  Id.run (enterBy .total table is)

/-- The product of a number with the first commitments of keys, reduced modulo `p` after each
factor. -/
def product (p product : Nat) (keys : List PublicKey) : Except CombineFlaw Nat :=
  Id.run (productBy .total p product keys)

@[simp] theorem firstUnfitBy_total (E : Election) (keys : List PublicKey) :
    firstUnfitBy .total E keys = pure (firstUnfit E keys) := rfl

@[simp] theorem enterBy_total (table : Array Bool) (is : List Int) :
    enterBy .total table is = pure (enter table is) := rfl

@[simp] theorem productBy_total (p a : Nat) (keys : List PublicKey) :
    productBy .total p a keys = pure (product p a keys) := rfl

/-- The joint key of an election from public keys in any order. -/
def combine (E : Election) (keys : List PublicKey) : Except Refusal JointKey :=
  Id.run (combineBy .total E keys)

/-- That a joint key is an element of the group. -/
def check (E : Election) (J : JointKey) : Except Error Unit := Id.run (J.checkBy .total E)

theorem check_eq (E : Election) (J : JointKey) :
    J.check E = if E.group.isElement J.value then .ok () else .error notAnElement := rfl

/-- The joint key in a document, if it is an element of the group. -/
def receive (E : Election) (read : Except Error JointKey) : Except Error JointKey :=
  receiveTested (check E) read

/-- The fixed-width form of a joint key. -/
def encode (G : SchnorrGroup) (J : JointKey) : Except SchnorrGroup.WidthFault Bytes :=
  G.encode J.value

end JointKey

end ElectionKeys
