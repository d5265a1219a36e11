import DialogueLint.Decimal.Layout

/-!
# JSON values

JSON values with the number model of this library: a number written as an integer keeps its value
if it fits 64 bits, every other number is a double. The members of an object are ordered by key, and
no key occurs twice; `Json.WellFormed` says so for a value and everything inside it.
-/

namespace DialogueLint

/-- A JSON number. -/
inductive Number where
  /-- An integer, written without fraction and exponent. -/
  | integer (value : Int)
  /-- Any other number, as the bits of the double nearest to it. -/
  | double (bits : UInt64)
  deriving Repr, DecidableEq

/-- The text of a number: an integer in decimal, a double by its shortest digits. -/
def Number.text : Number → String
  | .integer value => toString value
  | .double bits => Decimal.text bits

/-- How messages about types call a number. -/
def Number.wording : Number → String
  | .integer value => s!"integer `{value}`"
  | .double bits => s!"floating point `{Decimal.text bits}`"

/-- The natural number that an integer which is not negative denotes. -/
def Number.index? : Number → Option Nat
  | .integer value => value.toNat?
  | .double _ => none

/-- A JSON value. -/
inductive Json where
  | null
  | bool (value : Bool)
  | number (value : Number)
  | string (text : String)
  | array (items : List Json)
  | object (members : List (String × Json))
  deriving Repr, Inhabited

/-- Values by key, ordered by key where they are the members of an object. -/
abbrev Members (α : Type) : Type := List (String × α)

namespace Members

variable {α : Type}

/-- The value at a key. -/
def get? (members : Members α) (key : String) : Option α :=
  List.lookup key members

/-- The keys in order. -/
def keys (members : Members α) : List String :=
  members.map Prod.fst

/-- Puts a value at a key, in the key's place in the order; a value already there is replaced. -/
def insert (key : String) (value : α) : Members α → Members α
  | [] => [(key, value)]
  | (other, old) :: rest =>
    if key < other then (key, value) :: (other, old) :: rest
    else if key = other then (key, value) :: rest
    else (other, old) :: insert key value rest

/-- The members of a list of pairs; of several values for one key the last counts. -/
def ofList (pairs : List (String × α)) : Members α :=
  pairs.foldl (fun members (key, value) => insert key value members) []

/-- Keys ascend strictly. -/
def Ordered (members : Members α) : Prop :=
  members.Pairwise fun a b => a.1 < b.1

end Members

/-- In every object inside the value, keys ascend strictly. -/
inductive Json.WellFormed : Json → Prop where
  | null : WellFormed .null
  | bool (value : Bool) : WellFormed (.bool value)
  | number (value : Number) : WellFormed (.number value)
  | string (text : String) : WellFormed (.string text)
  | array {items : List Json} : (∀ item ∈ items, WellFormed item) → WellFormed (.array items)
  | object {members : Members Json} : members.Ordered → (∀ m ∈ members, WellFormed m.2) →
      WellFormed (.object members)

end DialogueLint
