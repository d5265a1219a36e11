import DialogueLint.Json.Describe
import DialogueLint.Outcome

/-!
# Readers

A reader turns the JSON value at a place into a typed value, or says at which places what is wrong
with it. This module holds the readers of scalar values and the ways to read arrays and maps.
Arrays and maps read all their items, so that every faulty item is reported.
-/

namespace DialogueLint

/-- Reads the value at a place. -/
abbrev Reader (α : Type) : Type := Pointer → Json → Outcome α

namespace Reader

variable {α β : Type}

/-- Fails because a value has the wrong type. -/
def wrongType (expected : String) : Reader α := fun path value =>
  .fail path (.invalidType expected value.describe)

/-- Reads a value and goes on with the result at the same place. -/
def andThen (reader : Reader α) (next : Pointer → α → Outcome β) : Reader β := fun path value =>
  (reader path value).andThen (next path)

/-! ## Scalars -/

/-- A string. -/
def string : Reader String
  | _, .string text => .ok text
  | path, value => wrongType "a string" path value

/-- A string whose number of characters has an upper bound, or none; it must not be empty. -/
def sized (max : Option Nat) : Reader String :=
  string.andThen fun path text =>
    let size := text.toList.length
    if size = 0 || max.any fun max => max < size then
      let expected := match max with
        | some max => s!"a string of 1 to {max} characters"
        | none => "a non-empty string"
      .fail path (.cardinalityMismatch expected s!"{size} character(s)")
    else .ok text

/-- A string that is not empty. -/
def nonEmpty : Reader String := sized none

/-- The largest number of characters of a short text. -/
def maxShort : Nat := 320

/-- A text of 1 to 320 characters. -/
def short : Reader String := sized (some maxShort)

/-- A string that has a form, given by a test and by the pattern that messages show. -/
def matching (test : String → Bool) (pattern : String) : Reader String :=
  string.andThen fun path text =>
    if test text then .ok text else .fail path (.patternMismatch pattern (Text.quote text))

/-- A key: one to 128 ASCII letters and digits. -/
def key : Reader String :=
  matching Reference.isKey "^[a-zA-Z0-9]\x7b1,128\x7d$"

/-- A place for a file. -/
def blob : Reader String :=
  matching Reference.isBlob "^(/*conversation/+)?[^/]+$"

/-- A boolean. -/
def bool : Reader Bool
  | _, .bool value => .ok value
  | path, value => wrongType "a boolean" path value

/-- A number. -/
def number : Reader Number
  | _, .number value => .ok value
  | path, value => wrongType "a number" path value

/-- An object with any members. -/
def object : Reader (Members Json)
  | _, .object members => .ok members
  | path, value => wrongType "an object" path value

/-- Any value at all; as an expression it is typed later. -/
def anything : Reader Json := fun _ value => .ok value

/-- One of several names, each of which stands for a value. -/
def oneOf (choices : List (String × α)) : Reader α :=
  string.andThen fun path text =>
    match choices.lookup text with
    | some choice => .ok choice
    | none =>
      let names := ", ".intercalate (choices.map Prod.fst)
      .fail path (.patternMismatch s!"one of {names}" (Text.quote text))

/-! ## Arrays and maps -/

/-- The outcomes of reading the items of an array, the first of which has the given index. -/
def itemsFrom (reader : Reader α) (path : Pointer) : Nat → List Json → List (Outcome α)
  | _, [] => []
  | index, value :: rest => reader (path.item index) value :: itemsFrom reader path (index + 1) rest

/-- The items of an array. -/
def items (reader : Reader α) (path : Pointer) (values : List Json) : Outcome (List α) :=
  .all (itemsFrom reader path 0 values)

/-- An array, each item of which is read in the same way. -/
def arrayOf (expected : String) (reader : Reader α) : Reader (List α)
  | path, .array values => items reader path values
  | path, value => wrongType expected path value

/-- A map, each member of which is read in the same way, with a look at its key. -/
def mapOf (expected : String) (member : String → Reader α) : Reader (Members α)
  | path, .object members =>
    .all (members.map fun (key, value) => (member key (path.push key) value).map (key, ·))
  | path, value => wrongType expected path value

/-- A reader for a member whose key is tested. A key that fails is reported, but does not keep the
member from being read. -/
def keyed (test : String → Bool) (reader : Reader α) (key : String) : Reader α := fun path value =>
  let refused := if test key then [] else [⟨path, .unknownField key value.describe⟩]
  let read := reader path value
  ⟨read.result?, refused ++ read.diagnostics⟩

end Reader

end DialogueLint
