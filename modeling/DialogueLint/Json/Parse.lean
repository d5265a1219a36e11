import DialogueLint.Json.Scan

/-!
# Reading JSON text

The value that a text denotes. Arrays and objects may be nested to a given depth. Every reader takes
fuel, which bounds how many readers may still be entered, one inside or behind the other. An array
and its first item begin at most one character apart, and so do an item and the rest of its array,
so that at most two readers are entered for a character and the fuel given by `parseWithin` never
runs out.
-/

namespace DialogueLint.Json

namespace Scan

mutual

/-- Reads a value, with blanks in front of it. -/
def value : Nat → Nat → Scan Json
  | 0, _ => refuse .expectedValue
  | fuel + 1, depth => do
    match ← token? with
    | none => refuse .endInValue
    | some 'n' => do literal "null"; return .null
    | some 't' => do literal "true"; return .bool true
    | some 'f' => do literal "false"; return .bool false
    | some '-' => do skip; .number <$> number true
    | some '"' => do skip; .string <$> string fuel
    | some '[' =>
      match depth with
      | 0 => refuse .nestedTooDeeply
      | inner + 1 => do skip; items fuel inner []
    | some '{' =>
      match depth with
      | 0 => refuse .nestedTooDeeply
      | inner + 1 => do skip; members fuel inner []
    | some c => if c.isDigit then .number <$> number false else refuse .expectedValue

/-- Reads the items of an array behind those already read, which are given last one first. -/
def items : Nat → Nat → List Json → Scan Json
  | 0, _, _ => refuse .endInList
  | fuel + 1, depth, read => do
    if ← item? read.isEmpty then
      let item ← value fuel depth
      items fuel depth (item :: read)
    else return .array read.reverse

/-- Reads the members of an object behind those already read, which are given last one first. -/
def members : Nat → Nat → List (String × Json) → Scan Json
  | 0, _, _ => refuse .endInObject
  | fuel + 1, depth, read => do
    if ← key? read.isEmpty then
      let key ← string fuel
      colon
      let item ← value fuel depth
      members fuel depth ((key, item) :: read)
    else return .object (Members.ofList read.reverse)

end

end Scan

/-- The value of a text whose arrays and objects are nested at most so deeply. -/
def parseWithin (depth : Nat) (text : String) : Except LocatedFault Json :=
  let chars := text.toList
  Scan.run (Scan.value (2 * (chars.length + 1)) depth) chars

/-- How deeply the arrays and objects of a text may be nested. -/
def maxNesting : Nat := 127

/-- The value of a text. -/
def parse (text : String) : Except LocatedFault Json :=
  parseWithin maxNesting text

end DialogueLint.Json
