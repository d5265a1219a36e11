import DialogueLint.Json.Name
import DialogueLint.Json.Parse
import DialogueLint.Json.Skip
import DialogueLint.Settings.Basic

/-!
# Reading settings

Settings are written as a JSON object, in which unknown keys are passed over and absent ones take
their defaults, or as an array that gives them in order. The text is read in one pass, so that a
value of a wrong type is reported where it stands.
-/

namespace DialogueLint.Settings

open Json (Scan)
open Json.Scan (refuse stop token? skip item? key? colon)

/-! ## Values of a given type -/

/-- Reads the scalar that begins here. An array or an object is only seen, and stays where it is. -/
def glimpse (fuel : Nat) : Scan Json := do
  match ← token? with
  | some '[' => return .array []
  | some '{' => return .object []
  | _ => Json.Scan.value fuel 0

/-- Fails because a value has the wrong type. -/
def wrongType {α : Type} (expected : String) (found : Json) : Scan α :=
  stop (.wrongType found.typeWording expected)

/-- Reads a natural number. -/
def natural (fuel : Nat) : Scan Nat := do
  match ← glimpse fuel with
  | .number (.integer (.ofNat n)) => return n
  | .number (.integer value) => stop (.wrongValue (Number.integer value).wording "usize")
  | found => wrongType "usize" found

/-- Reads a boolean. -/
def boolean (fuel : Nat) : Scan Bool := do
  match ← glimpse fuel with
  | .bool value => return value
  | found => wrongType "a boolean" found

/-! ## Settings in an object -/

/-- The settings given so far. -/
structure Given where
  maxDepth : Option Nat
  checkFaulty : Option Bool

/-- The settings with defaults where nothing is given. -/
def Given.settings (given : Given) : Settings :=
  ⟨given.maxDepth.getD default.maxDepth, given.checkFaulty.getD default.checkFaulty⟩

/-- The key of the depth. -/
def depthKey : String := "maxDepth"

/-- The key of the other choice. -/
def faultyKey : String := "graphOnStructuralFailure"

/-- Fails because a field is given twice. The object is left first if it ends here. -/
def duplicate {α : Type} (name : String) : Scan α := do
  if (← token?) = some '}' then skip
  stop (.duplicateField name)

/-- Reads the value of a key, unless the key is given for the second time. -/
def once {α : Type} (name : String) (given : Option α) (value : Scan α) : Scan α := do
  if given.isSome then duplicate name
  colon
  value

/-- Reads the members of an object behind those already read. -/
def members : Nat → Bool → Given → Scan Settings
  | 0, _, _ => refuse .endInObject
  | fuel + 1, first, given => do
    if ← key? first then
      let name ← Json.Scan.string fuel
      if name = depthKey then
        let depth ← once name given.maxDepth (natural fuel)
        members fuel false { given with maxDepth := some depth }
      else if name = faultyKey then
        let faulty ← once name given.checkFaulty (boolean fuel)
        members fuel false { given with checkFaulty := some faulty }
      else
        colon
        Json.Scan.passValue fuel []
        members fuel false given
    else return given.settings

/-! ## Settings in order -/

/-- Passes the end of an array from which no more items are taken. -/
def listEnd : Scan Unit := do
  match ← token? with
  | none => refuse .endInList
  | some ']' => skip
  | some ',' => do
    skip
    if (← token?) = some ']' then refuse .trailingComma else refuse .trailingCharacters
  | some _ => refuse .trailingCharacters

/-- Reads settings given in order, behind the opening bracket. -/
def inOrder (fuel : Nat) : Scan Settings := do
  if ← item? true then
    let maxDepth ← natural fuel
    if ← item? false then
      let checkFaulty ← boolean fuel
      listEnd
      return ⟨maxDepth, checkFaulty⟩
    else return ⟨maxDepth, default.checkFaulty⟩
  else return default

/-! ## Texts -/

/-- Reads settings. -/
def scan (fuel : Nat) : Scan Settings := do
  match ← token? with
  | some '[' => do skip; inOrder fuel
  | some '{' => do skip; members fuel true ⟨none, none⟩
  | _ => do wrongType "struct ValidatorConfig" (← glimpse fuel)

/-- The settings of a text. -/
def ofText (text : String) : Except Json.LocatedFault Settings :=
  let chars := text.toList
  Json.Scan.run (scan (chars.length + 1)) chars

end DialogueLint.Settings
