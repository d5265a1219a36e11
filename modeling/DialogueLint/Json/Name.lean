import DialogueLint.Json.Basic
import DialogueLint.Text.Quoted

/-!
# Names in JSON

Reading one of a closed set of names from a JSON value. A name is a string; an object whose only key
is the name and whose value is `null` will do as well.
-/

namespace DialogueLint.Json

/-- How a value that has the wrong type is called. -/
def typeWording : Json → String
  | null => "null"
  | bool value => s!"boolean `{value}`"
  | number value => value.wording
  | string text => "string " ++ Text.quote text
  | array _ => "sequence"
  | object _ => "map"

/-- The value of a name in a table, or why there is none. -/
def choose {α : Type} (choices : List (String × α)) (name : String) : Except String α :=
  match choices.lookup name with
  | some choice => .ok choice
  | none =>
    let names := ", ".intercalate (choices.map fun (name, _) => s!"`{name}`")
    .error s!"unknown variant `{name}`, expected one of {names}"

/-- The value of the name that a JSON value holds, or why there is none. -/
def named {α : Type} (choices : List (String × α)) : Json → Except String α
  | string name => choose choices name
  | object [(name, value)] => do
    let choice ← choose choices name
    match value with
    | null => return choice
    | other => .error s!"invalid type: {other.typeWording}, expected unit"
  | object _ => .error "invalid value: map, expected map with a single key"
  | other => .error s!"invalid type: {other.typeWording}, expected string or map"

end DialogueLint.Json
