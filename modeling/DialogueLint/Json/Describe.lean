import DialogueLint.Json.Basic
import DialogueLint.Text.Quoted

/-!
# Describing values

How messages speak about a value: by its type and what can be said in a few words about its content.
-/

namespace DialogueLint.Json

/-- A few words about a value. -/
def describe : Json → String
  | null => "null"
  | bool value => s!"the boolean {value}"
  | number value => s!"the number {value.text}"
  | string text => s!"the string {Text.quote text}"
  | array items => s!"an array of {items.length} item(s)"
  | object [] => "an empty object"
  | object members => "an object with keys [" ++ ", ".intercalate (Members.keys members) ++ "]"

end DialogueLint.Json
