import DialogueLint.Reading.Fields

/-!
# Properties

Maps from references to texts or lists of texts. Whether the references may be written is a question
for the integrity checks.
-/

namespace DialogueLint

/-- What a property holds. -/
inductive PropertyValue where
  | single (text : String)
  | many (texts : List String)
  deriving Repr, DecidableEq

/-- Properties by reference. -/
abbrev Properties : Type := Members PropertyValue

/-- A text, or an array of at least one text. -/
def PropertyValue.read : Reader PropertyValue
  | _, .string text => .ok (.single text)
  | path, .array [] => .fail path (.cardinalityMismatch "at least 1 string" "0 items")
  | path, .array values => (Reader.items .string path values).map .many
  | path, value => .fail path (.variantNotMatched "property value"
      ("expected a string or an array of strings, found " ++ value.describe))

/-- A map of properties. -/
def Properties.read : Reader Properties :=
  .mapOf "a properties object" fun _ => PropertyValue.read

end DialogueLint
