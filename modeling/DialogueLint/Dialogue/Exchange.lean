import DialogueLint.Reading.Fields

/-!
# Exchange

What dialogues exchange with each other: expressions handed in under keys, and variables handed back
under references.
-/

namespace DialogueLint

/-- An expression, not typed yet. -/
abbrev Expression : Type := Json

/-- A variable that is looked up. -/
structure Lookup where
  reference : String
  deriving Repr, DecidableEq

/-- An object whose only field is `var`. -/
def Lookup.read : Reader Lookup :=
  Fields.object "a \x7b\"var\": ...\x7d reference" (.mk <$> .required "var" .string)

/-- Expressions that are handed into a dialogue, by key. -/
abbrev Inputs : Type := Members Expression

/-- A map of expressions under keys of letters and digits. -/
def Inputs.read : Reader Inputs :=
  .mapOf "an inputs object" (.keyed Reference.isKey .anything)

/-- Variables that a dialogue hands back, by the reference they are written to. -/
abbrev Outputs : Type := Members Lookup

/-- A map of variables. -/
def Outputs.read : Reader Outputs :=
  .mapOf "an outputs object" fun _ => Lookup.read

end DialogueLint
