import DialogueLint.Json.Describe
import DialogueLint.Outcome
import DialogueLint.Typing.Shape

/-!
# Looking up references

The expressions that stand for values kept elsewhere: a reference is looked up by its text, and a
loop tag names the item of a loop. Either belongs to every family but `null`. A reference in a
system name space that may not be read is reported, and is typed all the same.
-/

namespace DialogueLint

namespace Diagnostic

/-- What there is to say about reading a reference: nothing, if it may be read. -/
def ofRead (path : Pointer) (reference : String) : List Diagnostic :=
  if Reference.isReadable reference then []
  else match Reference.reserved? reference with
    | some space => [⟨path, .reservedNamespace reference space⟩]
    | none => []

end Diagnostic

namespace Typing

/-- A reference that is looked up: any family will do. -/
def lookup (path : Pointer) : Json → Outcome FamilySet
  | .string reference => ⟨some Shape.unspecific.families, Diagnostic.ofRead path reference⟩
  | other => .fail path (.invalidType "a property reference string" other.describe)

/-- The item of a loop: any family will do. -/
def loopItem (path : Pointer) : Json → Outcome FamilySet
  | .string _ => .ok Shape.unspecific.families
  | other => .fail path (.invalidType "a loop tag string" other.describe)

end Typing

end DialogueLint
