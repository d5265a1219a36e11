/-!
# Settings

What can be chosen about a validation.
-/

namespace DialogueLint

/-- The choices a validation depends on. -/
structure Settings where
  /-- How deeply the operands of an expression may be nested. -/
  maxDepth : Nat
  /-- Whether the demands of a document are checked although its structure is faulty. -/
  checkFaulty : Bool
  deriving Repr, DecidableEq

/-- Sixty-four levels, and everything that could be read is checked. -/
def Settings.default : Settings := ⟨64, true⟩

instance : Inhabited Settings := ⟨.default⟩

end DialogueLint
