import DialogueLint.Typing.Family

/-!
# Shapes

What an expression turns out to be before its families are decided: a literal, a call with a result
of some family, or one of the forms that stand for values of no particular family. A shape belongs
to the families whose own forms include it; the forms of no particular family belong to every family
but `null`.
-/

namespace DialogueLint

/-- The JSON type of a literal expression. -/
inductive Literal where
  | bool
  | number
  | text
  | null
  deriving Repr, DecidableEq

/-- What an expression turns out to be. -/
inductive Shape where
  /-- A literal. -/
  | literal (kind : Literal)
  /-- A call of an operator or method with a result of the given family. -/
  | call (result : Family)
  /-- A lookup, a loop item, a choice or an item of a list. -/
  | unspecific
  deriving Repr, DecidableEq

namespace Shape

/-- The families whose own forms include a literal. -/
def literalFamilies : Literal → List Family
  | .bool => [.boolean]
  | .number => [.numeric]
  | .text => [.date, .dateTime, .string, .time]
  | .null => []

/-- Whether a family's own forms include a shape. -/
def isOwn (shape : Shape) (f : Family) : Bool :=
  match shape with
  | literal kind => (literalFamilies kind).contains f
  | call result => result == f && f != .any && f != .null
  | unspecific => f == .any

/-- Whether a shape belongs to a family: by the family's own forms, or as a form of no particular
family. -/
def belongsTo (shape : Shape) (f : Family) : Bool :=
  shape.isOwn f || shape.isOwn .any

/-- The families that a shape belongs to. -/
def families (shape : Shape) : FamilySet :=
  match shape with
  | literal .null => .of .null
  | shape => ⟨fun f => f != .null && shape.belongsTo f⟩

/-- The families that the value of an operator or method belongs to. -/
def resultFamilies (result : Family) : FamilySet :=
  match result with
  | .any => unspecific.families
  | result => (call result).families

end Shape

end DialogueLint
