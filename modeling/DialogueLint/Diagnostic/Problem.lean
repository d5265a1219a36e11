import DialogueLint.Reference
import DialogueLint.Typing.Arity
import DialogueLint.Typing.Family

/-!
# Problems

What can be wrong with a document, how each problem is worded, and the flat tag that tells the kinds
of problems apart.
-/

namespace DialogueLint

/-- The kind of a problem. -/
inductive Kind where
  /-- The text is not JSON. -/
  | malformedJson
  /-- An object lacks a field. -/
  | missingRequiredField
  /-- An object has a field it should not have. -/
  | unknownField
  /-- A value has the wrong JSON type. -/
  | invalidType
  /-- A text does not have the form it should have. -/
  | patternMismatch
  /-- A text, list or call has the wrong size. -/
  | cardinalityMismatch
  /-- A value is none of the forms it could have. -/
  | variantNotMatched
  /-- There is no such operator or method. -/
  | unknownOperator
  /-- An operator or method has the wrong number of operands. -/
  | arityMismatch
  /-- An operand is of the wrong family. -/
  | operandType
  /-- A reference leads into a namespace of the system. -/
  | reservedNamespace
  /-- An expression is of the wrong family for its place. -/
  | familyMismatch
  /-- A successor is not one of the nodes. -/
  | danglingReference
  /-- An expression is nested too deeply. -/
  | depthExceeded
  deriving Repr, DecidableEq

/-- The name of a kind. -/
def Kind.name : Kind → String
  | malformedJson => "MalformedJson"
  | missingRequiredField => "MissingRequiredField"
  | unknownField => "UnknownField"
  | invalidType => "InvalidType"
  | patternMismatch => "PatternMismatch"
  | cardinalityMismatch => "CardinalityMismatch"
  | variantNotMatched => "VariantNotMatched"
  | unknownOperator => "UnknownOperator"
  | arityMismatch => "ArityMismatch"
  | operandType => "OperandType"
  | reservedNamespace => "ReservedNamespace"
  | familyMismatch => "FamilyMismatch"
  | danglingReference => "DanglingReference"
  | depthExceeded => "DepthExceeded"

/-- All kinds. -/
def Kind.all : List Kind :=
  [malformedJson, missingRequiredField, unknownField, invalidType, patternMismatch,
    cardinalityMismatch, variantNotMatched, unknownOperator, arityMismatch, operandType,
    reservedNamespace, familyMismatch, danglingReference, depthExceeded]

/-- The kind of a name. -/
def Kind.ofName? (name : String) : Option Kind :=
  all.find? fun kind => kind.name == name

/-- A problem with what there is to say about it. -/
inductive Problem where
  | malformedJson (line column : Nat) (message : String)
  | missingRequiredField (field : String)
  | unknownField (field found : String)
  | invalidType (expected found : String)
  | patternMismatch (expected value : String)
  | cardinalityMismatch (expected found : String)
  | variantNotMatched (union reason : String)
  | unknownOperator (operator : String)
  | arityMismatch (operator : String) (expected : Arity) (found : Nat)
  | operandType (operator expected found : String)
  | reservedNamespace (reference : String) (space : SystemSpace)
  | familyMismatch (expected found : Family)
  | danglingReference (node : Nat) (field index : String) (len : Nat)
  | depthExceeded (limit : Nat)
  deriving Repr, DecidableEq

namespace Problem

/-- The kind of a problem. -/
def kind : Problem → Kind
  | malformedJson .. => .malformedJson
  | missingRequiredField .. => .missingRequiredField
  | unknownField .. => .unknownField
  | invalidType .. => .invalidType
  | patternMismatch .. => .patternMismatch
  | cardinalityMismatch .. => .cardinalityMismatch
  | variantNotMatched .. => .variantNotMatched
  | unknownOperator .. => .unknownOperator
  | arityMismatch .. => .arityMismatch
  | operandType .. => .operandType
  | reservedNamespace .. => .reservedNamespace
  | familyMismatch .. => .familyMismatch
  | danglingReference .. => .danglingReference
  | depthExceeded .. => .depthExceeded

/-- The wording of a problem. -/
def message : Problem → String
  | malformedJson line column message =>
    s!"Malformed JSON at line {line}, column {column}: {message}"
  | missingRequiredField field => s!"Missing required field '{field}'"
  | unknownField field found => s!"Field '{field}' is not allowed here (found {found})"
  | invalidType expected found => s!"Expected {expected}, but found {found}"
  | patternMismatch expected value => s!"Value {value} does not match {expected}"
  | cardinalityMismatch expected found => s!"Expected {expected}, but found {found}"
  | variantNotMatched union reason => s!"No {union} variant matches: {reason}"
  | unknownOperator operator => s!"Unknown operator '{operator}'"
  | arityMismatch operator expected found =>
    s!"Operator '{operator}' takes {expected.wording} argument(s), but received {found}"
  | operandType operator expected found =>
    s!"Operand of '{operator}' must be {expected}, but found {found}"
  | reservedNamespace reference space =>
    s!"Reference '{reference}' is inside the reserved {space.name} namespace"
  | familyMismatch expected found =>
    s!"Expected a {expected.name} expression, but found {found.name}"
  | danglingReference node field index len =>
    s!"Node {node} field '{field}' points at {index}, which is outside the {len} available nodes"
  | depthExceeded limit => s!"Expression nesting exceeds the limit of {limit} levels"

end Problem

end DialogueLint
