import DialogueLint.Json.Describe
import DialogueLint.Outcome
import DialogueLint.Typing.Operand

/-!
# Arguments

What there is to say about the arguments of an operator or a method, given a way to type each of
them: about one argument by the rule for it, about two that are compared by size, and about an
argument array. If an array has a size that the arity does not accept, nothing is said about its
items.
-/

namespace DialogueLint.Typing

/-- A way to type the expression at a place. -/
abbrev Typer : Type := Pointer → Json → Outcome FamilySet

/-- How messages speak of an expression with the given families. -/
def wording (families : FamilySet) : String :=
  match families.primary with
  | some family => s!"a {family.name} expression"
  | none => "an unclassified expression"

/-- An operand that has to be an expression. -/
def expressionOperand (sub : Typer) (name : String) (expect : Expectation) (path : Pointer)
    (operand : Json) : List Diagnostic :=
  let typed := sub path operand
  typed.diagnostics ++
    match typed.result? with
    | none => []
    | some families =>
      if expect.accepts families then []
      else [⟨path, .operandType name expect.wording (wording families)⟩]

/-- An operand that has to be a format text. -/
def formatOperand (format : Format) (path : Pointer) : Json → List Diagnostic
  | .string text =>
    if format.accepts text then [] else [⟨path, .patternMismatch format.pattern (Text.quote text)⟩]
  | other => [⟨path, .invalidType "a format string" other.describe⟩]

/-- An operand that names the variable of a loop. -/
def bindingOperand (path : Pointer) : Json → List Diagnostic
  | .string _ => []
  | other => [⟨path, .invalidType "a loop variable name" other.describe⟩]

/-- What there is to say about one operand. -/
def operand (sub : Typer) (name : String) (rule : Operand) (path : Pointer) (value : Json) :
    List Diagnostic :=
  match rule with
  | .expression expect => expressionOperand sub name expect path value
  | .format format => formatOperand format path value
  | .binding => bindingOperand path value

/-- What there is to say about operands with a rule each, the first of which has the given index. -/
def operandsFrom (sub : Typer) (name : String) (path : Pointer) :
    Nat → List Operand → List Json → List Diagnostic
  | index, rule :: rules, value :: values =>
    operand sub name rule (path.item index) value ++
      operandsFrom sub name path (index + 1) rules values
  | _, _, _ => []

/-- The problem of two operands that are not comparable: the second does not match the first, or the
first cannot be compared by size at all. -/
def incomparable (name : String) (path : Pointer) (left right : FamilySet) : Diagnostic :=
  if left.ordered.isEmpty then
    ⟨path.item 0, .operandType name "a Date, DateTime, Numeric or Time expression" (wording left)⟩
  else
    ⟨path.item 1, .operandType name
      ("a " ++ " or ".intercalate (left.ordered.map Family.name) ++ " expression") (wording right)⟩

/-- What there is to say about two operands that are compared by size. -/
def comparison (sub : Typer) (name : String) (path : Pointer) (a b : Json) : List Diagnostic :=
  let left := sub (path.item 0) a
  let right := sub (path.item 1) b
  left.diagnostics ++ right.diagnostics ++
    match left.result?, right.result? with
    | some l, some r => if l.ordered.any r.contains then [] else [incomparable name path l r]
    | _, _ => []

/-- What there is to say about the operands in an argument array. -/
def operandArray (sub : Typer) (name : String) (arity : Arity) (operands : Operands)
    (path : Pointer) (values : List Json) : List Diagnostic :=
  if arity.accepts values.length then
    match operands, values with
    | .ordered, [a, b] => comparison sub name path a b
    | operands, values => operandsFrom sub name path 0 (operands.layout values.length) values
  else [⟨path, .arityMismatch name arity values.length⟩]

/-- What there is to say about a value that has to be an argument array. -/
def argumentArray (sub : Typer) (name : String) (arity : Arity) (operands : Operands)
    (path : Pointer) : Json → List Diagnostic
  | .array values => operandArray sub name arity operands path values
  | other => [⟨path, .invalidType s!"an argument array for '{name}'" other.describe⟩]

end DialogueLint.Typing
