import DialogueLint.Text.Blank
import DialogueLint.Typing.Arity
import DialogueLint.Typing.Family

/-!
# Operands

What the operands of an operator or a method must be.
-/

namespace DialogueLint

/-- What a format text may describe. -/
inductive Format where
  /-- The parts of a date. -/
  | date
  /-- The parts of a date and a time of day. -/
  | dateTime
  deriving Repr, DecidableEq

namespace Format

/-- The characters of a format besides blanks. -/
def letters : Format → List Char
  | date => ['y', 'M', 'd', 'o', 't', '-', '/']
  | dateTime => ['y', 'M', 'd', 'o', 't', '-', '/', 'H', 'h', 'm', 's', ':']

/-- Whether a character may occur. -/
def allows (format : Format) (c : Char) : Bool :=
  format.letters.contains c || Text.isBlank c

/-- Whether a text is a format: not empty, and of allowed characters only. -/
def accepts (format : Format) (text : String) : Bool :=
  !text.toList.isEmpty && text.toList.all format.allows

/-- The pattern that messages show. -/
def pattern : Format → String
  | date => "^[yMdot\\s-/]+$"
  | dateTime => "^[yMdotHhms\\s-/:]+$"

end Format

/-- The rule for one operand. -/
inductive Operand where
  /-- An expression that meets an expectation. -/
  | expression (expect : Expectation)
  /-- A format text. -/
  | format (format : Format)
  /-- A text that names the variable of a loop. -/
  | binding
  deriving Repr, DecidableEq

/-- The rule for all operands of an operator or a method. -/
inductive Operands where
  /-- Every operand meets the same expectation. -/
  | uniform (expect : Expectation)
  /-- Each operand has a rule of its own. -/
  | positional (rules : List Operand)
  /-- The rules are those of the list that is as long as the operands are many. -/
  | byCount (layouts : List (List Operand))
  /-- Two operands that share a family whose values can be compared by size. -/
  | ordered
  /-- An expression by itself, or in an array of one item. -/
  | unary
  deriving Repr, DecidableEq

namespace Operands

/-- Rules for operands that may be any expression. -/
def anything : Operands := .uniform .logic

/-- No operands. -/
def none : Operands := .positional []

/-- Numeric operands. -/
def numeric : Operands := .uniform (.family .numeric)

/-- Operands of the given families in turn. -/
def families (fs : List Family) : Operands :=
  .positional (fs.map fun f => .expression (.family f))

/-- The rules for a number of operands, one each. -/
def layout : Operands → Nat → List Operand
  | uniform expect, count => List.replicate count (.expression expect)
  | positional rules, _ => rules
  | byCount layouts, count => (layouts.find? fun rules => rules.length == count).getD []
  | ordered, count => List.replicate count (.expression .logic)
  | unary, _ => [.expression .logic]

end Operands

end DialogueLint
