import DialogueLint.Typing.Operand

/-!
# Operators

The operators of the expression language: their names, the families of their results and the rules
for their operands.
-/

namespace DialogueLint

/-- An operator, written as the only key of an object whose value holds the operands. -/
structure Operator where
  name : String
  result : Family
  arity : Arity
  operands : Operands
  deriving Repr, DecidableEq

namespace Operator

/-- Operators for equality and logic. -/
def logical : List Operator :=
  [⟨"==", .boolean, .exactly 2, .anything⟩,
    ⟨"===", .boolean, .exactly 2, .anything⟩,
    ⟨"!=", .boolean, .exactly 2, .anything⟩,
    ⟨"!==", .boolean, .exactly 2, .anything⟩,
    ⟨"and", .boolean, .atLeast 2, .anything⟩,
    ⟨"or", .boolean, .atLeast 2, .anything⟩,
    ⟨"!", .boolean, .exactly 1, .unary⟩,
    ⟨"!!", .boolean, .exactly 1, .unary⟩]

/-- Operators that compare by size. -/
def comparing : List Operator :=
  [⟨">", .boolean, .exactly 2, .ordered⟩,
    ⟨">=", .boolean, .exactly 2, .ordered⟩,
    ⟨"<", .boolean, .exactly 2, .ordered⟩,
    ⟨"<=", .boolean, .exactly 2, .ordered⟩]

/-- Operators with numeric results. -/
def numeric : List Operator :=
  [⟨"+", .numeric, .atLeast 1, .numeric⟩,
    ⟨"-", .numeric, .atLeast 1, .numeric⟩,
    ⟨"*", .numeric, .atLeast 2, .numeric⟩,
    ⟨"/", .numeric, .exactly 2, .numeric⟩,
    ⟨"%", .numeric, .exactly 2, .numeric⟩,
    ⟨"Date.currentYear", .numeric, .exactly 0, .none⟩,
    ⟨"Date.currentMonth", .numeric, .exactly 0, .none⟩,
    ⟨"Date.currentDay", .numeric, .exactly 0, .none⟩,
    ⟨"Time.currentHour", .numeric, .exactly 0, .none⟩,
    ⟨"Time.currentMinute", .numeric, .exactly 0, .none⟩,
    ⟨"Time.currentSecond", .numeric, .exactly 0, .none⟩]

/-- Operators with texts as results. -/
def textual : List Operator :=
  [⟨"cat", .string, .atLeast 2, .anything⟩,
    ⟨"substr", .string, .between 2 3, .families [.string, .numeric, .numeric]⟩,
    ⟨"Date.format", .string, .exactly 2,
      .positional [.expression (.family .date), .format .date]⟩,
    ⟨"DateTime.format", .string, .exactly 2,
      .positional [.expression (.family .dateTime), .format .dateTime]⟩,
    ⟨"DateTime.toUTC", .string, .between 2 3,
      .byCount [[.expression (.family .dateTime), .expression (.family .string)],
        [.expression (.family .date), .expression (.family .time),
          .expression (.family .string)]]⟩]

/-- Operators with dates and times as results. -/
def temporal : List Operator :=
  [⟨"Date.currentDate", .date, .exactly 0, .none⟩,
    ⟨"Date.fromUTC", .date, .exactly 2, .families [.string, .string]⟩,
    ⟨"DateTime.currentDateTime", .dateTime, .exactly 0, .none⟩,
    ⟨"DateTime.fromUTC", .dateTime, .exactly 2, .families [.string, .string]⟩,
    ⟨"Time.currentTime", .time, .exactly 0, .none⟩,
    ⟨"Time.fromUTC", .time, .exactly 2, .families [.string, .string]⟩]

/-- The operator that chooses between expressions. -/
def choosing : List Operator :=
  [⟨"if", .any, .atLeast 3, .anything⟩]

/-- All operators. -/
def table : List Operator :=
  logical ++ comparing ++ numeric ++ textual ++ temporal ++ choosing

/-- The operator of a name. -/
def ofName? (name : String) : Option Operator :=
  table.find? fun operator => operator.name == name

end Operator

end DialogueLint
