import DialogueLint.Typing.Operand

/-!
# Methods

The methods of the expression language. A method is called on a receiver; methods of one name differ
in the family of their receivers and results, and agree in everything else.
-/

namespace DialogueLint

/-- What a method is called on. -/
inductive Receiver where
  /-- An expression of the given family. -/
  | family (family : Family)
  /-- A variable that is looked up in place. -/
  | lookup
  deriving Repr, DecidableEq

/-- The rules for the arguments of a method. -/
structure Arguments where
  /-- How many arguments there may be. -/
  arity : Arity
  /-- What the arguments must be. -/
  operands : Operands
  deriving Repr, DecidableEq

/-- A method, with the rules for its arguments if it is called with any. -/
structure Method where
  name : String
  receiver : Receiver
  result : Family
  arguments : Option Arguments
  deriving Repr, DecidableEq

namespace Method

/-- The units of time in which a date is counted on. -/
def dateUnits : List String :=
  ["Days", "Weeks", "Months", "Years"]

/-- The units of time in which a time of day is counted on. -/
def timeUnits : List String :=
  ["Seconds", "Minutes", "Hours"]

/-- One argument, a number. -/
def oneNumber : Operands := .families [.numeric]

/-- One argument, a text. -/
def oneText : Operands := .families [.string]

/-- Methods on values that are not dates or times. -/
def plain : List Method :=
  [⟨"getItem", .family .list, .any, some ⟨.exactly 1, oneNumber⟩⟩,
    ⟨"matchesPattern", .family .string, .boolean, some ⟨.exactly 1, oneText⟩⟩,
    ⟨"getCount", .lookup, .numeric, none⟩,
    ⟨"indexOf", .family .string, .numeric,
      some ⟨.between 1 2, .families [.string, .numeric]⟩⟩,
    ⟨"length", .family .string, .numeric, none⟩,
    ⟨"round", .family .numeric, .numeric, some ⟨.exactly 1, oneNumber⟩⟩,
    ⟨"addItem", .family .list, .list, some ⟨.atLeast 1, .anything⟩⟩,
    ⟨"filter", .family .list, .list,
      some ⟨.between 1 2, .byCount [[.expression .logic], [.binding, .expression .logic]]⟩⟩,
    ⟨"split", .family .string, .list, some ⟨.exactly 1, oneText⟩⟩,
    ⟨"sort", .family .list, .list, some ⟨.atLeast 0, .anything⟩⟩,
    ⟨"removeItem", .family .list, .list, some ⟨.between 0 1, oneNumber⟩⟩,
    ⟨"updateItem", .family .list, .list,
      some ⟨.exactly 2, .positional [.expression (.family .numeric), .expression .logic]⟩⟩]

/-- Methods that count dates or times of a family on and back, in the given units. -/
def counting (family : Family) (units : List String) : List Method :=
  ["add", "subtract"].flatMap fun verb =>
    units.map fun unit =>
      ⟨verb ++ unit, .family family, family, some ⟨.exactly 1, oneNumber⟩⟩

/-- All methods. -/
def table : List Method :=
  plain ++ counting .date dateUnits ++ counting .dateTime (timeUnits ++ dateUnits) ++
    counting .time timeUnits

/-- The methods of a name. -/
def named (name : String) : List Method :=
  table.filter fun m => m.name == name

/-- The names of methods, each once. -/
def names : List String :=
  (table.map Method.name).eraseDups

end Method

end DialogueLint
