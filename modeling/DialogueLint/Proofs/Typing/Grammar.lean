import DialogueLint.Reference
import DialogueLint.Json.Basic
import DialogueLint.Typing.Operand
import Mathlib.Tactic.Common

/-!
# The grammar of expressions

Which JSON values are expressions of which family, as rules of their own: the literals, the forms
that belong to every family but `null`, and for every family the operators and methods with a result
of that family. The grammar knows nothing of places, diagnostics or limits; that typing accepts
exactly what it derives is shown in `DialogueLint.Proofs.Typing.Acceptance`.

`Derivable (.family f) e` says that `e` is an expression of the family `f`, and `Derivable .logic e`
that it is an expression of some family, `null` included.

Operators or methods of one shape have one rule, and their names are listed beside it (`constants`,
`units`). What an operator or method takes is written out in its rule as the expressions that its
operands have to be, with nothing taken from the tables of the checker.
-/

namespace DialogueLint.Typing

/-- An operator with its operands in an array. -/
abbrev operation (key : String) (operands : List Json) : Json :=
  .object [(key, .array operands)]

/-- A method that is called with arguments. -/
abbrev invocation (receiver : Json) (name : String) (arguments : List Json) : Json :=
  .object [("method", .array [receiver, .string name, .array arguments])]

/-- A method that is called without arguments. -/
abbrev bareInvocation (receiver : Json) (name : String) : Json :=
  .object [("method", .array [receiver, .string name])]

/-- A reference that is looked up. -/
abbrev lookedUp (reference : String) : Json :=
  .object [("var", .string reference)]

namespace Grammar

/-- The families that a text may be a literal of. -/
def textual : List Family :=
  [.date, .dateTime, .string, .time]

/-- The families whose expressions can be compared by size. -/
def comparable : List Family :=
  [.date, .dateTime, .numeric, .time]

/-- The operators without operands, by the family of their values. -/
def constants : Family → List String
  | .date => ["Date.currentDate"]
  | .dateTime => ["DateTime.currentDateTime"]
  | .time => ["Time.currentTime"]
  | .numeric => ["Date.currentYear", "Date.currentMonth", "Date.currentDay", "Time.currentHour",
      "Time.currentMinute", "Time.currentSecond"]
  | _ => []

/-- The operators that read a text in universal time, by the family of their values. -/
def readers : Family → List String
  | .date => ["Date.fromUTC"]
  | .dateTime => ["DateTime.fromUTC"]
  | .time => ["Time.fromUTC"]
  | _ => []

/-- The units in which values of a family are counted on and back. -/
def units : Family → List String
  | .date => ["Days", "Weeks", "Months", "Years"]
  | .dateTime => ["Seconds", "Minutes", "Hours", "Days", "Weeks", "Months", "Years"]
  | .time => ["Seconds", "Minutes", "Hours"]
  | _ => []

end Grammar

open Grammar

/-- The expressions of each family and, for `.logic`, those of any family. -/
inductive Derivable : Expectation → Json → Prop where
  | logic {f e} : Derivable (.family f) e → Derivable .logic e
  -- literals
  | bool {b} : Derivable (.family .boolean) (.bool b)
  | number {n} : Derivable (.family .numeric) (.number n)
  | text {f s} : f ∈ textual → Derivable (.family f) (.string s)
  | null : Derivable (.family .null) .null
  -- of every family but `null`
  | var {f r} : f ≠ .null → Reference.isReadable r → Derivable (.family f) (lookedUp r)
  | current {f tag} : f ≠ .null → Derivable (.family f) (.object [("current", .string tag)])
  | choice {f es} : f ≠ .null → 3 ≤ es.length → (∀ e ∈ es, Derivable .logic e) →
      Derivable (.family f) (operation "if" es)
  | getItem {f l i} : f ≠ .null → Derivable (.family .list) l → Derivable (.family .numeric) i →
      Derivable (.family f) (invocation l "getItem" [i])
  -- truth values; a negated expression stands in an array or by itself
  | equality {key a b} : key ∈ ["===", "==", "!==", "!="] → Derivable .logic a →
      Derivable .logic b → Derivable (.family .boolean) (operation key [a, b])
  | connective {key es} : key ∈ ["and", "or"] → 2 ≤ es.length → (∀ e ∈ es, Derivable .logic e) →
      Derivable (.family .boolean) (operation key es)
  | negation {key e} : key ∈ ["!", "!!"] → Derivable .logic e →
      Derivable (.family .boolean) (operation key [e])
  | bareNegation {key e} : key ∈ ["!", "!!"] → Derivable .logic e →
      Derivable (.family .boolean) (.object [(key, e)])
  | comparison {key f a b} : key ∈ [">", ">=", "<", "<="] → f ∈ comparable →
      Derivable (.family f) a → Derivable (.family f) b →
      Derivable (.family .boolean) (operation key [a, b])
  | matchesPattern {s p} : Derivable (.family .string) s → Derivable (.family .string) p →
      Derivable (.family .boolean) (invocation s "matchesPattern" [p])
  -- dates and times
  | constant {f key} : key ∈ constants f → Derivable (.family f) (operation key [])
  | reading {f key s p} : key ∈ readers f → Derivable (.family .string) s →
      Derivable (.family .string) p → Derivable (.family f) (operation key [s, p])
  | counting {f verb unit t n} : verb ∈ ["add", "subtract"] → unit ∈ units f →
      Derivable (.family f) t → Derivable (.family .numeric) n →
      Derivable (.family f) (invocation t (verb ++ unit) [n])
  -- numbers; items are counted only of a variable that is looked up in place
  | sum {key es} : key ∈ ["+", "-"] → 1 ≤ es.length → (∀ e ∈ es, Derivable (.family .numeric) e) →
      Derivable (.family .numeric) (operation key es)
  | product {es} : 2 ≤ es.length → (∀ e ∈ es, Derivable (.family .numeric) e) →
      Derivable (.family .numeric) (operation "*" es)
  | quotient {key a b} : key ∈ ["/", "%"] → Derivable (.family .numeric) a →
      Derivable (.family .numeric) b → Derivable (.family .numeric) (operation key [a, b])
  | getCount {r} : Reference.isReadable r →
      Derivable (.family .numeric) (bareInvocation (lookedUp r) "getCount")
  | indexOf {s p} : Derivable (.family .string) s → Derivable (.family .string) p →
      Derivable (.family .numeric) (invocation s "indexOf" [p])
  | indexOfFrom {s p i} : Derivable (.family .string) s → Derivable (.family .string) p →
      Derivable (.family .numeric) i →
      Derivable (.family .numeric) (invocation s "indexOf" [p, i])
  | length {s} : Derivable (.family .string) s →
      Derivable (.family .numeric) (bareInvocation s "length")
  | round {n d} : Derivable (.family .numeric) n → Derivable (.family .numeric) d →
      Derivable (.family .numeric) (invocation n "round" [d])
  -- texts
  | cat {es} : 2 ≤ es.length → (∀ e ∈ es, Derivable .logic e) →
      Derivable (.family .string) (operation "cat" es)
  | substr {s i} : Derivable (.family .string) s → Derivable (.family .numeric) i →
      Derivable (.family .string) (operation "substr" [s, i])
  | substrOf {s i n} : Derivable (.family .string) s → Derivable (.family .numeric) i →
      Derivable (.family .numeric) n → Derivable (.family .string) (operation "substr" [s, i, n])
  | dateFormat {d p} : Derivable (.family .date) d → Format.date.accepts p →
      Derivable (.family .string) (operation "Date.format" [d, .string p])
  | dateTimeFormat {d p} : Derivable (.family .dateTime) d → Format.dateTime.accepts p →
      Derivable (.family .string) (operation "DateTime.format" [d, .string p])
  | toUTC {t p} : Derivable (.family .dateTime) t → Derivable (.family .string) p →
      Derivable (.family .string) (operation "DateTime.toUTC" [t, p])
  | toUTCOf {d t p} : Derivable (.family .date) d → Derivable (.family .time) t →
      Derivable (.family .string) p →
      Derivable (.family .string) (operation "DateTime.toUTC" [d, t, p])
  -- lists
  | addItem {l es} : Derivable (.family .list) l → 1 ≤ es.length →
      (∀ e ∈ es, Derivable .logic e) → Derivable (.family .list) (invocation l "addItem" es)
  | filter {l e} : Derivable (.family .list) l → Derivable .logic e →
      Derivable (.family .list) (invocation l "filter" [e])
  | filterAs {l name e} : Derivable (.family .list) l → Derivable .logic e →
      Derivable (.family .list) (invocation l "filter" [.string name, e])
  | split {s p} : Derivable (.family .string) s → Derivable (.family .string) p →
      Derivable (.family .list) (invocation s "split" [p])
  | sort {l es} : Derivable (.family .list) l → (∀ e ∈ es, Derivable .logic e) →
      Derivable (.family .list) (invocation l "sort" es)
  | removeItem {l} : Derivable (.family .list) l →
      Derivable (.family .list) (invocation l "removeItem" [])
  | removeItemAt {l i} : Derivable (.family .list) l → Derivable (.family .numeric) i →
      Derivable (.family .list) (invocation l "removeItem" [i])
  | updateItem {l i e} : Derivable (.family .list) l → Derivable (.family .numeric) i →
      Derivable .logic e → Derivable (.family .list) (invocation l "updateItem" [i, e])

/-- An expression of no particular family is an expression of some family. -/
lemma derivable_logic_iff {e : Json} : Derivable .logic e ↔ ∃ f, Derivable (.family f) e := by
  constructor
  · intro h
    cases h with
    | logic h => exact ⟨_, h⟩
  · rintro ⟨f, h⟩
    exact .logic h

end DialogueLint.Typing
