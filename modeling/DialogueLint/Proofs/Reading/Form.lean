import DialogueLint.Json.Basic
import Mathlib.Tactic.Common

/-!
# Forms

A declarative language for what JSON values look like: texts, arrays and maps, objects with a closed
set of fields, and objects whose field `type` tells which closed object they are. Forms know nothing
of readers, places or diagnostics.

A form is a predicate, so a schema is read as what it says about values, and not as data that a
checker interprets. The constructors are those of which the schema of dialogues is made; each has a
reader that accepts it, which is shown in `DialogueLint.Proofs.Reading.Conformance` and
`DialogueLint.Proofs.Reading.Closure`.
-/

namespace DialogueLint

/-- Whether a value has a form. -/
abbrev Form : Type := Json → Prop

/-- What is declared about a field of a closed object. -/
structure FieldRule where
  name : String
  needed : Bool
  form : Form

namespace FieldRule

/-- A field that has to be there. -/
def must (name : String) (form : Form) : FieldRule := ⟨name, true, form⟩

/-- A field that may be absent. -/
def may (name : String) (form : Form) : FieldRule := ⟨name, false, form⟩

/-- Whether members obey the rule. -/
def Holds (rule : FieldRule) (members : Members Json) : Prop :=
  match Members.get? members rule.name with
  | some value => rule.form value
  | none => rule.needed = false

end FieldRule

namespace Form

/-- Any value. -/
def anything : Form := fun _ => True

/-- A boolean. -/
def bool : Form := fun v => ∃ b, v = .bool b

/-- A number. -/
def number : Form := fun v => ∃ n, v = .number n

/-- A string with a property. -/
def text (P : String → Prop) : Form := fun v => ∃ s, v = .string s ∧ P s

/-- Any string. -/
def string : Form := text fun _ => True

/-- A string of so many characters. -/
def textOf (min max : Nat) : Form := text fun s => min ≤ s.length ∧ s.length ≤ max

/-- A string that is not empty. -/
def nonEmptyText : Form := text fun s => 1 ≤ s.length

/-- One of several names. -/
def oneOf (names : List String) : Form := text fun s => s ∈ names

/-- The value `null`, or a value of a form. -/
def orNull (form : Form) : Form := fun v => v = .null ∨ form v

/-- A value of either form. -/
def either (form other : Form) : Form := fun v => form v ∨ other v

/-- An array of values of a form. -/
def arrayOf (form : Form) : Form := fun v => ∃ items, v = .array items ∧ ∀ item ∈ items, form item

/-- An array of at least one value of a form. -/
def someOf (form : Form) : Form := fun v =>
  ∃ items, v = .array items ∧ items ≠ [] ∧ ∀ item ∈ items, form item

/-- An array of at least one string, each of them once. -/
def distinctTexts : Form := fun v =>
  ∃ texts : List String, v = .array (texts.map .string) ∧ texts ≠ [] ∧ texts.Nodup

/-- An object with keys of a kind and values of a form. -/
def mapOf (key : String → Prop) (form : Form) : Form := fun v =>
  ∃ members, v = .object members ∧ ∀ m ∈ members, key m.1 ∧ form m.2

/-- An object with any members. -/
def object : Form := mapOf (fun _ => True) anything

/-- An object with the declared fields and no others. -/
def closed (rules : List FieldRule) : Form := fun v =>
  ∃ members, v = .object members ∧ (∀ key ∈ Members.keys members, key ∈ rules.map FieldRule.name) ∧
    ∀ rule ∈ rules, rule.Holds members

/-- An object with at least one of several fields. -/
def withOneOf (names : List String) : Form := fun v =>
  ∃ members, v = .object members ∧ ∃ name ∈ names, (Members.get? members name).isSome

/-- One of several closed objects, each of which has a field `type` with its own name. -/
def tagged (variants : List (String × List FieldRule)) : Form := fun v =>
  ∃ variant ∈ variants, closed (.must "type" (oneOf [variant.1]) :: variant.2) v

end Form

end DialogueLint
