import DialogueLint.Typing.Call

/-!
# Typing expressions

An expression is a literal or an object with a single key: `var` looks up a reference, `current`
names the item of a loop, `method` calls a method, and every other key is an operator. Typing gives
the families that an expression belongs to.

One level is typed by `Typing.level`, given a way to type the operands; `Typing.infer` ties the knot
for expressions of at most a given number of levels.
-/

namespace DialogueLint.Typing

/-- Types one level of an expression, given a way to type its operands. -/
def level (sub : Typer) (path : Pointer) : Json → Outcome FamilySet
  | .null => .ok (Shape.literal .null).families
  | .bool _ => .ok (Shape.literal .bool).families
  | .number _ => .ok (Shape.literal .number).families
  | .string _ => .ok (Shape.literal .text).families
  | .array items => .fail path (.invalidType "an expression" (Json.array items).describe)
  | .object [(key, value)] => call sub (path.push key) key value
  | .object members => .fail path (.variantNotMatched "expression"
      s!"an operation must carry exactly one operator key, found {members.length}")

/-- Types an expression of at most so many levels. The limit is what is reported where an expression
has more. -/
def inferWithin (limit : Nat) : Nat → Typer
  | 0, path, _ => .fail path (.depthExceeded limit)
  | levels + 1, path, value => level (inferWithin limit levels) path value

/-- The families of an expression whose operands are nested at most `limit` deep. -/
def infer (limit : Nat) : Typer :=
  inferWithin limit (limit + 1)

/-- The family as which an expression is accepted at a place that demands something of it. -/
def check (limit : Nat) (expect : Expectation) (path : Pointer) (value : Json) : Outcome Family :=
  let typed := infer limit path value
  match typed.result? with
  | none => ⟨none, typed.diagnostics⟩
  | some families =>
    match expect with
    | .logic => ⟨families.primary, typed.diagnostics⟩
    | .family family =>
      if families.contains family then ⟨some family, typed.diagnostics⟩
      else ⟨none, typed.diagnostics ++
        [⟨path, .familyMismatch family (families.primary.getD .any)⟩]⟩

/-- The family of an expression by itself, or the report of what is wrong with it. -/
def inferFamily (limit : Nat) (expected : Option Family) (value : Json) : Except Report Family :=
  let checked := check limit (expected.elim .logic .family) .root value
  match checked.result?, checked.diagnostics with
  | some family, [] => .ok family
  | _, diagnostics => .error ⟨diagnostics⟩

end DialogueLint.Typing
