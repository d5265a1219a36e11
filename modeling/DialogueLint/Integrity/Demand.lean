import DialogueLint.Dialogue.Definition
import DialogueLint.Typing.Infer

/-!
# Demands

What the parts of a dialogue demand of what they refer to: a reference is written or read, an
expression has a family, a successor is one of the nodes. Each part lists its demands with the place
of each below the part itself; whether a demand is met is checked one by one.
-/

namespace DialogueLint

/-- A demand on what a part of a dialogue refers to. -/
inductive Demand where
  /-- The reference may be written. -/
  | writes (reference : String)
  /-- The reference may be read. -/
  | reads (reference : String)
  /-- The expression meets an expectation. -/
  | types (expect : Expectation) (expression : Expression)
  /-- The field of a node holds the index of one of so many nodes. -/
  | leads (node : Nat) (field : String) (target : Number) (len : Nat)
  deriving Repr

/-- A demand with its place below the part that makes it. -/
abbrev Demands : Type := List (Pointer × Demand)

/-- What there is to say about a demand, if expressions may have so many levels. -/
def Demand.check (limit : Nat) (path : Pointer) : Demand → List Diagnostic
  | writes reference =>
    match Reference.reserved? reference with
    | some space => [⟨path, .reservedNamespace reference space⟩]
    | none => []
  | reads reference => Diagnostic.ofRead path reference
  | types expect expression => (Typing.check limit expect path expression).diagnostics
  | leads node field target len =>
    if target.index?.any fun index => index < len then []
    else [⟨path, .danglingReference node field target.text len⟩]

namespace Demands

/-- What there is to say about the demands of a part at a place. -/
def check (limit : Nat) (path : Pointer) (demands : Demands) : List Diagnostic :=
  demands.flatMap fun (place, demand) => demand.check limit (path.join place)

/-- The demands of a part that lies below the part considered. -/
def under (tokens : List String) (demands : Demands) : Demands :=
  demands.map fun (place, demand) => (Pointer.join ⟨tokens⟩ place, demand)

/-- A single demand of a field. -/
def field (name : String) (demand : Demand) : Demands :=
  [(⟨[name]⟩, demand)]

/-- A field holds a reference that is written. -/
def writes (name reference : String) : Demands :=
  field name (.writes reference)

/-- A field holds an expression. -/
def types (name : String) (expect : Expectation) (expression : Expression) : Demands :=
  field name (.types expect expression)

/-- The demands of a part that may be absent. -/
def ifPresent {α : Type} (part : Option α) (demands : α → Demands) : Demands :=
  part.elim [] demands

end Demands

end DialogueLint
