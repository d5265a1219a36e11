import DialogueLint.Typing.Argument
import DialogueLint.Typing.Lookup
import DialogueLint.Typing.Method
import DialogueLint.Typing.Operator

/-!
# Calls

The families of a call, given a way to type its operands. An operator keeps the family of its result
whatever its operands are, so that problems are reported where they are and not again further out.
Methods of one name are told apart by the families of their receiver.
-/

namespace DialogueLint.Typing

/-! ## Operators -/

/-- What there is to say about the operand of an operator that takes one, by itself or in an
array. -/
def unaryOperand (sub : Typer) (name : String) (arity : Arity) (path : Pointer) :
    Json → List Diagnostic
  | .array [value] => expressionOperand sub name .logic (path.item 0) value
  | .array values => [⟨path, .arityMismatch name arity values.length⟩]
  | value => expressionOperand sub name .logic path value

/-- A call of an operator. The result has its families whatever the operands are. -/
def operatorCall (sub : Typer) (operator : Operator) (path : Pointer) (value : Json) :
    Outcome FamilySet :=
  ⟨some (Shape.resultFamilies operator.result),
    match operator.operands with
    | .unary => unaryOperand sub operator.name operator.arity path value
    | operands => argumentArray sub operator.name operator.arity operands path value⟩

/-! ## Methods -/

/-- The families that the results of methods belong to. -/
def results (methods : List Method) : FamilySet :=
  methods.foldl (fun families m => families.union (Shape.resultFamilies m.result)) .empty

/-- Whether a method can be called on a receiver with the given families. -/
def takes (families : FamilySet) (m : Method) : Bool :=
  match m.receiver with
  | .family family => families.contains family
  | .lookup => true

/-- The families of the receivers of methods. -/
def receiverFamilies (methods : List Method) : List Family :=
  methods.filterMap fun m =>
    match m.receiver with
    | .family family => some family
    | .lookup => none

/-- A receiver that has to be a variable looked up in place. -/
def lookupReceiver (name : String) (path : Pointer) : Json → Outcome FamilySet
  | .object [("var", reference)] => lookup (path.push "var") reference
  | other =>
    .fail path (.operandType name "a variable reference \x7b\"var\": ...\x7d" other.describe)

/-- The receiver of a method. -/
def receiver (sub : Typer) (m : Method) (path : Pointer) (value : Json) : Outcome FamilySet :=
  match m.receiver with
  | .lookup => lookupReceiver m.name path value
  | .family _ => sub path value

/-- The families of a call of one of several methods of a name, by those of the receiver. A receiver
that none of them can be called on is reported. -/
def overload (name : String) (methods : List Method) (path : Pointer) :
    Option FamilySet → Outcome FamilySet
  | none => .ok (results methods)
  | some families =>
    match methods.filter (takes families) with
    | [] =>
      let expected := " or ".intercalate ((receiverFamilies methods).map Family.name)
      ⟨some (results methods),
        [⟨path, .operandType name s!"a {expected} receiver" (wording families)⟩]⟩
    | matching => .ok (results matching)

/-- A call of one of several methods of a name on a receiver. -/
def methodOn (sub : Typer) (first : Method) (methods : List Method) (path : Pointer)
    (value : Json) (arguments : List Diagnostic) : Outcome FamilySet :=
  let place := path.item 0
  let typed := receiver sub first place value
  let chosen := overload first.name methods place typed.result?
  ⟨chosen.result?, typed.diagnostics ++ arguments ++ chosen.diagnostics⟩

/-- A call of one of the methods of a name: the receiver, the name and, unless the methods take no
arguments, an argument array. -/
def namedCall (sub : Typer) (name : String) (path : Pointer) (items : List Json) :
    Outcome FamilySet :=
  match Method.named name with
  | [] => .fail (path.item 1) (.unknownOperator name)
  | first :: others =>
    match first.arguments, items with
    | none, [value, _] => methodOn sub first (first :: others) path value []
    | some rules, [value, _, arguments] =>
      methodOn sub first (first :: others) path value
        (argumentArray sub name rules.arity rules.operands (path.item 2) arguments)
    | rules, items =>
      let size := if rules.isSome then 3 else 2
      .fail path (.cardinalityMismatch s!"a '{name}' call of {size} items"
        s!"{items.length} item(s)")

/-- A method call: an array that begins with the receiver and the name. -/
def methodCall (sub : Typer) (path : Pointer) : Json → Outcome FamilySet
  | .array items =>
    match items with
    | _ :: .string name :: _ => namedCall sub name path items
    | _ :: other :: _ =>
      .fail (path.item 1) (.invalidType "a method name string" other.describe)
    | items =>
      .fail path (.cardinalityMismatch "a method call of 2 or 3 items" s!"{items.length} item(s)")
  | other => .fail path (.invalidType "a method call [receiver, name, arguments]" other.describe)

/-! ## Keys -/

/-- The expression with the given single key and the value behind it. -/
def call (sub : Typer) (path : Pointer) (key : String) (value : Json) : Outcome FamilySet :=
  if key = "var" then lookup path value
  else if key = "current" then loopItem path value
  else if key = "method" then methodCall sub path value
  else match Operator.ofName? key with
    | some operator => operatorCall sub operator path value
    | none => .fail path (.unknownOperator key)

end DialogueLint.Typing
