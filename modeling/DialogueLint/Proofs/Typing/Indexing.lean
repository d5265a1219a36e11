import DialogueLint.Typing.Infer
import DialogueLint.Proofs.Typing.Surroundings

/-!
# Reading items by their index

Typing can be said so that it reads the items of arrays, and the first method of a name, by their
index once their number has been tested, as a program does that has arrays and no patterns
(`Indexed.level`). Such a reading finds something each time: the outcome is that of `Typing.level`
(`Indexed.level_eq`), so what is tested makes sure of all that is read. What an ordered comparison
reads is made sure of by the table of operators.

Each function of a level has a counterpart here that reads by index and gives nothing where there is
no item; the equations say that it gives something, namely what the function of the level gives.
Only the ordered comparison leans on the tables: it reads two items because the operators that use
it take exactly two operands.
-/

namespace DialogueLint.Typing

namespace Indexed

/-! ## Typing by index -/

variable (sub : Typer)

/-- What there is to say about the operand of an operator that takes one. -/
def unaryOperand (name : String) (arity : Arity) (path : Pointer) : Json → Option (List Diagnostic)
  | .array items =>
    if items.length ≠ 1 then some [⟨path, .arityMismatch name arity items.length⟩]
    else do
      let value ← items[0]?
      some (expressionOperand sub name .logic (path.item 0) value)
  | value => some (expressionOperand sub name .logic path value)

/-- What there is to say about operands of which there is an accepted number. -/
def acceptedOperands (name : String) (path : Pointer) (operands : Operands) (items : List Json) :
    Option (List Diagnostic) :=
  match operands with
  | .ordered => do
    let a ← items[0]?
    let b ← items[1]?
    some (comparison sub name path a b)
  | operands => some (operandsFrom sub name path 0 (operands.layout items.length) items)

/-- What there is to say about a value that has to be an argument array. -/
def argumentArray (name : String) (arity : Arity) (operands : Operands) (path : Pointer) :
    Json → Option (List Diagnostic)
  | .array items =>
    if arity.accepts items.length then acceptedOperands sub name path operands items
    else some [⟨path, .arityMismatch name arity items.length⟩]
  | other => some [⟨path, .invalidType s!"an argument array for '{name}'" other.describe⟩]

/-- A call of an operator. -/
def operatorCall (operator : Operator) (path : Pointer) (value : Json) :
    Option (Outcome FamilySet) := do
  let found ← match operator.operands with
    | .unary => unaryOperand sub operator.name operator.arity path value
    | operands => argumentArray sub operator.name operator.arity operands path value
  some ⟨some (Shape.resultFamilies operator.result), found⟩

/-- A call of one of the methods of a name. -/
def namedCall (name : String) (path : Pointer) (items : List Json) : Option (Outcome FamilySet) :=
  let methods := Method.named name
  if methods.isEmpty then some (.fail (path.item 1) (.unknownOperator name))
  else do
    let first ← methods[0]?
    let size := if first.arguments.isSome then 3 else 2
    if items.length ≠ size then
      some (.fail path (.cardinalityMismatch s!"a '{name}' call of {size} items"
        s!"{items.length} item(s)"))
    else do
      let value ← items[0]?
      let found ← match first.arguments with
        | none => some []
        | some rules => do
          let arguments ← items[2]?
          argumentArray sub name rules.arity rules.operands (path.item 2) arguments
      some (methodOn sub first methods path value found)

/-- A method call. -/
def methodCall (path : Pointer) : Json → Option (Outcome FamilySet)
  | .array items =>
    match (items[1]? : Option Json) with
    | some (.string name) => namedCall sub name path items
    | some other => some (.fail (path.item 1) (.invalidType "a method name string" other.describe))
    | none => some (.fail path (.cardinalityMismatch "a method call of 2 or 3 items"
        s!"{items.length} item(s)"))
  | other => some (.fail path
      (.invalidType "a method call [receiver, name, arguments]" other.describe))

/-- The expression with the given single key and the value behind it. -/
def call (path : Pointer) (key : String) (value : Json) : Option (Outcome FamilySet) :=
  if key = "var" then some (lookup path value)
  else if key = "current" then some (loopItem path value)
  else if key = "method" then methodCall sub path value
  else match Operator.ofName? key with
    | some operator => operatorCall sub operator path value
    | none => some (.fail path (.unknownOperator key))

/-- One level of an expression. -/
def level (path : Pointer) : Json → Option (Outcome FamilySet)
  | .object [(key, value)] => call sub (path.push key) key value
  | e => some (Typing.level sub path e)

/-! ## Every item is there -/

section Present

variable {sub} {name : String} {path : Pointer}

/-- A single operand is read after its array was seen to have one item. -/
lemma unaryOperand_eq {arity : Arity} {e : Json} :
    unaryOperand sub name arity path e = some (Typing.unaryOperand sub name arity path e) := by
  cases e with
  | array items =>
    match items with
    | [] => rfl
    | [_] => rfl
    | _ :: _ :: _ => simp [unaryOperand, Typing.unaryOperand]
  | _ => rfl

/-- Operands that are compared by size are two if their number is accepted. -/
lemma argumentArray_eq {arity : Arity} {operands : Operands}
    (two : operands = .ordered → arity = .exactly 2) {e : Json} :
    argumentArray sub name arity operands path e =
      some (Typing.argumentArray sub name arity operands path e) := by
  cases e with
  | array items =>
    simp only [argumentArray, Typing.argumentArray, operandArray]
    split_ifs with accepts
    · cases operands with
      | ordered =>
        have length : items.length = 2 := by simpa [two rfl] using accepts
        obtain ⟨a, b, rfl⟩ := List.length_eq_two.mp length
        rfl
      | _ => rfl
    · rfl
  | _ => rfl

/-- The operands of an operator are read as far as there are any. -/
lemma operatorCall_eq {operator : Operator}
    (two : operator.operands = .ordered → operator.arity = .exactly 2) {e : Json} :
    operatorCall sub operator path e = some (Typing.operatorCall sub operator path e) := by
  unfold operatorCall Typing.operatorCall
  cases operands : operator.operands with
  | unary =>
    simp only [unaryOperand_eq]
    rfl
  | uniform _ | positional _ | byCount _ | ordered =>
    simp only [argumentArray_eq (operands ▸ two)]
    rfl

/-- A name that has methods has a first one, and a call of the right size has its arguments. -/
lemma namedCall_eq {items : List Json} :
    namedCall sub name path items = some (Typing.namedCall sub name path items) := by
  cases named : Method.named name with
  | nil => simp [namedCall, Typing.namedCall, named]
  | cons first others =>
    have mem : first ∈ Method.table := mem_table_of_named named first List.mem_cons_self
    have two : ∀ rules, first.arguments = some rules → rules.operands = .ordered →
        rules.arity = .exactly 2 := fun rules takes => ((method_usual mem).1 rules takes).two
    cases takes : first.arguments with
    | none =>
      rcases items with _ | ⟨value, _ | ⟨other, _ | ⟨arguments, rest⟩⟩⟩
      all_goals simp [namedCall, Typing.namedCall, named, takes]
    | some rules =>
      rcases items with _ | ⟨value, _ | ⟨other, _ | ⟨arguments, _ | ⟨further, rest⟩⟩⟩⟩
      all_goals simp [namedCall, Typing.namedCall, named, takes, argumentArray_eq (two rules takes)]

/-- The receiver and the name of a method are read after the array was seen to have both. -/
lemma methodCall_eq {e : Json} :
    methodCall sub path e = some (Typing.methodCall sub path e) := by
  cases e with
  | array items =>
    match items with
    | [] | [_] => rfl
    | _ :: .string name :: _ => exact namedCall_eq
    | _ :: .null :: _ | _ :: .bool _ :: _ | _ :: .number _ :: _ | _ :: .array _ :: _
    | _ :: .object _ :: _ => rfl
  | _ => rfl

/-- Whatever the key is, what is read behind it is there. -/
lemma call_eq {key : String} {e : Json} :
    call sub path key e = some (Typing.call sub path key e) := by
  unfold call Typing.call
  split_ifs
  · rfl
  · rfl
  · exact methodCall_eq
  · cases found : Operator.ofName? key with
    | none => rfl
    | some operator => exact operatorCall_eq (operator_uniform found).1

/-- All that is read by index is there, whatever is typed. -/
lemma level_eq {e : Json} : level sub path e = some (Typing.level sub path e) := by
  unfold level
  split
  · exact call_eq
  · rfl

end Present

end Indexed

end DialogueLint.Typing
