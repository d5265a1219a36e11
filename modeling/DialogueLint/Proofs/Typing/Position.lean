import DialogueLint.Json.Basic
import DialogueLint.Pointer
import DialogueLint.Typing.Method
import DialogueLint.Typing.Operator
import Mathlib.Tactic.Common

/-!
# Operand positions

Where typing goes from an expression: to the operands and the receiver that are expressions
themselves. The shape of the expression alone decides which these are. An argument array of a size
that the arity does not accept has none, nor has a variable that is looked up in place.

The height of an expression is the greatest number of such steps that lead down from it.

The height is a recursion on the expression that goes through these lists, and is justified by their
members being smaller. So each list comes with a lemma that compares the sizes of its members to
that of the value that they stand in.
-/

namespace DialogueLint.Typing

/-- Expressions with their places below the expression considered. -/
abbrev Positions : Type := List (Pointer × Json)

/-- The positions of a part that lies at a token. -/
def Positions.under (token : String) (positions : Positions) : Positions :=
  positions.map fun (place, e) => (Pointer.join ⟨[token]⟩ place, e)

/-- The expressions among values with a rule each, the first of which has the given index. -/
def operandPositions : Nat → List Operand → List Json → Positions
  | index, .expression _ :: rules, value :: values =>
    (Pointer.root.item index, value) :: operandPositions (index + 1) rules values
  | index, _ :: rules, _ :: values => operandPositions (index + 1) rules values
  | _, _, _ => []

/-- The expressions in an argument array. -/
def arrayPositions (arity : Arity) (operands : Operands) : Json → Positions
  | .array values =>
    if arity.accepts values.length then
      operandPositions 0 (operands.layout values.length) values
    else []
  | _ => []

/-- The operand of an operator that takes one, by itself or in an array. -/
def unaryPositions : Json → Positions
  | .array [value] => [(Pointer.root.item 0, value)]
  | .array _ => []
  | value => [(.root, value)]

/-- The operands of an operator. -/
def operatorPositions (operator : Operator) (value : Json) : Positions :=
  match operator.operands with
  | .unary => unaryPositions value
  | operands => arrayPositions operator.arity operands value

/-- The receiver of a method, unless it is a variable that is looked up in place. -/
def receiverPositions (m : Method) (value : Json) : Positions :=
  match m.receiver with
  | .family _ => [(Pointer.root.item 0, value)]
  | .lookup => []

/-- The receiver and the arguments of a method, given what stands behind its name. -/
def invocationPositions (m : Method) (value : Json) (rest : List Json) : Positions :=
  match m.arguments, rest with
  | none, [] => receiverPositions m value
  | some rules, [arguments] =>
    receiverPositions m value ++
      (arrayPositions rules.arity rules.operands arguments).under (toString 2)
  | _, _ => []

/-- The receiver and the arguments of a method call. -/
def methodPositions : Json → Positions
  | .array (value :: .string name :: rest) =>
    match Method.named name with
    | [] => []
    | first :: _ => invocationPositions first value rest
  | _ => []

/-- What is typed behind a key. -/
def callPositions (key : String) (value : Json) : Positions :=
  if key = "var" then []
  else if key = "current" then []
  else if key = "method" then methodPositions value
  else match Operator.ofName? key with
    | some operator => operatorPositions operator value
    | none => []

/-- The operands and the receiver of an expression that are typed as expressions. -/
def positions : Json → Positions
  | .object [(key, value)] => (callPositions key value).under key
  | _ => []

/-! ## Operands are smaller -/

/-- A position under a token is one below it, with the token in front of its place. -/
@[simp] lemma mem_under {token : String} {ps : Positions} {place : Pointer} {e : Json} :
    (place, e) ∈ ps.under token ↔ ∃ q, (q, e) ∈ ps ∧ Pointer.join ⟨[token]⟩ q = place := by
  simp [Positions.under]

/-- A position among operands holds one of them. -/
lemma mem_of_mem_operandPositions {index : Nat} {rules : List Operand} {values : List Json}
    {place : Pointer} {e : Json} (h : (place, e) ∈ operandPositions index rules values) :
    e ∈ values := by
  induction values generalizing index rules with
  | nil => cases rules with
    | nil => simp [operandPositions] at h
    | cons rule rules => cases rule <;> simp [operandPositions] at h
  | cons value values ih =>
    cases rules with
    | nil => simp [operandPositions] at h
    | cons rule rules =>
      cases rule with
      | expression expect =>
        simp only [operandPositions, List.mem_cons, Prod.mk.injEq] at h
        rcases h with ⟨-, rfl⟩ | h
        · exact List.mem_cons_self
        · exact List.mem_cons_of_mem _ (ih h)
      | format format => exact List.mem_cons_of_mem _ (ih h)
      | binding => exact List.mem_cons_of_mem _ (ih h)

/-- The operands in an argument array are smaller than the array. -/
lemma sizeOf_lt_of_mem_arrayPositions {arity : Arity} {operands : Operands} {value : Json}
    {place : Pointer} {e : Json} (h : (place, e) ∈ arrayPositions arity operands value) :
    sizeOf e < sizeOf value := by
  cases value with
  | array values =>
    simp only [arrayPositions] at h
    split at h
    · have := List.sizeOf_lt_of_mem (mem_of_mem_operandPositions h)
      simp only [Json.array.sizeOf_spec]
      omega
    · simp at h
  | _ => simp [arrayPositions] at h

/-- A single operand is no larger than what stands behind its operator. -/
lemma sizeOf_le_of_mem_unaryPositions {value : Json} {place : Pointer} {e : Json}
    (h : (place, e) ∈ unaryPositions value) : sizeOf e ≤ sizeOf value := by
  unfold unaryPositions at h
  split at h
  case h_1 =>
    simp only [List.mem_singleton, Prod.mk.injEq] at h
    obtain ⟨-, rfl⟩ := h
    simp only [Json.array.sizeOf_spec, List.cons.sizeOf_spec]
    omega
  case h_2 => simp at h
  case h_3 =>
    simp only [List.mem_singleton, Prod.mk.injEq] at h
    obtain ⟨-, rfl⟩ := h
    exact Nat.le_refl _

/-- The position of a receiver holds the receiver. -/
lemma eq_of_mem_receiverPositions {m : Method} {value : Json} {place : Pointer} {e : Json}
    (h : (place, e) ∈ receiverPositions m value) : e = value := by
  unfold receiverPositions at h
  split at h
  · simp only [List.mem_singleton, Prod.mk.injEq] at h
    exact h.2
  · simp at h

/-- The receiver and the arguments are smaller than the array of the call. -/
lemma sizeOf_lt_of_mem_invocationPositions {m : Method} {value : Json} {name : String}
    {rest : List Json} {place : Pointer} {e : Json}
    (h : (place, e) ∈ invocationPositions m value rest) :
    sizeOf e < sizeOf (Json.array (value :: .string name :: rest)) := by
  have receiver : sizeOf value < sizeOf (Json.array (value :: .string name :: rest)) := by
    simp only [Json.array.sizeOf_spec, List.cons.sizeOf_spec]
    omega
  unfold invocationPositions at h
  split at h
  · rw [eq_of_mem_receiverPositions h]
    exact receiver
  · rename_i arguments
    rcases List.mem_append.mp h with h | h
    · rw [eq_of_mem_receiverPositions h]
      exact receiver
    · obtain ⟨q, hq, -⟩ := mem_under.mp h
      have := sizeOf_lt_of_mem_arrayPositions hq
      simp only [Json.array.sizeOf_spec, List.cons.sizeOf_spec]
      omega
  · simp at h

/-- The operands of a call of a method are smaller than what stands behind `method`. -/
lemma sizeOf_lt_of_mem_methodPositions {value : Json} {place : Pointer} {e : Json}
    (h : (place, e) ∈ methodPositions value) : sizeOf e < sizeOf value := by
  unfold methodPositions at h
  split at h
  · split at h
    · simp at h
    · exact sizeOf_lt_of_mem_invocationPositions h
  · simp at h

/-- The operands behind a key are no larger than what stands there. -/
lemma sizeOf_le_of_mem_callPositions {key : String} {value : Json} {place : Pointer} {e : Json}
    (h : (place, e) ∈ callPositions key value) : sizeOf e ≤ sizeOf value := by
  unfold callPositions at h
  split_ifs at h
  case pos => simp at h
  case pos => simp at h
  case pos => exact Nat.le_of_lt (sizeOf_lt_of_mem_methodPositions h)
  case neg =>
    split at h
    · unfold operatorPositions at h
      split at h
      · exact sizeOf_le_of_mem_unaryPositions h
      · exact Nat.le_of_lt (sizeOf_lt_of_mem_arrayPositions h)
    · simp at h

/-- An operand is smaller than the expression. -/
lemma sizeOf_lt_of_mem_positions {e : Json} {p : Pointer × Json} (h : p ∈ positions e) :
    sizeOf p.2 < sizeOf e := by
  unfold positions at h
  split at h
  · obtain ⟨q, hq, -⟩ := mem_under.mp h
    have := sizeOf_le_of_mem_callPositions hq
    simp only [Json.object.sizeOf_spec, List.cons.sizeOf_spec, Prod.mk.sizeOf_spec]
    omega
  · simp at h

/-! ## Height -/

/-- The height of an expression: nothing where no operand is typed, and else one more than the
greatest height of an operand. -/
def height (e : Json) : Nat :=
  ((positions e).attach.map fun p => height p.1.2 + 1).foldr max 0
termination_by sizeOf e
decreasing_by exact sizeOf_lt_of_mem_positions p.2

/-- A bound on the height is a stricter one on the heights of the operands. -/
lemma height_le_iff {e : Json} {n : Nat} :
    height e ≤ n ↔ ∀ p ∈ positions e, height p.2 < n := by
  -- the height is a maximum over the positions, the bound a bound on each of them
  have bound : ∀ l : List Nat, l.foldr max 0 ≤ n ↔ ∀ m ∈ l, m ≤ n := by
    intro l
    induction l with
    | nil => simp
    | cons m l ih => rw [List.foldr_cons, Nat.max_le, ih, List.forall_mem_cons]
  rw [height, bound]
  simp only [List.mem_map, List.mem_attach, true_and, Subtype.exists, forall_exists_index]
  constructor
  · intro h p hp
    exact h _ p hp rfl
  · rintro h m p hp rfl
    exact h p hp

end DialogueLint.Typing
