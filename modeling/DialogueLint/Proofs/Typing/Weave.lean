import DialogueLint.Proofs.Typing.Frame

/-!
# What a level is woven of

What one level of typing finds consists of what is found in the operands, in the order of their
positions, and of remarks of the level itself. The remarks depend on the families of the operands
alone, and none is about the depth (`level_akin`). So operands that are typed alike give one outcome
for the level (`level_congr`), and it is the operands that are reported as too deep
(`tooDeep_level`).

`Woven` says that two lists of findings are made of the same remarks in the same order, with pairs
of findings of the operands at the same places between them. Where the operands are typed in two
ways with the same outcomes, the two lists are equal; and of what one way of typing finds, only the
findings of the operands are left if it is cut to what is too deep, because none of the remarks is
about the depth (`Shallow`).
-/

namespace DialogueLint

/-- The reports that expressions are nested too deeply. -/
def tooDeep (found : List Diagnostic) : List Diagnostic :=
  found.filter fun d => d.kind == .depthExceeded

/-- What is too deep in findings together is what is too deep in each. -/
lemma tooDeep_append (found more : List Diagnostic) :
    tooDeep (found ++ more) = tooDeep found ++ tooDeep more :=
  List.filter_append found more

/-- Nothing is about the depth. -/
def Shallow (found : List Diagnostic) : Prop :=
  ∀ d ∈ found, d.kind ≠ .depthExceeded

/-- Where nothing is found, nothing is too deep. -/
lemma shallow_nil : Shallow [] :=
  List.forall_mem_nil _

/-- Any other problem is not that something is too deep. -/
lemma shallow_problem {place : Pointer} {problem : Problem}
    (h : problem.kind != .depthExceeded) : Shallow [⟨place, problem⟩] :=
  List.forall_mem_singleton.mpr (bne_iff_ne.mp h)

/-- Of findings that are not about the depth, none is left. -/
lemma Shallow.tooDeep_eq_nil {found : List Diagnostic} (h : Shallow found) : tooDeep found = [] :=
  List.filter_eq_nil_iff.mpr fun d mem => by simpa using h d mem

/-- Two lists of findings that consist of the same remarks and, between them, of parts in which they
may differ. None of the remarks is about the depth. -/
inductive Woven :
    List (List Diagnostic × List Diagnostic) → List Diagnostic → List Diagnostic → Prop where
  | nil : Woven [] [] []
  | remark {parts found other d} : d.kind ≠ .depthExceeded → Woven parts found other →
      Woven parts (d :: found) (d :: other)
  | part {parts found other l r} : Woven parts found other →
      Woven ((l, r) :: parts) (l ++ found) (r ++ other)

namespace Woven

variable {parts more : List (List Diagnostic × List Diagnostic)}
  {found other behind others : List Diagnostic}

/-- Findings that are woven one behind the other are woven together. -/
lemma append (h : Woven parts found other) (next : Woven more behind others) :
    Woven (parts ++ more) (found ++ behind) (other ++ others) := by
  induction h with
  | nil => exact next
  | remark kind _ ih => exact .remark kind ih
  | part _ ih =>
    rw [List.append_assoc, List.append_assoc]
    exact .part ih

/-- What is found in a single operand is woven of just that. -/
lemma single (l r : List Diagnostic) : Woven [(l, r)] l r := by
  simpa using Woven.part (l := l) (r := r) .nil

/-- Findings that are not about the depth are woven of no operand. -/
lemma remarks (h : Shallow found) : Woven [] found found := by
  induction found with
  | nil => exact .nil
  | cons d found ih =>
    obtain ⟨kind, rest⟩ := List.forall_mem_cons.mp h
    exact .remark kind (ih rest)

/-- Remarks behind everything else. -/
lemma remarked (h : Woven parts found other) (shallow : Shallow behind) :
    Woven parts (found ++ behind) (other ++ behind) := by
  simpa using h.append (remarks shallow)

/-- Lists whose parts are the same are the same. -/
lemma eq (h : Woven parts found other) (same : ∀ p ∈ parts, p.1 = p.2) : found = other := by
  induction h with
  | nil => rfl
  | remark _ _ ih => rw [ih same]
  | part _ ih =>
    obtain ⟨own, rest⟩ := List.forall_mem_cons.mp same
    exact congrArg₂ (· ++ ·) own (ih rest)

/-- What is reported as too deep is what is so in the parts. -/
lemma tooDeep_eq (h : Woven parts found other) :
    tooDeep found = parts.flatMap fun p => tooDeep p.1 := by
  induction h with
  | nil => rfl
  | remark kind _ ih => rw [tooDeep, List.filter_cons_of_neg (by simpa using kind), ← ih, tooDeep]
  | part _ ih => rw [tooDeep_append, List.flatMap_cons, ← ih]

end Woven

namespace Typing

/-- Operands that have the same families whichever way they are typed. -/
def Alike (sub other : Typer) (path : Pointer) (ps : Positions) : Prop :=
  ∀ p ∈ ps, (sub (path.join p.1) p.2).result? = (other (path.join p.1) p.2).result?

/-- What is found in operands, either way. -/
def operandParts (sub other : Typer) (path : Pointer) (ps : Positions) :
    List (List Diagnostic × List Diagnostic) :=
  ps.map fun p => ((sub (path.join p.1) p.2).diagnostics, (other (path.join p.1) p.2).diagnostics)

/-- Two outcomes with one result, whose findings are woven of those in operands. -/
structure Akin (sub other : Typer) (path : Pointer) (ps : Positions) (o o' : Outcome FamilySet) :
    Prop where
  result : o.result? = o'.result?
  woven : Woven (operandParts sub other path ps) o.diagnostics o'.diagnostics

section Operands

variable {sub other : Typer} {name : String} {path : Pointer}

/-- Operands under a token are typed alike if they are below it. -/
lemma alike_under {token : String} {ps : Positions} :
    Alike sub other path (ps.under token) ↔ Alike sub other (path.push token) ps := by
  simp only [Alike, Positions.under, List.forall_mem_map]
  simp only [Pointer.join, Pointer.push, List.append_assoc]

/-- What is found in operands under a token is what is found below it. -/
lemma operandParts_under {token : String} {ps : Positions} :
    operandParts sub other path (ps.under token) =
      operandParts sub other (path.push token) ps := by
  simp only [operandParts, Positions.under, List.map_map, Function.comp_def]
  simp only [Pointer.join, Pointer.push, List.append_assoc]

/-- What is found in an expression that is its own operand. -/
lemma operandParts_here {e : Json} :
    operandParts sub other path [(.root, e)] =
      [((sub path e).diagnostics, (other path e).diagnostics)] := by
  simp only [operandParts, List.map_cons, List.map_nil, Pointer.join_root]

/-- A problem of the level itself. -/
lemma woven_problem {place : Pointer} {problem : Problem} (h : problem.kind != .depthExceeded) :
    Woven (operandParts sub other path []) [⟨place, problem⟩] [⟨place, problem⟩] :=
  .remarks (shallow_problem h)

/-- Findings that are woven of some positions and of others are woven of both. -/
lemma woven_append {ps qs : Positions} {found found' behind behind' : List Diagnostic}
    (h : Woven (operandParts sub other path ps) found found')
    (next : Woven (operandParts sub other path qs) behind behind') :
    Woven (operandParts sub other path (ps ++ qs)) (found ++ behind) (found' ++ behind') := by
  rw [operandParts, List.map_append]
  exact h.append next

/-- A remark on an operand's family is not about the depth. -/
lemma operandRemark_shallow {expect : Expectation} {families? : Option FamilySet} :
    Shallow (operandRemark name expect path families?) := by
  cases families? with
  | none => exact shallow_nil
  | some s =>
    simp only [operandRemark]
    split_ifs
    · exact shallow_nil
    · exact shallow_problem rfl

/-- What follows on an operand is a remark on its families. -/
lemma expressionOperand_woven {expect : Expectation} {e : Json}
    (same : (sub path e).result? = (other path e).result?) :
    Woven [((sub path e).diagnostics, (other path e).diagnostics)]
      (expressionOperand sub name expect path e) (expressionOperand other name expect path e) := by
  rw [expressionOperand_eq, expressionOperand_eq, same]
  exact (Woven.single _ _).remarked operandRemark_shallow

/-- What is found about a format is not about the depth. -/
lemma formatOperand_shallow {format : Format} {e : Json} :
    Shallow (formatOperand format path e) := by
  unfold formatOperand
  split
  · split_ifs
    · exact shallow_nil
    · exact shallow_problem rfl
  · exact shallow_problem rfl

/-- What is found about a name for items is not about the depth. -/
lemma bindingOperand_shallow {e : Json} :
    Shallow (bindingOperand path e) := by
  unfold bindingOperand
  split
  · exact shallow_nil
  · exact shallow_problem rfl

/-- What is found about operands is woven of what is found in those that are expressions. -/
lemma operandsFrom_woven {index : Nat} {rules : List Operand} {values : List Json}
    (alike : Alike sub other path (operandPositions index rules values)) :
    Woven (operandParts sub other path (operandPositions index rules values))
      (operandsFrom sub name path index rules values)
      (operandsFrom other name path index rules values) := by
  induction values generalizing index rules with
  | nil => cases rules with
    | nil => exact .nil
    | cons rule rules => cases rule <;> exact .nil
  | cons value values ih =>
    cases rules with
    | nil => exact .nil
    | cons rule rules =>
      cases rule with
      | expression expect =>
        obtain ⟨own, rest⟩ := List.forall_mem_cons.mp alike
        exact (expressionOperand_woven own).append (ih rest)
      | format kind => exact (Woven.remarks formatOperand_shallow).append (ih alike)
      | binding => exact (Woven.remarks bindingOperand_shallow).append (ih alike)

/-- That two operands do not compare is not about the depth. -/
lemma comparisonRemark_shallow {left? right? : Option FamilySet} :
    Shallow (comparisonRemark name path left? right?) := by
  unfold comparisonRemark incomparable
  split
  · split_ifs
    · exact shallow_nil
    · exact shallow_problem rfl
    · exact shallow_problem rfl
  · exact shallow_nil

/-- Two operands are compared by their families. -/
lemma comparison_woven {a b : Json}
    (left : (sub (path.item 0) a).result? = (other (path.item 0) a).result?)
    (right : (sub (path.item 1) b).result? = (other (path.item 1) b).result?) :
    Woven [((sub (path.item 0) a).diagnostics, (other (path.item 0) a).diagnostics),
        ((sub (path.item 1) b).diagnostics, (other (path.item 1) b).diagnostics)]
      (comparison sub name path a b) (comparison other name path a b) := by
  rw [comparison_eq, comparison_eq, left, right]
  exact ((Woven.single _ _).append (Woven.single _ _)).remarked comparisonRemark_shallow

/-- What is found in an argument array is woven of what is found in its positions. -/
lemma arrayPositions_woven {arity : Arity} {operands : Operands} {value : Json}
    (alike : Alike sub other path (arrayPositions arity operands value)) :
    Woven (operandParts sub other path (arrayPositions arity operands value))
      (argumentArray sub name arity operands path value)
      (argumentArray other name arity operands path value) := by
  cases value with
  | array values =>
    simp only [arrayPositions, argumentArray, operandArray] at alike ⊢
    split_ifs at alike ⊢ with accepts
    · split
      · rename_i a b
        exact comparison_woven (alike (Pointer.root.item 0, a) List.mem_cons_self)
          (alike (Pointer.root.item 1, b) (List.mem_cons_of_mem _ List.mem_cons_self))
      · exact operandsFrom_woven alike
    · exact woven_problem rfl
  | _ => exact woven_problem rfl

/-- What is found in a single operand is woven of what is found in its position. -/
lemma unaryPositions_woven {arity : Arity} {value : Json}
    (alike : Alike sub other path (unaryPositions value)) :
    Woven (operandParts sub other path (unaryPositions value))
      (unaryOperand sub name arity path value) (unaryOperand other name arity path value) := by
  cases value with
  | array values =>
    cases values with
    | nil => exact woven_problem rfl
    | cons value values =>
      cases values with
      | nil => exact expressionOperand_woven (alike (Pointer.root.item 0, value) List.mem_cons_self)
      | cons second values => exact woven_problem rfl
  | _ =>
    have own := alike _ List.mem_cons_self
    rw [Pointer.join_root] at own
    have parts := @operandParts_here sub other path
    exact parts ▸ expressionOperand_woven own

end Operands

section Calls

variable {sub other : Typer} {path : Pointer} {value : Json}

/-- A problem that is not about the depth is the same for all ways to type operands. -/
lemma akin_problem {place : Pointer} {problem : Problem} (h : problem.kind != .depthExceeded) :
    Akin sub other path [] (.fail place problem) (.fail place problem) :=
  ⟨rfl, woven_problem h⟩

/-- A call of an operator is woven of its positions, and has families that do not depend on them. -/
lemma operatorCall_akin {operator : Operator}
    (alike : Alike sub other path (operatorPositions operator value)) :
    Akin sub other path (operatorPositions operator value) (operatorCall sub operator path value)
      (operatorCall other operator path value) := by
  refine ⟨rfl, ?_⟩
  simp only [operatorPositions, operatorCall] at alike ⊢
  cases hops : operator.operands with
  | unary =>
    rw [hops] at alike
    exact unaryPositions_woven alike
  | uniform _ | positional _ | byCount _ | ordered =>
    rw [hops] at alike
    exact arrayPositions_woven alike

/-- What is found about a look-up is not about the depth. -/
lemma lookup_shallow {e : Json} : Shallow (lookup path e).diagnostics := by
  cases e with
  | string r =>
    simp only [lookup, Diagnostic.ofRead]
    split_ifs
    · exact shallow_nil
    · split
      · exact shallow_problem rfl
      · exact shallow_nil
  | _ => exact shallow_problem rfl

/-- What is found about a loop item is not about the depth. -/
lemma loopItem_shallow {e : Json} :
    Shallow (loopItem path e).diagnostics := by
  cases e with
  | string tag => exact shallow_nil
  | _ => exact shallow_problem rfl

/-- What is found about a variable that is looked up in place is not about the depth. -/
lemma lookupReceiver_shallow {name : String} :
    Shallow (lookupReceiver name path value).diagnostics := by
  unfold lookupReceiver
  split
  · exact lookup_shallow
  · exact shallow_problem rfl

/-- That no method is called on a receiver is not about the depth. -/
lemma overload_shallow {name : String} {methods : List Method} {families? : Option FamilySet} :
    Shallow (overload name methods path families?).diagnostics := by
  unfold overload
  split
  · exact shallow_nil
  · split
    · exact shallow_problem rfl
    · exact shallow_nil

/-- A receiver is woven of its position, if it is one. -/
lemma receiver_akin {first : Method}
    (alike : Alike sub other path (receiverPositions first value)) :
    Akin sub other path (receiverPositions first value)
      (receiver sub first (path.item 0) value) (receiver other first (path.item 0) value) := by
  unfold receiverPositions at alike ⊢
  unfold receiver
  cases called : first.receiver with
  | lookup => exact ⟨rfl, .remarks lookupReceiver_shallow⟩
  | family g =>
    rw [called] at alike
    exact ⟨alike _ List.mem_cons_self, .single _ _⟩

/-- The receiver is looked at first, then the arguments. The remark on the receiver is the last. -/
lemma methodOn_akin {first : Method} {methods : List Method} {found found' : List Diagnostic}
    {ps : Positions} (alike : Alike sub other path (receiverPositions first value))
    (woven : Woven (operandParts sub other path ps) found found') :
    Akin sub other path (receiverPositions first value ++ ps)
      (methodOn sub first methods path value found)
      (methodOn other first methods path value found') := by
  have typed := receiver_akin alike
  simp only [methodOn, typed.result]
  exact ⟨rfl, (woven_append typed.woven woven).remarked overload_shallow⟩

/-- A call of a method of a name is woven of its receiver and its arguments. -/
lemma namedCall_akin {name : String} {first : Method} {others : List Method} {rest : List Json}
    (named : Method.named name = first :: others)
    (alike : Alike sub other path (invocationPositions first value rest)) :
    Akin sub other path (invocationPositions first value rest)
      (namedCall sub name path (value :: .string name :: rest))
      (namedCall other name path (value :: .string name :: rest)) := by
  simp only [namedCall, named]
  unfold invocationPositions at alike ⊢
  cases takes : first.arguments with
  | none =>
    rw [takes] at alike
    cases rest with
    | nil =>
      have none : Woven (operandParts sub other path []) [] [] := .nil
      simpa using methodOn_akin alike none
    | cons argument rest => exact akin_problem rfl
  -- one more item is the argument array, and nothing but one is accepted
  | some rules =>
    rw [takes] at alike
    cases rest with
    | nil => exact akin_problem rfl
    | cons arguments rest =>
      cases rest with
      | nil =>
        obtain ⟨onReceiver, onArguments⟩ := List.forall_mem_append.mp alike
        have inside := @arrayPositions_woven sub other name _ _ _ _ (alike_under.mp onArguments)
        rw [← operandParts_under] at inside
        exact methodOn_akin onReceiver inside
      | cons more rest => exact akin_problem rfl

/-- A call of a method is woven of its positions. -/
lemma methodCall_akin (alike : Alike sub other path (methodPositions value)) :
    Akin sub other path (methodPositions value) (methodCall sub path value)
      (methodCall other path value) := by
  cases value with
  | array items =>
    cases items with
    | nil => exact akin_problem rfl
    | cons receiver items =>
      cases items with
      | nil => exact akin_problem rfl
      | cons second rest =>
        cases second with
        | string name =>
          simp only [methodPositions] at alike ⊢
          cases named : Method.named name with
          | nil =>
            simp only [methodCall, namedCall, named]
            exact akin_problem rfl
          | cons first others =>
            simp only [named] at alike ⊢
            exact namedCall_akin named alike
        | _ => exact akin_problem rfl
  | _ => exact akin_problem rfl

/-- What stands behind a key is woven of the positions there. -/
lemma call_akin {key : String} (alike : Alike sub other path (callPositions key value)) :
    Akin sub other path (callPositions key value) (call sub path key value)
      (call other path key value) := by
  unfold callPositions at alike ⊢
  unfold call
  split_ifs at alike ⊢
  · exact ⟨rfl, .remarks lookup_shallow⟩
  · exact ⟨rfl, .remarks loopItem_shallow⟩
  · exact methodCall_akin alike
  · cases found : Operator.ofName? key with
    | none => exact akin_problem rfl
    | some operator =>
      rw [found] at alike
      exact operatorCall_akin alike

/-- A level has the same result for operands that are alike, and its findings are woven of
theirs. -/
lemma level_akin (alike : Alike sub other path (positions value)) :
    Akin sub other path (positions value) (level sub path value) (level other path value) := by
  cases value with
  | null | bool b | number n | string text => exact ⟨rfl, .nil⟩
  | array items => exact akin_problem rfl
  | object members =>
    cases members with
    | nil => exact akin_problem rfl
    | cons member members =>
      cases members with
      | nil =>
        obtain ⟨result, woven⟩ := call_akin (alike_under.mp alike)
        rw [← operandParts_under] at woven
        exact ⟨result, woven⟩
      | cons second members => exact akin_problem rfl

/-- Operands that are typed alike give one outcome. -/
lemma level_congr
    (same : ∀ p ∈ positions value, sub (path.join p.1) p.2 = other (path.join p.1) p.2) :
    level sub path value = level other path value := by
  have alike : Alike sub other path (positions value) :=
    fun p hp => congrArg Outcome.result? (same p hp)
  obtain ⟨result, woven⟩ := level_akin alike
  refine congrArg₂ Outcome.mk result (woven.eq (List.forall_mem_map.mpr fun p hp => ?_))
  exact congrArg Outcome.diagnostics (same p hp)

/-- What a level reports as too deep is reported in its operands. -/
lemma tooDeep_level :
    tooDeep (level sub path value).diagnostics =
      (positions value).flatMap fun p => tooDeep (sub (path.join p.1) p.2).diagnostics := by
  have alike : Alike sub sub path (positions value) := fun _ _ => rfl
  rw [(level_akin alike).woven.tooDeep_eq, operandParts, List.flatMap_map]

end Calls

end Typing

end DialogueLint
