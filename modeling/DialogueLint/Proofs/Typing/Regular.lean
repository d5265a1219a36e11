import DialogueLint.Proofs.Reading.Regular
import DialogueLint.Typing.Infer

/-!
# Typing finds nothing twice

What typing finds in an expression is regular (`check_regular`). An operand is looked at twice: it
is typed, and then its families are compared with what is expected, both with problems at one place.
What saves it is that an expression with families has problems only further inside.

Regularity is shown from the inside out: of each kind of operand that its findings are `Clear`, of
arrays because different items lie at different places, and of a call because its array, its name
and its receiver do. Where an outcome has families, the proof needs more than that nothing is found
twice, and this is `Typed`: what is found lies further inside, so that a remark about the whole is
new.
-/

namespace DialogueLint

/-- A problem of what a value means, not of whether it is JSON or which fields its objects have. -/
def Kind.isOfContent : Kind → Bool
  | malformedJson | missingRequiredField | unknownField => false
  | _ => true

/-- A problem of what an expression means, not of where a successor leads. -/
def Kind.isOfExpression : Kind → Bool
  | danglingReference => false
  | kind => kind.isOfContent

/-- A kind of problem that is found in an expression is found in content. -/
lemma Kind.ofContent_of_expression {kind : Kind} (h : kind.isOfExpression) : kind.isOfContent := by
  unfold isOfExpression at h
  split at h
  · cases h
  · exact h

namespace Typing

open Outcome Findings

/-- Findings of typing are regular. -/
abbrev Clear (found : Findings) : Prop := Findings.Regular (·.isOfExpression) True found

/-- The outcome of typing an expression is regular, and if the expression has families, all that is
found lies further inside. -/
structure Typed (o : Pointer → Outcome FamilySet) : Prop
    extends Outcome.Regular (·.isOfExpression) True o where
  deeper : (o .root).result? ≠ none → ∀ d ∈ (o .root).diagnostics, d.path ≠ .root

/-- All expressions are typed regularly. -/
def Regular (sub : Typer) : Prop := ∀ v, Typed fun path => sub path v

section Operands

variable {sub : Typer} {name : String}

/-- An outcome without families may have a problem about the whole. -/
lemma typed_fail {problem : Problem} (h : problem.kind.isOfExpression) :
    Typed fun path => (fail path problem : Outcome FamilySet) where
  toRegular := regular_fail h
  deeper := by simp [Outcome.fail]

/-- An outcome without problems may have families. -/
lemma typed_ok {families : FamilySet} : Typed fun _ => ok families where
  toRegular := regular_ok
  deeper := by simp [Outcome.ok]

/-- An outcome with families has no problem about the whole. -/
lemma Typed.away {o : Pointer → Outcome FamilySet} (h : Typed o) {path : Pointer}
    (result : (o path).result? ≠ none) : ∀ d ∈ (o path).diagnostics, d.path ≠ path := by
  intro d mem same
  rw [h.found.moves] at mem
  obtain ⟨e, he, rfl⟩ := List.mem_map.mp mem
  have here : path.tokens ++ e.path.tokens = path.tokens := congrArg Pointer.tokens same
  exact h.deeper (h.result path ▸ result) e he
    (congrArg Pointer.mk (List.append_right_eq_self.mp here))

/-- A problem of an expression with families was not found when the expression was typed. -/
lemma Typed.append_here {o : Pointer → Outcome FamilySet} (h : Typed o) {problem : Problem}
    (content : problem.kind.isOfExpression) (result : (o .root).result? ≠ none) :
    Clear fun path => (o path).diagnostics ++ [⟨path, problem⟩] := by
  refine h.found.append (regular_here content) fun _ d hd e he => ?_
  cases List.mem_singleton.mp he
  exact Diagnostic.apart_of_path (h.deeper result d hd)

/-- Typing an operand and remarking on its families says nothing twice. -/
lemma expressionOperand_clear (h : Regular sub) {expect : Expectation} {e : Json} :
    Clear fun path => expressionOperand sub name expect path e := by
  have result := (h e).result
  simp only [expressionOperand, result]
  cases families : (sub .root e).result? with
  | none => simpa using (h e).found
  | some s =>
    simp only
    split_ifs
    · simpa using (h e).found
    · exact (h e).append_here rfl (by simp [families])

/-- A format is complained of once. -/
lemma formatOperand_clear {format : Format} {e : Json} :
    Clear fun path => formatOperand format path e := by
  cases e with
  | string text =>
    simp only [formatOperand]
    split_ifs
    · exact regular_nil
    · exact regular_here rfl
  | _ => exact regular_here rfl

/-- A name for items is complained of once. -/
lemma bindingOperand_clear {e : Json} : Clear fun path => bindingOperand path e := by
  cases e with
  | string name => exact regular_nil
  | _ => exact regular_here rfl

/-- Whatever the rule, nothing is found twice in an operand. -/
lemma operand_clear (h : Regular sub) {rule : Operand} {e : Json} :
    Clear fun path => operand sub name rule path e := by
  cases rule with
  | expression expect => exact expressionOperand_clear h
  | format format => exact formatOperand_clear
  | binding => exact bindingOperand_clear

/-- Each operand is looked at in its own item. -/
lemma operandsFrom_clear (h : Regular sub) {index : Nat} {rules : List Operand}
    {values : List Json} :
    Clear (fun path => operandsFrom sub name path index rules values) ∧
      From index fun path => operandsFrom sub name path index rules values := by
  induction values generalizing index rules with
  | nil => cases rules <;> exact ⟨regular_nil, nofun⟩
  | cons value values ih =>
    cases rules with
    | nil => exact ⟨regular_nil, nofun⟩
    | cons rule rules =>
      have first : Clear fun path => operand sub name rule path value := operand_clear h
      have behind : Clear (fun path => operandsFrom sub name path (index + 1) rules values) ∧
          From (index + 1) fun path => operandsFrom sub name path (index + 1) rules values := ih
      obtain ⟨rest, later⟩ := behind
      refine ⟨?_, later.cons first⟩
      exact (first.inside [toString index]).append rest fun _ => later.apart first

/-- Two operands that are not comparable are reported at one of them, if both have families. -/
lemma comparison_clear (h : Regular sub) {a b : Json} :
    Clear fun path => comparison sub name path a b := by
  have both : Clear fun path => (sub (path.item 0) a).diagnostics ++
      (sub (path.item 1) b).diagnostics :=
    (h a).found.append_inside (h b).found ["0"] ["1"] (by decide)
  have left : ∀ path : Pointer, (sub (path.item 0) a).result? = (sub .root a).result? :=
    fun path => (h a).result _
  have right : ∀ path : Pointer, (sub (path.item 1) b).result? = (sub .root b).result? :=
    fun path => (h b).result _
  simp only [comparison, left, right]
  cases ha : (sub .root a).result? with
  | none => simpa using both
  | some l =>
    cases hb : (sub .root b).result? with
    | none => simpa using both
    | some r =>
      simp only [incomparable]
      -- an operand with families has no problem at its own place so far
      split_ifs
      · simpa using both
      · refine both.append_problem ["0"] rfl (List.forall_mem_append.mpr ⟨?_, ?_⟩)
        · exact (h a).away (by simp [left, ha])
        · exact (h b).found.elsewhere (by decide)
      · refine both.append_problem ["1"] rfl (List.forall_mem_append.mpr ⟨?_, ?_⟩)
        · exact (h a).found.elsewhere (by decide)
        · exact (h b).away (by simp [right, hb])

/-- Nothing is found twice in operands. -/
lemma operandArray_clear (h : Regular sub) {arity : Arity} {operands : Operands}
    {values : List Json} :
    Clear fun path => operandArray sub name arity operands path values := by
  unfold operandArray
  split_ifs
  · split
    · exact comparison_clear h
    · exact (operandsFrom_clear h).1
  · exact regular_here rfl

/-- Nothing is found twice in what should be an argument array. -/
lemma argumentArray_clear (h : Regular sub) {arity : Arity} {operands : Operands} {e : Json} :
    Clear fun path => argumentArray sub name arity operands path e := by
  cases e with
  | array values => exact operandArray_clear h
  | _ => exact regular_here rfl

/-- The single operand stands in an item, or where the operator's array would. -/
lemma unaryOperand_clear (h : Regular sub) {arity : Arity} {e : Json} :
    Clear fun path => unaryOperand sub name arity path e := by
  unfold unaryOperand
  split
  · exact (expressionOperand_clear h).inside ["0"]
  · exact regular_here rfl
  · exact expressionOperand_clear h

/-- Nothing is found twice in a call of an operator. -/
lemma operatorCall_regular (h : Regular sub) {operator : Operator} {e : Json} :
    Outcome.Regular (·.isOfExpression) True fun path => operatorCall sub operator path e := by
  refine ⟨fun _ => rfl, ?_⟩
  simp only [operatorCall]
  split
  · exact unaryOperand_clear h
  · exact argumentArray_clear h

end Operands

section Methods

variable {sub : Typer} {name : String}

/-- A read of a reference is complained of once. -/
lemma ofRead_clear {r : String} : Clear fun path => Diagnostic.ofRead path r := by
  unfold Diagnostic.ofRead
  split_ifs
  · exact regular_nil
  · split
    · exact regular_here rfl
    · exact regular_nil

/-- A look-up is complained of once. -/
lemma lookup_regular {e : Json} :
    Outcome.Regular (·.isOfExpression) True fun path => lookup path e := by
  cases e with
  | string r => exact ⟨fun _ => rfl, ofRead_clear⟩
  | _ => exact regular_fail rfl

/-- A loop item is complained of once. -/
lemma loopItem_regular {e : Json} :
    Outcome.Regular (·.isOfExpression) True fun path => loopItem path e := by
  cases e with
  | string tag => exact regular_ok
  | _ => exact regular_fail rfl

/-- What lies behind a key is typed regularly, and all that is found lies further inside. -/
lemma typed_inside {o : Pointer → Outcome FamilySet} (h : Outcome.Regular (·.isOfExpression) True o)
    (key : String) : Typed fun path => o (path.push key) where
  toRegular := h.inside [key]
  deeper _ d mem := Diagnostic.path_ne_root (h.found.within d mem)

/-- If a receiver has families, nothing is found about it as a whole. -/
lemma receiver_typed (h : Regular sub) {m : Method} {e : Json} :
    Typed fun path => receiver sub m path e := by
  unfold receiver
  split
  · unfold lookupReceiver
    split
    · exact typed_inside lookup_regular "var"
    · exact typed_fail rfl
  · exact h e

/-- A receiver that no method takes is reported, if it has families. -/
lemma methodOn_regular (h : Regular sub) {first : Method} {methods : List Method} {e : Json}
    {arguments : Findings} (ha : Clear arguments) :
    Outcome.Regular (·.isOfExpression) True fun path =>
      methodOn sub first methods path e (arguments (path.item 2)) := by
  have typed : Typed fun path => receiver sub first path e := receiver_typed h
  have result : ∀ path : Pointer,
      (receiver sub first (path.item 0) e).result? = (receiver sub first .root e).result? :=
    fun path => typed.result _
  have both : Clear fun path =>
      (receiver sub first (path.item 0) e).diagnostics ++ arguments (path.item 2) :=
    typed.found.append_inside ha ["0"] ["2"] (by decide)
  simp only [methodOn, result]
  cases families : (receiver sub first .root e).result? with
  | none => exact ⟨fun _ => rfl, by simpa [overload, Outcome.ok] using both⟩
  | some s =>
    simp only [overload]
    cases methods.filter (takes s) with
    | cons m ms => exact ⟨fun _ => rfl, by simpa [Outcome.ok] using both⟩
    | nil =>
      refine ⟨fun _ => rfl, both.append_problem ["0"] rfl (List.forall_mem_append.mpr ⟨?_, ?_⟩)⟩
      · exact typed.away (by simp [result, families])
      · exact ha.elsewhere (by decide)

/-- Nothing is found twice in a call of a method of a name. -/
lemma namedCall_regular (h : Regular sub) {items : List Json} :
    Outcome.Regular (·.isOfExpression) True fun path => namedCall sub name path items := by
  unfold namedCall
  split
  · exact (typed_fail rfl).inside ["1"]
  · split
    · exact methodOn_regular h regular_nil
    · exact methodOn_regular h (argumentArray_clear h)
    · exact regular_fail rfl

/-- Nothing is found twice in a call of a method. -/
lemma methodCall_regular (h : Regular sub) {e : Json} :
    Outcome.Regular (·.isOfExpression) True fun path => methodCall sub path e := by
  unfold methodCall
  split
  · split
    · exact namedCall_regular h
    · exact (typed_fail rfl).inside ["1"]
    · exact regular_fail rfl
  · exact regular_fail rfl

/-- Nothing is found twice behind a key. -/
lemma call_regular (h : Regular sub) {key : String} {e : Json} :
    Outcome.Regular (·.isOfExpression) True fun path => call sub path key e := by
  unfold call
  split_ifs
  · exact lookup_regular
  · exact loopItem_regular
  · exact methodCall_regular h
  · split
    · exact operatorCall_regular h
    · exact regular_fail rfl

end Methods

/-! ## Levels -/

/-- If the operands of a level are typed regularly, the level is. -/
lemma level_regular {sub : Typer} (h : Regular sub) : Regular (level sub) := by
  intro e
  unfold level
  split
  case h_1 | h_2 | h_3 | h_4 => exact typed_ok
  case h_5 => exact typed_fail rfl
  case h_6 => exact typed_inside (call_regular h) _
  case h_7 => exact typed_fail rfl

/-- With so many levels left, nothing is found twice. -/
lemma inferWithin_regular (limit levels : Nat) : Regular (inferWithin limit levels) := by
  induction levels with
  | zero => exact fun e => typed_fail rfl
  | succ levels ih => exact level_regular ih

/-- An expression of the wrong family is reported where it stands, if it has families. -/
lemma check_regular {limit : Nat} {expect : Expectation} {e : Json} :
    Outcome.Regular (·.isOfExpression) True fun path => check limit expect path e := by
  have typed : Typed fun path => infer limit path e := inferWithin_regular limit (limit + 1) e
  simp only [check, typed.result]
  cases families : (infer limit .root e).result? with
  | none => exact ⟨fun _ => rfl, typed.found⟩
  | some s =>
    cases expect with
    | logic => exact ⟨fun _ => rfl, typed.found⟩
    | family f =>
      simp only
      split_ifs
      · exact ⟨fun _ => rfl, typed.found⟩
      · exact ⟨fun _ => rfl, typed.append_here rfl (by simp [families])⟩

end Typing

end DialogueLint
