import DialogueLint.Proofs.Typing.Frame
import DialogueLint.Typing.Infer

/-!
# What typing complains of

Typing complains of an operand only where a family is asked for, and words the families that it
found instead, of which there is at least one. So an operand that may be any expression is never
complained of for its family, and no operand is called unclassified (`level_sensible`). That an
expression is of the wrong family for its place is left to the place to say (`check_diagnostics`).

Two things are told of every function of a level: that its complaints are `Sensible`, and, where it
gives families to be complained of, that there is one. The first follows the way in which the
functions put their findings together; the second is only needed of what is worded, which are the
families of operands and receivers.
-/

namespace DialogueLint

/-- What typing may complain of: that an operand does not have a family that was asked for, but
others; and anything else but that an expression is of the wrong family for its place. -/
def Problem.OfTyping : Problem → Prop
  | .operandType _ expected found =>
    expected ≠ Expectation.logic.wording ∧ found ≠ "an unclassified expression"
  | .familyMismatch .. => False
  | _ => True

/-- A problem that a level reports is not that of a whole of the wrong family. -/
lemma Problem.OfTyping.kind_ne {problem : Problem} (h : problem.OfTyping) :
    problem.kind ≠ .familyMismatch := by
  cases problem with
  | familyMismatch => exact h.elim
  | _ => simp [kind]

namespace Typing

/-! ## Wordings -/

/-- To ask for a family is worded otherwise than to ask for any expression. -/
lemma Expectation.wording_family_ne (f : Family) :
    (Expectation.family f).wording ≠ Expectation.logic.wording := by
  cases f <;> decide

/-- A text that begins with an article is not the wording of any expression. -/
lemma article_ne (text : String) : "a " ++ text ≠ Expectation.logic.wording := by
  intro same
  have letters := congrArg String.toList same
  simp [Expectation.wording] at letters

/-- A set of families that has one is not worded as an expression without families. -/
lemma wording_ne {s : FamilySet} (nonempty : ∃ f, s.contains f) :
    wording s ≠ "an unclassified expression" := by
  obtain ⟨f, hf⟩ := nonempty
  have some : s.primary.isSome :=
    List.find?_isSome.mpr ⟨f, Family.mem_byPriority f, hf⟩
  obtain ⟨g, hg⟩ := Option.isSome_iff_exists.mp some
  rw [wording, hg]
  cases g <;> decide

/-- No JSON value is described as an expression without families. -/
lemma describe_ne (e : Json) : e.describe ≠ "an unclassified expression" := by
  intro same
  have letters := congrArg String.toList same
  unfold Json.describe at letters
  split at letters <;> simp [toString] at letters

/-- All complaints are of the kind that typing has. -/
def Sensible (found : List Diagnostic) : Prop :=
  ∀ d ∈ found, d.problem.OfTyping

/-- Where nothing is found, nothing is complained of. -/
lemma sensible_nil : Sensible [] :=
  List.forall_mem_nil _

/-- A problem that typing has is a sensible complaint by itself. -/
lemma sensible_problem {place : Pointer} {problem : Problem} (h : problem.OfTyping) :
    Sensible [⟨place, problem⟩] :=
  List.forall_mem_singleton.mpr h

/-- Findings are sensible together if they are one by one. -/
lemma Sensible.append {found more : List Diagnostic} (h : Sensible found) (next : Sensible more) :
    Sensible (found ++ more) :=
  List.forall_mem_append.mpr ⟨h, next⟩

/-- An expression that has families at all has some family. -/
def Definite (sub : Typer) : Prop :=
  ∀ path e s, (sub path e).result? = some s → ∃ f, s.contains f

/-! ## Operands -/

section Operands

variable {sub : Typer} {name : String} {path : Pointer}

/-- Any expression with a family will do where nothing more is asked for. -/
lemma operandRemark_logic {families? : Option FamilySet}
    (definite : ∀ s ∈ families?, ∃ f, s.contains f) :
    operandRemark name .logic path families? = [] := by
  cases families? with
  | none => rfl
  | some s => simp only [operandRemark, accepts_logic.mpr (definite s rfl), if_true]

/-- The remark on an operand of the wrong family words a family that was asked for and one that was
found. -/
lemma operandRemark_sensible {expect : Expectation} {families? : Option FamilySet}
    (definite : ∀ s ∈ families?, ∃ f, s.contains f) :
    Sensible (operandRemark name expect path families?) := by
  cases expect with
  | logic =>
    rw [operandRemark_logic definite]
    exact sensible_nil
  | family f =>
    cases families? with
    | none => exact sensible_nil
    | some s =>
      simp only [operandRemark]
      split_ifs
      · exact sensible_nil
      · exact sensible_problem ⟨Expectation.wording_family_ne f, wording_ne (definite s rfl)⟩

/-- The remark on two operands that do not compare words families that were found. -/
lemma comparisonRemark_sensible {left? right? : Option FamilySet}
    (left : ∀ s ∈ left?, ∃ f, s.contains f) (right : ∀ s ∈ right?, ∃ f, s.contains f) :
    Sensible (comparisonRemark name path left? right?) := by
  cases left? with
  | none => exact sensible_nil
  | some l =>
    cases right? with
    | none => exact sensible_nil
    | some r =>
      simp only [comparisonRemark, incomparable]
      split_ifs
      · exact sensible_nil
      · exact sensible_problem ⟨by decide, wording_ne (left l rfl)⟩
      · refine sensible_problem ⟨?_, wording_ne (right r rfl)⟩
        rw [String.append_assoc]
        exact article_ne _

/-- What is complained of in a format are its type and its words. -/
lemma formatOperand_sensible {format : Format} {e : Json} :
    Sensible (formatOperand format path e) := by
  cases e with
  | string text =>
    simp only [formatOperand]
    split_ifs
    · exact sensible_nil
    · exact sensible_problem trivial
  | _ => exact sensible_problem trivial

/-- What is complained of in a name for items is its type. -/
lemma bindingOperand_sensible {e : Json} : Sensible (bindingOperand path e) := by
  cases e with
  | string name => exact sensible_nil
  | _ => exact sensible_problem trivial

variable (definite : Definite sub) (sensible : ∀ path e, Sensible (sub path e).diagnostics)

include definite sensible

/-- An operand that is an expression is complained of sensibly, and so is its family. -/
lemma expressionOperand_sensible {expect : Expectation} {e : Json} :
    Sensible (expressionOperand sub name expect path e) := by
  rw [expressionOperand_eq]
  exact (sensible path e).append (operandRemark_sensible fun s hs => definite path e s hs)

/-- Whatever the rule asks of it, an operand is complained of sensibly. -/
lemma operand_sensible {rule : Operand} {e : Json} :
    Sensible (operand sub name rule path e) := by
  cases rule with
  | expression expect => exact expressionOperand_sensible definite sensible
  | format format => exact formatOperand_sensible
  | binding => exact bindingOperand_sensible

/-- So are operands one by one. -/
lemma operandsFrom_sensible {index : Nat} {rules : List Operand} {values : List Json} :
    Sensible (operandsFrom sub name path index rules values) := by
  induction values generalizing index rules with
  | nil => cases rules <;> exact sensible_nil
  | cons value values ih =>
    cases rules with
    | nil => exact sensible_nil
    | cons rule rules => exact (operand_sensible definite sensible).append ih

/-- So are two operands that are compared, and whether they compare. -/
lemma comparison_sensible {a b : Json} : Sensible (comparison sub name path a b) := by
  rw [comparison_eq]
  refine ((sensible _ a).append (sensible _ b)).append (comparisonRemark_sensible ?_ ?_)
  · exact fun s hs => definite _ a s hs
  · exact fun s hs => definite _ b s hs

/-- So are the size of an argument array and its items. -/
lemma argumentArray_sensible {arity : Arity} {operands : Operands} {e : Json} :
    Sensible (argumentArray sub name arity operands path e) := by
  cases e with
  | array values =>
    simp only [argumentArray, operandArray]
    split_ifs
    · split
      · exact comparison_sensible definite sensible
      · exact operandsFrom_sensible definite sensible
    · exact sensible_problem trivial
  | _ => exact sensible_problem trivial

/-- So is a single operand, alone or in an array. -/
lemma unaryOperand_sensible {arity : Arity} {e : Json} :
    Sensible (unaryOperand sub name arity path e) := by
  unfold unaryOperand
  split
  · exact expressionOperand_sensible definite sensible
  · exact sensible_problem trivial
  · exact expressionOperand_sensible definite sensible

/-- So is a call of an operator, whose families are never complained of. -/
lemma operatorCall_sensible {operator : Operator} {e : Json} :
    Sensible (operatorCall sub operator path e).diagnostics := by
  unfold operatorCall
  split
  · exact unaryOperand_sensible definite sensible
  · exact argumentArray_sensible definite sensible

end Operands

/-! ## Calls -/

section Calls

variable {sub : Typer} {name : String} {path : Pointer}

/-- What is complained of in a look-up are its type and where it leads. -/
lemma lookup_sensible {e : Json} : Sensible (lookup path e).diagnostics := by
  cases e with
  | string r =>
    simp only [lookup, Diagnostic.ofRead]
    split_ifs
    · exact sensible_nil
    · split
      · exact sensible_problem trivial
      · exact sensible_nil
  | _ => exact sensible_problem trivial

/-- What is complained of in a loop item is its type. -/
lemma loopItem_sensible {e : Json} : Sensible (loopItem path e).diagnostics := by
  cases e with
  | string tag => exact sensible_nil
  | _ => exact sensible_problem trivial

/-- That no method is called on a receiver is told by the families that methods are called on and
those that it has. -/
lemma overload_sensible {methods : List Method} {families? : Option FamilySet}
    (definite : ∀ s ∈ families?, ∃ f, s.contains f) :
    Sensible (overload name methods path families?).diagnostics := by
  cases families? with
  | none => exact sensible_nil
  | some s =>
    simp only [overload]
    split
    · refine sensible_problem ⟨?_, wording_ne (definite s rfl)⟩
      rw [String.append_assoc]
      exact article_ne _
    · exact sensible_nil

/-- Of a receiver that is to be looked up in place, it is described what stands there instead. -/
lemma lookupReceiver_sensible {e : Json} : Sensible (lookupReceiver name path e).diagnostics := by
  unfold lookupReceiver
  split
  · exact lookup_sensible
  · exact sensible_problem ⟨by decide, describe_ne _⟩

variable (definite : Definite sub) (sensible : ∀ path e, Sensible (sub path e).diagnostics)

include sensible in
/-- A receiver is complained of sensibly, as an expression or as a look-up. -/
lemma receiver_sensible {m : Method} {e : Json} :
    Sensible (receiver sub m path e).diagnostics := by
  unfold receiver
  split
  · exact lookupReceiver_sensible
  · exact sensible path e

include definite in
/-- A receiver that has families has one. -/
lemma receiver_definite {m : Method} {e : Json} :
    ∀ s ∈ (receiver sub m path e).result?, ∃ f, s.contains f := by
  intro s hs
  unfold receiver lookupReceiver at hs
  split at hs
  · split at hs
    · rename_i reference
      cases reference with
      | string r =>
        cases hs
        exact ⟨.any, rfl⟩
      | _ => cases hs
    · cases hs
  · exact definite path e s hs

include definite sensible

/-- A call on a receiver is complained of sensibly if its arguments are. -/
lemma methodOn_sensible {first : Method} {methods : List Method} {e : Json}
    {arguments : List Diagnostic} (h : Sensible arguments) :
    Sensible (methodOn sub first methods path e arguments).diagnostics :=
  ((receiver_sensible sensible).append h).append (overload_sensible (receiver_definite definite))

/-- So is a call of a method of a name, whatever its size. -/
lemma namedCall_sensible {items : List Json} :
    Sensible (namedCall sub name path items).diagnostics := by
  unfold namedCall
  split
  · exact sensible_problem trivial
  · split
    · exact methodOn_sensible definite sensible sensible_nil
    · exact methodOn_sensible definite sensible (argumentArray_sensible definite sensible)
    · exact sensible_problem trivial

/-- So is whatever stands where a call of a method should. -/
lemma methodCall_sensible {e : Json} : Sensible (methodCall sub path e).diagnostics := by
  unfold methodCall
  split
  · split
    · exact namedCall_sensible definite sensible
    · exact sensible_problem trivial
    · exact sensible_problem trivial
  · exact sensible_problem trivial

/-- So is whatever stands behind a single key. -/
lemma call_sensible {key : String} {e : Json} : Sensible (call sub path key e).diagnostics := by
  unfold call
  split_ifs
  · exact lookup_sensible
  · exact loopItem_sensible
  · exact methodCall_sensible definite sensible
  · split
    · exact operatorCall_sensible definite sensible
    · exact sensible_problem trivial

/-- If the operands of a level have families and their complaints make sense, so do the level's. -/
lemma level_sensible {e : Json} : Sensible (level sub path e).diagnostics := by
  unfold level
  split
  case h_1 | h_2 | h_3 | h_4 => exact sensible_nil
  case h_5 => exact sensible_problem trivial
  case h_6 => exact call_sensible definite sensible
  case h_7 => exact sensible_problem trivial

end Calls

/-! ## Checks -/

/-- What is complained of when an expression has families that its place does not demand. -/
def familyRemark (expect : Expectation) (path : Pointer) : Option FamilySet → List Diagnostic
  | none => []
  | some s =>
    match expect with
    | .logic => []
    | .family f =>
      if s.contains f then [] else [⟨path, .familyMismatch f (s.primary.getD .any)⟩]

/-- A check finds what the inference finds, and then has a remark on the families of the whole. -/
lemma check_diagnostics {limit : Nat} {expect : Expectation} {path : Pointer} {e : Json} :
    (check limit expect path e).diagnostics = (infer limit path e).diagnostics ++
      familyRemark expect path (infer limit path e).result? := by
  simp only [check]
  cases (infer limit path e).result? with
  | none => exact (List.append_nil _).symm
  | some s =>
    cases expect with
    | logic => exact (List.append_nil _).symm
    | family f =>
      simp only [familyRemark]
      split_ifs
      · exact (List.append_nil _).symm
      · rfl

/-- The remark of a check is about the whole, and that it is of the wrong family. -/
lemma familyRemark_kind {expect : Expectation} {path : Pointer} {families? : Option FamilySet} :
    ∀ d ∈ familyRemark expect path families?, d.path = path ∧ d.kind = .familyMismatch := by
  intro d mem
  unfold familyRemark at mem
  split at mem
  · cases mem
  · split at mem
    · cases mem
    · split_ifs at mem
      · cases mem
      · cases List.mem_singleton.mp mem
        exact ⟨rfl, rfl⟩

end Typing

end DialogueLint
