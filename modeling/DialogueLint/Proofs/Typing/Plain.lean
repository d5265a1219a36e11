import DialogueLint.Proofs.Reading.Plain
import DialogueLint.Typing.Infer

/-!
# What typing repeats

Typing an unbroken expression reports problems that repeat no line break (`plain_check`): the names
of operators and methods in a message are those of the tables, or they stand in the expression, as
do the references into namespaces of the system.

A problem is plain if the parts of its message are, and so each lemma follows the parts of one
function of a level. What the program words itself is plain by the tables: the names of families,
operators and methods have no line breaks, which is decided over all of them. What it repeats from
the document is plain because the document is unbroken, and so are its items and members.
-/

namespace DialogueLint.Typing

open Outcome Reader Text

/-! ## Fixed words -/

/-- The names of families have no line break, whatever plain text they are joined by. -/
lemma unbroken_families {between : String} (h : Unbroken between) (families : List Family) :
    Unbroken (between.intercalate (families.map Family.name)) :=
  unbroken_intercalate h (List.forall_mem_map.mpr fun f _ => f.unbroken_name)

/-- Families are worded without a line break. -/
lemma unbroken_wording (families : FamilySet) : Unbroken (wording families) := by
  unfold wording
  split
  · simp +decide only [toString, unbroken_append, Family.unbroken_name]
  · decide

/-- What is expected is worded without a line break. -/
lemma unbroken_expectation (expect : Expectation) : Unbroken expect.wording := by
  cases expect with
  | logic => decide
  | family f => simp +decide only [Expectation.wording, toString, unbroken_append, f.unbroken_name]

/-- The names of operators have no line break. -/
lemma unbroken_operator {operator : Operator} (h : operator ∈ Operator.table) :
    Unbroken operator.name := by
  have names : ∀ operator ∈ Operator.table, Unbroken operator.name := by decide
  exact names operator h

/-- The names of methods have no line break. -/
lemma unbroken_method {m : Method} (h : m ∈ Method.table) : Unbroken m.name := by
  have names : ∀ m ∈ Method.table, Unbroken m.name := by decide
  exact names m h

section Operands

variable {sub : Typer} {name : String} {path : Pointer} {e : Json}

/-! ## Operands -/

/-- That an operand is of the wrong family is plain if its words are. -/
lemma plain_operandType {expected found : String} (hn : Unbroken name) (he : Unbroken expected)
    (hf : Unbroken found) : (Problem.operandType name expected found).Plain :=
  List.forall_mem_cons.mpr ⟨hn, unbroken_pair he hf⟩

/-- What is found in an operand is plain if typing it is. -/
lemma plain_expressionOperand (h : Reader.Plain sub) (hn : Unbroken name) {expect : Expectation}
    (unbroken : e.Unbroken) :
    ∀ d ∈ expressionOperand sub name expect path e, d.problem.Plain := by
  refine List.forall_mem_append.mpr ⟨h path e unbroken, ?_⟩
  split
  · simp
  · split_ifs
    · simp
    · exact List.forall_mem_singleton.mpr
        (plain_operandType hn (unbroken_expectation expect) (unbroken_wording _))

/-- What is found about a format is plain. -/
lemma plain_formatOperand {format : Format} (unbroken : e.Unbroken) :
    ∀ d ∈ formatOperand format path e, d.problem.Plain := by
  cases e with
  | string text =>
    have pattern : Unbroken format.pattern := by cases format <;> decide
    simp only [formatOperand]
    split_ifs
    · simp
    · exact List.forall_mem_singleton.mpr (unbroken_pair pattern (unbroken_quote text))
  | _ => exact List.forall_mem_singleton.mpr (unbroken_pair (by decide) unbroken.describe)

/-- What is found about a name for items is plain. -/
lemma plain_bindingOperand (unbroken : e.Unbroken) :
    ∀ d ∈ bindingOperand path e, d.problem.Plain := by
  cases e with
  | string name => simp [bindingOperand]
  | _ => exact List.forall_mem_singleton.mpr (unbroken_pair (by decide) unbroken.describe)

/-- What is found about an operand is plain, whatever its rule. -/
lemma plain_operand (h : Reader.Plain sub) (hn : Unbroken name) {rule : Operand}
    (unbroken : e.Unbroken) : ∀ d ∈ operand sub name rule path e, d.problem.Plain := by
  cases rule with
  | expression expect => exact plain_expressionOperand h hn unbroken
  | format kind => exact plain_formatOperand unbroken
  | binding => exact plain_bindingOperand unbroken

/-- What is found about operands is plain. -/
lemma plain_operandsFrom (h : Reader.Plain sub) (hn : Unbroken name) {index : Nat}
    {rules : List Operand} {values : List Json} (unbroken : ∀ v ∈ values, v.Unbroken) :
    ∀ d ∈ operandsFrom sub name path index rules values, d.problem.Plain := by
  induction values generalizing index rules with
  | nil => cases rules <;> simp [operandsFrom]
  | cons value values ih =>
    cases rules with
    | nil => simp [operandsFrom]
    | cons rule rules =>
      obtain ⟨first, others⟩ := List.forall_mem_cons.mp unbroken
      exact List.forall_mem_append.mpr ⟨plain_operand h hn first, ih others⟩

/-- That two operands do not compare is plain. -/
lemma plain_incomparable (hn : Unbroken name) (left right : FamilySet) :
    (incomparable name path left right).problem.Plain := by
  unfold incomparable
  split_ifs
  · exact plain_operandType hn (by decide) (unbroken_wording _)
  · refine plain_operandType hn ?_ (unbroken_wording _)
    simp +decide only [unbroken_append, unbroken_families]

/-- What is found about two operands that are compared is plain. -/
lemma plain_comparison (h : Reader.Plain sub) (hn : Unbroken name) {a b : Json}
    (ha : a.Unbroken) (hb : b.Unbroken) :
    ∀ d ∈ comparison sub name path a b, d.problem.Plain := by
  refine List.forall_mem_append.mpr ⟨List.forall_mem_append.mpr ⟨h _ a ha, h _ b hb⟩, ?_⟩
  split
  · split_ifs
    · simp
    · exact List.forall_mem_singleton.mpr (plain_incomparable hn _ _)
  · simp

/-- What is found in an array of operands is plain. -/
lemma plain_operandArray (h : Reader.Plain sub) (hn : Unbroken name) {arity : Arity}
    {operands : Operands} {values : List Json} (unbroken : ∀ v ∈ values, v.Unbroken) :
    ∀ d ∈ operandArray sub name arity operands path values, d.problem.Plain := by
  unfold operandArray
  split_ifs
  · split
    · obtain ⟨ha, hb⟩ := List.forall_mem_cons.mp unbroken
      exact plain_comparison h hn ha (List.forall_mem_singleton.mp hb)
    · exact plain_operandsFrom h hn unbroken
  · exact List.forall_mem_singleton.mpr (List.forall_mem_singleton.mpr hn)

/-- What is found in what should be an argument array is plain. -/
lemma plain_argumentArray (h : Reader.Plain sub) (hn : Unbroken name) {arity : Arity}
    {operands : Operands} (unbroken : e.Unbroken) :
    ∀ d ∈ argumentArray sub name arity operands path e, d.problem.Plain := by
  cases e with
  | array values => exact plain_operandArray h hn fun v mem => unbroken.item mem
  | _ =>
    refine List.forall_mem_singleton.mpr (unbroken_pair ?_ unbroken.describe)
    simp +decide only [toString, unbroken_append, hn]

/-- What is found in a single operand is plain. -/
lemma plain_unaryOperand (h : Reader.Plain sub) (hn : Unbroken name) {arity : Arity}
    (unbroken : e.Unbroken) : ∀ d ∈ unaryOperand sub name arity path e, d.problem.Plain := by
  unfold unaryOperand
  split
  · exact plain_expressionOperand h hn (unbroken.item (List.mem_singleton_self _))
  · exact List.forall_mem_singleton.mpr (List.forall_mem_singleton.mpr hn)
  · exact plain_expressionOperand h hn unbroken

/-- What is found in a call of an operator is plain. -/
lemma plain_operatorCall (h : Reader.Plain sub) {operator : Operator}
    (listed : operator ∈ Operator.table) (unbroken : e.Unbroken) :
    (operatorCall sub operator path e).Plain := by
  have hn := unbroken_operator listed
  unfold operatorCall Outcome.Plain
  split
  · exact plain_unaryOperand h hn unbroken
  · exact plain_argumentArray h hn unbroken

end Operands

/-! ## Lookups and methods -/

section Methods

variable {sub : Typer} {path : Pointer} {e : Json}

/-- What is found about a read of a reference is plain, since it repeats the reference alone. -/
lemma plain_ofRead {r : String} (unbroken : (Json.string r).Unbroken) :
    ∀ d ∈ Diagnostic.ofRead path r, d.problem.Plain := by
  unfold Diagnostic.ofRead
  split_ifs
  · simp
  · split
    · rename_i space reserved
      refine List.forall_mem_singleton.mpr (List.forall_mem_singleton.mpr ?_)
      exact unbroken.reference (by simp [reserved])
    · simp

/-- What is found about a look-up is plain. -/
lemma plain_lookup (unbroken : e.Unbroken) : (lookup path e).Plain := by
  cases e with
  | string r => exact plain_ofRead unbroken
  | _ => exact plain_fail (unbroken_pair (by decide) unbroken.describe)

/-- What is found about a loop item is plain. -/
lemma plain_loopItem (unbroken : e.Unbroken) : (loopItem path e).Plain := by
  cases e with
  | string tag => exact plain_ok
  | _ => exact plain_fail (unbroken_pair (by decide) unbroken.describe)

/-- What is found about a receiver is plain. -/
lemma plain_receiver (h : Reader.Plain sub) {m : Method} (hn : Unbroken m.name)
    (unbroken : e.Unbroken) : (receiver sub m path e).Plain := by
  unfold receiver
  split
  · unfold lookupReceiver
    split
    · exact plain_lookup (unbroken.member List.mem_cons_self)
    · exact plain_fail (plain_operandType hn (by decide) unbroken.describe)
  · exact h path e unbroken

/-- That no method is called on a receiver is plain. -/
lemma plain_overload {name : String} (hn : Unbroken name) {methods : List Method}
    {families? : Option FamilySet} : (overload name methods path families?).Plain := by
  unfold overload
  split
  · exact plain_ok
  · split
    · refine List.forall_mem_singleton.mpr (plain_operandType hn ?_ (unbroken_wording _))
      simp +decide only [toString, unbroken_append, unbroken_families]
    · exact plain_ok

/-- What is found in a call on a receiver is plain. -/
lemma plain_methodOn (h : Reader.Plain sub) {first : Method} (hn : Unbroken first.name)
    {methods : List Method} {arguments : List Diagnostic} (unbroken : e.Unbroken)
    (ha : ∀ d ∈ arguments, d.problem.Plain) :
    (methodOn sub first methods path e arguments).Plain :=
  List.forall_mem_append.mpr
    ⟨List.forall_mem_append.mpr ⟨plain_receiver h hn unbroken, ha⟩, plain_overload hn⟩

/-- The methods of a name are listed under it. -/
lemma mem_named {m : Method} {name : String} (h : m ∈ Method.named name) :
    m ∈ Method.table ∧ m.name = name := by
  simpa [Method.named] using h

/-- A call by a name repeats the name, which has no line break where there is a method of it. -/
lemma plain_namedCall (h : Reader.Plain sub) {name : String} {items : List Json}
    (unknown : Method.named name = [] → Unbroken name) (unbroken : ∀ v ∈ items, v.Unbroken) :
    (namedCall sub name path items).Plain := by
  unfold namedCall
  split
  · rename_i none
    exact plain_fail (List.forall_mem_singleton.mpr (unknown none))
  · rename_i first others known
    obtain ⟨listed, named⟩ := mem_named (known ▸ List.mem_cons_self)
    have hf : Unbroken first.name := unbroken_method listed
    have hn : Unbroken name := named ▸ hf
    split
    · exact plain_methodOn h hf (unbroken _ List.mem_cons_self) (by simp)
    · exact plain_methodOn h hf (unbroken _ List.mem_cons_self)
        (plain_argumentArray h hn (unbroken _ (by simp)))
    · refine plain_fail (unbroken_pair ?_ ?_) <;>
        simp +decide only [toString, unbroken_append, unbroken_repr, hn]

/-- The name of a method is repeated as it is where there is none of that name. -/
lemma plain_methodCall (h : Reader.Plain sub)
    (unbroken : (Json.object [("method", e)]).Unbroken) : (methodCall sub path e).Plain := by
  have inner : e.Unbroken := unbroken.member List.mem_cons_self
  unfold methodCall
  split
  · split
    · exact plain_namedCall h (fun none => unbroken _ (.method none)) fun v mem => inner.item mem
    · rename_i other _ _
      refine plain_fail (unbroken_pair (by decide) ?_)
      exact (inner.item (v := other) (by simp)).describe
    · refine plain_fail (unbroken_pair (by decide) ?_)
      simp +decide only [toString, unbroken_append, unbroken_repr]
  · exact plain_fail (unbroken_pair (by decide) inner.describe)

/-- What is found behind a key is plain, though it may repeat the key. -/
lemma plain_call (h : Reader.Plain sub) {key : String}
    (unbroken : (Json.object [(key, e)]).Unbroken) : (call sub path key e).Plain := by
  have inner : e.Unbroken := unbroken.member List.mem_cons_self
  unfold call
  split_ifs with var current method
  · exact plain_lookup inner
  · exact plain_loopItem inner
  · subst method
    exact plain_methodCall h unbroken
  · split
    · rename_i operator found
      exact plain_operatorCall h (List.mem_of_find?_eq_some found) inner
    · exact plain_fail (List.forall_mem_singleton.mpr (unbroken.key List.mem_cons_self))

end Methods

/-! ## Levels -/

/-- What a level finds is plain if what is found in operands is. -/
lemma plain_level {sub : Typer} (h : Reader.Plain sub) : Reader.Plain (level sub) := by
  intro path e unbroken
  unfold level
  split
  case h_1 | h_2 | h_3 | h_4 => exact plain_ok
  case h_5 => exact plain_fail (unbroken_pair (by decide) unbroken.describe)
  case h_6 => exact plain_call h unbroken
  case h_7 =>
    refine plain_fail (unbroken_pair (by decide) ?_)
    simp +decide only [toString, unbroken_append, unbroken_repr]

/-- With so many levels left, what is found is plain. -/
lemma plain_inferWithin (limit levels : Nat) : Reader.Plain (inferWithin limit levels) := by
  induction levels with
  | zero => exact fun _ _ _ => plain_fail (List.forall_mem_nil _)
  | succ levels ih => exact plain_level ih

/-- All that a check reports of an unbroken expression repeats no line break. -/
lemma plain_check {limit : Nat} {expect : Expectation} {path : Pointer} {e : Json}
    (unbroken : e.Unbroken) : (check limit expect path e).Plain := by
  have typed := plain_inferWithin limit (limit + 1) path e unbroken
  simp only [check]
  split
  · exact typed
  · split
    · exact typed
    · split_ifs
      · exact typed
      · exact List.forall_mem_append.mpr ⟨typed,
          List.forall_mem_singleton.mpr (List.forall_mem_nil _)⟩

end DialogueLint.Typing
