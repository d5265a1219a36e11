import DialogueLint.Proofs.Typing.Grammar
import DialogueLint.Proofs.Typing.Position
import DialogueLint.Typing.Shape
import Mathlib.Data.List.Basic

/-!
# One step of typing

What the tables of operators and methods demand of one level of an expression, given which operands
meet which expectations. A step looks at the operands at the positions of the expression and at no
others: it is made with operands that have a property as well exactly if it is made, and all
operands have the property (`step_within`).

`Step` and its parts take the judgement of operands as a parameter, so that the same words say what
a level of the grammar demands and what a level of typing does. For the sizes that occur in the
tables, an argument array that fits is taken apart into its items (`ArrayFits.one`, `ArrayFits.two`
and so on).
-/

namespace DialogueLint

open Typing Grammar

/-- Which expressions meet which expectations. -/
abbrev Judgement : Type := Expectation → Json → Prop

/-- Whether an expression meets an expectation and has a property as well. -/
def Judgement.within (D : Judgement) (P : Json → Prop) : Judgement :=
  fun expect e => D expect e ∧ P e

/-- Whether a value fits the rule for an operand. -/
def Operand.Fits (D : Judgement) : Operand → Json → Prop
  | .expression expect, value => D expect value
  | .format kind, value => ∃ text, value = .string text ∧ kind.accepts text
  | .binding, value => ∃ name, value = .string name

/-- Whether each value fits its rule. -/
def FitEach (D : Judgement) : List Operand → List Json → Prop
  | rule :: rules, value :: values => rule.Fits D value ∧ FitEach D rules values
  | _, _ => True

/-- Whether values fit the rules for all operands. -/
def Operands.Fit (D : Judgement) (operands : Operands) (values : List Json) : Prop :=
  match operands with
  | .ordered => ∃ f ∈ Family.ordered, ∀ value ∈ values, D (.family f) value
  | operands => FitEach D (operands.layout values.length) values

/-- Whether a value is an argument array that fits. -/
def ArrayFits (D : Judgement) (arity : Arity) (operands : Operands) : Json → Prop
  | .array values => arity.accepts values.length ∧ operands.Fit D values
  | _ => False

/-- Whether a value is an operand by itself or in an array. -/
def UnaryFits (D : Judgement) : Json → Prop
  | .array [value] => D .logic value
  | .array _ => False
  | value => D .logic value

/-- Whether the value behind an operator fits. -/
def Operator.Fits (D : Judgement) (operator : Operator) (value : Json) : Prop :=
  match operator.operands with
  | .unary => UnaryFits D value
  | operands => ArrayFits D operator.arity operands value

/-- Whether a method can be called on a value. -/
def Receiver.Fits (D : Judgement) : Receiver → Json → Prop
  | .family f, value => D (.family f) value
  | .lookup, value => ∃ r, value = lookedUp r ∧ Reference.isReadable r

/-- Whether what stands behind the name of a method fits. -/
def Method.ArgumentsFit (D : Judgement) (m : Method) (rest : List Json) : Prop :=
  match m.arguments, rest with
  | none, [] => True
  | some rules, [arguments] => ArrayFits D rules.arity rules.operands arguments
  | _, _ => False

/-- Operands of one rule fit if each is as the rule expects. -/
@[simp] lemma fit_uniform {D : Judgement} {expect : Expectation} {values : List Json} :
    (Operands.uniform expect).Fit D values ↔ ∀ value ∈ values, D expect value := by
  simp only [Operands.Fit, Operands.layout]
  induction values with
  | nil => simp [FitEach]
  | cons value values ih =>
    simp only [List.length_cons, List.replicate_succ, FitEach, Operand.Fits, ih, List.mem_cons,
      forall_eq_or_imp]

section ArrayFits

variable {D : Judgement} {operands : Operands} {value : Json}

/-- An array of so many operands or more that fits has them, and each is as expected. -/
lemma ArrayFits.atLeast {n : Nat} {expect : Expectation}
    (h : ArrayFits D (.atLeast n) (.uniform expect) value) :
    ∃ es, value = .array es ∧ n ≤ es.length ∧ ∀ e ∈ es, D expect e := by
  cases value with
  | array es => exact ⟨es, rfl, (Arity.accepts_atLeast _ _).mp h.1, fit_uniform.mp h.2⟩
  | _ => exact h.elim

/-- An array of exactly so many operands that fits has them. -/
lemma ArrayFits.exactly {n : Nat}
    (h : ArrayFits D (.exactly n) operands value) :
    ∃ es, value = .array es ∧ es.length = n ∧ operands.Fit D es := by
  cases value with
  | array es => exact ⟨es, rfl, (Arity.accepts_exactly _ _).mp h.1, h.2⟩
  | _ => exact h.elim

/-- An array of no operands that fits is empty. -/
lemma ArrayFits.none (h : ArrayFits D (.exactly 0) operands value) : value = .array [] := by
  obtain ⟨es, rfl, hlen, -⟩ := h.exactly
  rw [List.eq_nil_of_length_eq_zero hlen]

/-- An array of one operand that fits has one. -/
lemma ArrayFits.one (h : ArrayFits D (.exactly 1) operands value) :
    ∃ a, value = .array [a] ∧ operands.Fit D [a] := by
  obtain ⟨es, rfl, hlen, fit⟩ := h.exactly
  obtain ⟨a, rfl⟩ := List.length_eq_one_iff.mp hlen
  exact ⟨a, rfl, fit⟩

/-- An array of two operands that fits has two. -/
lemma ArrayFits.two (h : ArrayFits D (.exactly 2) operands value) :
    ∃ a b, value = .array [a, b] ∧ operands.Fit D [a, b] := by
  obtain ⟨es, rfl, hlen, fit⟩ := h.exactly
  obtain ⟨a, b, rfl⟩ := List.length_eq_two.mp hlen
  exact ⟨a, b, rfl, fit⟩

/-- An array of a number of operands within bounds that fits has one. -/
lemma ArrayFits.between {min max : Nat} (h : ArrayFits D (.between min max) operands value) :
    ∃ es, value = .array es ∧ (min ≤ es.length ∧ es.length ≤ max) ∧ operands.Fit D es := by
  cases value with
  | array es => exact ⟨es, rfl, (Arity.accepts_between _ _ _).mp h.1, h.2⟩
  | _ => exact h.elim

/-- An array of at most one operand that fits is empty or has one. -/
lemma ArrayFits.noneOrOne (h : ArrayFits D (.between 0 1) operands value) :
    value = .array [] ∨ ∃ a, value = .array [a] ∧ operands.Fit D [a] := by
  obtain ⟨es, rfl, hlen, fit⟩ := h.between
  have cases : es.length = 0 ∨ es.length = 1 := by omega
  rcases cases with hlen | hlen
  · exact .inl (congrArg Json.array (List.eq_nil_of_length_eq_zero hlen))
  · obtain ⟨a, rfl⟩ := List.length_eq_one_iff.mp hlen
    exact .inr ⟨a, rfl, fit⟩

/-- An array of one or two operands that fits has one or two. -/
lemma ArrayFits.oneOrTwo (h : ArrayFits D (.between 1 2) operands value) :
    (∃ a, value = .array [a] ∧ operands.Fit D [a]) ∨
      ∃ a b, value = .array [a, b] ∧ operands.Fit D [a, b] := by
  obtain ⟨es, rfl, hlen, fit⟩ := h.between
  have cases : es.length = 1 ∨ es.length = 2 := by omega
  rcases cases with hlen | hlen
  · obtain ⟨a, rfl⟩ := List.length_eq_one_iff.mp hlen
    exact .inl ⟨a, rfl, fit⟩
  · obtain ⟨a, b, rfl⟩ := List.length_eq_two.mp hlen
    exact .inr ⟨a, b, rfl, fit⟩

/-- An array of two or three operands that fits has two or three. -/
lemma ArrayFits.twoOrThree (h : ArrayFits D (.between 2 3) operands value) :
    (∃ a b, value = .array [a, b] ∧ operands.Fit D [a, b]) ∨
      ∃ a b c, value = .array [a, b, c] ∧ operands.Fit D [a, b, c] := by
  obtain ⟨es, rfl, hlen, fit⟩ := h.between
  have cases : es.length = 2 ∨ es.length = 3 := by omega
  rcases cases with hlen | hlen
  · obtain ⟨a, b, rfl⟩ := List.length_eq_two.mp hlen
    exact .inl ⟨a, b, rfl, fit⟩
  · obtain ⟨a, b, c, rfl⟩ := List.length_eq_three.mp hlen
    exact .inr ⟨a, b, c, rfl, fit⟩

end ArrayFits

namespace Typing

/-- Whether the value behind a key makes an expression of a family. -/
def CallStep (D : Judgement) (f : Family) (key : String) (value : Json) : Prop :=
  if key = "var" then f ≠ .null ∧ ∃ r, value = .string r ∧ Reference.isReadable r
  else if key = "current" then f ≠ .null ∧ ∃ tag, value = .string tag
  else if key = "method" then
    ∃ receiver name rest, value = .array (receiver :: .string name :: rest) ∧
      ∃ m ∈ Method.named name, (Shape.resultFamilies m.result).contains f ∧
        m.receiver.Fits D receiver ∧ m.ArgumentsFit D rest
  else ∃ operator, Operator.ofName? key = some operator ∧
    (Shape.resultFamilies operator.result).contains f ∧ operator.Fits D value

/-- Whether a value is an expression of a family, given what its operands meet. -/
def Step (D : Judgement) (f : Family) : Json → Prop
  | .null => f = .null
  | .bool _ => f = .boolean
  | .number _ => f = .numeric
  | .string _ => f ∈ textual
  | .object [(key, value)] => CallStep D f key value
  | _ => False

/-! ## A step depends on the operands -/

variable {D : Judgement} {P : Json → Prop}

/-- All positions under a token have what all positions below it have. -/
@[simp] lemma forall_mem_under {token : String} {ps : Positions} :
    (∀ p ∈ ps.under token, P p.2) ↔ ∀ p ∈ ps, P p.2 := by
  rw [Positions.under, List.forall_mem_map]

/-- Operands fit each with a property if they fit, and all that are expressions have it. -/
lemma fitEach_within {index : Nat} {rules : List Operand} {values : List Json} :
    FitEach (D.within P) rules values ↔
      FitEach D rules values ∧ ∀ p ∈ operandPositions index rules values, P p.2 := by
  induction values generalizing index rules with
  | nil => cases rules with
    | nil => simp [FitEach, operandPositions]
    | cons rule rules => cases rule <;> simp [FitEach, operandPositions]
  | cons value values ih =>
    cases rules with
    | nil => simp [FitEach, operandPositions]
    | cons rule rules =>
      cases rule with
      | expression expect =>
        simp only [FitEach, Operand.Fits, Judgement.within, operandPositions, List.forall_mem_cons,
          @ih (index + 1)]
        tauto
      | format kind =>
        simp only [FitEach, Operand.Fits, operandPositions, @ih (index + 1)]
        tauto
      | binding =>
        simp only [FitEach, Operand.Fits, operandPositions, @ih (index + 1)]
        tauto

/-- Every value that has to be an expression is a position. -/
lemma forall_mem_operandPositions_replicate {index : Nat} {expect : Expectation}
    {values : List Json} :
    (∀ p ∈ operandPositions index (List.replicate values.length (.expression expect)) values,
      P p.2) ↔ ∀ value ∈ values, P value := by
  induction values generalizing index with
  | nil => simp [operandPositions]
  | cons value values ih =>
    simp only [List.length_cons, List.replicate_succ, operandPositions, List.forall_mem_cons, ih]

/-- Values fit as operands as such, and the expressions among them have a property. -/
lemma fit_within {operands : Operands} {values : List Json} :
    operands.Fit (D.within P) values ↔ operands.Fit D values ∧
      ∀ p ∈ operandPositions 0 (operands.layout values.length) values, P p.2 := by
  cases operands with
  | ordered =>
    -- whichever family is compared in, both operands are positions
    simp only [Operands.Fit, Operands.layout, forall_mem_operandPositions_replicate,
      Judgement.within]
    constructor
    · rintro ⟨f, hf, h⟩
      exact ⟨⟨f, hf, fun value mem => (h value mem).1⟩, fun value mem => (h value mem).2⟩
    · rintro ⟨⟨f, hf, h⟩, hP⟩
      exact ⟨f, hf, fun value mem => ⟨h value mem, hP value mem⟩⟩
  | uniform _ | positional _ | byCount _ | unary => exact fitEach_within

/-- An argument array fits with a property if it fits, and all its positions have it. -/
lemma arrayFits_within {arity : Arity} {operands : Operands} {value : Json} :
    ArrayFits (D.within P) arity operands value ↔
      ArrayFits D arity operands value ∧ ∀ p ∈ arrayPositions arity operands value, P p.2 := by
  cases value with
  | array values =>
    simp only [ArrayFits, arrayPositions, fit_within]
    split_ifs with accepts
    · tauto
    · tauto
  | _ => simp [ArrayFits, arrayPositions]

/-- A single operand fits with a property if it fits and has it. -/
lemma unaryFits_within {value : Json} :
    UnaryFits (D.within P) value ↔
      UnaryFits D value ∧ ∀ p ∈ unaryPositions value, P p.2 := by
  unfold UnaryFits unaryPositions
  split <;> simp [Judgement.within]

/-- The operands of an operator fit with a property if they fit, and all its positions have it. -/
lemma operator_fits_within {operator : Operator} {value : Json} :
    operator.Fits (D.within P) value ↔
      operator.Fits D value ∧ ∀ p ∈ operatorPositions operator value, P p.2 := by
  unfold Operator.Fits operatorPositions
  cases operator.operands with
  | unary => exact unaryFits_within
  | uniform _ | positional _ | byCount _ | ordered => exact arrayFits_within

/-- A method is called on a receiver with arguments as such, and its expressions have a property. -/
lemma method_fits_within {m : Method} {receiver : Json} {rest : List Json} :
    m.receiver.Fits (D.within P) receiver ∧ m.ArgumentsFit (D.within P) rest ↔
      (m.receiver.Fits D receiver ∧ m.ArgumentsFit D rest) ∧
        ∀ p ∈ invocationPositions m receiver rest, P p.2 := by
  have onReceiver : m.receiver.Fits (D.within P) receiver ↔
      m.receiver.Fits D receiver ∧ ∀ p ∈ receiverPositions m receiver, P p.2 := by
    unfold receiverPositions
    split <;> simp [*, Receiver.Fits, Judgement.within]
  unfold Method.ArgumentsFit invocationPositions
  rw [onReceiver]
  cases m.arguments with
  | none => cases rest with
    | nil => simp only []; tauto
    | cons argument rest => simp
  | some rules => cases rest with
    | nil => simp
    | cons argument rest => cases rest with
      | nil =>
        simp only [arrayFits_within, List.forall_mem_append, forall_mem_under]
        tauto
      | cons other rest => simp

/-- No operator is written with the key of a look-up, a loop item or a method. -/
lemma operator_key {key : String} {operator : Operator}
    (found : Operator.ofName? key = some operator) :
    key ≠ "var" ∧ key ≠ "current" ∧ key ≠ "method" := by
  refine ⟨?_, ?_, ?_⟩ <;> rintro rfl <;> exact nomatch found

/-- Methods of one name take the same arguments, and either all are called on a variable that is
looked up in place or none is. -/
lemma named_uniform {name : String} {m n : Method} (hm : m ∈ Method.named name)
    (hn : n ∈ Method.named name) :
    m.arguments = n.arguments ∧ (m.receiver = .lookup ↔ n.receiver = .lookup) := by
  have table : ∀ m ∈ Method.table, ∀ n ∈ Method.table, m.name = n.name →
      m.arguments = n.arguments ∧ (m.receiver = .lookup ↔ n.receiver = .lookup) := by decide
  obtain ⟨hm, mname⟩ := List.mem_filter.mp hm
  obtain ⟨hn, nname⟩ := List.mem_filter.mp hn
  simp only [beq_iff_eq] at mname nname
  exact table m hm n hn (mname.trans nname.symm)

/-- The positions of a method call are those of each method of the name. -/
lemma methodPositions_named {name : String} {m : Method} {receiver : Json} {rest : List Json}
    (named : m ∈ Method.named name) :
    methodPositions (.array (receiver :: .string name :: rest)) =
      invocationPositions m receiver rest := by
  cases hnamed : Method.named name with
  | nil => simp [hnamed] at named
  | cons first others =>
    -- the positions are those of the first method of the name
    obtain ⟨arguments, kind⟩ := named_uniform (n := first) named (hnamed ▸ List.mem_cons_self)
    have onReceiver : receiverPositions first receiver = receiverPositions m receiver := by
      unfold receiverPositions
      cases hm : m.receiver <;> cases hf : first.receiver <;> simp_all
    simp only [methodPositions, hnamed, invocationPositions, arguments, onReceiver]

/-- What stands behind a key takes a step with a property if it takes one, and all its positions
have it. -/
lemma callStep_within {f : Family} {key : String} {value : Json} :
    CallStep (D.within P) f key value ↔
      CallStep D f key value ∧ ∀ p ∈ callPositions key value, P p.2 := by
  unfold CallStep callPositions
  split_ifs with hvar hcurrent hmethod
  · simp
  · simp
  · constructor
    · rintro ⟨receiver, name, rest, rfl, m, named, yields, fits⟩
      obtain ⟨⟨takes, fit⟩, hP⟩ := method_fits_within.mp fits
      rw [methodPositions_named named]
      exact ⟨⟨receiver, name, rest, rfl, m, named, yields, takes, fit⟩, hP⟩
    · rintro ⟨⟨receiver, name, rest, rfl, m, named, yields, takes, fit⟩, hP⟩
      rw [methodPositions_named named] at hP
      exact ⟨receiver, name, rest, rfl, m, named, yields,
        method_fits_within.mpr ⟨⟨takes, fit⟩, hP⟩⟩
  · constructor
    · rintro ⟨operator, found, yields, fits⟩
      obtain ⟨fits, hP⟩ := operator_fits_within.mp fits
      simp only [found]
      exact ⟨⟨operator, rfl, yields, fits⟩, hP⟩
    · rintro ⟨⟨operator, found, yields, fits⟩, hP⟩
      simp only [found] at hP
      exact ⟨operator, found, yields, operator_fits_within.mpr ⟨fits, hP⟩⟩

/-- A step is made with operands that have a property exactly if it is made and the operands at all
positions have the property. -/
lemma step_within {f : Family} {e : Json} :
    Step (D.within P) f e ↔ Step D f e ∧ ∀ p ∈ positions e, P p.2 := by
  unfold Step positions
  split
  case h_5 =>
    rw [forall_mem_under]
    exact callStep_within
  all_goals simp

end Typing

end DialogueLint
