import DialogueLint.Reading.Fields
import Mathlib.Tactic.Common

/-!
# Steps of plans

What a plan does in turn: it reads a field that has to be there, reads a field that may be absent,
or demands that one of several fields is there. A plan is put together from its steps
(`Fields.Takes`) in such a way that no step depends on what another one gives. So what the plan
reads depends only on the keys for which its steps look (`Fields.Takes.depends`), and it has a
result exactly if none of them fails (`Fields.Takes.result_eq_none`).

A step is known by the keys for which it looks, the keys that it declares, and the reader that it
calls. The relation `Fields.Takes` ties a plan, which is a function, to a list of steps, which is
data: it follows the combinators, so that for a given plan the steps can be read off its definition.
What is then shown of all plans is shown by induction on the relation.
-/

namespace DialogueLint

/-- Whether a reader has a result can be told from what it reports: it has none if it reports more
than unknown fields, and has one if all it reports, which may be nothing, is unknown fields. -/
structure Reader.Definite {α : Type} (reader : Reader α) : Prop where
  fails : ∀ path v, (reader path v).result? = none ↔
    ∃ d ∈ (reader path v).diagnostics, d.kind ≠ .unknownField
  succeeds : ∀ path v, (∃ a, (reader path v).result? = some a) ↔
    ∀ d ∈ (reader path v).diagnostics, d.kind = .unknownField

/-- It is enough to tell when a reader has no result. -/
lemma Reader.definite_of_fails {α : Type} {reader : Reader α}
    (fails : ∀ path v, (reader path v).result? = none ↔
      ∃ d ∈ (reader path v).diagnostics, d.kind ≠ .unknownField) : reader.Definite where
  fails := fails
  succeeds path v := by
    rw [← Option.isSome_iff_exists, Option.isSome_iff_ne_none, ne_eq, fails]
    simp

/-! ## Steps -/

/-- What a plan does at once. -/
inductive Step : Type 1 where
  /-- Reads a field that has to be there. -/
  | required {α : Type} (name : String) (reader : Reader α)
  /-- Reads a field that may be absent. -/
  | optional {α : Type} (name : String) (reader : Reader α)
  /-- Demands that at least one of several fields is there. -/
  | anyOf (union : String) (names : List String)

namespace Step

/-- The keys for which a step looks. -/
def keys : Step → List String
  | required name _ => [name]
  | optional name _ => [name]
  | anyOf _ names => names

/-- The keys that a step declares. -/
def declared : Step → List String
  | required name _ => [name]
  | optional name _ => [name]
  | anyOf _ _ => []

/-- A field is missing or cannot be read, or none of several fields is there. -/
def Fails (path : Pointer) (members : Members Json) : Step → Prop
  | required name reader =>
    ∀ v, members.get? name = some v → (reader (path.push name) v).result? = none
  | optional name reader =>
    ∃ v, members.get? name = some v ∧ (reader (path.push name) v).result? = none
  | anyOf _ names => ∀ name ∈ names, members.get? name = none

/-- The reader that a step calls, if it calls one, is definite. -/
def Definite : Step → Prop
  | required _ reader => reader.Definite
  | optional _ reader => reader.Definite
  | anyOf _ _ => True

/-- A step that calls a definite reader. -/
inductive ReadsField : Step → Prop where
  | required {α : Type} {name : String} {reader : Reader α} :
    reader.Definite →
    ReadsField (required name reader)
  | optional {α : Type} {name : String} {reader : Reader α} :
    reader.Definite →
    ReadsField (optional name reader)

variable {step : Step}

/-- A step that reads a field definitely is definite. -/
lemma ReadsField.definite (h : step.ReadsField) : step.Definite := by
  cases h with
  | required definite => exact definite
  | optional definite => exact definite

/-- A step that reads a field looks for the key that it declares. -/
lemma ReadsField.keys_eq (h : step.ReadsField) : step.keys = step.declared := by
  cases h <;> rfl

end Step

/-! ## Plans -/

namespace Fields

/-- What a plan reads depends on nothing but what some keys find. -/
def DependsOn {α : Type} (plan : Fields α) (names : List String) : Prop :=
  ∀ path (members others : Members Json),
    (∀ name ∈ names, others.get? name = members.get? name) →
      plan.read path others = plan.read path members

section DependsOn

variable {α β : Type} {plan : Fields α} {names more : List String} {name : String}
  {reader : Reader α}

/-- A required field depends on what its key finds. -/
lemma required_depends : (required name reader).DependsOn [name] := by
  intro path members others same
  have found := same name (List.mem_singleton_self name)
  simp only [required, found]

/-- An optional field depends on what its key finds. -/
lemma optional_depends : (optional name reader).DependsOn [name] := by
  intro path members others same
  have found := same name (List.mem_singleton_self name)
  simp only [optional, found]

/-- That one of several fields is there depends on what their keys find. -/
lemma anyOf_depends {union : String} : (anyOf union names).DependsOn names := by
  intro path members others same
  have shown : (names.any fun name => (others.get? name).isSome) =
      names.any fun name => (members.get? name).isSome := by
    rw [Bool.eq_iff_iff, List.any_eq_true, List.any_eq_true]
    exact exists_congr fun name => and_congr_right fun mem => by rw [same name mem]
  simp only [anyOf, shown]

/-- What is made of a result depends on nothing else than the result. -/
lemma DependsOn.map (h : plan.DependsOn names) {f : α → β} : (f <$> plan).DependsOn names := by
  intro path members others same
  exact congrArg (Outcome.map f) (h path members others same)

/-- Plans one behind the other depend on what both look for. -/
lemma DependsOn.seq {first : Fields (α → β)} (hf : first.DependsOn names)
    (h : plan.DependsOn more) : (first <*> plan).DependsOn (names ++ more) := by
  intro path members others same
  obtain ⟨sameFirst, sameMore⟩ := List.forall_mem_append.mp same
  exact congrArg₂ (Outcome.zipWith fun f a => f a) (hf path members others sameFirst)
    (h path members others sameMore)

/-- An attempt depends on what its plan looks for. -/
lemma DependsOn.attempt (h : plan.DependsOn names) : plan.attempt.DependsOn names := by
  intro path members others same
  simp only [Fields.attempt, h path members others same]

end DependsOn

/-- A plan takes steps, one after the other. -/
inductive Takes : {α : Type} → Fields α → List Step → Prop where
  | pure {α : Type} {a : α} :
    Takes (pure a) []
  | map {α β : Type} {plan : Fields α} {f : α → β} {steps} :
    Takes plan steps →
    Takes (f <$> plan) steps
  | seq {α β : Type} {first : Fields (α → β)} {plan : Fields α} {steps more} :
    Takes first steps →
    Takes plan more →
    Takes (first <*> plan) (steps ++ more)
  | required {α : Type} {name} {reader : Reader α} :
    Takes (required name reader) [.required name reader]
  | optional {α : Type} {name} {reader : Reader α} :
    Takes (optional name reader) [.optional name reader]
  | anyOf {union names} :
    Takes (anyOf union names) [.anyOf union names]

variable {α β : Type} {plan : Fields α} {steps more : List Step} {path : Pointer}
  {members : Members Json}

/-- A plan that is read for what it reports only takes its steps in front. -/
lemma Takes.seqRight {first : Fields β} (hf : first.Takes steps) (h : plan.Takes more) :
    (first *> plan).Takes (steps ++ more) :=
  .seq (.map hf) h

/-- A plan declares what its steps declare. -/
lemma Takes.declared (h : plan.Takes steps) : plan.declared = steps.flatMap Step.declared := by
  induction h with
  | pure => rfl
  | map _ ih => exact ih
  | seq _ _ ihf ih =>
    rw [List.flatMap_append, ← ihf, ← ih]
    rfl
  | required | optional | anyOf => rfl

/-- What a plan reads depends on what its steps look for. -/
lemma Takes.depends (h : plan.Takes steps) : plan.DependsOn (steps.flatMap Step.keys) := by
  induction h with
  | pure => exact fun _ _ _ _ => rfl
  | map _ ih => exact ih.map
  | seq _ _ ihf ih =>
    rw [List.flatMap_append]
    exact ihf.seq ih
  | required => exact required_depends
  | optional => exact optional_depends
  | anyOf =>
    rw [List.flatMap_singleton]
    exact anyOf_depends

/-- A plan has no result exactly if one of its steps fails. -/
lemma Takes.result_eq_none (h : plan.Takes steps) :
    (plan.read path members).result? = none ↔ ∃ step ∈ steps, step.Fails path members := by
  induction h with
  | pure => exact iff_of_false (Option.some_ne_none _) (by simp)
  | map _ ih => exact Option.map_eq_none_iff.trans ih
  | @seq _ _ first plan _ _ _ _ ihf ih =>
    have read : (first <*> plan).read path members =
        .zipWith (fun f a => f a) (first.read path members) (plan.read path members) := rfl
    have either : ((first <*> plan).read path members).result? = none ↔
        (first.read path members).result? = none ∨ (plan.read path members).result? = none := by
      rw [read, Outcome.zipWith]
      cases (first.read path members).result? <;> cases (plan.read path members).result? <;> simp
    simp only [either, ihf, ih, List.mem_append, or_and_right, exists_or]
  | @required _ name reader =>
    simp only [List.mem_singleton, exists_eq_left, Step.Fails, Fields.required]
    cases members.get? name with
    | none => simp [Outcome.fail]
    | some v => simp
  | @optional _ name reader =>
    simp only [List.mem_singleton, exists_eq_left, Step.Fails, Fields.optional]
    cases members.get? name with
    | none => simp [Outcome.ok]
    | some v => simp [Outcome.map]
  | @anyOf union names =>
    simp only [List.mem_singleton, exists_eq_left, Step.Fails, Fields.anyOf]
    split_ifs with shown
    · simpa [Outcome.ok, ← Option.isSome_iff_ne_none, Option.isSome_iff_exists] using shown
    · simpa [Outcome.fail] using shown

/-- A closed object has a result as soon as no step has failed: what is undeclared keeps nothing
from being read. -/
lemma Takes.close_result (h : plan.Takes steps) (more : List String) :
    (∃ a, (plan.close more path members).result? = some a) ↔
      ∀ step ∈ steps, ¬ step.Fails path members := by
  have result : (plan.close more path members).result? = (plan.read path members).result? := rfl
  rw [result, ← Option.isSome_iff_exists, Option.isSome_iff_ne_none, ne_eq, h.result_eq_none]
  simp

end Fields

end DialogueLint
