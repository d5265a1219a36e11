import DialogueLint.Reading.Fields
import Mathlib.Data.List.Forall2
import Mathlib.Tactic.Common

/-!
# Results of reading

Where the result of a reader comes from: what a plan gives is put together from what its fields
give, in turn, and what a reader gives determines the value that was read.

The lemmas are about `Outcome.result?` alone, whatever was reported, and are used where a part was
read although it has problems: such a part still makes demands. A plan is described by a property of
what it yields (`Fields.Yields`), which goes through it field by field, so that for an object with
many fields one rewriting takes the whole plan apart.
-/

namespace DialogueLint

namespace Fields

variable {α β : Type} {path : Pointer} {members : Members Json}

/-- Reading members has a result with a property. -/
def Yields (plan : Fields α) (path : Pointer) (members : Members Json) (P : α → Prop) : Prop :=
  ∃ a, (plan.read path members).result? = some a ∧ P a

/-- A plan with a result yields it. -/
lemma yields_of_result {plan : Fields α} {a : α} (h : (plan.read path members).result? = some a) :
    plan.Yields path members (· = a) :=
  ⟨a, h, rfl⟩

/-- A plan yields through a function what the function makes of what it yields. -/
lemma yields_map {plan : Fields α} {f : α → β} {P : β → Prop} :
    (f <$> plan).Yields path members P ↔ plan.Yields path members fun a => P (f a) := by
  have read : ((f <$> plan).read path members).result? =
      (plan.read path members).result?.map f := rfl
  simp only [Yields, read, Option.map_eq_some_iff]
  constructor
  · rintro ⟨_, ⟨a, h, rfl⟩, hP⟩
    exact ⟨a, h, hP⟩
  · rintro ⟨a, h, hP⟩
    exact ⟨_, ⟨a, h, rfl⟩, hP⟩

/-- Two plans yield what the first makes of what the second yields. -/
lemma yields_seq {first : Fields (α → β)} {plan : Fields α} {P : β → Prop} :
    (first <*> plan).Yields path members P ↔
      first.Yields path members fun f => plan.Yields path members fun a => P (f a) := by
  have read : (first <*> plan).read path members =
      .zipWith (fun f a => f a) (first.read path members) (plan.read path members) := rfl
  simp only [Yields, read, Outcome.zipWith]
  cases (first.read path members).result? <;> cases (plan.read path members).result? <;> simp

/-- A plan that is read for what it reports only has to yield something. -/
lemma yields_seqRight {first : Fields α} {plan : Fields β} {P : β → Prop} :
    (first *> plan).Yields path members P ↔
      first.Yields path members fun _ => plan.Yields path members P := by
  have read : (first *> plan).read path members =
      (Function.const α id <$> first <*> plan).read path members := rfl
  have parts : (Function.const α id <$> first <*> plan).Yields path members P ↔ _ := yields_seq
  rw [yields_map] at parts
  exact (iff_of_eq (by rw [Yields, read]; rfl)).trans parts

/-- A field that has to be there is read from the value at its key. -/
lemma required_result {name : String} {reader : Reader α} {a : α} :
    ((required name reader).read path members).result? = some a ↔
      ∃ v, Members.get? members name = some v ∧ (reader (path.push name) v).result? = some a := by
  simp only [required]
  cases Members.get? members name <;> simp [Outcome.fail]

/-- A field that may be absent is read from the value at its key, if there is one. -/
lemma optional_result {name : String} {reader : Reader α} {a? : Option α} :
    ((optional name reader).read path members).result? = some a? ↔
      (Members.get? members name = none ∧ a? = none) ∨
        ∃ v a, Members.get? members name = some v ∧
          (reader (path.push name) v).result? = some a ∧ a? = some a := by
  simp only [optional]
  cases Members.get? members name with
  | none => simp [Outcome.ok, eq_comm]
  | some v =>
    simp only [Outcome.map, Option.map_eq_some_iff, reduceCtorEq, false_and, false_or,
      Option.some.injEq]
    constructor
    · rintro ⟨a, h, rfl⟩
      exact ⟨v, a, rfl, h, rfl⟩
    · rintro ⟨_, a, rfl, h, rfl⟩
      exact ⟨a, h, rfl⟩

/-- A closed object gives what its plan gives. -/
lemma object_result {plan : Fields α} {expected : String} {v : Json} {a : α} :
    (object expected plan path v).result? = some a ↔
      ∃ members, v = .object members ∧ (plan.read path members).result? = some a := by
  cases v <;> simp [object, Reader.wrongType, Outcome.fail, close, Outcome.adding]

end Fields

namespace Reader

variable {α : Type} {path : Pointer} {v : Json}

/-- A string is what was read as one. -/
lemma string_result {s : String} : (string path v).result? = some s ↔ v = .string s := by
  cases v <;> simp [string, Outcome.ok, wrongType, Outcome.fail]

/-- The results of outcomes together are the results of each. -/
lemma all_result {outcomes : List (Outcome α)} {as : List α} :
    (Outcome.all outcomes).result? = some as ↔
      List.Forall₂ (fun o a => o.result? = some a) outcomes as := by
  induction outcomes generalizing as with
  | nil => cases as <;> simp [Outcome.all, Outcome.ok]
  | cons o rest ih =>
    cases as with
    | nil =>
      simp only [Outcome.all, Outcome.zipWith, List.forall₂_nil_right_iff, reduceCtorEq, iff_false]
      split <;> simp
    | cons a as =>
      rw [List.forall₂_cons, ← ih]
      simp only [Outcome.all, Outcome.zipWith]
      cases o.result? <;> cases (Outcome.all rest).result? <;> simp

/-- A map gives what its members give, under the same keys and in the same order. -/
lemma mapOf_result {expected : String} {member : String → Reader α} {as : Members α} :
    (mapOf expected member path v).result? = some as ↔
      ∃ members, v = .object members ∧
        List.Forall₂ (fun m a => m.1 = a.1 ∧
          (member m.1 (path.push m.1) m.2).result? = some a.2) members as := by
  cases v with
  | object members =>
    simp only [mapOf, all_result, List.forall₂_map_left_iff, Outcome.map, Option.map_eq_some_iff,
      Json.object.injEq, exists_eq_left']
    have each : ∀ (m : String × Json) (a : String × α),
        (∃ x, (member m.1 (path.push m.1) m.2).result? = some x ∧ (m.1, x) = a) ↔
          m.1 = a.1 ∧ (member m.1 (path.push m.1) m.2).result? = some a.2 := by
      rintro m ⟨name, x⟩
      simp [and_comm]
    simp only [each]
  | _ => simp [mapOf, wrongType, Outcome.fail]

end Reader

/-- An object of a known type is read by the plan for the type. -/
lemma Variants.read_result {α : Type} {variants : Variants α} {path : Pointer} {v : Json} {a : α} :
    (variants.read path v).result? = some a ↔
      ∃ members type plan, v = .object members ∧
        Members.get? members "type" = some (.string type) ∧
          variants.plans.lookup type = some plan ∧ (plan.read path members).result? = some a := by
  cases v with
  | object members =>
    simp only [read, Json.object.injEq]
    cases htype : Members.get? members "type" with
    | none => simp [htype, Outcome.fail]
    | some t =>
      cases t with
      | string type =>
        simp only [readFields]
        cases found : variants.plans.lookup type with
        | none => simp [htype, found, Outcome.fail]
        | some plan => simp [htype, found, Fields.close, Outcome.adding]
      | _ => simp [htype, Reader.wrongType, Outcome.fail]
  | _ => simp [read, Reader.wrongType, Outcome.fail]

end DialogueLint
