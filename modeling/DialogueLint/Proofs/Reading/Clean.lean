import DialogueLint.Proofs.Reading.Closure

/-!
# Reading without a report

What it takes for an outcome to have a result and nothing to report: the same of all parts of which
it is put together. Where a reader accepts a form, a value about which nothing is reported has a
result.

To have a result without a report is to be `Outcome.ok`, so the lemmas are equivalences about when
an outcome is `ok`, one for each way of putting outcomes together. For plans they are stated with a
property of the result (`Fields.Reads`), so that what is known of one field can be handed on to the
next.
-/

namespace DialogueLint

namespace Outcome

variable {α β γ : Type} {o : Outcome α} {p : Outcome β}

/-- An outcome is without a report if it has its result and no diagnostics. -/
lemma eq_ok_iff {a : α} : o = ok a ↔ o.result? = some a ∧ o.diagnostics = [] := by
  cases o
  simp [ok]

/-- What is made of a result is without a report if the result is. -/
lemma map_eq_ok {f : α → β} {b : β} : o.map f = ok b ↔ ∃ a, o = ok a ∧ f a = b := by
  simp only [eq_ok_iff, Outcome.map, Option.map_eq_some_iff]
  constructor
  · rintro ⟨⟨a, result, same⟩, clean⟩
    exact ⟨a, ⟨result, clean⟩, same⟩
  · rintro ⟨a, ⟨result, clean⟩, same⟩
    exact ⟨⟨a, result, same⟩, clean⟩

/-- Two outcomes together are without a report if each of them is. -/
lemma zipWith_eq_ok {f : α → β → γ} {c : γ} :
    zipWith f o p = ok c ↔ ∃ a b, o = ok a ∧ p = ok b ∧ f a b = c := by
  simp only [eq_ok_iff, Outcome.zipWith, List.append_eq_nil_iff]
  cases o.result? <;> cases p.result? <;> simp [and_comm, and_left_comm, and_assoc]

/-- Only if no diagnostics are added does an outcome stay without a report. -/
lemma adding_eq_ok {more : List Diagnostic} {a : α} :
    o.adding more = ok a ↔ o = ok a ∧ more = [] := by
  simp only [eq_ok_iff, Outcome.adding, List.append_eq_nil_iff, and_assoc]

/-- A failure is a report. -/
lemma fail_ne_ok {path : Pointer} {problem : Problem} {a : α} : fail path problem ≠ ok a := by
  simp [fail, ok]

/-- All outcomes together are without a report if each is. -/
lemma all_eq_ok {outcomes : List (Outcome α)} {as : List α} :
    all outcomes = ok as ↔ outcomes = as.map ok := by
  induction outcomes generalizing as with
  | nil => cases as <;> simp [all, ok]
  | cons o rest ih =>
    rw [all, zipWith_eq_ok]
    cases as with
    | nil => simp
    | cons a as => simp [ih]

/-- What is settled without a report has a result. -/
lemma Settles.eq_ok {path : Pointer} {v : Json} {P : Prop} (h : o.Settles path v P)
    (clean : o.diagnostics = []) : ∃ a, o = ok a := by
  obtain ⟨a, result⟩ := h.result (h.clean.mp clean)
  exact ⟨a, eq_ok_iff.mpr ⟨result, clean⟩⟩

end Outcome

/-! ## Plans -/

namespace Fields

variable {α β : Type} {path : Pointer} {members : Members Json} {plan : Fields α}

/-- Reading members reports nothing and has a result with a property. -/
def Reads (plan : Fields α) (path : Pointer) (members : Members Json) (P : α → Prop) : Prop :=
  ∃ a, plan.read path members = .ok a ∧ P a

/-- A plan that reads members without a report has the result that it reads. -/
lemma reads_of_ok {a : α} (h : plan.read path members = .ok a) :
    plan.Reads path members (· = a) :=
  ⟨a, h, rfl⟩

/-- What a plan makes of its result has a property if the result has it through the function. -/
lemma reads_map {f : α → β} {P : β → Prop} :
    (f <$> plan).Reads path members P ↔ plan.Reads path members fun a => P (f a) := by
  have read : (f <$> plan).read path members = (plan.read path members).map f := rfl
  simp only [Reads, read, Outcome.map_eq_ok]
  constructor
  · intro ⟨_, ⟨a, h, same⟩, hP⟩
    exact ⟨a, h, same ▸ hP⟩
  · intro ⟨a, h, hP⟩
    exact ⟨_, ⟨a, h, rfl⟩, hP⟩

/-- Two plans read one behind the other as the second does with what the first one gives. -/
lemma reads_seq {first : Fields (α → β)} {P : β → Prop} :
    (first <*> plan).Reads path members P ↔
      first.Reads path members fun f => plan.Reads path members fun a => P (f a) := by
  have read : (first <*> plan).read path members =
      .zipWith (fun f a => f a) (first.read path members) (plan.read path members) := rfl
  simp only [Reads, read, Outcome.zipWith_eq_ok]
  constructor
  · intro ⟨_, ⟨f, a, hf, ha, same⟩, hP⟩
    exact ⟨f, hf, a, ha, same ▸ hP⟩
  · intro ⟨f, hf, a, ha, hP⟩
    exact ⟨_, ⟨f, a, hf, ha, rfl⟩, hP⟩

/-- An attempt at a plan that reads without a report has the result of the plan. -/
lemma attempt_of_ok {a : α} (h : plan.read path members = .ok a) :
    plan.attempt.read path members = .ok (some a) := by
  simp [attempt, h, Outcome.ok]

/-- A closed object is read without a report if its plan is, and if it has no other keys. -/
lemma close_eq_ok {more : List String} {a : α} :
    plan.close more path members = .ok a ↔
      plan.read path members = .ok a ∧
        ∀ key ∈ Members.keys members, key ∈ more ++ plan.declared := by
  rw [close, Outcome.adding_eq_ok, undeclared_eq_nil]

/-- Only an object with no keys but those of the plan is read without a report. -/
lemma object_eq_ok {expected : String} {v : Json} {a : α} :
    object expected plan path v = .ok a ↔
      ∃ members, v = .object members ∧ plan.read path members = .ok a ∧
        ∀ key ∈ Members.keys members, key ∈ plan.declared := by
  cases v with
  | object members => simp [object, close_eq_ok]
  | _ => simp [object, Reader.wrongType, Outcome.fail_ne_ok]

end Fields

end DialogueLint
