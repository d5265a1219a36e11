import DialogueLint.Dialogue.Card
import DialogueLint.Proofs.Json.Member
import DialogueLint.Proofs.Reading.Steps

/-!
# Accounts of closed objects

What reading a closed object reports, step by step: each step of the plan accounts for what it finds
(`Step.report`), whatever was found before it, and the keys that no step declares come last, in
their order. That a step calls its reader once is told from a note which the reader makes whenever
it is called (`Reader.noting`).

The account is proved from the steps of the plan (`Fields.Takes`) by induction on how the plan is
put together, and no state of the reader is looked at: a step sees the members only. So it makes no
difference which steps came before, or whether one of them has failed. The count of notes is
compared between the plan and the same plan with one reader replaced, which shows that this reader
is called once if its field is there and not at all otherwise.
-/

namespace DialogueLint

/-- The reader, which makes a note whenever it is called. -/
def Reader.noting {α : Type} (note : Diagnostic) (reader : Reader α) : Reader α := fun path v =>
  ⟨(reader path v).result?, note :: (reader path v).diagnostics⟩

/-! ## Steps -/

namespace Step

/-- What a step reports of the object at a place. -/
def report (path : Pointer) (members : Members Json) : Step → List Diagnostic
  | required name reader =>
    match members.get? name with
    | some v => (reader (path.push name) v).diagnostics
    | none => [⟨path, .missingRequiredField name⟩]
  | optional name reader =>
    match members.get? name with
    | some v => (reader (path.push name) v).diagnostics
    | none => []
  | anyOf union names =>
    if ∃ name ∈ names, name ∈ members.keys then []
    else [⟨path, .variantNotMatched union
      ("at least one of " ++ ", ".intercalate names ++ " is required")⟩]

/-- The step with a reader that makes a note whenever it is called. -/
def noting (note : Diagnostic) : Step → Step
  | required name reader => required name (reader.noting note)
  | optional name reader => optional name (reader.noting note)
  | anyOf union names => anyOf union names

/-- How often a step has to call its reader: once if the field is there. -/
def calls (members : Members Json) : Step → Nat
  | required name _ => if name ∈ members.keys then 1 else 0
  | optional name _ => if name ∈ members.keys then 1 else 0
  | anyOf _ _ => 0

variable {path : Pointer} {members : Members Json}

/-- A step with notes declares what it declared before. -/
lemma noting_declared (note : Diagnostic) (step : Step) :
    (step.noting note).declared = step.declared := by
  cases step <;> rfl

/-- A step notes each call. -/
lemma noting_report (note : Diagnostic) (step : Step) :
    ((step.noting note).report path members).count note =
      (step.report path members).count note + step.calls members := by
  cases step with
  | required name reader | optional name reader =>
    simp only [noting, report, calls, ← Members.get?_isSome]
    cases members.get? name with
    | none => rfl
    | some v => exact List.count_cons_self
  | anyOf union names => rfl

/-- A plan that takes a single step. -/
def plan : Step → Fields Unit
  | required name reader => (fun _ => ()) <$> Fields.required name reader
  | optional name reader => (fun _ => ()) <$> Fields.optional name reader
  | anyOf union names => Fields.anyOf union names

/-- The plan of a single step takes just this step. -/
lemma plan_takes (step : Step) : step.plan.Takes [step] := by
  cases step with
  | required => exact .map .required
  | optional => exact .map .optional
  | anyOf => exact .anyOf

end Step

/-! ## Plans -/

namespace Fields

/-- A plan that takes steps in turn. -/
def inTurn : List Step → Fields Unit
  | [] => pure ()
  | step :: steps => step.plan *> inTurn steps

/-- Any steps are the steps of a plan. -/
lemma inTurn_takes (steps : List Step) : (inTurn steps).Takes steps := by
  induction steps with
  | nil => exact .pure
  | cons step steps ih => exact step.plan_takes.seqRight ih

variable {α : Type} {plan : Fields α} {steps : List Step} {path : Pointer}
  {members : Members Json}

/-- A plan reports what its steps report, one after the other. -/
lemma Takes.diagnostics (h : plan.Takes steps) :
    (plan.read path members).diagnostics = steps.flatMap (Step.report path members) := by
  induction h with
  | pure => rfl
  | map _ ih => exact ih
  | seq _ _ ihf ih =>
    rw [List.flatMap_append, ← ihf, ← ih]
    rfl
  | @required _ name reader | @optional _ name reader =>
    rw [List.flatMap_singleton]
    simp only [Fields.required, Fields.optional, Step.report]
    cases members.get? name <;> rfl
  | @anyOf union names =>
    have shown : (names.any fun name => (members.get? name).isSome) = true ↔
        ∃ name ∈ names, name ∈ members.keys := by
      simp only [List.any_eq_true, Members.get?_isSome]
    rw [List.flatMap_singleton]
    simp only [Fields.anyOf, Step.report, shown]
    split_ifs <;> rfl

/-- The stray members of an object are those that no step declares. -/
lemma Takes.mem_stray (h : plan.Takes steps) {more : List String} {m : String × Json} :
    m ∈ members.filter (fun m => !(more ++ plan.declared).contains m.1) ↔
      m ∈ members ∧ m.1 ∉ more ∧ ∀ step ∈ steps, m.1 ∉ step.declared := by
  rw [h.declared]
  simp

/-- A closed object reports what the steps report, and after it each stray member. -/
lemma Takes.close_diagnostics (h : plan.Takes steps) (more : List String) :
    (plan.close more path members).diagnostics =
      steps.flatMap (Step.report path members) ++
        undeclared (more ++ plan.declared) path members :=
  congrArg (· ++ _) h.diagnostics

/-- A plan with notes in one of its readers notes each call. -/
lemma Takes.noting {before after : List Step} {step : Step} {noted : Fields α} (note : Diagnostic)
    (h : plan.Takes (before ++ step :: after))
    (hn : noted.Takes (before ++ step.noting note :: after)) (more : List String) :
    (noted.close more path members).diagnostics.count note =
      (plan.close more path members).diagnostics.count note + step.calls members := by
  have declared : noted.declared = plan.declared := by
    rw [h.declared, hn.declared]
    simp only [List.flatMap_append, List.flatMap_cons, Step.noting_declared]
  rw [h.close_diagnostics, hn.close_diagnostics, declared]
  simp only [List.flatMap_append, List.flatMap_cons, List.count_append, Step.noting_report]
  omega

end Fields

/-- A plan of any steps gives an account of a closed object. For any steps there is a plan, and
every plan that takes them reports in turn what each step reports by itself, and then each stray
member as an unknown field, in the order of the keys. It has no result exactly if one of the steps
fails. A step whose field is there calls its reader once, whatever happened before: if the reader
makes a note of each call, there is one note more. -/
theorem close_accounts (steps : List Step) :
    (∃ plan : Fields Unit, plan.Takes steps) ∧
    ∀ (α : Type) (plan : Fields α), plan.Takes steps →
    ∀ (more : List String) (path : Pointer) (members : Members Json), members.Ordered →
      (∃ stray : Members Json, stray.Ordered ∧
        (∀ m, m ∈ stray ↔ m ∈ members ∧ m.1 ∉ more ∧ ∀ step ∈ steps, m.1 ∉ step.declared) ∧
        (plan.close more path members).diagnostics =
          steps.flatMap (Step.report path members) ++
            stray.map fun m => ⟨path.push m.1, .unknownField m.1 m.2.describe⟩) ∧
      ((plan.close more path members).result? = none ↔
        ∃ step ∈ steps, step.Fails path members) ∧
      ∀ (note : Diagnostic) (before after : List Step) (step : Step),
        steps = before ++ step :: after →
        ∀ noted : Fields α, noted.Takes (before ++ step.noting note :: after) →
          (noted.close more path members).diagnostics.count note =
            (plan.close more path members).diagnostics.count note + step.calls members := by
  refine ⟨⟨Fields.inTurn steps, Fields.inTurn_takes steps⟩, ?_⟩
  intro α plan takes more path members ordered
  refine ⟨⟨members.filter fun m => !(more ++ plan.declared).contains m.1, ?_, ?_, ?_⟩, ?_, ?_⟩
  · exact ordered.sublist List.filter_sublist
  · exact fun m => takes.mem_stray
  · exact takes.close_diagnostics more
  · exact takes.result_eq_none
  · rintro note before after step rfl noted takesNoted
    exact takes.noting note takesNoted more

/-- Button options without a name for their list, and with a key that they should not have. -/
theorem buttonOptions_accounts :
    Members.Ordered [("color", Json.null), ("output", .null)] ∧
      (ButtonOptions.read .root (.object [("color", .null), ("output", .null)])).result? = none ∧
      ∃ stray : Members Json, (∀ m, m ∈ stray ↔ m = ("color", .null)) ∧
        (ButtonOptions.read .root (.object [("color", .null), ("output", .null)])).diagnostics =
          [⟨.root, .missingRequiredField "listName"⟩,
              ⟨⟨["output"]⟩, .invalidType "a string" "null"⟩] ++
            stray.map fun m => ⟨Pointer.root.push m.1, .unknownField m.1 m.2.describe⟩ := by
  have ordered : Members.Ordered [("color", Json.null), ("output", .null)] :=
    List.pairwise_pair.mpr (by decide)
  obtain ⟨⟨stray, -, mem, diagnostics⟩, fails, -⟩ := (close_accounts
    [.required "listName" .string, .optional "displayName" .string,
      .required "output" .string]).2 ButtonOptions _
    (.seq (.seq (.map .required) .optional) .required) [] .root _ ordered
  refine ⟨ordered, ?_, stray, ?_, diagnostics⟩
  · exact fails.mpr ⟨_, List.mem_cons_self, nofun⟩
  · intro m
    rw [mem]
    constructor
    · rintro ⟨member, -, undeclared⟩
      rcases List.mem_cons.mp member with first | member
      · exact first
      · have output : m = ("output", .null) := List.mem_singleton.mp member
        have absent := undeclared (.required "output" .string) (by simp)
        simp [output, Step.declared] at absent
    · rintro rfl
      simp [Step.declared]

end DialogueLint
