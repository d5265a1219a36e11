import DialogueLint.Proofs.Dialogue.Restoration

/-!
# Empty outputs

An action or a download with an empty object of outputs is read like one without, and this is all of
a node that its canonical form does not restore (`Node.read_withoutEmptyOutputs`).

The two documents that are compared differ in one member alone. So a plan reads the same from both
if it reads the same for the one field `outputs` (`Agrees`), and the combinators of plans keep that.
For the field itself it is seen that an object without parts and a field that is absent give the
same.
-/

namespace DialogueLint

/-- Whether a member is an empty object of outputs. -/
def isEmptyOutputs : String × Json → Bool
  | (name, .object []) => name == "outputs"
  | _ => false

/-- The members without an empty object of outputs. -/
def Members.withoutEmptyOutputs (members : Members Json) : Members Json :=
  members.filter fun m => !isEmptyOutputs m

/-- A node without an empty object of outputs, if it is an action or a download. For other nodes
outputs are a map, and an empty map is not the same as none. -/
def Node.withoutEmptyOutputs : Json → Json
  | .object members =>
    match Members.get? members "type" with
    | some (.string type) =>
      if ["action", "downloadAction"].contains type then
        .object (Members.withoutEmptyOutputs members)
      else .object members
    | _ => .object members
  | v => v

/-- The member that is left out is `outputs` with an empty object. -/
lemma isEmptyOutputs_iff {m : String × Json} : isEmptyOutputs m ↔ m = ("outputs", .object []) := by
  obtain ⟨name, v⟩ := m
  cases v with
  | object inner => cases inner <;> simp [isEmptyOutputs]
  | _ => simp [isEmptyOutputs]

namespace Members

variable {members : Members Json} {name : String}

/-- Where no key occurs twice, what is found by a name is what was found before, if it is not left
out. -/
lemma get?_withoutEmptyOutputs (distinct : (keys members).Nodup) :
    members.withoutEmptyOutputs.get? name =
      (members.get? name).filter fun v => !isEmptyOutputs (name, v) :=
  get?_filter distinct

/-- Under other names everything is found as before. -/
lemma get?_withoutEmptyOutputs_of_ne (distinct : (keys members).Nodup) (other : name ≠ "outputs") :
    members.withoutEmptyOutputs.get? name = members.get? name := by
  have kept : ∀ v, isEmptyOutputs (name, v) = false := by
    intro v
    rw [← Bool.not_eq_true, isEmptyOutputs_iff]
    exact fun same => other (Prod.mk.inj same).1
  rw [get?_withoutEmptyOutputs distinct]
  cases members.get? name <;> simp [kept, Option.filter]

/-- Behind the deletion there are no empty outputs. -/
lemma outputs_ne_empty (members : Members Json) :
    members.withoutEmptyOutputs.get? "outputs" ≠ some (.object []) := by
  intro found
  have kept := (List.mem_filter.mp (mem_of_get? found)).2
  exact Bool.false_ne_true kept

/-- An object stays well-formed when a member is left out. -/
lemma wellFormed_withoutEmptyOutputs (wf : (Json.object members).WellFormed) :
    (Json.object members.withoutEmptyOutputs).WellFormed := by
  cases wf with
  | object ordered each =>
    exact .object (ordered.filter _) fun m mem => each m (List.mem_filter.mp mem).1

end Members

/-! ## Reading without empty outputs -/

namespace Fields

variable {α β : Type} {plan : Fields α} {members others : Members Json} {name : String}

/-- A plan reads the same from some members as from others. -/
def Agrees (plan : Fields α) (members others : Members Json) : Prop :=
  ∀ path, plan.read path others = plan.read path members

/-- What is made of a result agrees if the result does. -/
lemma Agrees.map (h : plan.Agrees members others) (f : α → β) :
    (f <$> plan).Agrees members others :=
  fun path => congrArg (Outcome.map f) (h path)

/-- Plans that agree one by one agree one behind the other. -/
lemma Agrees.seq {first : Fields (α → β)} (hf : first.Agrees members others)
    (h : plan.Agrees members others) : (first <*> plan).Agrees members others :=
  fun path => congrArg₂ (Outcome.zipWith fun f a => f a) (hf path) (h path)

/-- A required field is read alike where the same is found by its name. -/
lemma required_agrees {reader : Reader α} (same : others.get? name = members.get? name) :
    (required name reader).Agrees members others := by
  intro path
  simp only [required, same]

/-- An optional field is read alike where the same is found by its name. -/
lemma optional_agrees {reader : Reader α} (same : others.get? name = members.get? name) :
    (optional name reader).Agrees members others := by
  intro path
  simp only [optional, same]

/-- Where no key occurs twice, the parts of an answer are read alike from an empty object and from
none. -/
lemma outputParts_agrees {reader : Reader α} {second : Reader β} {other : String}
    (distinct : members.keys.Nodup) :
    (outputParts (.optional name reader) (.optional other second)).Agrees members
      members.withoutEmptyOutputs := by
  intro path
  change Outcome.map _ _ = Outcome.map _ _
  -- an empty object and no object differ as results, but not in the parts they give
  simp only [optional, Members.get?_withoutEmptyOutputs distinct]
  cases members.get? "outputs" with
  | none => rfl
  | some v =>
    by_cases empty : isEmptyOutputs ("outputs", v)
    · obtain rfl : v = .object [] := (Prod.mk.inj (isEmptyOutputs_iff.mp empty)).2
      rfl
    · simp [empty, Option.filter]

/-- The plan of a node that makes a request reads the same without empty outputs. -/
lemma answer_agrees {γ : Type} {make : Service → Option α × Option β → Successor → γ}
    {service : Reader Service} {reader : Reader α} {second : Reader β} {other : String}
    (distinct : members.keys.Nodup) :
    (make <$> required "service" service <*>
      outputParts (.optional name reader) (.optional other second) <*> nextField).Agrees members
        members.withoutEmptyOutputs := by
  have kept : ∀ name, name ≠ "outputs" →
      members.withoutEmptyOutputs.get? name = members.get? name :=
    fun _ other => Members.get?_withoutEmptyOutputs_of_ne distinct other
  exact (required_agrees (kept "service" (by decide))).map _
    |>.seq (outputParts_agrees distinct)
    |>.seq (required_agrees (kept "nextNodeIndex" (by decide)))

end Fields

namespace Node

variable {path : Pointer} {members : Members Json} {v : Json} {node : Node}

/-- Where no key occurs twice, an action or a download is read alike without empty outputs. -/
lemma plan_agrees (distinct : members.keys.Nodup) {type : String}
    (answers : type ∈ ["action", "downloadAction"]) {plan : Fields Node}
    (found : variants.plans.lookup type = some plan) :
    plan.Agrees members members.withoutEmptyOutputs := by
  simp only [List.mem_cons, List.not_mem_nil, or_false] at answers
  obtain rfl | rfl := answers
  · obtain rfl := Option.some.inj found
    exact (Fields.answer_agrees distinct).map _
  · obtain rfl := Option.some.inj found
    exact (Fields.answer_agrees distinct).map _

/-- A node stays well-formed without empty outputs. -/
lemma wellFormed_withoutEmptyOutputs (wf : v.WellFormed) : (withoutEmptyOutputs v).WellFormed := by
  unfold withoutEmptyOutputs
  split
  · split
    · split_ifs
      · exact Members.wellFormed_withoutEmptyOutputs wf
      · exact wf
    · exact wf
  · exact wf

/-- A node is read alike without empty outputs, and is written so. -/
lemma read_withoutEmptyOutputs (wf : v.WellFormed) (hread : read path v = .ok node) :
    read path (withoutEmptyOutputs v) = .ok node ∧ node.toJson = withoutEmptyOutputs v := by
  obtain ⟨members, type, plan, rfl, htype, found, closed⟩ := Variants.read_eq_ok.mp hread
  by_cases answers : type ∈ ["action", "downloadAction"]
  · have tidied : withoutEmptyOutputs (.object members) = .object members.withoutEmptyOutputs := by
      simp [withoutEmptyOutputs, htype, answers]
    have distinct : members.keys.Nodup := by
      cases wf with
      | object ordered _ => exact ordered.nodup
    have again : read path (.object members.withoutEmptyOutputs) = .ok node := by
      refine Variants.read_eq_ok.mpr ⟨_, type, plan, rfl, ?_, found, ?_⟩
      · rw [Members.get?_withoutEmptyOutputs_of_ne distinct (by decide), htype]
      · obtain ⟨fields, keys⟩ := Fields.close_eq_ok.mp closed
        refine Fields.close_eq_ok.mpr ⟨?_, fun key mem => keys key ?_⟩
        · rw [plan_agrees distinct answers found, fields]
        · exact (List.filter_sublist.map _).subset mem
    rw [tidied]
    -- what is left is tidy, so that the form of the node restores it
    refine ⟨again, toJson_of_read (Members.wellFormed_withoutEmptyOutputs wf) ?_ again⟩
    exact fun _ _ _ => Members.outputs_ne_empty members
  · have same : withoutEmptyOutputs (.object members) = .object members := by
      simp [withoutEmptyOutputs, htype, answers]
    rw [same]
    refine ⟨hread, toJson_of_read wf ?_ hread⟩
    intro other answers' hother
    rw [htype, Option.some.injEq, Json.string.injEq] at hother
    exact absurd (hother ▸ answers') answers

end Node

end DialogueLint
