import DialogueLint.Dialogue.Definition
import DialogueLint.Proofs.Reading.Regular

/-!
# Reading finds nothing twice

Every reader of a part of a dialogue is regular: its result does not depend on where the part
stands, and what it finds is only moved.

Each proof follows the definition of its reader, field by field, with the lemma for the reader of
each field. What has to be decided beside is that the names of the fields of an object differ. Only
two readers need an argument of their own: content types are read item by item with a memory of
those seen, and for nodes the plan is picked by type.
-/

namespace DialogueLint

open Fields Reader

/-! ## Values -/

/-- A lookup is an object of one field. -/
lemma Lookup.read_regular : Regular read :=
  ((required_regular string_regular).map _).object (by decide)

/-- A message is a text or an object, and the two are read apart. -/
lemma MessageValue.read_regular : Regular read := by
  intro v
  cases v with
  | string s => exact (sized_regular _).map _
  | object members =>
    exact ((required_regular matching_regular).object (by decide) _).map _
  | null | bool b | number n | array items => exact Outcome.regular_fail rfl

/-- A successor is read at once. -/
lemma Successor.read_regular : Regular read := by
  intro v
  cases v with
  | null => exact Outcome.regular_ok
  | number n => exact Outcome.regular_ok
  | _ => exact wrongType_regular _

/-- The two fields of custom content have different names. -/
lemma CustomContent.read_regular : Regular read :=
  (((required_regular string_regular).map _).seq (required_regular object_regular)).object
    (by decide)

/-- A property is a text, or an array of texts at the places of the items. -/
lemma PropertyValue.read_regular : Regular read := by
  intro v
  cases v with
  | string s => exact Outcome.regular_ok
  | array values =>
    cases values with
    | nil => exact Outcome.regular_fail rfl
    | cons value values => exact (string_regular.items (value :: values)).map _
  | null | bool b | number n | object members => exact Outcome.regular_fail rfl

/-- Properties stand at the places of their keys. -/
lemma Properties.read_regular : Regular read :=
  mapOf_regular fun _ => PropertyValue.read_regular

/-- Of an input, the key may be reported at the same place as the value, but only the key is
unknown. -/
lemma Inputs.read_regular : Regular read :=
  mapOf_regular (keyed_regular anything_regular (by simp [anything, Outcome.ok]))

/-- Outputs stand at the places of their keys. -/
lemma Outputs.read_regular : Regular read :=
  mapOf_regular fun _ => Lookup.read_regular

/-- Of a header, the name may be reported at the same place as the value, but only the name is
unknown. -/
lemma Service.readHeaders_regular : Regular readHeaders := by
  refine mapOf_regular (keyed_regular string_regular ?_)
  intro v
  cases v <;> simp [string, wrongType, Outcome.ok, Outcome.fail, Diagnostic.kind, Problem.kind]

/-- The fields of a request have different names. -/
lemma Service.read_regular : Regular read :=
  ((((required_regular string_regular).map _).seq (optional_regular readHeaders_regular)).seq
    ((required_regular oneOf_regular).map some)).seq (optional_regular object_regular)
    |>.object (by decide)

/-- The fields of a download have different names. -/
lemma Service.readDownload_regular : Regular readDownload :=
  (((required_regular string_regular).map _).seq (optional_regular readHeaders_regular)).object
    (by decide)

/-- The fields of what happens on a tap have different names. -/
lemma TapOptions.read_regular : Regular read :=
  (((required_regular string_regular).map _).seq (required_regular string_regular)).seq
    (required_regular sized_regular)
    |>.object (by decide)

/-- The fields of buttons have different names. -/
lemma ButtonOptions.read_regular : Regular read :=
  (((required_regular string_regular).map _).seq (optional_regular string_regular)).seq
    (required_regular string_regular)
    |>.object (by decide)

/-- The two fields of a computed output have different names. -/
lemma OutputOperation.read_regular : Regular read :=
  (((required_regular anything_regular).map _).seq (required_regular string_regular)).object
    (by decide)

/-- Content types are reported at the places of the items from an index on, whatever was seen
before. -/
lemma ContentTypes.readFrom_regular {index : Nat} {seen : List String} {values : List Json}
    {condition : Prop} :
    Outcome.RegularFrom index (·.isOfForm) condition fun path =>
      .all (readFrom path index seen values) := by
  induction values generalizing index seen with
  | nil => exact ⟨Outcome.regular_ok, nofun⟩
  | cons value values ih =>
    cases value with
    | string text =>
      have first : Outcome.Regular (·.isOfForm) condition fun path =>
          (if seen.contains text then
            .fail path (.cardinalityMismatch "unique content types"
              (Text.quote text ++ " more than once"))
          else .ok text : Outcome String) := by
        split_ifs
        · exact Outcome.regular_fail rfl
        · exact Outcome.regular_ok
      exact ih.cons first
    | null | bool b | number n | array _ | object _ =>
      have first : ∀ v, Outcome.Regular (·.isOfForm) condition fun path =>
          (wrongType "a string" path v : Outcome String) := fun v => Outcome.regular_fail rfl
      exact ih.cons (first _)

/-- An array of content types is reported itself only if it is empty. -/
lemma ContentTypes.read_regular : Regular read := by
  intro v
  cases v with
  | array values =>
    cases values with
    | nil => exact Outcome.regular_fail rfl
    | cons value values => exact readFrom_regular.1
  | _ => exact wrongType_regular _

/-- That a card shows nothing is reported once, and its fields have different names. -/
lemma CardContent.read_regular : Regular read :=
  Regular.object_anyOf ((optional_regular string_regular).map CardContent.mk
    |>.seq (optional_regular sized_regular)
    |>.seq (optional_regular sized_regular)
    |>.seq (optional_regular sized_regular)
    |>.seq (optional_regular sized_regular)
    |>.seq (optional_regular anything_regular)
    |>.seq (optional_regular sized_regular)
    |>.seq (optional_regular TapOptions.read_regular)
    |>.seq (optional_regular ButtonOptions.read_regular)) (by decide)

/-! ## Triggers and nodes -/

/-- For each type of trigger, the fields have different names. -/
lemma Trigger.read_regular : Regular read := by
  apply Variants.read_regular
  simp only [variants, List.forall_mem_cons, List.not_mem_nil, false_implies, implies_true,
    and_true]
  refine ⟨⟨?attachment, by decide⟩, ⟨?customEvent, by decide⟩, ⟨?event, by decide⟩,
    ⟨?intent, by decide⟩, ⟨?message, by decide⟩, ⟨pure_regular, by decide⟩⟩
  case attachment =>
    exact ((required_regular ContentTypes.read_regular).map _).seq
      (required_regular matching_regular)
  case customEvent =>
    exact ((required_regular string_regular).map _).seq (optional_regular string_regular)
  case event => exact (required_regular oneOf_regular).map _
  case intent => exact (required_regular string_regular).map _
  case message => exact (required_regular (arrayOf_regular MessageValue.read_regular)).map _

/-- The field for the node that comes next is read at once. -/
lemma nextField_regular : nextField.Regular :=
  required_regular Successor.read_regular

/-- The parts of an answer stand inside the outputs, under different names. -/
lemma outputParts_regular {α β : Type} {first : Fields (Option α)} {second : Fields (Option β)}
    (hf : first.Regular) (hs : second.Regular)
    (distinct : (first.declared ++ second.declared).Nodup) : (outputParts first second).Regular :=
  (optional_regular (((hf.map _).seq hs).object distinct)).map _

/-- The fields of a simple question are regular, whatever its kind. -/
lemma SimplePrompt.fields_regular {kind : PromptKind} : (fields kind).Regular :=
  (required_regular sized_regular).map _
    |>.seq (required_regular sized_regular)
    |>.seq (optional_regular CustomContent.read_regular)
    |>.seq (required_regular string_regular)
    |>.seq (optional_regular anything_regular)
    |>.seq nextField_regular

/-- The plan of a simple question is regular, and its fields have different names. -/
lemma Node.promptPlan_regular {kind : PromptKind} :
    (promptPlan kind).2.Regular ∧ (promptPlan kind).2.declared.Nodup :=
  ⟨SimplePrompt.fields_regular.map _, by cases kind <;> decide⟩

/-- For each type of node, the fields have different names. -/
lemma Node.read_regular : Regular read := by
  apply Variants.read_regular
  simp only [variants, List.forall_mem_cons, List.not_mem_nil, false_implies, implies_true,
    and_true]
  refine ⟨⟨?action, by decide⟩, ⟨?attachmentPrompt, by decide⟩, ⟨?card, by decide⟩,
    ⟨?cardCollection, by decide⟩, ⟨?choicePrompt, by decide⟩, ⟨?confirmationPrompt, by decide⟩,
    ⟨?customCardCollection, by decide⟩, ⟨?customEvent, by decide⟩, promptPlan_regular,
    promptPlan_regular, ⟨?decision, by decide⟩, ⟨?dialogue, by decide⟩,
    ⟨?downloadAction, by decide⟩, ⟨?event, by decide⟩, ⟨?message, by decide⟩,
    promptPlan_regular, ⟨?operation, by decide⟩, ⟨?repeatDialogue, by decide⟩,
    ⟨?sequenceDialogue, by decide⟩, promptPlan_regular, promptPlan_regular⟩
  -- each plan is regular along its steps, which are those of the definition of its fields
  case action =>
    exact Regular.map ((required_regular Service.read_regular).map _
      |>.seq (outputParts_regular (optional_regular Properties.read_regular)
        (optional_regular Properties.read_regular) (by decide))
      |>.seq nextField_regular) _
  case attachmentPrompt =>
    exact Regular.map ((optional_regular ContentTypes.read_regular).map _
      |>.seq (required_regular sized_regular)
      |>.seq (required_regular sized_regular)
      |>.seq (optional_regular CustomContent.read_regular)
      |>.seq (required_regular matching_regular)
      |>.seq nextField_regular) _
  case card =>
    exact Regular.map ((required_regular CardContent.read_regular).map _
      |>.seq nextField_regular) _
  case cardCollection =>
    exact Regular.map ((required_regular string_regular).map _
      |>.seq (required_regular matching_regular)
      |>.seq (required_regular CardContent.read_regular)
      |>.seq (required_regular string_regular)
      |>.seq (optional_regular number_regular)
      |>.seq nextField_regular) _
  case choicePrompt =>
    exact Regular.map ((required_regular sized_regular).map _
      |>.seq (required_regular sized_regular)
      |>.seq (required_regular string_regular)
      |>.seq (optional_regular string_regular)
      |>.seq (required_regular string_regular)
      |>.seq nextField_regular) _
  case confirmationPrompt =>
    exact Regular.map ((required_regular sized_regular).map _
      |>.seq (required_regular sized_regular)
      |>.seq (optional_regular sized_regular)
      |>.seq (optional_regular sized_regular)
      |>.seq (required_regular string_regular)
      |>.seq nextField_regular) _
  case customCardCollection =>
    exact Regular.map ((required_regular string_regular).map _
      |>.seq (required_regular matching_regular)
      |>.seq (required_regular CustomContent.read_regular)
      |>.seq (optional_regular sized_regular)
      |>.seq (optional_regular OutputOperation.read_regular)
      |>.seq (required_regular string_regular)
      |>.seq (optional_regular number_regular)
      |>.seq (optional_regular anything_regular)
      |>.seq nextField_regular) _
  case customEvent =>
    exact Regular.map ((required_regular string_regular).map _
      |>.seq (optional_regular Lookup.read_regular)) _
  case decision =>
    exact Regular.map ((required_regular anything_regular).map _
      |>.seq (required_regular Successor.read_regular)
      |>.seq (required_regular Successor.read_regular)) _
  case dialogue =>
    exact Regular.map ((required_regular sized_regular).map _
      |>.seq (optional_regular Inputs.read_regular)
      |>.seq (optional_regular Outputs.read_regular)
      |>.seq nextField_regular) _
  case downloadAction =>
    exact Regular.map ((required_regular Service.readDownload_regular).map _
      |>.seq (outputParts_regular (optional_regular matching_regular)
        (optional_regular Properties.read_regular) (by decide))
      |>.seq nextField_regular) _
  case event => exact (required_regular oneOf_regular).map _
  case message =>
    exact Regular.map ((required_regular sized_regular).map _
      |>.seq (optional_regular CustomContent.read_regular)
      |>.seq nextField_regular) _
  case operation =>
    exact Regular.map ((required_regular anything_regular).map _
      |>.seq (required_regular string_regular)
      |>.seq nextField_regular) _
  case repeatDialogue =>
    exact Regular.map ((required_regular sized_regular).map _
      |>.seq (required_regular Inputs.read_regular)
      |>.seq (required_regular Outputs.read_regular)
      |>.seq (required_regular anything_regular)
      |>.seq nextField_regular) _
  case sequenceDialogue =>
    exact Regular.map ((required_regular sized_regular).map _
      |>.seq (required_regular matching_regular)
      |>.seq (optional_regular Inputs.read_regular)
      |>.seq (required_regular string_regular)
      |>.seq nextField_regular) _

/-- Nodes stand at the places of the items. -/
lemma Node.readAll_regular : Regular readAll := by
  intro v
  cases v with
  | array values =>
    cases values with
    | nil => exact ⟨fun _ => rfl, Findings.regular_here rfl⟩
    | cons value values =>
      -- as findings, the nodes are the items of an array; as results, each node has a slot
      have items := (read_regular.items (value :: values)).found
      simp only [Reader.items, Outcome.diagnostics_all] at items
      refine ⟨fun path => ?_, items⟩
      simp only [readAll, itemsFrom_eq_map, List.map_map]
      refine congrArg some (List.map_congr_left fun item _ => ?_)
      exact ((read_regular item.1).inside [toString item.2]).result path
  | null | bool b | number n | string s | object members =>
    exact ⟨fun _ => rfl, Findings.regular_here rfl⟩

/-! ## Documents -/

/-- The fields of a document have different names. -/
lemma Draft.fields_regular : fields.Regular :=
  (required_regular Trigger.read_regular).attempt.map _
    |>.seq (required_regular Node.readAll_regular).attempt
    |>.seq (required_regular sized_regular).attempt
    |>.seq (optional_regular Properties.read_regular).attempt
    |>.seq (optional_regular Properties.read_regular).attempt
    |>.seq (optional_regular bool_regular).attempt

end DialogueLint
