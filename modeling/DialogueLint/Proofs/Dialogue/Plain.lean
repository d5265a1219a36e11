import DialogueLint.Dialogue.Definition
import DialogueLint.Proofs.Reading.Plain

/-!
# What reading repeats

Every reader of a part of a dialogue is plain: of the texts in a document it repeats only the keys
as they are. All others are quoted.

The lemmas go by the structure of the readers: objects are plain by the lemmas on their fields,
which simplification finds, and the fixed words of each reader are checked by evaluation. Content
types, messages and properties have words of their own, and so do arrays of nodes. Items that are
refused are quoted, or described by their type and their keys.
-/

namespace DialogueLint

open Fields Outcome Reader Text

/-! ## Values -/

/-- Of a lookup, the reference is not repeated at all. -/
@[simp] lemma Lookup.plain_read : read.Plain :=
  Plain.object (by simp +decide) (by decide)

/-- A reference to a language is quoted when it does not have the pattern. -/
lemma MessageValue.plain_readLanguage : readLanguage.Plain :=
  Plain.object (plain_required (by decide) (plain_matching (by decide))) (by decide)

/-- Of a message that is neither a text nor an object, only the description is repeated. -/
@[simp] lemma MessageValue.plain_read : read.Plain := by
  intro path v unbroken
  cases v with
  | string s => exact (plain_sized path _ unbroken).map
  | object members => exact (plain_readLanguage path _ unbroken).map
  | _ =>
    refine plain_fail (unbroken_pair (by decide) (unbroken_append.mpr ⟨by decide, ?_⟩))
    exact unbroken.describe

/-- Custom content is read by its fields. -/
@[simp] lemma CustomContent.plain_read : read.Plain :=
  Plain.object (by simp +decide) (by decide)

/-- A content type that occurs twice is quoted. -/
lemma ContentTypes.plain_readFrom {path : Pointer} {index : Nat} {seen : List String}
    {values : List Json} (unbroken : ∀ v ∈ values, v.Unbroken) :
    ∀ o ∈ readFrom path index seen values, o.Plain := by
  induction values generalizing index seen with
  | nil => exact List.forall_mem_nil _
  | cons v values ih =>
    obtain ⟨first, others⟩ := List.forall_mem_cons.mp unbroken
    cases v with
    | string s =>
      refine List.forall_mem_cons.mpr ⟨?_, ih others⟩
      split_ifs
      · refine plain_fail (unbroken_pair (by decide) (unbroken_append.mpr ⟨?_, by decide⟩))
        exact unbroken_quote s
      · exact plain_ok
    | _ => exact List.forall_mem_cons.mpr ⟨plain_string _ _ first, ih others⟩

/-- Arrays of content types are refused in fixed words, and their items one by one. -/
@[simp] lemma ContentTypes.plain_read : read.Plain := by
  intro path v unbroken
  cases v with
  | array values =>
    cases values with
    | nil => exact plain_fail (unbroken_pair (by decide) (by decide))
    | cons v values => exact plain_all (plain_readFrom fun w mem => unbroken.item mem)
  | _ => exact plain_wrongType (by decide) path _ unbroken

/-- Of a property that is neither a text nor an array, only the description is repeated. -/
lemma PropertyValue.plain_read : read.Plain := by
  intro path v unbroken
  cases v with
  | string s => exact plain_ok
  | array values =>
    cases values with
    | nil => exact plain_fail (unbroken_pair (by decide) (by decide))
    | cons v values => exact (plain_string.items unbroken path).map
  | _ =>
    refine plain_fail (unbroken_pair (by decide) (unbroken_append.mpr ⟨by decide, ?_⟩))
    exact unbroken.describe

/-- Properties are read one by one, under any keys. -/
@[simp] lemma Properties.plain_read : read.Plain :=
  plain_mapOf (by decide) fun _ _ => PropertyValue.plain_read

/-- Of an input with a key that is not allowed, the key is repeated. -/
@[simp] lemma Inputs.plain_read : read.Plain :=
  plain_mapOf (by decide) fun _ unbroken => plain_anything.keyed unbroken

/-- Outputs are read one by one, under any keys. -/
@[simp] lemma Outputs.plain_read : read.Plain :=
  plain_mapOf (by decide) fun _ _ => Lookup.plain_read

/-- Of a header without a name, the empty name is repeated. -/
lemma Service.plain_readHeaders : readHeaders.Plain :=
  plain_mapOf (by decide) fun _ unbroken => plain_string.keyed unbroken

/-- A request is read by its fields, and an unknown method of it is quoted. -/
@[simp] lemma Service.plain_read : read.Plain := by
  have methods : (oneOf HttpMethod.choices).Plain := plain_oneOf (by decide)
  exact Plain.object (by simp +decide [plain_readHeaders, methods]) (by decide)

/-- A request of a download is read by its fields. -/
@[simp] lemma Service.plain_readDownload : readDownload.Plain :=
  Plain.object (by simp +decide [plain_readHeaders]) (by decide)

/-- What happens on a tap is read by its fields. -/
@[simp] lemma TapOptions.plain_read : read.Plain :=
  Plain.object (by simp +decide) (by decide)

/-- Buttons are read by their fields. -/
@[simp] lemma ButtonOptions.plain_read : read.Plain :=
  Plain.object (by simp +decide) (by decide)

/-- What is computed from a chosen item is read by its fields. -/
@[simp] lemma OutputOperation.plain_read : read.Plain :=
  Plain.object (by simp +decide) (by decide)

/-- That a card shows nothing is reported in fixed words, and the rest of it is read by its fields.
-/
@[simp] lemma CardContent.plain_read : read.Plain :=
  Plain.object ((plain_anyOf (by decide) (by decide)).seqRight (by simp +decide)) (by decide)

/-- Of a successor that is no number, only the description is repeated. -/
@[simp] lemma Successor.plain_read : read.Plain := by
  intro path v unbroken
  cases v with
  | null => exact plain_ok
  | number n => exact plain_ok
  | _ => exact plain_wrongType (by decide) path _ unbroken

/-! ## Triggers and nodes -/

/-- Triggers are read by the fields of their type. -/
lemma Trigger.plain_read : read.Plain := by
  have events : (oneOf SystemEvent.choices).Plain := plain_oneOf (by decide)
  have messages : (arrayOf "an array of messages" MessageValue.read).Plain :=
    plain_arrayOf (by decide) MessageValue.plain_read
  refine Variants.plain_read (by decide) (by decide) ?_
  simp +decide [variants, events, messages]

/-- The field for the node that comes next has a fixed name. -/
@[simp] lemma plain_nextField : nextField.Plain :=
  plain_required (by decide) Successor.plain_read

/-- The parts of an answer are read plainly if both fields are. -/
@[simp] lemma plain_outputParts {α β : Type} {first : Fields (Option α)}
    {second : Fields (Option β)} (hf : first.Plain) (hs : second.Plain) :
    (outputParts first second).Plain :=
  plain_optional (Plain.object (plain_seq.mpr ⟨hf, hs⟩) (by decide))

/-- An event that there is not is quoted, behind the list of those that there are. -/
@[simp] lemma NodeEvent.plain_field : field.Plain :=
  plain_required (by decide) (plain_oneOf (by decide))

/-- Nodes are read by the fields of their type. -/
lemma Node.plain_read : read.Plain := by
  refine Variants.plain_read (by decide) (by decide) ?_
  -- each plan is read field by field
  simp +decide [variants, promptPlan, Action.fields, AttachmentPrompt.fields, Card.fields,
    CardCollection.fields, ChoicePrompt.fields, ConfirmationPrompt.fields,
    CustomCardCollection.fields, CustomEvent.fields, Decision.fields, DialogueCall.fields,
    DownloadAction.fields, Message.fields, Operation.fields, RepeatDialogue.fields,
    SequenceDialogue.fields, SimplePrompt.fields]

/-- Nodes are read one by one, and a value that is no array is described. -/
lemma Node.plain_readAll : readAll.Plain := by
  intro path v unbroken
  cases v with
  | array values =>
    cases values with
    | nil => exact List.forall_mem_singleton.mpr (unbroken_pair (by decide) (by decide))
    | cons v values =>
      have items := plain_read.items unbroken path
      rw [Outcome.Plain, Reader.items, diagnostics_all] at items
      exact items
  | _ => exact List.forall_mem_singleton.mpr (unbroken_pair (by decide) unbroken.describe)

/-! ## Documents -/

/-- The fields of a document have fixed names, and each is read plainly. -/
lemma Draft.plain_fields : fields.Plain := by
  simp +decide [fields, Trigger.plain_read, Node.plain_readAll]

end DialogueLint
