import DialogueLint.Proofs.Dialogue.Encoding
import DialogueLint.Proofs.Reading.Restoration

/-!
# Readers restore what they read

Every reader of a part of a dialogue is restored by the canonical form of the part. Only an empty
object of outputs, of an action or a download, leaves no trace in what is read.

That a reader is restored means: if it gives a result without reporting anything, the value that was
read is the canonical form of the result. For objects this is put together from the fields that were
read (`Fields.Keeps`): each field leaves an entry, the entries are those of the result, and nothing
else can be in a closed object about which nothing was reported. The order of members does not
matter, since well-formed objects have their keys in order.
-/

namespace DialogueLint

open Fields Reader

/-! ## Values -/

/-- An optional expression is its own entry. -/
lemma expression_keeps {path : Pointer} {members : Members Json} {name : String}
    (wf : (Json.object members).WellFormed) {P : Option Json → Entries → Prop}
    (rest : ∀ a?, P a? [(name, a?)]) : (Fields.optional name .anything).Keeps path members P := by
  refine optional_keeps anything_restores wf fun a? => ?_
  rw [Option.map_id]
  exact rest a?

/-- A lookup is the object of its reference. -/
lemma Lookup.read_restores : Restores read toJson := by
  refine closed_restores (fun path members wf => ?_) (by decide)
  simp only [keeps_map]
  exact required_keeps string_restores wf fun reference => rfl

/-- A reference to a language is written as the object that was read. -/
lemma MessageValue.readLanguage_restores :
    Restores readLanguage fun reference => (language reference).toJson :=
  closed_restores (fun _ _ wf => required_keeps matching_restores wf fun _ => rfl) (by decide)

/-- A message is written as the text or as the object that was read. -/
lemma MessageValue.read_restores : Restores read toJson := by
  intro path v a wf read
  cases v with
  | string words =>
    obtain ⟨text, hread, rfl⟩ := Outcome.map_eq_ok.mp read
    exact sized_restores path _ text wf hread
  | object members =>
    obtain ⟨reference, hread, rfl⟩ := Outcome.map_eq_ok.mp read
    exact readLanguage_restores path _ reference wf hread
  | null | bool b | number n | array items => exact absurd read Outcome.fail_ne_ok

/-- A successor is written as its number or as `null`. -/
lemma Successor.read_restores : Restores read toJson := by
  intro path v a _ read
  cases v with
  | null => exact Outcome.ok_inj.mp read ▸ rfl
  | number n => exact Outcome.ok_inj.mp read ▸ rfl
  | _ => exact absurd read Outcome.fail_ne_ok

/-- Custom content keeps its type and its object. -/
lemma CustomContent.read_restores : Restores read toJson := by
  refine closed_restores (fun path members wf => ?_) (by decide)
  simp only [keeps_seq, keeps_map]
  exact required_keeps string_restores wf fun contentType =>
    required_keeps object_restores wf fun content => rfl

/-- A single text stays one, and an array stays an array. -/
lemma PropertyValue.read_restores : Restores read toJson := by
  intro path v a wf read
  cases v with
  | string s => exact Outcome.ok_inj.mp read ▸ rfl
  | array values =>
    cases values with
    | nil => exact absurd read Outcome.fail_ne_ok
    | cons value values =>
      obtain ⟨texts, hread, rfl⟩ := Outcome.map_eq_ok.mp read
      have restores : Restores (arrayOf "" string) Json.ofTexts := string_restores.arrayOf
      exact restores path _ texts wf hread
  | null | bool b | number n | object members => exact absurd read Outcome.fail_ne_ok

/-- Properties keep their keys. -/
lemma Properties.read_restores : Restores read toJson :=
  mapOf_restores fun _ => PropertyValue.read_restores

/-- Inputs keep their keys, and expressions are not touched. -/
lemma Inputs.read_restores : Restores read toJson :=
  mapOf_restores fun _ => anything_restores.keyed

/-- Outputs keep their keys. -/
lemma Outputs.read_restores : Restores read toJson :=
  mapOf_restores fun _ => Lookup.read_restores

/-- Headers keep their names. -/
lemma Service.readHeaders_restores : Restores readHeaders (.ofMembers .string) :=
  mapOf_restores fun _ => string_restores.keyed

/-- A method is written by the name under which it is listed. -/
lemma HttpMethod.oneOf_restores :
    Restores (oneOf choices) fun method : HttpMethod => .string method.name :=
  Reader.oneOf_restores (by decide)

/-- A request keeps its method, and what is absent stays absent. -/
lemma Service.read_restores : Restores read toJson := by
  refine closed_restores (fun path members wf => ?_) (by decide)
  simp only [keeps_seq, keeps_map]
  exact required_keeps string_restores wf fun url =>
    optional_keeps readHeaders_restores wf fun headers =>
    required_keeps HttpMethod.oneOf_restores wf fun method =>
    optional_keeps object_restores wf fun body => rfl

/-- A download has neither a method nor a body, and so its form has none either. -/
lemma Service.readDownload_restores : Restores readDownload toJson := by
  have declared : Restores readDownload fun service => .ofEntries
      [("url", some (.string service.url)),
        ("headers", service.headers.map (.ofMembers .string))] := by
    refine closed_restores (fun path members wf => ?_) (by decide)
    simp only [keeps_seq, keeps_map]
    exact required_keeps string_restores wf fun url =>
      optional_keeps readHeaders_restores wf fun headers => rfl
  intro path v service wf read
  rw [← declared path v service wf read]
  obtain ⟨members, rfl, fields, -⟩ := object_eq_ok.mp read
  have parts := reads_of_ok fields
  simp only [reads_seq, reads_map] at parts
  obtain ⟨url, _, headers, _, rfl⟩ := parts
  rfl

/-- Content types that were all read are the strings of the array. -/
lemma ContentTypes.readFrom_restores {path : Pointer} {index : Nat} {seen : List String}
    {values : List Json} {texts : List String}
    (read : readFrom path index seen values = texts.map .ok) : texts.map .string = values := by
  induction values generalizing index seen texts with
  | nil =>
    rw [List.map_eq_nil_iff.mp read.symm]
    rfl
  | cons v values ih =>
    cases texts with
    | nil => cases v <;> cases read
    | cons text texts =>
      cases v with
      | string s =>
        obtain ⟨head, tail⟩ := List.cons.inj read
        split_ifs at head
        · exact absurd head Outcome.fail_ne_ok
        · rw [List.map_cons, ih tail, Outcome.ok_inj.mp head]
      | null | bool b | number n | array items | object members =>
        exact absurd (List.cons.inj read).1 Outcome.fail_ne_ok

/-- Content types are written as the array of strings that was read. -/
lemma ContentTypes.read_restores : Restores read .ofTexts := by
  intro path v texts _ hread
  cases v with
  | array values =>
    cases values with
    | nil => exact absurd hread Outcome.fail_ne_ok
    | cons value values =>
      exact congrArg Json.array (readFrom_restores (Outcome.all_eq_ok.mp hread))
  | _ => exact absurd hread Outcome.fail_ne_ok

/-- What happens on a tap keeps all three fields. -/
lemma TapOptions.read_restores : Restores read toJson := by
  refine closed_restores (fun path members wf => ?_) (by decide)
  simp only [keeps_seq, keeps_map]
  exact required_keeps string_restores wf fun displayName =>
    required_keeps string_restores wf fun output =>
    required_keeps sized_restores wf fun value => rfl

/-- Buttons keep their fields, and a name that is absent stays absent. -/
lemma ButtonOptions.read_restores : Restores read toJson := by
  refine closed_restores (fun path members wf => ?_) (by decide)
  simp only [keeps_seq, keeps_map]
  exact required_keeps string_restores wf fun listName =>
    optional_keeps string_restores wf fun displayName =>
    required_keeps string_restores wf fun output => rfl

/-- The content of a card keeps the fields that are there. -/
lemma CardContent.read_restores : Restores read toJson := by
  refine closed_restores (fun path members wf => anyOf_keeps ?_) (by decide)
  simp only [keeps_seq, keeps_map]
  exact optional_keeps string_restores wf fun url =>
    optional_keeps sized_restores wf fun title =>
    optional_keeps sized_restores wf fun subtitle =>
    optional_keeps sized_restores wf fun text =>
    optional_keeps sized_restores wf fun image =>
    expression_keeps wf fun isThumbnail =>
    optional_keeps sized_restores wf fun retryMessage =>
    optional_keeps TapOptions.read_restores wf fun tapOptions =>
    optional_keeps ButtonOptions.read_restores wf fun buttonOptions => rfl

/-- What is computed from a chosen item keeps both fields. -/
lemma OutputOperation.read_restores : Restores read toJson := by
  refine closed_restores (fun path members wf => ?_) (by decide)
  simp only [keeps_seq, keeps_map]
  exact required_keeps anything_restores wf fun operation =>
    required_keeps string_restores wf fun output => rfl

/-! ## Triggers -/

/-- An event of the system is written by the name under which it is listed. -/
lemma SystemEvent.oneOf_restores :
    Restores (oneOf choices) fun event : SystemEvent => .string event.name :=
  Reader.oneOf_restores (by decide)

/-- A trigger is written with its type and the fields that were read. -/
lemma Trigger.read_restores : Restores read toJson := by
  intro path v trigger wf read
  refine Variants.ofEntries_of_read wf ?_ read
  rintro members rfl
  simp only [variants, List.forall_mem_cons, List.not_mem_nil, false_implies, implies_true,
    and_true]
  refine ⟨fun _ => ⟨by decide, ?attachment⟩, fun _ => ⟨by decide, ?customEvent⟩,
    fun _ => ⟨by decide, ?event⟩, fun _ => ⟨by decide, ?intent⟩, fun _ => ⟨by decide, ?message⟩,
    fun _ => ⟨by decide, pure_keeps ⟨rfl, rfl⟩⟩⟩
  all_goals simp only [keeps_seq, keeps_map]
  case attachment =>
    exact required_keeps ContentTypes.read_restores wf fun contentTypes =>
      required_keeps matching_restores wf fun output => ⟨rfl, rfl⟩
  case customEvent =>
    exact required_keeps string_restores wf fun name =>
      optional_keeps string_restores wf fun output => ⟨rfl, rfl⟩
  case event => exact required_keeps SystemEvent.oneOf_restores wf fun event => ⟨rfl, rfl⟩
  case intent => exact required_keeps string_restores wf fun intent => ⟨rfl, rfl⟩
  case message =>
    exact required_keeps MessageValue.read_restores.arrayOf wf fun values => ⟨rfl, rfl⟩

/-! ## Nodes -/

section Outputs

variable {α β : Type} {path : Pointer} {members : Members Json} {reader : Reader α}
  {second : Reader β} {write : α → Json} {writeSecond : β → Json} {name other : String}

/-- The parts of an answer are written as they were read, if there are some. -/
lemma outputParts_keeps (h : reader.Restores write) (h' : second.Restores writeSecond)
    (wf : (Json.object members).WellFormed) (distinct : [name, other].Nodup)
    (tidy : members.get? "outputs" ≠ some (.object []))
    {P : Option α × Option β → Entries → Prop}
    (rest : ∀ a? b?, P (a?, b?) [("outputs",
      Entries.outputs? [(name, a?.map write), (other, b?.map writeSecond)])]) :
    (outputParts (.optional name reader) (.optional other second)).Keeps path members P := by
  have restores : (Fields.object "an outputs object"
      (Prod.mk <$> .optional name reader <*> .optional other second)).Restores fun parts =>
        .ofEntries [(name, parts.1.map write), (other, parts.2.map writeSecond)] := by
    refine closed_restores (fun path members wf => ?_) distinct
    simp only [keeps_seq, keeps_map]
    exact optional_keeps h wf fun a? => optional_keeps h' wf fun b? => rfl
  rw [outputParts, keeps_map]
  intro parts? read
  have found := get?_of_optional restores wf read
  have entry : members.entriesAt ["outputs"] = [("outputs", members.get? "outputs")] := rfl
  change P _ (members.entriesAt ["outputs"])
  rw [entry, found]
  cases parts? with
  | none => exact rest none none
  | some parts =>
    obtain ⟨a?, b?⟩ := parts
    cases a? with
    | some a => exact rest (some a) b?
    | none =>
      cases b? with
      | some b => exact rest none (some b)
      | none =>
        -- Neither part was there, so an empty object was read.
        exact absurd found tidy

end Outputs

/-- Members that do not hold an empty object where outputs are parts of an answer. -/
def Node.IsTidy (members : Members Json) : Prop :=
  ∀ type ∈ ["action", "downloadAction"], members.get? "type" = some (.string type) →
    members.get? "outputs" ≠ some (.object [])

/-- The node that comes next leaves the entry of its field. -/
lemma nextField_keeps {path : Pointer} {members : Members Json}
    (wf : (Json.object members).WellFormed) {P : Successor → Entries → Prop}
    (rest : ∀ next, P next [("nextNodeIndex", some next.toJson)]) :
    nextField.Keeps path members P :=
  required_keeps Successor.read_restores wf rest

/-- A simple question leaves the entries of its fields, and its type by its kind. -/
lemma SimplePrompt.fields_keep {path : Pointer} {members : Members Json}
    (wf : (Json.object members).WellFormed) {kind : PromptKind} :
    (Node.promptPlan kind).2.Keeps path members fun node entries =>
      node.typeName = (Node.promptPlan kind).1 ∧ node.entries = entries := by
  simp only [Node.promptPlan, fields, keeps_seq, keeps_map]
  exact required_keeps sized_restores wf fun message =>
    required_keeps sized_restores wf fun retryMessage =>
    optional_keeps CustomContent.read_restores wf fun customContent =>
    required_keeps string_restores wf fun output =>
    expression_keeps wf fun validation =>
    nextField_keeps wf fun next => ⟨by cases kind <;> rfl, rfl⟩

/-- An event of a node is written by the name under which it is listed. -/
lemma NodeEvent.oneOf_restores :
    Restores (oneOf choices) fun event : NodeEvent => .string event.name :=
  Reader.oneOf_restores (by decide)

/-- A node is read as what it is written from, unless it holds an empty object of outputs. -/
lemma Node.toJson_of_read {path : Pointer} {members : Members Json} {node : Node}
    (wf : (Json.object members).WellFormed) (tidy : IsTidy members)
    (hread : read path (.object members) = .ok node) : node.toJson = .object members := by
  refine Variants.ofEntries_of_read wf ?_ hread
  intro _ same
  obtain rfl := Json.object.inj same
  simp only [variants, List.forall_mem_cons, List.not_mem_nil, false_implies, implies_true,
    and_true]
  refine ⟨fun type => ⟨by decide, ?action⟩, fun _ => ⟨by decide, ?attachmentPrompt⟩,
    fun _ => ⟨by decide, ?card⟩, fun _ => ⟨by decide, ?cardCollection⟩,
    fun _ => ⟨by decide, ?choicePrompt⟩, fun _ => ⟨by decide, ?confirmationPrompt⟩,
    fun _ => ⟨by decide, ?customCardCollection⟩, fun _ => ⟨by decide, ?customEvent⟩,
    fun _ => ⟨by decide, SimplePrompt.fields_keep wf⟩,
    fun _ => ⟨by decide, SimplePrompt.fields_keep wf⟩, fun _ => ⟨by decide, ?decision⟩,
    fun _ => ⟨by decide, ?dialogue⟩, fun type => ⟨by decide, ?downloadAction⟩,
    fun _ => ⟨by decide, ?event⟩, fun _ => ⟨by decide, ?message⟩,
    fun _ => ⟨by decide, SimplePrompt.fields_keep wf⟩, fun _ => ⟨by decide, ?operation⟩,
    fun _ => ⟨by decide, ?repeatDialogue⟩, fun _ => ⟨by decide, ?sequenceDialogue⟩,
    fun _ => ⟨by decide, SimplePrompt.fields_keep wf⟩,
    fun _ => ⟨by decide, SimplePrompt.fields_keep wf⟩⟩
  -- in an action, as in a download, outputs that are empty would not be written
  case action =>
    simp only [Action.fields, keeps_seq, keeps_map]
    exact required_keeps Service.read_restores wf fun service =>
      outputParts_keeps Properties.read_restores Properties.read_restores wf (by decide)
        (tidy "action" (by decide) type) fun body header =>
      nextField_keeps wf fun next => ⟨rfl, rfl⟩
  case attachmentPrompt =>
    simp only [AttachmentPrompt.fields, keeps_seq, keeps_map]
    exact optional_keeps ContentTypes.read_restores wf fun contentTypes =>
      required_keeps sized_restores wf fun message =>
      required_keeps sized_restores wf fun retryMessage =>
      optional_keeps CustomContent.read_restores wf fun customContent =>
      required_keeps matching_restores wf fun output =>
      nextField_keeps wf fun next => ⟨rfl, rfl⟩
  case card =>
    simp only [Card.fields, keeps_seq, keeps_map]
    exact required_keeps CardContent.read_restores wf fun content =>
      nextField_keeps wf fun next => ⟨rfl, rfl⟩
  case cardCollection =>
    simp only [CardCollection.fields, keeps_seq, keeps_map]
    exact required_keeps string_restores wf fun listName =>
      required_keeps matching_restores wf fun contentItem =>
      required_keeps CardContent.read_restores wf fun content =>
      required_keeps string_restores wf fun output =>
      optional_keeps number_restores wf fun pageSize =>
      nextField_keeps wf fun next => ⟨rfl, rfl⟩
  case choicePrompt =>
    simp only [ChoicePrompt.fields, keeps_seq, keeps_map]
    exact required_keeps sized_restores wf fun message =>
      required_keeps sized_restores wf fun retryMessage =>
      required_keeps string_restores wf fun listName =>
      optional_keeps string_restores wf fun displayName =>
      required_keeps string_restores wf fun output =>
      nextField_keeps wf fun next => ⟨rfl, rfl⟩
  case confirmationPrompt =>
    simp only [ConfirmationPrompt.fields, keeps_seq, keeps_map]
    exact required_keeps sized_restores wf fun message =>
      required_keeps sized_restores wf fun retryMessage =>
      optional_keeps sized_restores wf fun positiveMessage =>
      optional_keeps sized_restores wf fun negativeMessage =>
      required_keeps string_restores wf fun output =>
      nextField_keeps wf fun next => ⟨rfl, rfl⟩
  case customCardCollection =>
    simp only [CustomCardCollection.fields, keeps_seq, keeps_map]
    exact required_keeps string_restores wf fun listName =>
      required_keeps matching_restores wf fun contentItem =>
      required_keeps CustomContent.read_restores wf fun customContent =>
      optional_keeps sized_restores wf fun retryMessage =>
      optional_keeps OutputOperation.read_restores wf fun outputOperation =>
      required_keeps string_restores wf fun output =>
      optional_keeps number_restores wf fun pageSize =>
      expression_keeps wf fun validation =>
      nextField_keeps wf fun next => ⟨rfl, rfl⟩
  case customEvent =>
    simp only [CustomEvent.fields, keeps_seq, keeps_map]
    exact required_keeps string_restores wf fun name =>
      optional_keeps Lookup.read_restores wf fun data => ⟨rfl, rfl⟩
  case decision =>
    simp only [Decision.fields, keeps_seq, keeps_map]
    exact required_keeps anything_restores wf fun rule =>
      required_keeps Successor.read_restores wf fun pass =>
      required_keeps Successor.read_restores wf fun fail => ⟨rfl, rfl⟩
  case dialogue =>
    simp only [DialogueCall.fields, keeps_seq, keeps_map]
    exact required_keeps sized_restores wf fun dialogueId =>
      optional_keeps Inputs.read_restores wf fun inputs =>
      optional_keeps Outputs.read_restores wf fun outputs =>
      nextField_keeps wf fun next => ⟨rfl, rfl⟩
  case downloadAction =>
    simp only [DownloadAction.fields, keeps_seq, keeps_map]
    exact required_keeps Service.readDownload_restores wf fun service =>
      outputParts_keeps matching_restores Properties.read_restores wf (by decide)
        (tidy "downloadAction" (by decide) type) fun content header =>
      nextField_keeps wf fun next => ⟨rfl, rfl⟩
  case event =>
    simp only [NodeEvent.field, keeps_map]
    exact required_keeps NodeEvent.oneOf_restores wf fun e => ⟨rfl, rfl⟩
  case message =>
    simp only [Message.fields, keeps_seq, keeps_map]
    exact required_keeps sized_restores wf fun message =>
      optional_keeps CustomContent.read_restores wf fun customContent =>
      nextField_keeps wf fun next => ⟨rfl, rfl⟩
  case operation =>
    simp only [Operation.fields, keeps_seq, keeps_map]
    exact required_keeps anything_restores wf fun operation =>
      required_keeps string_restores wf fun output =>
      nextField_keeps wf fun next => ⟨rfl, rfl⟩
  case repeatDialogue =>
    simp only [RepeatDialogue.fields, keeps_seq, keeps_map]
    exact required_keeps sized_restores wf fun dialogueId =>
      required_keeps Inputs.read_restores wf fun inputs =>
      required_keeps Outputs.read_restores wf fun outputs =>
      required_keeps anything_restores wf fun repeatUntil =>
      nextField_keeps wf fun next => ⟨rfl, rfl⟩
  case sequenceDialogue =>
    simp only [SequenceDialogue.fields, keeps_seq, keeps_map]
    exact required_keeps sized_restores wf fun dialogueId =>
      required_keeps matching_restores wf fun inputItem =>
      optional_keeps Inputs.read_restores wf fun inputs =>
      required_keeps string_restores wf fun listName =>
      nextField_keeps wf fun next => ⟨rfl, rfl⟩

end DialogueLint
