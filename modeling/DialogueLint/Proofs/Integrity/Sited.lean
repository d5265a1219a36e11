import DialogueLint.Proofs.Integrity.Site
import DialogueLint.Proofs.Reading.Closure

/-!
# Parts demand what stands at their sites

For every part of a dialogue that can be read, what the part demands is what the values at the sites
of its type demand, in the same order. Each lemma goes through the fields of the part in turn;
fields that hold nothing to be checked have no sites.

For scalars and maps the demand is on the value itself, or on its keys. For fields there is a lemma
for each kind of field, required or optional, and for each role. An object is gone through by its
plan: the proof rewrites the demands of each field in turn and joins them in the order in which the
code makes them. The order matters, because reports list what is found in the order of the demands.
-/

namespace DialogueLint

open Demands (ifPresent)
open Fields Reader Sites

variable {index len : Nat}

/-! ## Scalars and maps -/

/-- What is demanded of a reference that is written. -/
abbrev writesHere (r : String) : Demands := [(.root, .writes r)]

/-- What is demanded of an expression. -/
abbrev typesHere (expect : Expectation) (e : Expression) : Demands := [(.root, .types expect e)]

/-- What is demanded of the successor in a field. -/
abbrev leadsHere (index len : Nat) (name : String) : Successor → Demands
  | some target => [(.root, .leads index name target len)]
  | none => []

/-- A string that is written demands that at the site itself. -/
lemma Reader.string_sited : Reader.Sited index len string writesHere (here .written) := by
  intro path v r h
  rw [string_result.mp h, siteDemands_here]
  rfl

/-- An expression demands at the site itself that it meets its expectation. -/
lemma Reader.anything_sited {expect : Expectation} :
    Reader.Sited index len anything (typesHere expect) (here (.typed expect)) := by
  intro path v e h
  cases h
  rw [siteDemands_here]
  rfl

/-- A successor demands at the site itself that it leads to a node. -/
lemma Successor.read_sited {name : String} :
    Reader.Sited index len Successor.read (leadsHere index len name) (here (.successor name)) := by
  intro path v s h
  rw [siteDemands_here]
  cases v <;> simp [read, Outcome.ok, wrongType, Outcome.fail] at h <;> cases h <;> rfl

/-- Lists that correspond item by item give the same demands. -/
lemma flatMap_eq_of_forall₂ {α β : Type} {R : α → β → Prop} {as : List α} {bs : List β}
    {f : α → Demands} {g : β → Demands} (h : List.Forall₂ R as bs)
    (same : ∀ a b, R a b → f a = g b) : as.flatMap f = bs.flatMap g := by
  induction h with
  | nil => rfl
  | cons first _ ih => rw [List.flatMap_cons, List.flatMap_cons, same _ _ first, ih]

/-- A map demands what its members demand, if each member demands what its value does. -/
lemma Reader.mapOf_sited {α : Type} {expected : String} {member : String → Reader α} {role : Role}
    {demands : String × α → Demands} {raw : String × Json → Demands}
    (hrole : ∀ members, role.demands index len (.object members) = members.flatMap raw)
    (h : ∀ (name : String) path v a, (member name path v).result? = some a →
      raw (name, v) = demands (name, a)) :
    Reader.Sited index len (mapOf expected member) (fun as => as.flatMap demands) (here role) := by
  intro path v as result
  obtain ⟨members, rfl, each⟩ := mapOf_result.mp result
  rw [siteDemands_here, hrole]
  refine (flatMap_eq_of_forall₂ each ?_).symm
  rintro ⟨name, value⟩ ⟨_, a⟩ ⟨rfl, ha⟩
  exact h name _ value a ha

/-- Properties demand of their keys that they may be written. -/
lemma Properties.read_sited :
    Reader.Sited index len Properties.read Properties.demands (here .keys) :=
  mapOf_sited (fun _ => rfl) fun _ _ _ _ _ => rfl

/-- Inputs demand of their values that they are expressions. -/
lemma Inputs.read_sited : Reader.Sited index len Inputs.read Inputs.demands (here .inputs) := by
  apply mapOf_sited (fun _ => rfl)
  intro name path v e h
  cases h
  rfl

/-! ## Fields -/

section

variable {name : String} {path : Pointer} {members : Members Json}

/-- A required reference that is written demands what its site does. -/
lemma written_required {r : String}
    (h : ((Fields.required name string).read path members).result? = some r) :
    siteDemands index len (written name) (.object members) = Demands.writes name r :=
  string_sited.required h

/-- An optional reference that is written demands what its site does. -/
lemma written_optional {r? : Option String}
    (h : ((Fields.optional name string).read path members).result? = some r?) :
    siteDemands index len (written name) (.object members) =
      ifPresent r? (Demands.writes name) :=
  string_sited.optional h

/-- A required expression demands what its site does. -/
lemma typed_required {expect : Expectation} {e : Json}
    (h : ((Fields.required name anything).read path members).result? = some e) :
    siteDemands index len (typed name expect) (.object members) = Demands.types name expect e :=
  anything_sited.required h

/-- An optional expression demands what its site does. -/
lemma typed_optional {expect : Expectation} {e? : Option Json}
    (h : ((Fields.optional name anything).read path members).result? = some e?) :
    siteDemands index len (typed name expect) (.object members) =
      ifPresent e? (Demands.types name expect) :=
  anything_sited.optional h

end

/-! ## Objects -/

/-- What the result of a plan demands is what stands at the sites of the object that was read. -/
def Fields.Sited {α : Type} (index len : Nat) (plan : Fields α) (demands : α → Demands)
    (sites : List Site) : Prop :=
  ∀ path members a, (plan.read path members).result? = some a →
    demands a = siteDemands index len sites (.object members)

/-- A closed object demands what the fields of its plan demand. -/
lemma Reader.object_sited {α : Type} {expected : String} {plan : Fields α} {demands : α → Demands}
    {sites : List Site} (h : Fields.Sited index len plan demands sites) :
    Reader.Sited index len (Fields.object expected plan) demands sites := by
  intro path v a result
  obtain ⟨members, rfl, hmembers⟩ := object_result.mp result
  exact h path members a hmembers

/-- The reference in an object whose only field is `var`. -/
lemma Lookup.at?_of_read {path : Pointer} {v : Json} {lookup : Lookup}
    (h : (read path v).result? = some lookup) :
    Json.at? ["var"] v = some (.string lookup.reference) := by
  obtain ⟨members, rfl, hmembers⟩ := object_result.mp h
  have fields := yields_of_result hmembers
  simp only [yields_map] at fields
  obtain ⟨r, hr, rfl⟩ := fields
  obtain ⟨w, found, hw⟩ := required_result.mp hr
  rw [string_result.mp hw] at found
  simp [Json.at?, found]

/-- A variable that is looked up demands that it may be read. -/
lemma Lookup.read_sited :
    Reader.Sited index len Lookup.read Lookup.demands (behind "var" (here .read)) := by
  intro path v lookup h
  have found := at?_of_read h
  simp only [siteDemands, behind, here, List.map_cons, List.map_nil, List.flatMap_cons,
    List.flatMap_nil, List.append_nil, Site.demands, found]
  rfl

/-- Outputs demand of their keys that they may be written, and of their variables that they may be
read. -/
lemma Outputs.read_sited : Reader.Sited index len Outputs.read Outputs.demands (here .outputs) := by
  apply mapOf_sited (fun _ => rfl)
  intro name path v lookup h
  simp only [outputDemands, Lookup.at?_of_read h]
  rfl

/-- What happens on a tap writes two references. -/
lemma TapOptions.read_sited : Reader.Sited index len TapOptions.read TapOptions.demands
    (written "displayName" ++ written "output") := by
  apply object_sited
  intro path members options h
  have fields := yields_of_result h
  simp only [yields_seq, yields_map] at fields
  obtain ⟨displayName, hdisplayName, output, houtput, value, -, rfl⟩ := fields
  rw [siteDemands_append, written_required hdisplayName, written_required houtput]
  rfl

/-- Buttons write a list, an output and perhaps what is shown of an item. -/
lemma ButtonOptions.read_sited : Reader.Sited index len ButtonOptions.read ButtonOptions.demands
    (written "listName" ++ written "displayName" ++ written "output") := by
  apply object_sited
  intro path members options h
  have fields := yields_of_result h
  simp only [yields_seq, yields_map] at fields
  obtain ⟨listName, hlistName, displayName, hdisplayName, output, houtput, rfl⟩ := fields
  rw [siteDemands_append, siteDemands_append, written_required hlistName,
    written_optional hdisplayName, written_required houtput]
  rfl

/-- What is computed from a chosen item is an expression, and is written. -/
lemma OutputOperation.read_sited :
    Reader.Sited index len OutputOperation.read OutputOperation.demands
      (typed "operation" .logic ++ written "output") := by
  apply object_sited
  intro path members operation h
  have fields := yields_of_result h
  simp only [yields_seq, yields_map] at fields
  obtain ⟨operation, hoperation, output, houtput, rfl⟩ := fields
  rw [siteDemands_append, typed_required hoperation, written_required houtput]
  rfl

/-- The content of a card demands what stands at the sites of its parts. -/
lemma CardContent.read_sited :
    Reader.Sited index len CardContent.read CardContent.demands cardContent := by
  apply object_sited
  intro path members content h
  have fields := yields_of_result h
  simp only [yields_seqRight, yields_seq, yields_map] at fields
  obtain ⟨-, -, url, -, title, -, subtitle, -, text, -, image, -, isThumbnail, hisThumbnail,
    retryMessage, -, tapOptions, htapOptions, buttonOptions, hbuttonOptions, rfl⟩ := fields
  rw [cardContent, siteDemands_append, siteDemands_append, typed_optional hisThumbnail,
    TapOptions.read_sited.optional htapOptions, ButtonOptions.read_sited.optional hbuttonOptions]
  rfl

/-! ## Triggers -/

/-- What is made of the result of a plan demands the same at the same sites. -/
lemma Fields.Sited.map {α β : Type} {plan : Fields α} {f : α → β} {demands : β → Demands}
    {sites : List Site} (h : Fields.Sited index len plan (fun a => demands (f a)) sites) :
    Fields.Sited index len (f <$> plan) demands sites := by
  intro path members b result
  have fields := yields_of_result result
  simp only [yields_map] at fields
  obtain ⟨a, ha, rfl⟩ := fields
  exact h path members a ha

/-- An object told apart by its type demands what stands at the sites for the type, if that is so of
the plan for each type. -/
lemma Variants.read_sited {α : Type} {variants : Variants α} {demands : α → Demands}
    {sites : String → List Site}
    (h : ∀ entry ∈ variants.plans, Fields.Sited index len entry.2 demands (sites entry.1))
    {path : Pointer} {v : Json} {a : α} (result : (variants.read path v).result? = some a) :
    ∃ type, v.type? = some type ∧ demands a = siteDemands index len (sites type) v := by
  obtain ⟨members, type, plan, rfl, htype, found, hplan⟩ := Variants.read_result.mp result
  refine ⟨type, by simp [Json.type?, Json.at?, htype], ?_⟩
  exact h (type, plan) (Members.mem_of_get? found) path members a hplan

/-- An event of one's own writes its value, if it is stored at all. -/
lemma Trigger.customEvent_sited :
    Fields.Sited index len
      (customEvent <$> Fields.required "name" .string <*> Fields.optional "output" .string)
      demands (written "output") := by
  intro path members trigger h
  have fields := yields_of_result h
  simp only [yields_seq, yields_map] at fields
  obtain ⟨name, -, output, houtput, rfl⟩ := fields
  rw [written_optional houtput]
  cases output <;> rfl

/-- For every type, the plan of a trigger demands what stands at the sites for the type. -/
lemma Trigger.plans_sited :
    ∀ entry ∈ variants.plans, Fields.Sited index len entry.2 demands (ofTrigger entry.1) := by
  have nothing : ∀ {α : Type} {plan : Fields α} {f : α → Trigger} {type : String},
      (∀ a, (f a).demands = []) → ofTrigger type = [] →
      Fields.Sited index len (f <$> plan) demands (ofTrigger type) := by
    intro α plan f type none noSites
    rw [noSites]
    exact Fields.Sited.map fun path members a _ => none a
  simp only [variants, List.forall_mem_cons, List.not_mem_nil, false_implies, implies_true,
    and_true]
  refine ⟨?attachment, customEvent_sited, ?event, ?intent, ?message, ?nestedDialogue⟩
  case attachment =>
    intro path members trigger h
    have fields := yields_of_result h
    simp only [yields_seq, yields_map] at fields
    obtain ⟨contentTypes, -, output, -, rfl⟩ := fields
    rfl
  case event => exact nothing (fun _ => rfl) rfl
  case intent => exact nothing (fun _ => rfl) rfl
  case message => exact nothing (fun _ => rfl) rfl
  case nestedDialogue =>
    intro path members trigger h
    cases h
    rfl

/-- A trigger demands what stands at the sites for its type. -/
lemma Trigger.read_demands (index len : Nat) {path : Pointer} {v : Json} {trigger : Trigger}
    (h : (read path v).result? = some trigger) :
    ∃ type, v.type? = some type ∧ trigger.demands = siteDemands index len (ofTrigger type) v :=
  Variants.read_sited plans_sited h

/-! ## Nodes -/

namespace Node

/-- What a node of one kind demands. -/
abbrev demandsOf {α : Type} (index len : Nat) (kind : α → Node) (node : α) : Demands :=
  (kind node).demands index len

/-- A node with a single successor demands that first. -/
lemma demands_of_next {node : Node} {next : Successor}
    (h : node.successors = [("nextNodeIndex", next)]) :
    node.demands index len =
      successorDemand index len ("nextNodeIndex", next) ++ node.partDemands := by
  simp only [demands, h, List.flatMap_cons, List.flatMap_nil, List.append_nil]

/-- A field for a successor demands that it is one of the nodes. -/
lemma successor_demands {name : String} {path : Pointer} {members : Members Json}
    {next : Successor}
    (h : ((Fields.required name Successor.read).read path members).result? = some next) :
    siteDemands index len (successor name) (.object members) =
      successorDemand index len (name, next) := by
  rw [successor, Successor.read_sited.required h]
  cases next <;> rfl

/-- The parts of an answer demand what stands at their sites. -/
lemma outputParts_demands {α β : Type} {first : Reader α} {second : Reader β}
    {name other : String} {demands : α → Demands} {more : β → Demands} {sites rest : List Site}
    (hf : first.Sited index len demands sites) (hs : second.Sited index len more rest)
    {path : Pointer} {members : Members Json} {parts : Option α × Option β}
    (h : ((outputParts (.optional name first) (.optional other second)).read path
      members).result? = some parts) :
    siteDemands index len (behind "outputs" (behind name sites ++ behind other rest))
        (.object members) =
      ifPresent parts.1 (fun a => (demands a).under ["outputs", name]) ++
        ifPresent parts.2 (fun b => (more b).under ["outputs", other]) := by
  have fields := yields_of_result h
  simp only [outputParts, yields_map] at fields
  obtain ⟨outputs, houtputs, rfl⟩ := fields
  have sited : Fields.Sited index len
      (Prod.mk <$> Fields.optional name first <*> Fields.optional other second)
      (fun parts => ifPresent parts.1 (fun a => (demands a).under [name]) ++
        ifPresent parts.2 (fun b => (more b).under [other]))
      (behind name sites ++ behind other rest) := by
    intro path members parts h
    have fields := yields_of_result h
    simp only [yields_seq, yields_map] at fields
    obtain ⟨a, ha, b, hb, rfl⟩ := fields
    rw [siteDemands_append, hf.optional ha, hs.optional hb]
  rw [(object_sited sited).optional houtputs]
  -- without outputs, both sides demand nothing
  cases outputs with
  | none => rfl
  | some parts =>
    obtain ⟨a, b⟩ := parts
    simp only [ifPresent, Option.elim_some, Demands.under_append, Option.getD_some]
    cases a <;> cases b <;> simp [Demands.under_under, Demands.under_empty]

/-- An action demands of the parts of the answer what properties demand. -/
lemma action_sited :
    Fields.Sited index len Action.fields (demandsOf index len action) (ofNode "action") := by
  intro path members node h
  have fields := yields_of_result h
  simp only [Action.fields, yields_seq, yields_map] at fields
  obtain ⟨service, -, outputs, houtputs, next, hnext, rfl⟩ := fields
  rw [demandsOf, demands_of_next rfl, ofNode]
  simp only [siteDemands_append, successor_demands hnext,
    outputParts_demands Properties.read_sited Properties.read_sited houtputs]
  rfl

/-- A prompt for attachments has no site but its successor. -/
lemma attachmentPrompt_sited :
    Fields.Sited index len AttachmentPrompt.fields (demandsOf index len attachmentPrompt)
      (ofNode "attachmentPrompt") := by
  intro path members node h
  have fields := yields_of_result h
  simp only [AttachmentPrompt.fields, yields_seq, yields_map] at fields
  obtain ⟨contentTypes, -, message, -, retryMessage, -, customContent, -, output, -, next, hnext,
    rfl⟩ := fields
  rw [demandsOf, demands_of_next rfl, ofNode]
  -- the output is a place for a file, of which nothing is demanded
  simp only [successor_demands hnext]
  exact List.append_nil _

/-- A card has the sites of its content. -/
lemma card_sited :
    Fields.Sited index len Card.fields (demandsOf index len card)
      (ofNode "card") := by
  intro path members node h
  have fields := yields_of_result h
  simp only [Card.fields, yields_seq, yields_map] at fields
  obtain ⟨content, hcontent, next, hnext, rfl⟩ := fields
  rw [demandsOf, demands_of_next rfl, ofNode]
  simp only [siteDemands_append, successor_demands hnext,
    CardContent.read_sited.required hcontent]
  rfl

/-- A collection of cards writes its item and its output, besides the sites of the content. -/
lemma cardCollection_sited :
    Fields.Sited index len CardCollection.fields (demandsOf index len cardCollection)
      (ofNode "cardCollection") := by
  intro path members node h
  have fields := yields_of_result h
  simp only [CardCollection.fields, yields_seq, yields_map] at fields
  obtain ⟨listName, hlistName, contentItem, -, content, hcontent, output, houtput, pageSize, -,
    next, hnext, rfl⟩ := fields
  rw [demandsOf, demands_of_next rfl, ofNode]
  simp only [siteDemands_append, successor_demands hnext, written_required hlistName,
    CardContent.read_sited.required hcontent, written_required houtput]
  rfl

/-- A choice writes its item, perhaps what is shown of it, and its output. -/
lemma choicePrompt_sited :
    Fields.Sited index len ChoicePrompt.fields (demandsOf index len choicePrompt)
      (ofNode "choicePrompt") := by
  intro path members node h
  have fields := yields_of_result h
  simp only [ChoicePrompt.fields, yields_seq, yields_map] at fields
  obtain ⟨message, -, retryMessage, -, listName, hlistName, displayName, hdisplayName, output,
    houtput, next, hnext, rfl⟩ := fields
  rw [demandsOf, demands_of_next rfl, ofNode]
  simp only [siteDemands_append, successor_demands hnext, written_required hlistName,
    written_optional hdisplayName, written_required houtput]
  rfl

/-- A confirmation writes its output. -/
lemma confirmationPrompt_sited :
    Fields.Sited index len ConfirmationPrompt.fields (demandsOf index len confirmationPrompt)
      (ofNode "confirmationPrompt") := by
  intro path members node h
  have fields := yields_of_result h
  simp only [ConfirmationPrompt.fields, yields_seq, yields_map] at fields
  obtain ⟨message, -, retryMessage, -, positiveMessage, -, negativeMessage, -, output, houtput,
    next, hnext, rfl⟩ := fields
  rw [demandsOf, demands_of_next rfl, ofNode]
  simp only [siteDemands_append, successor_demands hnext, written_required houtput]
  rfl

/-- A collection of custom cards writes its item and its output, and may compute and validate. -/
lemma customCardCollection_sited :
    Fields.Sited index len CustomCardCollection.fields (demandsOf index len customCardCollection)
      (ofNode "customCardCollection") := by
  intro path members node h
  have fields := yields_of_result h
  simp only [CustomCardCollection.fields, yields_seq, yields_map] at fields
  obtain ⟨listName, hlistName, contentItem, -, customContent, -, retryMessage, -, outputOperation,
    houtputOperation, output, houtput, pageSize, -, validation, hvalidation, next, hnext,
    rfl⟩ := fields
  rw [demandsOf, demands_of_next rfl, ofNode]
  simp only [siteDemands_append, successor_demands hnext, written_required hlistName,
    OutputOperation.read_sited.optional houtputOperation, written_required houtput,
    typed_optional hvalidation]
  rfl

/-- An event that is raised may read a variable for its data. -/
lemma customEvent_sited :
    Fields.Sited index len CustomEvent.fields (demandsOf index len customEvent)
      (ofNode "customEvent") := by
  intro path members node h
  have fields := yields_of_result h
  simp only [CustomEvent.fields, yields_seq, yields_map] at fields
  obtain ⟨name, -, data, hdata, rfl⟩ := fields
  rw [ofNode]
  simp only [Lookup.read_sited.optional hdata]
  rfl

/-- A decision holds a condition and has two successors. -/
lemma decision_sited :
    Fields.Sited index len Decision.fields (demandsOf index len decision)
      (ofNode "decision") := by
  intro path members node h
  have fields := yields_of_result h
  simp only [Decision.fields, yields_seq, yields_map] at fields
  obtain ⟨rule, hrule, pass, hpass, fail, hfail, rfl⟩ := fields
  rw [ofNode]
  simp only [siteDemands_append, successor_demands hpass, successor_demands hfail,
    typed_required hrule]
  -- a decision alone has two successors
  simp only [demandsOf, demands, successors, List.flatMap_cons, List.flatMap_nil, List.append_nil]
  rfl

/-- A call of a dialogue may hand expressions over and take outputs back. -/
lemma dialogue_sited :
    Fields.Sited index len DialogueCall.fields (demandsOf index len dialogue)
      (ofNode "dialogue") := by
  intro path members node h
  have fields := yields_of_result h
  simp only [DialogueCall.fields, yields_seq, yields_map] at fields
  obtain ⟨dialogueId, -, inputs, hinputs, outputs, houtputs, next, hnext, rfl⟩ := fields
  rw [demandsOf, demands_of_next rfl, ofNode]
  simp only [siteDemands_append, successor_demands hnext,
    Inputs.read_sited.optional hinputs, Outputs.read_sited.optional houtputs]
  rfl

/-- A message has no site but its successor. -/
lemma message_sited :
    Fields.Sited index len Message.fields (demandsOf index len message)
      (ofNode "message") := by
  intro path members node h
  have fields := yields_of_result h
  simp only [Message.fields, yields_seq, yields_map] at fields
  obtain ⟨message, -, customContent, -, next, hnext, rfl⟩ := fields
  rw [demandsOf, demands_of_next rfl, ofNode]
  simp only [successor_demands hnext]
  exact List.append_nil _

/-- An operation holds an expression and writes its value. -/
lemma operation_sited :
    Fields.Sited index len Operation.fields (demandsOf index len operation)
      (ofNode "operation") := by
  intro path members node h
  have fields := yields_of_result h
  simp only [Operation.fields, yields_seq, yields_map] at fields
  obtain ⟨operation, hoperation, output, houtput, next, hnext, rfl⟩ := fields
  rw [demandsOf, demands_of_next rfl, ofNode]
  simp only [siteDemands_append, successor_demands hnext,
    typed_required hoperation, written_required houtput]
  rfl

/-- A repeated call hands expressions over, takes outputs back and holds a condition. -/
lemma repeatDialogue_sited :
    Fields.Sited index len RepeatDialogue.fields (demandsOf index len repeatDialogue)
      (ofNode "repeatDialogue") := by
  intro path members node h
  have fields := yields_of_result h
  simp only [RepeatDialogue.fields, yields_seq, yields_map] at fields
  obtain ⟨dialogueId, -, inputs, hinputs, outputs, houtputs, repeatUntil, hrepeatUntil, next,
    hnext, rfl⟩ := fields
  rw [demandsOf, demands_of_next rfl, ofNode]
  simp only [siteDemands_append, successor_demands hnext,
    Inputs.read_sited.required hinputs, Outputs.read_sited.required houtputs,
    typed_required hrepeatUntil]
  rfl

/-- A call for each item of a list writes the item, and may hand expressions over. -/
lemma sequenceDialogue_sited :
    Fields.Sited index len SequenceDialogue.fields (demandsOf index len sequenceDialogue)
      (ofNode "sequenceDialogue") := by
  intro path members node h
  have fields := yields_of_result h
  simp only [SequenceDialogue.fields, yields_seq, yields_map] at fields
  obtain ⟨dialogueId, -, inputItem, -, inputs, hinputs, listName, hlistName, next, hnext,
    rfl⟩ := fields
  rw [demandsOf, demands_of_next rfl, ofNode]
  simp only [siteDemands_append, successor_demands hnext,
    Inputs.read_sited.optional hinputs, written_required hlistName]
  rfl

/-- The content that is downloaded has no sites. -/
lemma downloadAction_sited :
    Fields.Sited index len DownloadAction.fields (demandsOf index len downloadAction)
      (ofNode "downloadAction") := by
  intro path members node h
  have fields := yields_of_result h
  simp only [DownloadAction.fields, yields_seq, yields_map] at fields
  obtain ⟨service, -, outputs, houtputs, next, hnext, rfl⟩ := fields
  have content : Reader.Sited index len blob (fun _ => []) [] := fun _ _ _ _ => rfl
  have none : ifPresent outputs.1 (fun _ => Demands.under ["outputs", "content"] []) = [] := by
    cases outputs.1 <;> rfl
  have parts := outputParts_demands content Properties.read_sited houtputs
  rw [none, List.nil_append] at parts
  rw [demandsOf, demands_of_next rfl, ofNode, siteDemands_append, successor_demands hnext]
  exact congrArg _ parts.symm

/-- The event that ends a dialogue has no sites. -/
lemma event_sited :
    Fields.Sited index len NodeEvent.field (demandsOf index len event) (ofNode "event") :=
  fun _ _ _ _ => rfl

/-- A simple question writes its output and may hold a condition, whatever its kind. -/
lemma simplePrompt_sited {kind : PromptKind} :
    Fields.Sited index len (SimplePrompt.fields kind) (demandsOf index len simplePrompt)
      (ofNode kind.typeName) := by
  have sites : ofNode kind.typeName = Sites.simplePrompt := by cases kind <;> rfl
  intro path members node h
  have fields := yields_of_result h
  simp only [SimplePrompt.fields, yields_seq, yields_map] at fields
  obtain ⟨message, -, retryMessage, -, customContent, -, output, houtput, validation, hvalidation,
    next, hnext, rfl⟩ := fields
  rw [demandsOf, demands_of_next rfl, sites]
  simp only [Sites.simplePrompt, siteDemands_append, successor_demands hnext,
    written_required houtput, typed_optional hvalidation]
  rfl

/-- A node demands what its content demands as a node of its kind. -/
lemma kind_sited {α : Type} {kind : α → Node} {plan : Fields α} {sites : List Site}
    (h : Fields.Sited index len plan (demandsOf index len kind) sites) :
    Fields.Sited index len (kind <$> plan) (fun node => node.demands index len) sites :=
  Fields.Sited.map h

/-- The plan of a simple question demands what stands at the sites for its type. -/
lemma promptPlan_sited {kind : PromptKind} :
    Fields.Sited index len (promptPlan kind).2 (fun node => node.demands index len)
      (ofNode (promptPlan kind).1) :=
  kind_sited simplePrompt_sited

/-- For every type, the plan of a node demands what stands at the sites for the type. -/
lemma plans_sited :
    ∀ entry ∈ variants.plans,
      Fields.Sited index len entry.2 (fun node => node.demands index len) (ofNode entry.1) := by
  simp only [variants, List.forall_mem_cons, List.not_mem_nil, false_implies, implies_true,
    and_true]
  exact ⟨kind_sited action_sited, kind_sited attachmentPrompt_sited, kind_sited card_sited,
    kind_sited cardCollection_sited, kind_sited choicePrompt_sited,
    kind_sited confirmationPrompt_sited, kind_sited customCardCollection_sited,
    kind_sited customEvent_sited, promptPlan_sited, promptPlan_sited, kind_sited decision_sited,
    kind_sited dialogue_sited, kind_sited downloadAction_sited, kind_sited event_sited,
    kind_sited message_sited, promptPlan_sited, kind_sited operation_sited,
    kind_sited repeatDialogue_sited, kind_sited sequenceDialogue_sited, promptPlan_sited,
    promptPlan_sited⟩

/-- A node demands what stands at the sites for its type. -/
lemma read_demands (index len : Nat) {path : Pointer} {v : Json} {node : Node}
    (h : (read path v).result? = some node) :
    ∃ type, v.type? = some type ∧
      node.demands index len = siteDemands index len (ofNode type) v :=
  Variants.read_sited plans_sited h

/-- There is a slot for every item of an array. -/
lemma readAll_array (path : Pointer) (values : List Json) :
    (readAll path (.array values)).result? =
      some (values.zipIdx.map fun item => (read (path.item item.2) item.1).result?) := by
  cases values with
  | nil => rfl
  | cons v values =>
    simp only [readAll, itemsFrom_eq_map, List.map_map]
    rfl

end Node

/-! ## Documents -/

/-- What the draft of an object demands is what the parts that could be read demand. -/
lemma Draft.read_demands {members : Members Json} :
    (read (.object members)).1.demands =
      ifPresent ((Fields.required "trigger" Trigger.read).read .root members).result?
          (fun trigger => trigger.demands.under ["trigger"]) ++
        (Node.allDemands (((Fields.required "nodes" Node.readAll).read .root members).result?.getD
          [])).under ["nodes"] ++
        ifPresent ((Fields.optional "model" Properties.read).read .root members).result?.join
          (fun properties => properties.demands.under ["model"]) ++
        ifPresent ((Fields.optional "entities" Properties.read).read .root members).result?.join
          (fun properties => properties.demands.under ["entities"]) :=
  rfl

end DialogueLint
