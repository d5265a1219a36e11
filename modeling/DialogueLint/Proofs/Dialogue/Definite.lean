import DialogueLint.Proofs.Dialogue.Conformance

/-!
# What is dropped

A part of a dialogue is dropped exactly if more than a stray key is wrong with it: from what a
reader reports it can be told whether it has a result (`reading_definite`). This holds of triggers,
nodes and properties, of the plan for every type of trigger and node, of the objects inside them and
of every reader that is called on the way.

The proofs use that every plan follows the rules of the schema (`Fields.Follows`), from which it is
known that its readers settle what they report. A step without a result has then reported more than
stray keys, and a step with a result has not. The list of readers is spelled out (`ReadsNested`,
`ReadsPart`), so that none of those that are called is left out.
-/

namespace DialogueLint

open Fields Reader

/-! ## Plans and objects -/

/-- A plan calls definite readers only, and what it reads of a closed object has a result as soon as
none of its steps fails. -/
def Fields.Definite {α : Type} (plan : Fields α) : Prop :=
  ∃ steps, plan.Takes steps ∧ (∀ step ∈ steps, step.Definite) ∧
    ∀ more path members, (∃ a, (plan.close more path members).result? = some a) ↔
      ∀ step ∈ steps, ¬ step.Fails path members

/-- A definite reader of a closed object by a definite plan. -/
structure Reader.ReadsDefinitely {α : Type} (reader : Reader α) : Prop where
  definite : reader.Definite
  plan : ∃ expected plan, reader = Fields.object expected plan ∧ plan.Definite

section

variable {α : Type} {plan : Fields α} {rules : List FieldRule}

/-- A plan that follows rules is definite. -/
lemma Fields.Follows.definite (h : plan.Follows rules) : plan.Definite := by
  obtain ⟨steps, takes, fields⟩ := h.steps
  refine ⟨steps, takes, ?_, fun more _ _ => takes.close_result more⟩
  intro step mem
  exact (fields step mem).definite

/-- It stays so if at least one of several fields has to be there. -/
lemma Fields.Follows.anyOf_definite (h : plan.Follows rules) {union : String}
    {names : List String} : (anyOf union names *> plan).Definite := by
  obtain ⟨steps, takes, fields⟩ := h.steps
  have both : (anyOf union names *> plan).Takes ([.anyOf union names] ++ steps) :=
    Takes.anyOf.seqRight takes
  refine ⟨_, both, ?_, fun more _ _ => both.close_result more⟩
  rintro step (_ | ⟨_, mem⟩)
  · trivial
  · exact (fields step mem).definite

/-- What reads a closed object by rules reads definitely. -/
lemma Reader.ReadsClosed.readsDefinitely {reader : Reader α} {form : Form}
    (h : reader.ReadsClosed form) : reader.ReadsDefinitely := by
  refine ⟨h.accepts.definite, ?_⟩
  cases h with
  | object follows => exact ⟨_, _, rfl, follows.definite⟩
  | anyOf follows => exact ⟨_, _, rfl, follows.anyOf_definite⟩

/-- The plans of variants that follow a table are definite. -/
lemma Variants.Follows.plans_definite {variants : Variants α}
    {table : List (String × List FieldRule)} (h : variants.Follows table) :
    ∀ entry ∈ variants.plans, entry.2.Definite := by
  unfold Variants.Follows at h
  generalize variants.plans = plans at h
  induction h with
  | nil => simp
  | cons first _ ih => exact List.forall_mem_cons.mpr ⟨first.2.definite, ih⟩

end

/-! ## The readers that are called -/

/-- The readers of the objects inside triggers and nodes. -/
inductive Reader.ReadsNested : {α : Type} → Reader α → Prop where
  | language : ReadsNested MessageValue.readLanguage
  | lookup : ReadsNested Lookup.read
  | customContent : ReadsNested CustomContent.read
  | cardContent : ReadsNested CardContent.read
  | tapOptions : ReadsNested TapOptions.read
  | buttonOptions : ReadsNested ButtonOptions.read
  | service : ReadsNested Service.read
  | download : ReadsNested Service.readDownload
  | outputOperation : ReadsNested OutputOperation.read
  | answer :
    ReadsNested (Fields.object "an outputs object"
      (Prod.mk <$> .optional "body" Properties.read <*> .optional "header" Properties.read))
  | file :
    ReadsNested (Fields.object "an outputs object"
      (Prod.mk <$> .optional "content" .blob <*> .optional "header" Properties.read))

/-- The readers of the items of arrays and of the members of maps. -/
inductive Reader.ReadsPart : {α : Type} → Reader α → Prop where
  | message : ReadsPart MessageValue.read
  | property : ReadsPart PropertyValue.read
  | input {key : String} : ReadsPart (Reader.keyed Reference.isKey .anything key)
  | output : ReadsPart Lookup.read
  | header {name : String} : ReadsPart (Reader.keyed (fun name => name != "") .string name)
  | text : ReadsPart Reader.string

/-- The objects inside triggers and nodes are read definitely. -/
lemma Reader.ReadsNested.readsDefinitely {α : Type} {reader : Reader α} (h : reader.ReadsNested) :
    reader.ReadsDefinitely := by
  cases h with
  | language => exact MessageValue.readLanguage_closed.readsDefinitely
  | lookup => exact Lookup.read_closed.readsDefinitely
  | customContent => exact CustomContent.read_closed.readsDefinitely
  | cardContent => exact CardContent.read_closed.readsDefinitely
  | tapOptions => exact TapOptions.read_closed.readsDefinitely
  | buttonOptions => exact ButtonOptions.read_closed.readsDefinitely
  | service => exact Service.read_closed.readsDefinitely
  | download => exact Service.readDownload_closed.readsDefinitely
  | outputOperation => exact OutputOperation.read_closed.readsDefinitely
  | answer =>
    apply ReadsClosed.readsDefinitely
    apply ReadsClosed.object
    exact ((optional_follows Properties.read_accepts).map _).seq
      (optional_follows Properties.read_accepts)
  | file =>
    apply ReadsClosed.readsDefinitely
    apply ReadsClosed.object
    exact ((optional_follows blob_accepts).map _).seq (optional_follows Properties.read_accepts)

/-- A member with a tested key is read as definitely as its value. -/
lemma Reader.keyed_definite {α : Type} {reader : Reader α} (h : reader.Definite)
    {test : String → Bool} {key : String} : (Reader.keyed test reader key).Definite := by
  apply definite_of_fails
  intro path v
  have read := h.fails path v
  unfold Reader.keyed
  split_ifs with accepted
  · exact read
  · simpa [Diagnostic.kind, Problem.kind] using read

/-- Items of arrays and members of maps are read definitely. -/
lemma Reader.ReadsPart.definite {α : Type} {reader : Reader α} (h : reader.ReadsPart) :
    reader.Definite := by
  cases h with
  | message => exact MessageValue.read_accepts.definite
  | property => exact PropertyValue.read_accepts.definite
  | input => exact keyed_definite anything_accepts.definite
  | output => exact Lookup.read_closed.accepts.definite
  | header => exact keyed_definite string_accepts.definite
  | text => exact string_accepts.definite

/-! ## Main result -/

/-- A part is dropped exactly if more than stray keys is wrong with it. The readers of triggers,
nodes and properties have no result if, and only if, they report more than unknown fields, at any
place and for any value. So do all readers that they call: those of each field in the plan for each
type of trigger and node, those of nested objects and of each of their fields, and those of items
and members. A closed object has a result as soon as none of its fields has failed, so that nothing
can fail behind the report of what is undeclared. -/
theorem reading_definite :
    (Trigger.read.Definite ∧ Node.read.Definite ∧ Properties.read.Definite) ∧
      (∀ entry ∈ Trigger.variants.plans, entry.2.Definite) ∧
      (∀ entry ∈ Node.variants.plans, entry.2.Definite) ∧
      (∀ {α : Type} {reader : Reader α}, reader.ReadsNested → reader.ReadsDefinitely) ∧
      (∀ {α : Type} {reader : Reader α}, reader.ReadsPart → reader.Definite) := by
  refine ⟨⟨?trigger, ?node, ?properties⟩, ?triggerPlans, ?nodePlans, ?nested, ?parts⟩
  case trigger => exact Trigger.read_accepts.definite
  case node => exact Node.read_accepts.definite
  case properties => exact Properties.read_accepts.definite
  case triggerPlans => exact Trigger.variants_follow.plans_definite
  case nodePlans => exact Node.variants_follow.plans_definite
  case nested => exact ReadsNested.readsDefinitely
  case parts => exact ReadsPart.definite

end DialogueLint
