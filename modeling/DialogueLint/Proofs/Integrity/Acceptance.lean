import DialogueLint.Proofs.Dialogue.Conformance
import DialogueLint.Proofs.Integrity.Lawful
import DialogueLint.Proofs.Integrity.Sited
import DialogueLint.Proofs.Typing.Acceptance
import DialogueLint.Validation

/-!
# Validation accepts lawful documents

A document is accepted exactly if it is of the schema and lawful (`validate_accepted_iff`). A node
of the schema that was read demands what stands at the sites of its type (`Node.read_demands`), so
it has to be shown that the sites of each type are those that the law for nodes speaks of: no field
of the schema that the law mentions is without a site, and there is no site besides.

The facts about sites and types are checked by evaluation of the two tables, once for each
direction: every field that the law mentions is a site of the types that declare it, and the law
speaks of every site. From there on the proofs are about an arbitrary type with its rules
(`OfType`), and no node type is looked at by itself. Nodes, triggers and properties are then put
together to the document in the order in which the document is read.
-/

namespace DialogueLint

/-! ## Checks -/

section Check

variable {limit : Nat}

/-- A number is an index if it is an integer that is not negative. -/
lemma Number.index?_eq_some {n : Number} {index : Nat} :
    n.index? = some index ↔ n = .integer index := by
  cases n <;> simp [index?, Int.mem_toNat?]

/-- There is nothing to say about a demand that is met, wherever it is made. -/
lemma Demand.check_eq_nil {path : Pointer} {demand : Demand} :
    demand.check limit path = [] ↔ demand.Met limit := by
  cases demand with
  | writes r => cases h : Reference.reserved? r <;> simp [check, Met, h]
  | reads r => exact Typing.ofRead_eq_nil
  | types expect e =>
    -- what there is to say about an expression does not depend on where it stands
    simp only [check, Met, Typing.check_clean]
    exact ⟨fun h _ => h, fun h => h path⟩
  | leads node field target len =>
    simp only [check, Met, ← Number.index?_eq_some]
    cases target.index? with
    | none => simp
    | some index => simp

/-- There is nothing to say about demands that are all met. -/
lemma Demands.check_eq_nil {path : Pointer} {demands : Demands} :
    demands.check limit path = [] ↔ demands.Met limit := by
  simp only [check, List.flatMap_eq_nil_iff, Demand.check_eq_nil, Demands.Met]

end Check

/-- A document is accepted exactly if nothing is reported about its structure and all demands are
met. -/
lemma Settings.accepted_iff {settings : Settings} {v : Json} :
    (settings.validateDocument v).accepted ↔
      (Draft.read v).2 = [] ∧ (Draft.read v).1.demands.Met settings.maxDepth := by
  have demands : (Draft.read v).1.demands.check settings.maxDepth .root = [] ↔
      (Draft.read v).1.demands.Met settings.maxDepth := Demands.check_eq_nil
  rw [Report.accepted, List.isEmpty_iff, ← demands]
  simp only [validateDocument, draftAndReport, conclude]
  cases structural : (Draft.read v).2 with
  | nil => simp
  | cons d rest => split_ifs <;> simp

/-- A field that has to be there holds a value of its form. -/
lemma Fields.ClosedBy.exists_of_must {rules : List FieldRule} {more : List String}
    {members : Members Json} (closed : ClosedBy rules more members) {field : String} {form : Form}
    (rule : FieldRule.must field form ∈ rules) :
    ∃ v, Members.get? members field = some v ∧ form v := by
  have holds := closed.1 _ rule
  simp only [FieldRule.Holds, FieldRule.must] at holds
  cases found : Members.get? members field with
  | none => simp [found] at holds
  | some v => exact ⟨v, rfl, by rwa [found] at holds⟩

/-! ## Nodes -/

namespace Node

open Sites

/-- The law for nodes speaks of what stands at a site of a node of a type. -/
def covers (type : String) (site : Site) : Bool :=
  match site.role with
  | .written => site.keys ∈ writtenFields
  | .read => type = "customEvent" ∧ site.keys = ["data", "var"]
  | .typed expect => (site.keys, expect) ∈ embeddedFields
  | .keys => (type, site.keys) ∈ writtenMaps
  | .inputs => site.keys = ["inputs"]
  | .outputs => (type, site.keys) ∈ writtenMaps ∧ type ∈ ["dialogue", "repeatDialogue"] ∧
      site.keys = ["outputs"]
  | .successor field => site.keys = [field] ∧ field ∈ successorFields type

/-- The law speaks of all sites of the types in the schema. -/
lemma covers_ofNode : ∀ entry ∈ Schema.nodes, ∀ site ∈ ofNode entry.1, covers entry.1 site := by
  decide

/-- A field that the law takes for written is a written site of every type that declares it. The one
exception holds a blob reference. -/
lemma written_mem_ofNode : ∀ entry ∈ Schema.nodes, ∀ keys ∈ writtenFields,
    (∀ key ∈ keys.head?, key ∈ "type" :: entry.2.map FieldRule.name) →
      ⟨keys, .written⟩ ∈ ofNode entry.1 ∨ (entry.1 = "attachmentPrompt" ∧ keys = ["output"]) := by
  decide

/-- A field that the law takes for an expression is such a site of every type that declares it. -/
lemma typed_mem_ofNode : ∀ entry ∈ Schema.nodes, ∀ field ∈ embeddedFields,
    (∀ key ∈ field.1.head?, key ∈ "type" :: entry.2.map FieldRule.name) →
      ⟨field.1, .typed field.2⟩ ∈ ofNode entry.1 := by
  decide

/-- The inputs of a call of a dialogue are a site of every type that declares them. -/
lemma inputs_mem_ofNode : ∀ entry ∈ Schema.nodes,
    "inputs" ∈ "type" :: entry.2.map FieldRule.name → ⟨["inputs"], .inputs⟩ ∈ ofNode entry.1 := by
  decide

/-- A map that the law takes for written is a site of its type. -/
lemma keys_mem_ofNode : ∀ entry ∈ writtenMaps,
    ⟨entry.2, .keys⟩ ∈ ofNode entry.1 ∨ ⟨entry.2, .outputs⟩ ∈ ofNode entry.1 := by
  decide

/-- The outputs of a call of a dialogue are a site. -/
lemma outputs_mem_ofNode : ∀ type ∈ ["dialogue", "repeatDialogue"],
    ⟨["outputs"], .outputs⟩ ∈ ofNode type := by
  decide

/-- The fields for the successors of a type are sites of it. -/
lemma successor_mem_ofNode : ∀ entry ∈ Schema.nodes, ∀ field ∈ successorFields entry.1,
    ⟨[field], .successor field⟩ ∈ ofNode entry.1 := by
  decide

/-- The schema demands the fields for the successors of a type, each with the form of a successor.
-/
lemma successor_mem_rules : ∀ entry ∈ Schema.nodes, ∀ field ∈ successorFields entry.1,
    FieldRule.must field Schema.successor ∈ entry.2 := by
  simp [Schema.nodes, Schema.simplePrompt, Schema.next, successorFields]

/-- The output of a question for attachments is a place for a file. -/
lemma blob_mem_rules : ∀ entry ∈ Schema.nodes, entry.1 = "attachmentPrompt" →
    FieldRule.must "output" Schema.blob ∈ entry.2 := by
  simp [Schema.nodes]

/-- Members make a node of a type of the schema, by the rules for the type. -/
structure OfType (type : String) (rules : List FieldRule) (members : Members Json) : Prop where
  entry : (type, rules) ∈ Schema.nodes
  named : Json.type? (.object members) = some type
  closed : Fields.ClosedBy rules ["type"] members

/-- The value at every site of a type obeys. -/
def SitesMet (limit len : Nat) (type : String) (node : Json) : Prop :=
  ∀ site ∈ ofNode type, ∀ w, Json.at? site.keys node = some w → site.role.Met limit len w

section OfType

variable {limit len : Nat} {type : String} {rules : List FieldRule} {members : Members Json}

namespace OfType

variable (node : OfType type rules members)
include node

/-- The first key on the way to a value is declared. -/
lemma declared {keys : List String} {w : Json} (found : Json.at? keys (.object members) = some w) :
    ∀ key ∈ keys.head?, key ∈ "type" :: rules.map FieldRule.name := by
  cases keys with
  | nil => simp
  | cons key keys =>
    simp only [List.head?_cons, Option.mem_some_iff, forall_eq']
    obtain ⟨v, hv, -⟩ := Option.bind_eq_some_iff.mp found
    exact node.closed.2 key (Members.get?_isSome.mp (by simp [hv]))

/-- A node of a type has no other type. -/
lemma eq_of_named {other : String} (h : Json.type? (.object members) = some other) :
    other = type :=
  Option.some.inj (h.symm.trans node.named)

variable (met : SitesMet limit len type (.object members))
include met

/-- Successors that obey lead somewhere. -/
lemma leads {field : String} (declared : field ∈ successorFields type) :
    ∃ target, Json.at? [field] (.object members) = some target ∧ Leads len target := by
  have rule := successor_mem_rules _ node.entry field declared
  obtain ⟨target, hget, form⟩ := node.closed.exists_of_must rule
  have found := Json.at?_field.trans hget
  rcases form with rfl | ⟨n, rfl⟩
  · exact ⟨_, found, .inl rfl⟩
  · obtain ⟨index, rfl, small⟩ :=
      met _ (successor_mem_ofNode _ node.entry field declared) _ found n rfl
    exact ⟨_, found, .inr ⟨index, rfl, small⟩⟩

/-- If the sites obey, no reference in a namespace of the system is written. -/
lemma unreserved {r : String} (writes : Writes (.object members) r) :
    Reference.reserved? r = none := by
  cases writes with
  | @field keys _ mem found =>
    rcases written_mem_ofNode _ node.entry keys mem (node.declared found) with site | ⟨rfl, rfl⟩
    · exact met _ site _ found r rfl
    · -- the output of a question for attachments is no site, but its form is enough
      obtain ⟨v, hv, s, rfl, blob⟩ := node.closed.exists_of_must (blob_mem_rules _ node.entry rfl)
      cases found.symm.trans (Json.at?_field.trans hv)
      exact Reference.reserved?_of_isBlobPattern blob
  | @key other keys inner _ map hother found key =>
    -- the keys of outputs are written like those of other maps
    cases node.eq_of_named hother
    obtain ⟨m, mem, rfl⟩ := List.mem_map.mp key
    rcases keys_mem_ofNode _ map with site | site
    · exact met _ site _ found inner rfl m mem
    · exact (met _ site _ found inner rfl m mem).1

/-- If the sites obey, every reference that is read outside expressions may be read. -/
lemma readable {r : String} (reads : Reads (.object members) r) : Reference.isReadable r := by
  cases reads with
  | data hother found =>
    cases node.eq_of_named hother
    exact met ⟨["data", "var"], .read⟩ (by decide) _ found r rfl
  | @output other inner m _ kind hother found mem var =>
    cases node.eq_of_named hother
    exact (met _ (outputs_mem_ofNode type kind) _ found inner rfl m mem).2 r var

/-- If the sites obey, there is nothing to say about the expressions in a node. -/
lemma typed {expect : Expectation} {e : Json} (embeds : Embeds (.object members) expect e)
    (path : Pointer) : (Typing.check limit expect path e).diagnostics = [] := by
  cases embeds with
  | field mem found =>
    exact met _ (typed_mem_ofNode _ node.entry _ mem (node.declared found)) _ found path
  | @input inner m found mem =>
    have site := inputs_mem_ofNode _ node.entry (node.declared found _ rfl)
    exact met _ site _ found inner rfl m mem path

end OfType

/-- What stands at the sites of a lawful node obeys. -/
lemma Lawful.sitesMet (lawful : Lawful limit len (.object members))
    (node : OfType type rules members) : SitesMet limit len type (.object members) := by
  rintro ⟨keys, role⟩ mem w found
  have covered := covers_ofNode _ node.entry _ mem
  -- each role is covered by a clause of the law
  cases role with
  | written =>
    have field : keys ∈ writtenFields := by simpa [covers] using covered
    rintro r rfl
    exact lawful.writes r (.field field found)
  | read =>
    obtain ⟨rfl, rfl⟩ : type = "customEvent" ∧ keys = ["data", "var"] := by
      simpa [covers] using covered
    rintro r rfl
    exact lawful.reads r (.data node.named found)
  | typed expect =>
    have field : (keys, expect) ∈ embeddedFields := by simpa [covers] using covered
    exact lawful.expressions expect w (.field field found)
  | keys =>
    have map : (type, keys) ∈ writtenMaps := by simpa [covers] using covered
    rintro inner rfl m mem
    exact lawful.writes m.1 (.key map node.named found (List.mem_map_of_mem mem))
  | inputs =>
    obtain rfl : keys = ["inputs"] := by simpa [covers] using covered
    rintro inner rfl m mem
    exact lawful.expressions .logic m.2 (.input found mem)
  | outputs =>
    obtain ⟨map, kind, rfl⟩ : (type, keys) ∈ writtenMaps ∧
        type ∈ ["dialogue", "repeatDialogue"] ∧ keys = ["outputs"] := by
      simpa [covers] using covered
    rintro inner rfl m mem
    exact ⟨lawful.writes m.1 (.key map node.named found (List.mem_map_of_mem mem)),
      fun r var => lawful.reads r (.output kind node.named found mem var)⟩
  | successor field =>
    obtain ⟨rfl, declared⟩ : keys = [field] ∧ field ∈ successorFields type := by
      simpa [covers] using covered
    rintro n rfl
    obtain ⟨target, hw, leads⟩ := lawful.successors type node.named field declared
    cases found.symm.trans hw
    rcases leads with h | ⟨index, h, small⟩
    · cases h
    · cases h
      exact ⟨index, rfl, small⟩

/-- The sites of a node of the schema obey exactly if the node is lawful. -/
lemma OfType.sitesMet_iff (node : OfType type rules members) :
    SitesMet limit len type (.object members) ↔ Lawful limit len (.object members) := by
  refine ⟨fun met => ⟨?_, fun _ => node.unreserved met, fun _ => node.readable met,
    fun _ _ => node.typed met⟩, fun lawful => lawful.sitesMet node⟩
  intro other hother field declared
  cases node.eq_of_named hother
  exact node.leads met declared

end OfType

/-- What a node of the schema demands is met exactly if the node is lawful. -/
lemma demands_met_iff {limit index len : Nat} {path : Pointer} {v : Json} {node : Node}
    (form : Form.tagged Schema.nodes v) (h : (read path v).result? = some node) :
    (node.demands index len).Met limit ↔ Lawful limit len v := by
  obtain ⟨type, named, same⟩ := read_demands index len h
  obtain ⟨members, -, -, rfl, -⟩ := Variants.read_result.mp h
  obtain ⟨other, rules, htype, found, closed⟩ := (Variants.tagged_object (by decide)).mp form
  have known : Json.type? (.object members) = some other :=
    Json.type?_eq_some.mpr (Json.at?_field.trans htype)
  -- the type that was read is the type by which the schema has the node
  cases known.symm.trans named
  have ofType : OfType type rules members := ⟨Members.mem_of_get? found, named, closed⟩
  rw [same, siteDemands_met]
  exact ofType.sitesMet_iff

/-- What all nodes demand is met if what each of them demands is. -/
lemma allDemands_met {limit : Nat} {slots : List (Option Node)} :
    (allDemands slots).Met limit ↔ ∀ index (node : Node), slots[index]? = some (some node) →
      (node.demands index slots.length).Met limit := by
  simp only [allDemands, Demands.met_flatMap, Demands.met_ifPresent, Demands.met_under, Prod.forall,
    List.mem_zipIdx_iff_getElem?, Option.mem_def]
  constructor
  · intro h index node found
    exact h _ index found node rfl
  · rintro h _ index found node rfl
    exact h index node found

/-- What an array of nodes of the schema demands is met exactly if every node is lawful. -/
lemma allDemands_met_iff {limit : Nat} {path : Pointer} {values : List Json}
    {slots : List (Option Node)} (form : ∀ v ∈ values, Form.tagged Schema.nodes v)
    (h : (readAll path (.array values)).result? = some slots) :
    (allDemands slots).Met limit ↔ ∀ v ∈ values, Lawful limit values.length v := by
  cases (readAll_array path values).symm.trans h
  simp only [allDemands_met, List.length_map, List.length_zipIdx, List.getElem?_map,
    List.getElem?_zipIdx, Option.map_map, Option.map_eq_some_iff, Function.comp_apply, Nat.zero_add]
  constructor
  · intro met v mem
    obtain ⟨index, found⟩ := List.mem_iff_getElem?.mp mem
    obtain ⟨node, hnode⟩ := (read_accepts (path.item index) v).result (form v mem)
    exact (demands_met_iff (form v mem) hnode).mp (met index node ⟨v, found, hnode⟩)
  · rintro lawful index node ⟨v, found, hnode⟩
    have mem := List.mem_of_getElem? found
    exact (demands_met_iff (form v mem) hnode).mpr (lawful v mem)

end Node

/-! ## Triggers -/

/-- What a trigger demands is met exactly if the reference in which the value of an event is stored
is outside the namespaces of the system. -/
lemma Trigger.demands_met_iff {limit : Nat} {path : Pointer} {v : Json} {trigger : Trigger}
    (h : (read path v).result? = some trigger) :
    trigger.demands.Met limit ↔ ∀ r, v.type? = some "customEvent" →
      Json.at? ["output"] v = some (.string r) → Reference.reserved? r = none := by
  obtain ⟨type, named, same⟩ := read_demands 0 0 h
  rw [same, siteDemands_met, named]
  by_cases event : type = "customEvent"
  · subst event
    have sites : Sites.ofTrigger "customEvent" = [⟨["output"], .written⟩] := rfl
    simp only [sites, List.forall_mem_singleton, Role.Met]
    constructor
    · intro met r _ found
      exact met _ found r rfl
    · rintro unreserved w found r rfl
      exact unreserved r trivial found
  · have sites : Sites.ofTrigger type = [] := by
      unfold Sites.ofTrigger
      split
      · exact absurd rfl event
      · rfl
    simp [sites, event]

/-! ## Documents -/

namespace Document

variable {limit : Nat} {members : Members Json}

/-- What the properties in a field of a document demand is met exactly if no key of them is in a
namespace of the system. -/
lemma properties_met_iff {name : String}
    (holds : (FieldRule.may name Schema.properties).Holds members) :
    (Demands.ifPresent ((Fields.optional name Properties.read).read .root members).result?.join
        fun properties => properties.demands.under [name]).Met limit ↔
      ∀ inner r, Json.at? [name] (.object members) = some (.object inner) →
        r ∈ Members.keys inner → Reference.reserved? r = none := by
  obtain ⟨properties, h⟩ := ((Fields.optional_follows Properties.read_accepts).settles .root
    members).result (List.forall_mem_singleton.mpr holds)
  have sited : Reader.Sited 0 0 Properties.read Properties.demands (Sites.here .keys) :=
    Properties.read_sited
  rw [h, Option.join_some, ← sited.optional h, siteDemands_met]
  simp only [Sites.behind, Sites.here, List.map_cons, List.map_nil, List.forall_mem_singleton,
    Role.Met]
  constructor
  · intro met inner r found key
    obtain ⟨m, mem, rfl⟩ := List.mem_map.mp key
    exact met _ found inner rfl m mem
  · rintro unreserved w found inner rfl m mem
    exact unreserved inner m.1 found (List.mem_map_of_mem mem)

/-- What the draft of a document of the schema demands is met exactly if the document is lawful. -/
lemma demands_met_iff (closed : Fields.ClosedBy Schema.document [] members) :
    (Draft.read (.object members)).1.demands.Met limit ↔ Lawful limit (.object members) := by
  have triggerRule : .must "trigger" (.tagged Schema.triggers) ∈ Schema.document := by
    simp [Schema.document]
  have nodesRule : .must "nodes" (.someOf (.tagged Schema.nodes)) ∈ Schema.document := by
    simp [Schema.document]
  have propertiesRule : ∀ name ∈ ["model", "entities"],
      .may name Schema.properties ∈ Schema.document := by
    simp [Schema.document]
  -- both required parts are there and can be read
  obtain ⟨t, htrigger, triggerForm⟩ := closed.exists_of_must triggerRule
  obtain ⟨trigger, triggerRead⟩ := (Trigger.read_accepts (.push .root "trigger") t).result
    triggerForm
  have triggerResult := Fields.required_result.mpr ⟨t, htrigger, triggerRead⟩
  obtain ⟨_, hnodes, values, rfl, -, nodeForms⟩ := closed.exists_of_must nodesRule
  have nodesRead := Node.readAll_array (.push .root "nodes") values
  have nodesResult := Fields.required_result.mpr ⟨_, hnodes, nodesRead⟩
  have nodesOf : nodes (.object members) = values := by
    simp only [nodes, Json.at?_field, hnodes]
  have triggerType : Json.at? ["trigger", "type"] (.object members) = Json.at? ["type"] t :=
    Json.at?_cons htrigger
  have triggerOutput : Json.at? ["trigger", "output"] (.object members) = Json.at? ["output"] t :=
    Json.at?_cons htrigger
  simp only [Draft.read_demands, triggerResult, nodesResult, Demands.met_append,
    properties_met_iff (closed.1 _ (propertiesRule "model" (by simp))),
    properties_met_iff (closed.1 _ (propertiesRule "entities" (by simp)))]
  simp only [Demands.ifPresent, Option.elim_some, Option.getD_some, Demands.met_under,
    Trigger.demands_met_iff triggerRead, Node.allDemands_met_iff nodeForms nodesRead]
  constructor
  · rintro ⟨⟨⟨event, lawful⟩, model⟩, entities⟩
    refine ⟨fun r writes => ?_, nodesOf ▸ lawful⟩
    cases writes with
    | trigger type output =>
      exact event r (Json.type?_eq_some.mpr (triggerType ▸ type)) (triggerOutput ▸ output)
    | @property name inner _ field found key =>
      simp only [List.mem_cons, List.not_mem_nil, or_false] at field
      rcases field with rfl | rfl
      · exact model inner r found key
      · exact entities inner r found key
  · rintro ⟨writes, lawful⟩
    rw [nodesOf] at lawful
    refine ⟨⟨⟨fun r type output => writes r ?_, lawful⟩, fun inner r found key => ?_⟩,
      fun inner r found key => ?_⟩
    · exact .trigger (triggerType.trans (Json.type?_eq_some.mp type)) (triggerOutput.trans output)
    · exact writes r (.property (by simp) found key)
    · exact writes r (.property (by simp) found key)

end Document

/-- Validation accepts the lawful documents of the schema. For every JSON value and all settings,
the value is accepted exactly if nothing is reported about its structure and, on the JSON itself,
every successor field of every node is `null` or the index of one of the nodes, no reference in a
namespace of the system is written, all references that are read may be read, and there is nothing
to say about any expression. -/
theorem validate_accepted_iff (settings : Settings) (v : Json) :
    (settings.validateDocument v).accepted ↔
      (Draft.read v).2 = [] ∧ Document.Lawful settings.maxDepth v := by
  rw [Settings.accepted_iff]
  apply and_congr_right
  intro clean
  rw [Draft.read_diagnostics] at clean
  obtain ⟨members, rfl, keys, holds⟩ := (Draft.fields_inspect.object .root v).clean.mp clean
  exact Document.demands_met_iff ⟨holds, keys⟩

end DialogueLint
