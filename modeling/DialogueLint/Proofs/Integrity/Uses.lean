import DialogueLint.Proofs.Integrity.Acceptance
import DialogueLint.Proofs.Integrity.Demands

/-!
# Uses of references

Where a document writes and reads references outside its expressions, and where it holds
expressions, stated on the JSON: `Node.Refers`, `Node.Holds`, `Document.Refers` and
`Document.Holds`. Only parts that can be read count, and in a node only the fields that the schema
declares for its type. The places are those of the demands that a document makes
(`Document.refers_iff`, `Document.holds_iff`), and no reference is used inside an expression that is
held (`Document.Refers.outside`).

The relations name the fields by the schema, and the proofs compare them with the sites of the same
types. In one direction a use is demanded at a site, in the other each demand on a reference comes
from a use, and the same for expressions. As the sites of a type diverge, a reference outside
expressions is at no place inside one.
-/

namespace DialogueLint

/-- What a dialogue does with a reference. -/
inductive Use where
  /-- The reference is written. -/
  | written
  /-- The reference is read. -/
  | read

/-- The use of a reference is refused: references in a namespace of the system are not written, and
only some of them are read. -/
def Use.Refuses : Use → String → Prop
  | written, r => Reference.reserved? r ≠ none
  | read, r => ¬ Reference.isReadable r

/-- What the use of a reference demands. -/
def Use.demand : Use → String → Demand
  | written, r => .writes r
  | read, r => .reads r

/-! ## Nodes -/

namespace Node

/-- The schema has a field of this name in nodes of the type. -/
def Declares (type name : String) : Prop :=
  ∃ rules, (type, rules) ∈ Schema.nodes ∧ name ∈ rules.map FieldRule.name

/-- A node uses a reference at a place below it. The output of a question for attachments is not one
of the fields that are written: it is a place for a file. -/
inductive Refers (node : Json) : List String → Use → String → Prop where
  | field {type name keys r} : node.type? = some type → Declares type name →
      name :: keys ∈ writtenFields → (type, name) ≠ ("attachmentPrompt", "output") →
      Json.at? (name :: keys) node = some (.string r) → Refers node (name :: keys) .written r
  | key {type keys members r} : node.type? = some type → (type, keys) ∈ writtenMaps →
      Json.at? keys node = some (.object members) → r ∈ Members.keys members →
      Refers node (keys ++ [r]) .written r
  | data {r} : node.type? = some "customEvent" →
      Json.at? ["data", "var"] node = some (.string r) → Refers node ["data", "var"] .read r
  | output {type members m r} : node.type? = some type → type ∈ ["dialogue", "repeatDialogue"] →
      Json.at? ["outputs"] node = some (.object members) → m ∈ members →
      Json.at? ["var"] m.2 = some (.string r) → Refers node ["outputs", m.1, "var"] .read r

/-- A node holds an expression at a place below it. -/
inductive Holds (node : Json) : List String → Prop where
  | field {type name keys expect e} : node.type? = some type → Declares type name →
      (name :: keys, expect) ∈ embeddedFields → Json.at? (name :: keys) node = some e →
      Holds node (name :: keys)
  | input {type members m} : node.type? = some type → Declares type "inputs" →
      Json.at? ["inputs"] node = some (.object members) → m ∈ members → Holds node ["inputs", m.1]

end Node

/-! ## Documents -/

namespace Document

/-- A document uses a reference at a place: the output of its trigger, somewhere in a node, or a key
of its properties, if that part can be read. -/
inductive Refers (v : Json) : Pointer → Use → String → Prop where
  | trigger {t r} : Json.at? ["trigger"] v = some t → (Trigger.read .root t).result?.isSome →
      t.type? = some "customEvent" → Json.at? ["output"] t = some (.string r) →
      Refers v ⟨["trigger", "output"]⟩ .written r
  | node {index : Nat} {node keys use r} : (nodes v)[index]? = some node →
      (Node.read .root node).result?.isSome → Node.Refers node keys use r →
      Refers v ⟨"nodes" :: toString index :: keys⟩ use r
  | property {name members r} : name ∈ ["model", "entities"] →
      Json.at? [name] v = some (.object members) →
      (Properties.read .root (.object members)).result?.isSome → r ∈ Members.keys members →
      Refers v ⟨[name, r]⟩ .written r

/-- A document holds an expression at a place in a node that can be read. -/
inductive Holds (v : Json) : Pointer → Prop where
  | node {index : Nat} {node keys} : (nodes v)[index]? = some node →
      (Node.read .root node).result?.isSome → Node.Holds node keys →
      Holds v ⟨"nodes" :: toString index :: keys⟩

end Document

/-! ## Nodes and their demands -/

/-- No role makes demands both on references and on expressions. -/
lemma Role.Makes.not_types {index len : Nat} {role : Role} {v w : Json} {keys more : List String}
    {use : Use} {r : String} {expect : Expectation} {e : Expression}
    (uses : role.Makes index len v keys (use.demand r))
    (types : role.Makes index len w more (.types expect e)) : False := by
  cases types <;> cases use <;> cases uses

namespace Node

open Sites

/-- Every site of a node is a field that the schema declares, or inside one. -/
lemma declares_ofNode : ∀ entry ∈ Schema.nodes, ∀ site ∈ ofNode entry.1,
    ∃ name ∈ site.keys.head?, name ∈ entry.2.map FieldRule.name := by
  decide

/-- The output of a question for attachments is no site. -/
lemma noBlob_ofNode : ∀ site ∈ ofNode "attachmentPrompt", site.keys.head? ≠ some "output" := by
  decide

/-- Nodes are read of the types in the schema only. -/
lemma plans_known : ∀ entry ∈ variants.plans, ∃ rules, (entry.1, rules) ∈ Schema.nodes := by
  have listed : ∀ type ∈ variants.plans.map Prod.fst, type ∈ Schema.nodes.map Prod.fst := by
    decide
  intro entry mem
  obtain ⟨⟨_, rules⟩, known, rfl⟩ := List.mem_map.mp (listed entry.1 (List.mem_map_of_mem mem))
  exact ⟨rules, known⟩

section

variable {index len : Nat} {path : Pointer} {v : Json} {node : Node} {type : String}
  {rules : List FieldRule} {keys : List String} {use : Use} {r : String}

/-- A node that is read is of a type in the schema, and demands what stands at the sites for it. -/
lemma read_known (index len : Nat) (h : (read path v).result? = some node) :
    ∃ type rules, v.type? = some type ∧ (type, rules) ∈ Schema.nodes ∧
      node.demands index len = siteDemands index len (ofNode type) v := by
  obtain ⟨type, named, same⟩ := read_demands index len h
  obtain ⟨members, other, plan, rfl, htype, found, -⟩ := Variants.read_result.mp h
  cases named.symm.trans (Json.type?_eq_some.mpr (Json.at?_field.trans htype))
  obtain ⟨rules, known⟩ := plans_known _ (Members.mem_of_get? found)
  exact ⟨type, rules, named, known, same⟩

/-- Keys that begin with a declared field do so by the rules for the type. -/
lemma Declares.first {name : String} (declares : Declares type name) (keys : List String) :
    ∃ rules, (type, rules) ∈ Schema.nodes ∧
      ∀ key ∈ (name :: keys).head?, key ∈ "type" :: rules.map FieldRule.name := by
  obtain ⟨rules, known, declared⟩ := declares
  refine ⟨rules, known, ?_⟩
  rintro _ ⟨⟩
  exact List.mem_cons_of_mem _ declared

/-- The use of a reference by a node is demanded at a site. -/
lemma Refers.demanded (refers : Refers v keys use r) (named : v.type? = some type) :
    (⟨keys⟩, use.demand r) ∈ siteDemands index len (ofNode type) v := by
  rw [mem_siteDemands]
  cases refers with
  | @field other name keys _ hother declares mem noBlob found =>
    cases named.symm.trans hother
    obtain ⟨rules, known, first⟩ := declares.first keys
    have site : ⟨name :: keys, .written⟩ ∈ ofNode type := by
      rcases written_mem_ofNode _ known _ mem first with site | ⟨rfl, same⟩
      · exact site
      · cases same
        exact absurd rfl noBlob
    exact ⟨_, site, _, [], found, .written, (List.append_nil _).symm⟩
  | @key other keys members _ hother mem found key =>
    cases named.symm.trans hother
    obtain ⟨m, listed, rfl⟩ := List.mem_map.mp key
    rcases keys_mem_ofNode _ mem with site | site
    · exact ⟨_, site, _, _, found, .key listed, rfl⟩
    · exact ⟨_, site, _, _, found, .outputKey listed, rfl⟩
  | data hother found =>
    cases named.symm.trans hother
    exact ⟨⟨["data", "var"], .read⟩, by decide, _, [], found, .read, rfl⟩
  | @output other members m _ hother calls found listed var =>
    cases named.symm.trans hother
    exact ⟨_, outputs_mem_ofNode type calls, _, _, found, .lookup listed var, rfl⟩

/-- What is demanded of a reference at a site is a use by the node. -/
lemma Refers.of_demanded (named : v.type? = some type) (known : (type, rules) ∈ Schema.nodes)
    (mem : (⟨keys⟩, use.demand r) ∈ siteDemands index len (ofNode type) v) :
    Refers v keys use r := by
  obtain ⟨⟨keys, role⟩, site, w, more, found, makes, rfl⟩ := mem_siteDemands.mp mem
  have covered := covers_ofNode _ known _ site
  cases use with
  | written =>
    cases makes with
    | written =>
      have field : keys ∈ writtenFields := by simpa [covers] using covered
      obtain ⟨name, first, declared⟩ := declares_ofNode _ known _ site
      obtain ⟨rest, rfl⟩ := List.head?_eq_some_iff.mp first
      have noBlob : (type, name) ≠ ("attachmentPrompt", "output") := by
        rintro ⟨⟩
        exact noBlob_ofNode _ site first
      rw [List.append_nil]
      exact .field named ⟨rules, known, declared⟩ field noBlob found
    | key listed =>
      have map : (type, keys) ∈ writtenMaps := by simpa [covers] using covered
      exact .key named map found (List.mem_map_of_mem listed)
    | outputKey listed =>
      have map : (type, keys) ∈ writtenMaps := (by simpa [covers] using covered : _ ∧ _).1
      exact .key named map found (List.mem_map_of_mem listed)
  | read =>
    cases makes with
    | read =>
      obtain ⟨rfl, rfl⟩ : type = "customEvent" ∧ keys = ["data", "var"] := by
        simpa [covers] using covered
      exact .data named found
    | lookup listed var =>
      obtain ⟨-, calls, rfl⟩ : (type, keys) ∈ writtenMaps ∧
          type ∈ ["dialogue", "repeatDialogue"] ∧ keys = ["outputs"] := by
        simpa [covers] using covered
      exact .output named calls found listed var

/-- An expression that a node holds is demanded at a site. -/
lemma Holds.demanded (holds : Holds v keys) (named : v.type? = some type) :
    ∃ expect e, (⟨keys⟩, Demand.types expect e) ∈ siteDemands index len (ofNode type) v := by
  simp only [mem_siteDemands]
  cases holds with
  | @field other name keys expect e hother declares mem found =>
    cases named.symm.trans hother
    obtain ⟨rules, known, first⟩ := declares.first keys
    have site := typed_mem_ofNode _ known _ mem first
    exact ⟨expect, e, _, site, e, [], found, .typed, (List.append_nil _).symm⟩
  | @input other members m hother declares found listed =>
    cases named.symm.trans hother
    obtain ⟨rules, known, first⟩ := declares.first []
    have site := inputs_mem_ofNode _ known (first _ rfl)
    exact ⟨_, m.2, _, site, _, _, found, .input listed, rfl⟩

/-- What is demanded of an expression at a site is held by the node. -/
lemma Holds.of_demanded (named : v.type? = some type) (known : (type, rules) ∈ Schema.nodes)
    {expect : Expectation} {e : Expression}
    (mem : (⟨keys⟩, Demand.types expect e) ∈ siteDemands index len (ofNode type) v) :
    Holds v keys := by
  obtain ⟨⟨keys, role⟩, site, w, more, found, makes, rfl⟩ := mem_siteDemands.mp mem
  have covered := covers_ofNode _ known _ site
  obtain ⟨name, first, declared⟩ := declares_ofNode _ known _ site
  cases makes with
  | typed =>
    have field : (keys, expect) ∈ embeddedFields := by simpa [covers] using covered
    obtain ⟨rest, rfl⟩ := List.head?_eq_some_iff.mp first
    rw [List.append_nil]
    exact .field named ⟨rules, known, declared⟩ field found
  | input listed =>
    obtain rfl : keys = ["inputs"] := by simpa [covers] using covered
    cases first
    exact .input named ⟨rules, known, declared⟩ found listed

/-- A reference that a node uses does not stand inside an expression that the node holds: they are
demanded at different sites, which diverge. -/
lemma Refers.outside (refers : Refers v keys use r) {held : List String} (holds : Holds v held) :
    ¬ held <+: keys := by
  obtain ⟨type, named⟩ : ∃ type, v.type? = some type := by
    cases holds with
    | field named => exact ⟨_, named⟩
    | input named => exact ⟨_, named⟩
  have used : (⟨keys⟩, use.demand r) ∈ siteDemands 0 0 (ofNode type) v := refers.demanded named
  obtain ⟨expect, e, embedded⟩ : ∃ expect e,
      (⟨held⟩, Demand.types expect e) ∈ siteDemands 0 0 (ofNode type) v := holds.demanded named
  obtain ⟨a, ha, _, more, -, uses, rfl⟩ := mem_siteDemands.mp used
  obtain ⟨b, hb, _, further, -, types, rfl⟩ := mem_siteDemands.mp embedded
  have different : a ≠ b := by
    rintro rfl
    exact uses.not_types types
  have symm : Std.Symm fun a b : Site => Diverge a.keys b.keys := ⟨fun _ _ => And.symm⟩
  have diverge : Diverge a.keys b.keys := diverge_ofNode.forall ha hb different
  intro inside
  exact diverge.not_inside (List.prefix_append _ _) ((List.prefix_append _ _).trans inside)

end

end Node

/-! ## Documents and their demands -/

namespace Document

variable {members : Members Json} {place : Pointer} {use : Use} {r : String}

/-- The uses of references in a document are those that its draft makes demands on. -/
lemma refers_iff :
    Refers (.object members) place use r ↔
      (place, use.demand r) ∈ (Draft.read (.object members)).1.demands := by
  rw [Draft.mem_demands]
  constructor
  · intro refers
    cases refers with
    | trigger found result event output => exact .trigger found result event output
    | node listed result uses =>
      obtain ⟨node, result⟩ := Option.isSome_iff_exists.mp result
      obtain ⟨type, rules, named, -, same⟩ := Node.read_known _ _ result
      refine .node listed result ?_
      rw [same]
      exact uses.demanded named
    | property field found result key => exact .property field found result key
  · intro makes
    generalize made : use.demand r = demand at makes
    cases makes with
    | trigger found result event output =>
      cases use <;> cases made
      exact .trigger found result event output
    | node listed result mem =>
      subst made
      obtain ⟨type, rules, named, known, same⟩ := Node.read_known _ _ result
      rw [same] at mem
      exact .node listed (by simp [result]) (.of_demanded named known mem)
    | property field found result key =>
      cases use <;> cases made
      exact .property field found result key

/-- The expressions in a document are those that its draft makes demands on. -/
lemma holds_iff :
    Holds (.object members) place ↔ ∃ expect e,
      (place, Demand.types expect e) ∈ (Draft.read (.object members)).1.demands := by
  simp only [Draft.mem_demands]
  constructor
  · rintro ⟨listed, result, holds⟩
    obtain ⟨node, result⟩ := Option.isSome_iff_exists.mp result
    obtain ⟨type, rules, named, -, same⟩ := Node.read_known _ _ result
    obtain ⟨expect, e, mem⟩ := holds.demanded named
    refine ⟨expect, e, .node listed result ?_⟩
    rw [same]
    exact mem
  · rintro ⟨expect, e, makes⟩
    cases makes with
    | node listed result mem =>
      obtain ⟨type, rules, named, known, same⟩ := Node.read_known _ _ result
      rw [same] at mem
      exact .node listed (by simp [result]) (.of_demanded named known mem)

/-- No reference is used inside an expression that a document holds. -/
lemma Refers.outside {v : Json} {held : Pointer} (refers : Refers v place use r)
    (holds : Holds v held) : ¬ held.tokens <+: place.tokens := by
  obtain @⟨index, item, keys, listed, -, holds⟩ := holds
  intro inside
  cases refers with
  | trigger => simp at inside
  | @node other node more _ _ found _ refers =>
    obtain ⟨-, index_inside⟩ := List.cons_prefix_cons.mp inside
    obtain ⟨same, keys_inside⟩ := List.cons_prefix_cons.mp index_inside
    cases toString_nat_injective same
    cases listed.symm.trans found
    exact refers.outside holds keys_inside
  | property field =>
    obtain ⟨rfl, -⟩ := List.cons_prefix_cons.mp inside
    simp at field

end Document

end DialogueLint
