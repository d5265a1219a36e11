import DialogueLint.Integrity.Demand
import DialogueLint.Proofs.Integrity.Site
import Mathlib.Tactic.Common

/-!
# Lawful documents

What a document has to obey besides its schema, stated on the JSON: which references are written and
read, which values are expressions of which family, and where nodes lead. `Document.Lawful` knows
nothing of typed nodes or of demands; that checking demands decides it for documents of the schema
is shown in `DialogueLint.Proofs.Integrity.Acceptance`.

The law is given by tables of fields (`writtenFields`, `writtenMaps`, `embeddedFields`,
`successorFields`), as relations on the JSON of a node: it writes, reads, embeds, and leads
somewhere. In the second part, demands are given a meaning of their own (`Demand.Met`), which does
not depend on where they are made, and the lemmas let this meaning pass through all ways of putting
demands together.
-/

namespace DialogueLint

/-! ## Nodes -/

namespace Node

/-- The fields of nodes, and of parts of nodes, that hold a reference which is written. -/
def writtenFields : List (List String) :=
  [["listName"], ["displayName"], ["output"], ["content", "tapOptions", "displayName"],
    ["content", "tapOptions", "output"], ["content", "buttonOptions", "listName"],
    ["content", "buttonOptions", "displayName"], ["content", "buttonOptions", "output"],
    ["outputOperation", "output"]]

/-- The maps in nodes of a type whose keys are references which are written. -/
def writtenMaps : List (String × List String) :=
  [("dialogue", ["outputs"]), ("repeatDialogue", ["outputs"]), ("action", ["outputs", "body"]),
    ("action", ["outputs", "header"]), ("downloadAction", ["outputs", "header"])]

/-- The fields of nodes, and of parts of nodes, that hold an expression. -/
def embeddedFields : List (List String × Expectation) :=
  [(["rule"], .family .boolean), (["content", "isThumbnail"], .family .boolean),
    (["operation"], .logic), (["outputOperation", "operation"], .logic), (["repeatUntil"], .logic),
    (["validation"], .logic)]

/-- The fields for the successors of a node, by its type. -/
def successorFields : String → List String
  | "decision" => ["passNodeIndex", "failNodeIndex"]
  | "event" => []
  | "customEvent" => []
  | _ => ["nextNodeIndex"]

/-- A node writes a reference. -/
inductive Writes (node : Json) : String → Prop where
  | field {keys r} : keys ∈ writtenFields → Json.at? keys node = some (.string r) → Writes node r
  | key {type keys members r} : (type, keys) ∈ writtenMaps → node.type? = some type →
      Json.at? keys node = some (.object members) → r ∈ Members.keys members → Writes node r

/-- A node reads a reference outside expressions. -/
inductive Reads (node : Json) : String → Prop where
  | data {r} : node.type? = some "customEvent" →
      Json.at? ["data", "var"] node = some (.string r) → Reads node r
  | output {type members m r} : type ∈ ["dialogue", "repeatDialogue"] → node.type? = some type →
      Json.at? ["outputs"] node = some (.object members) → m ∈ members →
      Json.at? ["var"] m.2 = some (.string r) → Reads node r

/-- A node holds an expression that has to meet an expectation. -/
inductive Embeds (node : Json) : Expectation → Json → Prop where
  | field {keys expect e} : (keys, expect) ∈ embeddedFields → Json.at? keys node = some e →
      Embeds node expect e
  | input {members m} : Json.at? ["inputs"] node = some (.object members) → m ∈ members →
      Embeds node .logic m.2

/-- A node leads to the end of the dialogue or to one of so many nodes. -/
def Leads (len : Nat) (target : Json) : Prop :=
  target = .null ∨ ∃ index : Nat, target = .number (.integer index) ∧ index < len

/-- A node, among so many nodes, obeys the law for nodes. -/
structure Lawful (limit len : Nat) (node : Json) : Prop where
  successors : ∀ type, node.type? = some type → ∀ field ∈ successorFields type,
    ∃ target, Json.at? [field] node = some target ∧ Leads len target
  writes : ∀ r, Writes node r → Reference.reserved? r = none
  reads : ∀ r, Reads node r → Reference.isReadable r
  expressions : ∀ expect e, Embeds node expect e → ∀ path,
    (Typing.check limit expect path e).diagnostics = []

end Node

/-! ## Documents -/

namespace Document

/-- The nodes of a document. -/
def nodes (v : Json) : List Json :=
  match Json.at? ["nodes"] v with
  | some (.array items) => items
  | _ => []

/-- A document writes a reference outside its nodes. -/
inductive Writes (v : Json) : String → Prop where
  | trigger {r} : Json.at? ["trigger", "type"] v = some (.string "customEvent") →
      Json.at? ["trigger", "output"] v = some (.string r) → Writes v r
  | property {name members r} : name ∈ ["model", "entities"] →
      Json.at? [name] v = some (.object members) → r ∈ Members.keys members → Writes v r

/-- A document obeys the law for documents. -/
structure Lawful (limit : Nat) (v : Json) : Prop where
  writes : ∀ r, Writes v r → Reference.reserved? r = none
  nodes : ∀ node ∈ nodes v, Node.Lawful limit (nodes v).length node

end Document

/-! ## Demands that are met -/

/-- A demand is met: a reference may be written or read, there is nothing to say about an
expression, wherever it stands, or a number is the index of one of the nodes. -/
def Demand.Met (limit : Nat) : Demand → Prop
  | .writes r => Reference.reserved? r = none
  | .reads r => Reference.isReadable r
  | .types expect e => ∀ path, (Typing.check limit expect path e).diagnostics = []
  | .leads _ _ target len => ∃ index : Nat, target = .integer index ∧ index < len

/-- All demands are met. -/
def Demands.Met (limit : Nat) (demands : Demands) : Prop :=
  ∀ p ∈ demands, p.2.Met limit

/-- A value obeys what its role demands, among so many nodes. -/
def Role.Met (limit len : Nat) : Role → Json → Prop
  | written, v => ∀ r, v = .string r → Reference.reserved? r = none
  | read, v => ∀ r, v = .string r → Reference.isReadable r
  | typed expect, v => ∀ path, (Typing.check limit expect path v).diagnostics = []
  | keys, v => ∀ members, v = .object members → ∀ m ∈ members, Reference.reserved? m.1 = none
  | inputs, v => ∀ members, v = .object members → ∀ m ∈ members,
      ∀ path, (Typing.check limit .logic path m.2).diagnostics = []
  | outputs, v => ∀ members, v = .object members → ∀ m ∈ members,
      Reference.reserved? m.1 = none ∧
        ∀ r, Json.at? ["var"] m.2 = some (.string r) → Reference.isReadable r
  | successor _, v => ∀ n, v = .number n → ∃ index : Nat, n = .integer index ∧ index < len

section Met

variable {limit index len : Nat} {demands more : Demands}

/-- No demands are met. -/
@[simp] lemma Demands.met_nil : Demands.Met limit [] := by
  simp [Demands.Met]

/-- Demands together are met if both are. -/
@[simp] lemma Demands.met_append :
    Demands.Met limit (demands ++ more) ↔ demands.Met limit ∧ more.Met limit :=
  List.forall_mem_append

/-- Whether demands are met does not depend on where their part stands. -/
@[simp] lemma Demands.met_under {tokens : List String} :
    (demands.under tokens).Met limit ↔ demands.Met limit :=
  List.forall_mem_map

/-- A demand of a field is met if it is met by itself. -/
@[simp] lemma Demands.met_field {name : String} {demand : Demand} :
    (Demands.field name demand).Met limit ↔ demand.Met limit :=
  List.forall_mem_singleton

/-- Demands of a part that may be absent are met if those of the part are. -/
lemma Demands.met_ifPresent {α : Type} {part : Option α} {f : α → Demands} :
    Demands.Met limit (ifPresent part f) ↔ ∀ a ∈ part, (f a).Met limit := by
  cases part <;> simp [ifPresent]

/-- Demands of several parts are met if those of each part are. -/
lemma Demands.met_flatMap {α : Type} {as : List α} {f : α → Demands} :
    Demands.Met limit (as.flatMap f) ↔ ∀ a ∈ as, (f a).Met limit := by
  simp only [Demands.Met, List.forall_mem_flatMap]

/-- A variable that is handed back is read, and its key written. -/
lemma outputDemands_met {key : String} {v : Json} :
    (outputDemands key v).Met limit ↔ Reference.reserved? key = none ∧
      ∀ r, Json.at? ["var"] v = some (.string r) → Reference.isReadable r := by
  unfold outputDemands
  split
  · rename_i r found
    simp [Demands.writes, Demand.Met, found]
  · rename_i notFound
    have vacuous : ∀ r, Json.at? ["var"] v ≠ some (.string r) := notFound
    simp [Demands.writes, Demand.Met, vacuous]

/-- What a value in a role demands is met if the value obeys. -/
lemma Role.demands_met {role : Role} {v : Json} :
    (role.demands index len v).Met limit ↔ role.Met limit len v := by
  cases role with
  | written => cases v <;> simp [demands, Role.Met, Demands.Met, Demand.Met]
  | read => cases v <;> simp [demands, Role.Met, Demands.Met, Demand.Met]
  | typed expect => simp [demands, Role.Met, Demands.Met, Demand.Met]
  | keys =>
    cases v <;> simp [demands, Role.Met, Demands.met_flatMap, Demands.writes, Demand.Met]
  | inputs =>
    cases v <;> simp [demands, Role.Met, Demands.met_flatMap, Demands.types, Demand.Met]
  | outputs =>
    cases v <;> simp [demands, Role.Met, Demands.met_flatMap, outputDemands_met]
  | successor field => cases v <;> simp [demands, Role.Met, Demands.Met, Demand.Met]

/-- What is demanded at sites is met if the value at every site obeys its role. -/
lemma siteDemands_met {sites : List Site} {v : Json} :
    (siteDemands index len sites v).Met limit ↔
      ∀ site ∈ sites, ∀ w, Json.at? site.keys v = some w → site.role.Met limit len w := by
  rw [siteDemands, Demands.met_flatMap]
  apply forall₂_congr
  intro site _
  unfold Site.demands
  cases Json.at? site.keys v with
  | none => simp
  | some w => simp [Role.demands_met]

end Met

end DialogueLint
