import DialogueLint.Integrity.Parts
import DialogueLint.Proofs.Reading.Result

/-!
# Sites

What the parts of a dialogue demand, read off the JSON. A site is a place below a part, by keys,
with the role that the value there plays: it is written or read, is an expression, or is a map of
such. The sites of a part depend on its type alone, and what a part demands once it is read is
exactly what the values at its sites demand, in order (`Node.read_demands`, `Trigger.read_demands`,
`Properties.read_demands`).

Sites are written down as a table (`Sites.ofTrigger`, `Sites.ofNode`), on which later proofs
evaluate, and the readers are tied to the table by `Reader.Sited`: whatever a reader gives, it
demands what stands at the sites of the value that was read. This is shown for each reader in
`DialogueLint.Proofs.Integrity.Sited`; here is how it passes through fields and keys.
-/

namespace DialogueLint

/-- The value behind keys of objects, one inside the other. -/
def Json.at? : List String → Json → Option Json
  | [], v => some v
  | key :: keys, .object members => (Members.get? members key).bind (at? keys)
  | _ :: _, _ => none

/-- The name in the field `type`. -/
def Json.type? (v : Json) : Option String :=
  match Json.at? ["type"] v with
  | some (.string type) => some type
  | _ => none

/-- A value names its type in the field `type`, as a string. -/
lemma Json.type?_eq_some {v : Json} {type : String} :
    v.type? = some type ↔ Json.at? ["type"] v = some (.string type) := by
  unfold Json.type?
  split
  · rename_i other found
    simp [found]
  · rename_i notFound
    exact ⟨nofun, fun found => absurd found (notFound type)⟩

/-- Behind the key of a field is what the key finds. -/
lemma Json.at?_field {members : Members Json} {key : String} :
    Json.at? [key] (.object members) = Members.get? members key :=
  Option.bind_fun_some _

/-- Behind several keys is what the later ones lead to from the value of the first. -/
lemma Json.at?_cons {members : Members Json} {key : String} {keys : List String} {v : Json}
    (found : Members.get? members key = some v) :
    Json.at? (key :: keys) (.object members) = Json.at? keys v := by
  rw [Json.at?, found, Option.bind_some]

/-- What the value at a site is to a dialogue. -/
inductive Role where
  /-- A reference that is written. -/
  | written
  /-- A reference that is read. -/
  | read
  /-- An expression. -/
  | typed (expect : Expectation)
  /-- A map whose keys are written. -/
  | keys
  /-- A map of expressions. -/
  | inputs
  /-- A map whose keys are written, of variables that are read. -/
  | outputs
  /-- The successor of a node, in a field. -/
  | successor (field : String)
  deriving DecidableEq

/-- A place below a part with its role. -/
structure Site where
  /-- The keys that lead to the place. -/
  keys : List String
  /-- The role of the value there. -/
  role : Role
  deriving DecidableEq

/-- The variable that an output is read from, with what it demands. -/
def outputDemands (key : String) (v : Json) : Demands :=
  Demands.writes key key ++
    match Json.at? ["var"] v with
    | some (.string r) => Demands.under [key] (Demands.field "var" (.reads r))
    | _ => []

section Demands

variable (index len : Nat)

/-- What a value in a role demands, in a node at an index among so many nodes. -/
def Role.demands : Role → Json → Demands
  | written, .string r => [(.root, .writes r)]
  | read, .string r => [(.root, .reads r)]
  | typed expect, e => [(.root, .types expect e)]
  | keys, .object members => members.flatMap fun m => Demands.writes m.1 m.1
  | inputs, .object members => members.flatMap fun m => Demands.types m.1 .logic m.2
  | outputs, .object members => members.flatMap fun m => outputDemands m.1 m.2
  | successor field, .number n => [(.root, .leads index field n len)]
  | _, _ => []

/-- What the value at a site demands. -/
def Site.demands (v : Json) (site : Site) : Demands :=
  match Json.at? site.keys v with
  | some w => (site.role.demands index len w).under site.keys
  | none => []

/-- What the values at sites demand. -/
def siteDemands (sites : List Site) (v : Json) : Demands :=
  sites.flatMap (Site.demands index len v)

end Demands

/-! ## The sites of parts -/

namespace Sites

/-- The value itself is the only site. -/
def here (role : Role) : List Site := [⟨[], role⟩]

/-- The sites of a part that lies behind a key. -/
def behind (key : String) (sites : List Site) : List Site :=
  sites.map fun site => ⟨key :: site.keys, site.role⟩

/-- A field that holds a reference which is written. -/
def written (key : String) : List Site := behind key (here .written)

/-- A field that holds an expression. -/
def typed (key : String) (expect : Expectation) : List Site := behind key (here (.typed expect))

/-- The field for the node that comes next. -/
def successor (key : String) : List Site := behind key (here (.successor key))

/-- The sites of the content of a card. -/
def cardContent : List Site :=
  typed "isThumbnail" (.family .boolean) ++
    behind "tapOptions" (written "displayName" ++ written "output") ++
    behind "buttonOptions" (written "listName" ++ written "displayName" ++ written "output")

/-- The sites of a trigger, by its type. -/
def ofTrigger : String → List Site
  | "customEvent" => written "output"
  | _ => []

/-- The sites of a simple question. -/
def simplePrompt : List Site :=
  successor "nextNodeIndex" ++ (written "output" ++ typed "validation" .logic)

/-- The sites of a node, by its type. -/
@[simp] def ofNode : String → List Site
  | "action" => successor "nextNodeIndex" ++
      behind "outputs" (behind "body" (here .keys) ++ behind "header" (here .keys))
  | "attachmentPrompt" => successor "nextNodeIndex"
  | "card" => successor "nextNodeIndex" ++ behind "content" cardContent
  | "cardCollection" => successor "nextNodeIndex" ++
      (written "listName" ++ behind "content" cardContent ++ written "output")
  | "choicePrompt" => successor "nextNodeIndex" ++
      (written "listName" ++ written "displayName" ++ written "output")
  | "confirmationPrompt" => successor "nextNodeIndex" ++ written "output"
  | "customCardCollection" => successor "nextNodeIndex" ++
      (written "listName" ++
        behind "outputOperation" (typed "operation" .logic ++ written "output") ++
        written "output" ++ typed "validation" .logic)
  | "customEvent" => behind "data" (behind "var" (here .read))
  | "decision" => successor "passNodeIndex" ++ successor "failNodeIndex" ++
      typed "rule" (.family .boolean)
  | "dialogue" => successor "nextNodeIndex" ++
      (behind "inputs" (here .inputs) ++ behind "outputs" (here .outputs))
  | "downloadAction" => successor "nextNodeIndex" ++
      behind "outputs" (behind "header" (here .keys))
  | "message" => successor "nextNodeIndex"
  | "operation" => successor "nextNodeIndex" ++ (typed "operation" .logic ++ written "output")
  | "repeatDialogue" => successor "nextNodeIndex" ++
      (behind "inputs" (here .inputs) ++ behind "outputs" (here .outputs) ++
        typed "repeatUntil" .logic)
  | "sequenceDialogue" => successor "nextNodeIndex" ++
      (behind "inputs" (here .inputs) ++ written "listName")
  | "datePrompt" => simplePrompt
  | "dateTimePrompt" => simplePrompt
  | "numberPrompt" => simplePrompt
  | "stringPrompt" => simplePrompt
  | "timePrompt" => simplePrompt
  | _ => []

end Sites

/-! ## Demands of values behind keys -/

section Behind

variable {index len : Nat}

/-- Demands that are moved twice are moved by the keys of both. -/
lemma Demands.under_under {tokens more : List String} {demands : Demands} :
    (demands.under more).under tokens = demands.under (tokens ++ more) := by
  simp [Demands.under, Pointer.join]

/-- Moving demands by no key leaves them where they are. -/
lemma Demands.under_nil {demands : Demands} : demands.under [] = demands :=
  List.map_id _

/-- No demands stay none when they are moved. -/
lemma Demands.under_empty {tokens : List String} : Demands.under tokens [] = [] :=
  rfl

/-- Demands together are moved one after the other. -/
lemma Demands.under_append {tokens : List String} {demands more : Demands} :
    Demands.under tokens (demands ++ more) = demands.under tokens ++ more.under tokens :=
  List.map_append

/-- Sites together demand what the first and what the others demand. -/
lemma siteDemands_append {sites more : List Site} {v : Json} :
    siteDemands index len (sites ++ more) v =
      siteDemands index len sites v ++ siteDemands index len more v :=
  List.flatMap_append

/-- Sites behind a key demand what the sites of the value there demand. -/
lemma siteDemands_behind {key : String} {sites : List Site} {members : Members Json} :
    siteDemands index len (Sites.behind key sites) (.object members) =
      match Members.get? members key with
      | some v => (siteDemands index len sites v).under [key]
      | none => [] := by
  have each : ∀ site : Site,
      Site.demands index len (.object members) ⟨key :: site.keys, site.role⟩ =
        match Members.get? members key with
        | some v => (site.demands index len v).under [key]
        | none => [] := by
    intro site
    simp only [Site.demands, Json.at?]
    cases Members.get? members key with
    | none => rfl
    | some v =>
      simp only [Option.bind_some]
      cases Json.at? site.keys v with
      | none => rfl
      | some w =>
        simp only [Demands.under_under]
        rfl
  simp only [siteDemands, Sites.behind, List.flatMap_map, each]
  cases Members.get? members key with
  | none => simp
  | some v => simp only [Demands.under, List.map_flatMap]

/-- The value itself demands what its role demands. -/
lemma siteDemands_here {role : Role} {v : Json} :
    siteDemands index len (Sites.here role) v = role.demands index len v := by
  simp [siteDemands, Sites.here, Site.demands, Json.at?, Demands.under_nil]

end Behind

/-! ## Readers whose results demand what stands at sites -/

section Reads

variable {α : Type} {index len : Nat}

/-- What a result demands is what stands at the sites of the value that was read. -/
def Reader.Sited (index len : Nat) (reader : Reader α) (demands : α → Demands)
    (sites : List Site) : Prop :=
  ∀ path v a, (reader path v).result? = some a → demands a = siteDemands index len sites v

variable {reader : Reader α} {demands : α → Demands} {sites : List Site} {name : String}
  {path : Pointer} {members : Members Json}

/-- A field that has to be there demands what stands at its sites. -/
lemma Reader.Sited.required (h : reader.Sited index len demands sites) {a : α}
    (result : ((Fields.required name reader).read path members).result? = some a) :
    siteDemands index len (Sites.behind name sites) (.object members) =
      (demands a).under [name] := by
  obtain ⟨v, found, hv⟩ := Fields.required_result.mp result
  rw [siteDemands_behind, found]
  simp only [h _ v a hv]

/-- A field that may be absent demands what stands at its sites. -/
lemma Reader.Sited.optional (h : reader.Sited index len demands sites) {a? : Option α}
    (result : ((Fields.optional name reader).read path members).result? = some a?) :
    siteDemands index len (Sites.behind name sites) (.object members) =
      .ifPresent a? fun a => (demands a).under [name] := by
  rw [siteDemands_behind]
  rcases Fields.optional_result.mp result with ⟨absent, rfl⟩ | ⟨v, a, found, hv, rfl⟩
  · simp only [absent]
    rfl
  · simp only [found, ← h _ v a hv]
    rfl

end Reads

end DialogueLint
