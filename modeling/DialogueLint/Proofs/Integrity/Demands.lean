import DialogueLint.Proofs.Integrity.Fragment
import DialogueLint.Proofs.Integrity.Lawful

/-!
# Demands one by one

Which demands a document makes, and at which places, stated on the JSON (`Draft.mem_demands`): its
trigger, its nodes and its properties make them, and a node makes those of the values at its sites
in their roles (`mem_siteDemands`).

Every lemma says which demands there are by saying when one is a member of the list. The definitions
that make demands are taken apart with it once, and what uses demands need not know how the lists
are built. The demands of typed parts are led back to the JSON in the same step, since a part that
was read stands where its reader was called.
-/

namespace DialogueLint

open Demands (ifPresent)

/-! ## Members of demands -/

section Demands

variable {index len : Nat} {v : Json} {place : Pointer} {demand : Demand}

/-- A demand below a part is one of the part, at its place below it. -/
lemma Demands.mem_under {tokens : List String} {demands : Demands} :
    (place, demand) ∈ demands.under tokens ↔
      ∃ q, (q, demand) ∈ demands ∧ place = ⟨tokens ++ q.tokens⟩ := by
  simp only [under, List.mem_map, Prod.exists, Prod.mk.injEq]
  constructor
  · rintro ⟨q, _, mem, rfl, rfl⟩
    exact ⟨q, mem, rfl⟩
  · rintro ⟨q, mem, rfl⟩
    exact ⟨q, demand, mem, rfl, rfl⟩

/-- An output of a call of a dialogue is written under its key, and the variable behind it is read.
-/
lemma mem_outputDemands {key : String} :
    (place, demand) ∈ outputDemands key v ↔ (place = ⟨[key]⟩ ∧ demand = .writes key) ∨
      ∃ r, Json.at? ["var"] v = some (.string r) ∧ place = ⟨[key, "var"]⟩ ∧
        demand = .reads r := by
  unfold outputDemands
  split
  · rename_i r found
    simp [Demands.writes, Demands.field, Demands.under, Pointer.join, found]
  · rename_i notFound
    have none : ∀ r, Json.at? ["var"] v ≠ some (.string r) := notFound
    simp [Demands.writes, Demands.field, none]

end Demands

/-! ## Sites -/

/-- A value in a role makes a demand at a place below it. -/
inductive Role.Makes (index len : Nat) : Role → Json → List String → Demand → Prop where
  | written {r} : Makes index len .written (.string r) [] (.writes r)
  | read {r} : Makes index len .read (.string r) [] (.reads r)
  | typed {expect e} : Makes index len (.typed expect) e [] (.types expect e)
  | key {members m} : m ∈ members → Makes index len .keys (.object members) [m.1] (.writes m.1)
  | input {members m} : m ∈ members →
      Makes index len .inputs (.object members) [m.1] (.types .logic m.2)
  | outputKey {members m} : m ∈ members →
      Makes index len .outputs (.object members) [m.1] (.writes m.1)
  | lookup {members m r} : m ∈ members → Json.at? ["var"] m.2 = some (.string r) →
      Makes index len .outputs (.object members) [m.1, "var"] (.reads r)
  | successor {field n} :
      Makes index len (.successor field) (.number n) [] (.leads index field n len)

section Sites

variable {index len : Nat} {v : Json} {keys : List String} {demand : Demand} {role : Role}

/-- The demands of a role, one by one: it makes them of values of one form only. -/
lemma Role.mem_demands :
    (⟨keys⟩, demand) ∈ role.demands index len v ↔ role.Makes index len v keys demand := by
  constructor
  -- every role has one form of value that it demands something of, and nothing of the others
  · intro mem
    cases role with
    | written =>
      cases v with
      | string r =>
        cases List.mem_singleton.mp mem
        exact .written
      | _ => cases mem
    | read =>
      cases v with
      | string r =>
        cases List.mem_singleton.mp mem
        exact .read
      | _ => cases mem
    | typed expect =>
      cases List.mem_singleton.mp mem
      exact .typed
    | keys =>
      cases v with
      | object members =>
        obtain ⟨m, listed, mem⟩ := List.mem_flatMap.mp mem
        cases List.mem_singleton.mp mem
        exact .key listed
      | _ => cases mem
    | inputs =>
      cases v with
      | object members =>
        obtain ⟨m, listed, mem⟩ := List.mem_flatMap.mp mem
        cases List.mem_singleton.mp mem
        exact .input listed
      | _ => cases mem
    | outputs =>
      cases v with
      | object members =>
        obtain ⟨m, listed, mem⟩ := List.mem_flatMap.mp mem
        rcases mem_outputDemands.mp mem with ⟨place, rfl⟩ | ⟨r, var, place, rfl⟩
        · cases place
          exact .outputKey listed
        · cases place
          exact .lookup listed var
      | _ => cases mem
    | successor field =>
      cases v with
      | number n =>
        cases List.mem_singleton.mp mem
        exact .successor
      | _ => cases mem
  · intro makes
    cases makes with
    | written => exact List.mem_singleton_self _
    | read => exact List.mem_singleton_self _
    | typed => exact List.mem_singleton_self _
    | key mem => exact List.mem_flatMap.mpr ⟨_, mem, List.mem_singleton_self _⟩
    | input mem => exact List.mem_flatMap.mpr ⟨_, mem, List.mem_singleton_self _⟩
    | outputKey mem =>
      exact List.mem_flatMap.mpr ⟨_, mem, mem_outputDemands.mpr (.inl ⟨rfl, rfl⟩)⟩
    | lookup mem var =>
      exact List.mem_flatMap.mpr ⟨_, mem, mem_outputDemands.mpr (.inr ⟨_, var, rfl, rfl⟩)⟩
    | successor => exact List.mem_singleton_self _

/-- What is demanded at sites is what the value at one of them demands in its role. -/
lemma mem_siteDemands {sites : List Site} :
    (⟨keys⟩, demand) ∈ siteDemands index len sites v ↔
      ∃ site ∈ sites, ∃ w more, Json.at? site.keys v = some w ∧
        site.role.Makes index len w more demand ∧ keys = site.keys ++ more := by
  simp only [siteDemands, List.mem_flatMap, Site.demands]
  refine exists_congr fun site => and_congr_right fun _ => ?_
  cases Json.at? site.keys v with
  | none => simp
  | some w =>
    simp only [Demands.mem_under, Option.some.injEq, Pointer.mk.injEq]
    constructor
    · rintro ⟨⟨more⟩, mem, rfl⟩
      exact ⟨w, more, rfl, Role.mem_demands.mp mem, rfl⟩
    · rintro ⟨_, more, rfl, makes, rfl⟩
      exact ⟨⟨more⟩, Role.mem_demands.mpr makes, rfl⟩

end Sites

/-! ## Documents and their demands -/

/-- The demands of a document, one by one: of its trigger, its nodes and its properties. -/
inductive Document.Makes (v : Json) : Pointer → Demand → Prop where
  | trigger {t r} : Json.at? ["trigger"] v = some t → (Trigger.read .root t).result?.isSome →
      t.type? = some "customEvent" → Json.at? ["output"] t = some (.string r) →
      Makes v ⟨["trigger", "output"]⟩ (.writes r)
  | node {index : Nat} {item node keys demand} : (nodes v)[index]? = some item →
      (Node.read .root item).result? = some node →
      (⟨keys⟩, demand) ∈ node.demands index (nodes v).length →
      Makes v ⟨"nodes" :: toString index :: keys⟩ demand
  | property {name members r} : name ∈ ["model", "entities"] →
      Json.at? [name] v = some (.object members) →
      (Properties.read .root (.object members)).result?.isSome → r ∈ Members.keys members →
      Makes v ⟨[name, r]⟩ (.writes r)

section Documents

variable {members : Members Json} {keys : List String} {demand : Demand} {place : Pointer}
  {v : Json} {path : Pointer}

/-- The demands of a member of a document are those of what was read from it, below its key. -/
lemma mem_memberDemands {α : Type} {reader : Reader α} (regular : reader.Regular)
    {demands : α → Demands} {key : String} :
    (place, demand) ∈ memberDemands reader demands key members ↔
      ∃ v a keys, Json.at? [key] (.object members) = some v ∧ (reader .root v).result? = some a ∧
        (⟨keys⟩, demand) ∈ demands a ∧ place = ⟨key :: keys⟩ := by
  simp only [memberDemands, Json.at?_field]
  cases Members.get? members key with
  | none => simp
  | some v =>
    simp only [(regular v).result (Pointer.root.push key), Demands.mem_under]
    cases result : (reader .root v).result? with
    | none => simp [result, ifPresent]
    | some a =>
      constructor
      · rintro ⟨⟨keys⟩, mem, rfl⟩
        exact ⟨v, a, keys, rfl, result, mem, rfl⟩
      · rintro ⟨_, b, keys, ⟨⟩, same, mem, rfl⟩
        cases result.symm.trans same
        exact ⟨⟨keys⟩, mem, rfl⟩

/-- A trigger demands of its output that it may be written, if it is one of an event. -/
lemma Trigger.mem_demands {trigger : Trigger} (h : (read path v).result? = some trigger) :
    (⟨keys⟩, demand) ∈ trigger.demands ↔ v.type? = some "customEvent" ∧
      ∃ r, Json.at? ["output"] v = some (.string r) ∧ keys = ["output"] ∧ demand = .writes r := by
  obtain ⟨type, named, same⟩ := read_demands 0 0 h
  rw [same, mem_siteDemands, named]
  constructor
  · rintro ⟨site, mem, w, more, found, makes, rfl⟩
    unfold Sites.ofTrigger at mem
    split at mem
    · cases List.mem_singleton.mp mem
      cases makes
      exact ⟨rfl, _, found, rfl, rfl⟩
    · cases mem
  · rintro ⟨⟨⟩, r, found, rfl, rfl⟩
    exact ⟨⟨["output"], .written⟩, by decide, _, [], found, .written, rfl⟩

/-- Properties demand of each key that it may be written. -/
lemma Properties.mem_demands {properties : Properties}
    (h : (read path v).result? = some properties) :
    (⟨keys⟩, demand) ∈ properties.demands ↔
      ∃ members, v = .object members ∧ ∃ r ∈ Members.keys members, keys = [r] ∧
        demand = .writes r := by
  have sited : Reader.Sited 0 0 read demands (Sites.here .keys) := read_sited
  rw [sited path v properties h, mem_siteDemands]
  constructor
  · rintro ⟨site, mem, w, more, found, makes, rfl⟩
    cases List.mem_singleton.mp mem
    cases found
    cases makes with
    | key listed => exact ⟨_, rfl, _, List.mem_map_of_mem listed, rfl, rfl⟩
  · rintro ⟨members, rfl, r, key, rfl, rfl⟩
    obtain ⟨m, listed, rfl⟩ := List.mem_map.mp key
    exact ⟨_, List.mem_singleton_self _, _, _, rfl, .key listed, rfl⟩

/-- Nodes demand what each of them demands at its index. -/
lemma Node.mem_allDemands {slots : List (Option Node)}
    (h : (readAll path v).result? = some slots) :
    (⟨keys⟩, demand) ∈ allDemands slots ↔ ∃ items, v = .array items ∧
      ∃ index item node more, items[index]? = some item ∧ (read .root item).result? = some node ∧
        (⟨more⟩, demand) ∈ node.demands index items.length ∧
        keys = toString index :: more := by
  cases v with
  | array items =>
    cases (readAll_array path items).symm.trans h
    simp only [allDemands, List.mem_flatMap, Prod.exists, List.mem_zipIdx_iff_getElem?,
      List.getElem?_map, List.getElem?_zipIdx, Option.map_map, Option.map_eq_some_iff,
      Function.comp_apply, Nat.zero_add, List.length_map, List.length_zipIdx,
      (read_regular _).result (path.item _)]
    constructor
    · rintro ⟨_, index, ⟨item, found, rfl⟩, mem⟩
      cases result : (read .root item).result? with
      | none => simp [result, ifPresent] at mem
      | some node =>
        rw [result] at mem
        obtain ⟨⟨more⟩, made, place⟩ := Demands.mem_under.mp mem
        cases place
        exact ⟨items, rfl, index, item, node, more, found, result, made, rfl⟩
    · rintro ⟨_, ⟨⟩, index, item, node, more, found, result, mem, rfl⟩
      refine ⟨some node, index, ⟨item, found, result⟩, ?_⟩
      exact Demands.mem_under.mpr ⟨⟨more⟩, mem, rfl⟩
  | _ =>
    cases h
    simp [allDemands]

/-- The nodes of a document are the items of the array in its field for nodes. -/
lemma Document.nodes_eq {items : List Json}
    (found : Json.at? ["nodes"] v = some (.array items)) : nodes v = items := by
  simp only [nodes, found]

/-- A document that has nodes has them in an array. -/
lemma Document.array_of_nodes {index : Nat} {item : Json}
    (listed : (nodes v)[index]? = some item) :
    Json.at? ["nodes"] v = some (.array (nodes v)) := by
  unfold nodes at listed ⊢
  split at listed
  · rename_i items found
    simp only [found]
  · simp at listed

/-- What properties in a field of a document demand. -/
lemma Document.mem_properties {name : String} :
    (place, demand) ∈ memberDemands Properties.read Properties.demands name members ↔
      ∃ inner r, Json.at? [name] (.object members) = some (.object inner) ∧
        (Properties.read .root (.object inner)).result?.isSome ∧ r ∈ Members.keys inner ∧
        place = ⟨[name, r]⟩ ∧ demand = .writes r := by
  rw [mem_memberDemands Properties.read_regular]
  constructor
  · rintro ⟨v, properties, keys, found, result, mem, rfl⟩
    obtain ⟨inner, rfl, r, key, rfl, rfl⟩ := (Properties.mem_demands result).mp mem
    exact ⟨inner, r, found, by simp [result], key, rfl, rfl⟩
  · rintro ⟨inner, r, found, read, key, rfl, rfl⟩
    obtain ⟨properties, result⟩ := Option.isSome_iff_exists.mp read
    exact ⟨_, properties, [r], found, result,
      (Properties.mem_demands result).mpr ⟨inner, rfl, r, key, rfl, rfl⟩, rfl⟩

/-- The demands of the draft of a document are those that the document makes. -/
lemma Draft.mem_demands :
    (place, demand) ∈ (read (.object members)).1.demands ↔
      Document.Makes (.object members) place demand := by
  rw [demands_eq]
  simp only [List.mem_append, mem_memberDemands Trigger.read_regular,
    mem_memberDemands Node.readAll_regular, Document.mem_properties]
  constructor
  · rintro (((⟨t, trigger, keys, found, result, mem, rfl⟩ |
      ⟨v, slots, keys, found, result, mem, rfl⟩) | ⟨inner, r, found, result, key, rfl, rfl⟩) |
        ⟨inner, r, found, result, key, rfl, rfl⟩)
    · obtain ⟨event, r, output, rfl, rfl⟩ := (Trigger.mem_demands result).mp mem
      exact .trigger found (by simp [result]) event output
    · obtain ⟨items, rfl, index, item, node, more, listed, read, made, rfl⟩ :=
        (Node.mem_allDemands result).mp mem
      rw [← Document.nodes_eq found] at listed made
      exact .node listed read made
    · exact .property (by simp) found result key
    · exact .property (by simp) found result key
  · intro makes
    -- each way to make a demand names the part of the draft that carries it
    cases makes with
    | @trigger t r found result event output =>
      obtain ⟨trigger, result⟩ := Option.isSome_iff_exists.mp result
      have mem := (Trigger.mem_demands result).mpr ⟨event, r, output, rfl, rfl⟩
      exact .inl (.inl (.inl ⟨t, trigger, _, found, result, mem, rfl⟩))
    | @node index item node keys demand listed read made =>
      have found := Document.array_of_nodes listed
      have slots := Node.readAll_array .root (Document.nodes (.object members))
      have mem := (Node.mem_allDemands slots).mpr
        ⟨_, rfl, index, item, node, keys, listed, read, made, rfl⟩
      exact .inl (.inl (.inr ⟨_, _, _, found, slots, mem, rfl⟩))
    | @property name inner r field found result key =>
      simp only [List.mem_cons, List.not_mem_nil, or_false] at field
      rcases field with rfl | rfl
      · exact .inl (.inr ⟨inner, r, found, result, key, rfl, rfl⟩)
      · exact .inr ⟨inner, r, found, result, key, rfl, rfl⟩

end Documents

end DialogueLint
