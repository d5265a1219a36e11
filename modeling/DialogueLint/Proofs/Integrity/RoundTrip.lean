import DialogueLint.Proofs.Dialogue.EmptyOutputs
import DialogueLint.Proofs.Integrity.Definition

/-!
# Documents and definitions correspond

A document about whose structure nothing is reported is the canonical form of its definition, up to
empty objects of outputs, and this form is read as the same definition (`toJson_definition`). No
reader drops a field, or reads it into the place of another.

The two halves are shown together: each part of the document that was read without a report is both
written as it was and read again as the same. For nodes, the only loss is an empty object of
outputs, which is first taken out of the document. The draft that is read is determined by its
definition, so that from equal definitions everything that comes later is the same, the report under
any settings included.
-/

namespace DialogueLint

/-- The value of a document's field, with nodes without empty objects of outputs. -/
def Definition.fieldWithoutEmptyOutputs : String → Json → Json
  | "nodes", .array nodes => .array (nodes.map Node.withoutEmptyOutputs)
  | _, v => v

/-- A document without empty objects of outputs in its actions and downloads. -/
def Definition.withoutEmptyOutputs : Json → Json
  | .object members => .object (members.map fun m => (m.1, fieldWithoutEmptyOutputs m.1 m.2))
  | v => v

namespace Node

variable {path : Pointer} {v : Json}

/-- The nodes of an array are read alike without empty outputs, and are written so. -/
lemma readAll_withoutEmptyOutputs {nodes : List Node} (wf : v.WellFormed)
    (hread : readAll path v = .ok (nodes.map some)) :
    readAll path (Definition.fieldWithoutEmptyOutputs "nodes" v) = .ok (nodes.map some) ∧
      .array (nodes.map toJson) = Definition.fieldWithoutEmptyOutputs "nodes" v := by
  obtain ⟨values, rfl, inhabited, items⟩ := readAll_eq_ok.mp hread
  have each : ∀ value ∈ values, value.WellFormed := by
    cases wf with
    | array each => exact each
  constructor
  · refine readAll_eq_ok.mpr ⟨_, rfl, by simpa using inhabited, ?_⟩
    exact Reader.itemsFrom_map each (fun _ _ _ wf h => (read_withoutEmptyOutputs wf h).1) items
  · refine congrArg Json.array ?_
    exact Reader.items_restore each (fun _ _ _ wf h => (read_withoutEmptyOutputs wf h).2) items

end Node

/-! ## Documents -/

namespace Definition

variable {d : Definition} {members : Members Json} {v w : Json} {name : String}

/-- Only the nodes of a document can have outputs. -/
lemma fieldWithoutEmptyOutputs_of_ne (other : name ≠ "nodes") :
    fieldWithoutEmptyOutputs name v = v := by
  unfold fieldWithoutEmptyOutputs
  split
  · exact absurd rfl other
  · rfl

/-- A document stays well-formed without empty outputs. -/
lemma wellFormed_withoutEmptyOutputs (wf : v.WellFormed) : (withoutEmptyOutputs v).WellFormed := by
  unfold withoutEmptyOutputs
  split
  case h_2 => exact wf
  case h_1 members =>
    cases wf with
    | object ordered each =>
      refine .object (List.pairwise_map.mpr ordered) (List.forall_mem_map.mpr fun m mem => ?_)
      have value := each m mem
      unfold fieldWithoutEmptyOutputs
      split
      case h_2 => exact value
      case h_1 nodes found =>
        rw [found] at value
        cases value with
        | array each =>
          refine .array (List.forall_mem_map.mpr fun node mem => ?_)
          exact Node.wellFormed_withoutEmptyOutputs (each node mem)

/-- A definition is written as the members from which it is read, if its nodes are. -/
lemma IsReadFrom.toJson (h : d.IsReadFrom members) (wf : (Json.object members).WellFormed)
    (nodes : members.get? "nodes" = some (.array (d.nodes.map Node.toJson))) :
    d.toJson = .object members := by
  have entries : members.entriesAt Draft.fields.declared =
      [("trigger", some d.trigger.toJson),
        ("nodes", some (.array (d.nodes.map Node.toJson))), ("id", some (.string d.id)),
        ("model", d.model.map Properties.toJson), ("entities", d.entities.map Properties.toJson),
        ("background", d.background.map .bool)] := by
    rw [← nodes, ← Fields.get?_of_required Trigger.read_restores wf h.trigger,
      ← Fields.get?_of_required Reader.sized_restores wf h.id,
      ← Fields.get?_of_optional Properties.read_restores wf h.model,
      ← Fields.get?_of_optional Properties.read_restores wf h.entities,
      ← Fields.get?_of_optional Reader.bool_restores wf h.background]
    rfl
  cases wf with
  | object ordered _ =>
    have whole := Json.ofEntries_entriesAt ordered (by decide) h.closed
    rw [entries] at whole
    exact whole

/-- A definition is read alike from a document without empty outputs, and is written so. -/
lemma IsReadFrom.withoutEmptyOutputs (h : d.IsReadFrom members)
    (wf : (Json.object members).WellFormed) :
    ∃ others, Definition.withoutEmptyOutputs (.object members) = .object others ∧
      d.IsReadFrom others ∧ d.toJson = .object others := by
  let others : Members Json := members.map fun m => (m.1, fieldWithoutEmptyOutputs m.1 m.2)
  have found : ∀ name, others.get? name =
      (members.get? name).map (fieldWithoutEmptyOutputs name) := fun _ => Members.get?_map
  have same : ∀ name, name ≠ "nodes" → others.get? name = members.get? name := by
    intro name other
    rw [found]
    cases members.get? name with
    | none => rfl
    | some v => exact congrArg some (fieldWithoutEmptyOutputs_of_ne other)
  obtain ⟨v, hv, nodes⟩ := Fields.required_eq_ok.mp h.nodes
  obtain ⟨again, written⟩ := Node.readAll_withoutEmptyOutputs (wf.of_get? hv) nodes
  have hnodes : others.get? "nodes" = some (.array (d.nodes.map Node.toJson)) := by
    rw [found, hv, Option.map_some, written]
  have reads : d.IsReadFrom others :=
    { trigger := (Fields.required_agrees (same _ (by decide)) _).trans h.trigger
      nodes := Fields.required_eq_ok.mpr ⟨_, hnodes, written ▸ again⟩
      id := (Fields.required_agrees (same _ (by decide)) _).trans h.id
      model := (Fields.optional_agrees (same _ (by decide)) _).trans h.model
      entities := (Fields.optional_agrees (same _ (by decide)) _).trans h.entities
      background := (Fields.optional_agrees (same _ (by decide)) _).trans h.background
      closed := fun key mem => h.closed key (by simpa [Members.keys, others] using mem) }
  exact ⟨others, rfl, reads, reads.toJson (wellFormed_withoutEmptyOutputs wf) hnodes⟩

end Definition

namespace Draft

variable {d : Definition} {draft : Draft} {v : Json}

/-- If all slots are filled, they are the nodes with which they are filled. -/
lemma eq_map_some {slots : List (Option Node)} {nodes : List Node}
    (h : slots.mapM (fun node => node) = some nodes) : slots = nodes.map some := by
  induction slots generalizing nodes with
  | nil =>
    obtain rfl := Option.some.inj h
    rfl
  | cons slot slots ih =>
    rw [List.mapM_cons] at h
    obtain ⟨node, filled, h⟩ := Option.bind_eq_some_iff.mp h
    obtain ⟨rest, others, h⟩ := Option.bind_eq_some_iff.mp h
    obtain rfl := Option.some.inj h
    rw [filled, ih others, List.map_cons]

/-- A draft with a definition has no other parts than the definition. -/
lemma eq_of_definition (h : draft.definition? = some d) : draft =
    ⟨some d.trigger, d.nodes.map some, some d.id, d.model, d.entities, d.background, true⟩ := by
  unfold definition? at h
  split at h
  · obtain ⟨nodes, slots, rfl⟩ := Option.map_eq_some_iff.mp h
    rw [eq_map_some slots]
  · cases h

/-- A document about whose structure nothing is reported is read as the same draft as the form of
its definition. -/
lemma read_toJson (wf : v.WellFormed) (clean : (read v).2 = []) :
    ∃ d, (read v).1.definition? = some d ∧ d.toJson = Definition.withoutEmptyOutputs v ∧
      read d.toJson = read v := by
  cases v with
  | object members =>
    obtain ⟨d, hd⟩ := exists_isReadFrom clean
    obtain ⟨others, tidied, again, written⟩ := hd.withoutEmptyOutputs wf
    have defined : (read (.object members)).1.definition? = some d := definition_of_isReadFrom hd
    have definedAgain : (read (.object others)).1.definition? = some d :=
      definition_of_isReadFrom again
    have cleanAgain : (read (.object others)).2 = [] :=
      definition_isSome.mp (Option.isSome_iff_exists.mpr ⟨d, definedAgain⟩)
    refine ⟨d, defined, written.trans tidied.symm, ?_⟩
    rw [written]
    -- Both drafts have the same definition, and a draft that has one consists of its parts.
    refine Prod.ext ?_ (cleanAgain.trans clean.symm)
    rw [eq_of_definition defined, eq_of_definition definedAgain]
  | null | bool b | number n | string s | array items => cases clean

end Draft

/-- Reading a document loses nothing. If nothing is reported about the structure of a document, it
has a definition, whose canonical form is the document without empty objects of outputs; nothing is
reported about this form either, and it is read as the same definition. Two such documents with the
same definition differ at most in empty objects of outputs. Under any settings, document and form
have the same draft and the same report, so that a definition that was accepted is accepted
again. -/
theorem toJson_definition {v : Json} (wf : v.WellFormed) (clean : (Draft.read v).2 = []) :
    ∃ d, (Draft.read v).1.definition? = some d ∧
      d.toJson = Definition.withoutEmptyOutputs v ∧
      (Draft.read d.toJson).2 = [] ∧ (Draft.read d.toJson).1.definition? = some d ∧
      (∀ w : Json, w.WellFormed → (Draft.read w).2 = [] → (Draft.read w).1.definition? = some d →
        Definition.withoutEmptyOutputs w = Definition.withoutEmptyOutputs v) ∧
      ∀ settings : Settings, settings.draftAndReport d.toJson = settings.draftAndReport v := by
  obtain ⟨d, defined, written, again⟩ := Draft.read_toJson wf clean
  refine ⟨d, defined, written, by rw [again, clean], by rw [again, defined], ?others, ?settings⟩
  case others =>
    intro w wfw cleanw definedw
    obtain ⟨e, definede, writtene, -⟩ := Draft.read_toJson wfw cleanw
    obtain rfl : d = e := Option.some.inj (definedw.symm.trans definede)
    exact writtene.symm.trans written
  case settings =>
    intro settings
    simp only [Settings.draftAndReport, again]

/-- A document of one action with some outputs. -/
def actionDocument (outputs : Members Json) : Json :=
  .object [("id", .string "d"),
    ("nodes", .array [.object ([("nextNodeIndex", .null)] ++ outputs ++
      [("service", .object [("method", .string "GET"), ("url", .string "u")]),
        ("type", .string "action")])]),
    ("trigger", .object [("type", .string "nestedDialogue")])]

/-- No object of the document has a key twice. -/
lemma actionDocument_wellFormed : (actionDocument [("outputs", .object [])]).WellFormed := by
  refine .object (by decide) ?_
  simp only [List.forall_mem_cons, List.not_mem_nil, false_implies, implies_true, and_true]
  refine ⟨.string _, .array ?_, .object (by decide) ?_⟩
  · refine List.forall_mem_singleton.mpr (.object (by decide) ?_)
    simp only [List.cons_append, List.nil_append, List.forall_mem_cons, List.not_mem_nil,
      false_implies, implies_true, and_true]
    refine ⟨.null, .object .nil nofun, .object (by decide) ?_, .string _⟩
    simp only [List.forall_mem_cons, List.not_mem_nil, false_implies, implies_true, and_true]
    exact ⟨.string _, .string _⟩
  · exact List.forall_mem_singleton.mpr (.string _)

/-- An empty object of outputs is all that an action's definition does not keep. -/
theorem actionDocument_toJson :
    (actionDocument [("outputs", .object [])]).WellFormed ∧
      (Draft.read (actionDocument [("outputs", .object [])])).2 = [] ∧
      ∃ d, (Draft.read (actionDocument [("outputs", .object [])])).1.definition? = some d ∧
        d.toJson = actionDocument [] ∧
        (Draft.read (actionDocument [])).2 = [] ∧
        (Draft.read (actionDocument [])).1.definition? = some d := by
  have clean : (Draft.read (actionDocument [("outputs", .object [])])).2 = [] := by decide
  have tidied : Definition.withoutEmptyOutputs (actionDocument [("outputs", .object [])]) =
      actionDocument [] := rfl
  obtain ⟨d, defined, written, cleanAgain, again, -⟩ :=
    toJson_definition actionDocument_wellFormed clean
  rw [tidied] at written
  rw [written] at cleanAgain again
  exact ⟨actionDocument_wellFormed, clean, d, defined, written, cleanAgain, again⟩

end DialogueLint
