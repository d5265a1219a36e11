import DialogueLint.Proofs.Integrity.Location
import DialogueLint.Proofs.Integrity.Truncation
import DialogueLint.Proofs.Integrity.Regular
import DialogueLint.Proofs.Reading.Stray

/-!
# Stray keys hide nothing

A key that a document, its trigger or one of its nodes should not have adds one diagnostic to the
report and changes nothing else (`stray_adds`). The object is read as before, so what is checked of
it is the same.

A plan looks at declared keys only (`Fields.DependsOn`), so a further key leaves what is read of the
object as it was, and is itself reported among the undeclared keys, in its place by the order of
keys. From the object the change is carried outwards, from a node to the array of nodes and from
there to the document: each reader on the way reports one diagnostic more and gives the same result
(`Outcome.Adds`). The draft of the document is then the same but for its completeness, which the
demands do not look at.
-/

namespace DialogueLint

/-- An object of a document that is known by its place: the document itself, or its trigger or one
of its nodes, if it is of a known type. It comes with its members and the keys declared for it. -/
inductive Host : Json → List String → Members Json → List String → Prop where
  | document {members : Members Json} :
    Host (.object members) [] members (Schema.document.map FieldRule.name)
  | trigger {whole members : Members Json} {type : String} {rules : List FieldRule} :
    whole.get? "trigger" = some (.object members) →
    members.get? "type" = some (.string type) →
    Schema.triggers.lookup type = some rules →
    Host (.object whole) ["trigger"] members ("type" :: rules.map FieldRule.name)
  | node {whole members : Members Json} {items : List Json} {index : Nat} {type : String}
      {rules : List FieldRule} :
    whole.get? "nodes" = some (.array items) →
    items[index]? = some (.object members) →
    members.get? "type" = some (.string type) →
    Schema.nodes.lookup type = some rules →
    Host (.object whole) ["nodes", toString index] members ("type" :: rules.map FieldRule.name)

variable {limit : Nat} {document : Json} {place : List String} {members others : Members Json}
  {declared : List String} {key : String} {x : Json} {d : Diagnostic}

/-! ## Nodes -/

/-- An array of nodes is read as one of its nodes is. -/
lemma Node.readAll_adds {earlier later : List Json} {v w : Json} {path : Pointer}
    (h : (read (path.item earlier.length) v).Adds d (read (path.item earlier.length) w)) :
    (readAll path (.array (earlier ++ v :: later))).Adds d
      (readAll path (.array (earlier ++ w :: later))) where
  result := by
    simp only [readAll_array, List.zipIdx_append, List.zipIdx_cons, List.map_append, List.map_cons,
      Nat.zero_add, h.result]
  inserts := by
    rw [readAll_found (by simp), readAll_found (by simp)]
    simp only [List.zipIdx_append, List.zipIdx_cons, List.flatMap_append, List.flatMap_cons,
      Nat.zero_add]
    exact (h.inserts.append_right _).append_left _

/-- An array of nodes is read as one of its nodes is, at the index where the node was replaced. -/
lemma Node.readAll_set {items : List Json} {index : Nat} {v w : Json} {path : Pointer}
    (found : items[index]? = some v)
    (h : (read (path.item index) v).Adds d (read (path.item index) w)) :
    (readAll path (.array items)).Adds d (readAll path (.array (items.set index w))) := by
  obtain ⟨bound, rfl⟩ := List.getElem?_eq_some_iff.mp found
  obtain ⟨earlier, later, split, rfl, changed⟩ := @List.exists_of_set _ _ w _ bound
  have adds : (readAll path (.array (earlier ++ items[earlier.length] :: later))).Adds d
      (readAll path (.array (earlier ++ w :: later))) := readAll_adds h
  rw [← split, ← changed] at adds
  exact adds

/-! ## Documents -/

namespace Draft

open Fields

/-- The fields of a document are all that its plan looks at. -/
lemma fields_depend : fields.DependsOn fields.declared :=
  required_depends.attempt.map
    |>.seq required_depends.attempt
    |>.seq required_depends.attempt
    |>.seq optional_depends.attempt
    |>.seq optional_depends.attempt
    |>.seq optional_depends.attempt

/-- A document is read as its trigger is, if nothing else of it has changed. -/
lemma trigger_adds {v w : Json} (agree : members.AgreeBut "trigger" others)
    (found : members.get? "trigger" = some v) (changed : others.get? "trigger" = some w)
    (h : (Trigger.read (.push .root "trigger") v).Adds d (Trigger.read (.push .root "trigger") w)) :
    fields.Adds d .root members others :=
  (required_adds found changed h).attempt.map
    |>.seq_left (required_depends.attempt.read_agree agree (by decide))
    |>.seq_left (required_depends.attempt.read_agree agree (by decide))
    |>.seq_left (optional_depends.attempt.read_agree agree (by decide))
    |>.seq_left (optional_depends.attempt.read_agree agree (by decide))
    |>.seq_left (optional_depends.attempt.read_agree agree (by decide))

/-- A document is read as its nodes are, if nothing else of it has changed. -/
lemma nodes_adds {v w : Json} (agree : members.AgreeBut "nodes" others)
    (found : members.get? "nodes" = some v) (changed : others.get? "nodes" = some w)
    (h : (Node.readAll (.push .root "nodes") v).Adds d (Node.readAll (.push .root "nodes") w)) :
    fields.Adds d .root members others :=
  Adds.seq_right (required_depends.attempt.map.read_agree agree (by decide))
      (required_adds found changed h).attempt
    |>.seq_left (required_depends.attempt.read_agree agree (by decide))
    |>.seq_left (optional_depends.attempt.read_agree agree (by decide))
    |>.seq_left (optional_depends.attempt.read_agree agree (by decide))
    |>.seq_left (optional_depends.attempt.read_agree agree (by decide))

/-- The draft of a document with one diagnostic more differs in that it is not complete. -/
lemma read_adds (h : (fields.close [] .root members).Adds d (fields.close [] .root others)) :
    Inserts d (read (.object members)).2 (read (.object others)).2 ∧
      (read (.object others)).1 = { (read (.object members)).1 with complete := false } := by
  have inserts : Inserts d (read (.object members)).2 (read (.object others)).2 := by
    rw [read_diagnostics, read_diagnostics]
    exact h.inserts
  refine ⟨inserts, ?_⟩
  have result : ∃ draft, (fields.close [] .root members).result? = some draft ∧
      ∀ silent, draft false = { draft silent with complete := false } :=
    ⟨_, rfl, fun silent => congrArg (Draft.mk _ _ _ _ _ _) (Bool.and_false _)⟩
  obtain ⟨draft, old, incomplete⟩ := result
  have new : (fields.close [] .root others).result? = some draft := h.result.trans old
  have some_report : (fields.close [] .root others).diagnostics ≠ [] :=
    List.ne_nil_of_mem h.inserts.mem
  have loud : (([] ++ (fields.close [] .root others).diagnostics).length == 0) = false := by
    simpa using some_report
  simp only [read, readBehind, Fields.object, old, new, List.length_nil, loud]
  exact incomplete _

end Draft

/-! ## Hosts -/

namespace Host

/-- The place of a host leads to its object. -/
lemma resolve (h : Host document place members declared) :
    Json.resolve? place document = some (.object members) := by
  cases h with
  | document => rfl
  | trigger found => simp [Json.resolve?, found]
  | node found listed =>
    simp only [Json.resolve?, found, Option.bind_some, Json.itemAt?_toString listed]

/-- A document is read as before with a key that is not declared for one of its objects. -/
lemma read_insert (h : Host document place members declared) (absent : members.get? key = none)
    (fresh : key ∉ declared) :
    ∃ whole others, document = .object whole ∧
      document.put place (.object (members.insert key x)) = .object others ∧
      (Draft.fields.close [] .root whole).Adds (.ofStray ⟨place⟩ key x)
        (Draft.fields.close [] .root others) := by
  cases h with
  | document =>
    refine ⟨members, members.insert key x, rfl, Json.put_nil _ _, ?_⟩
    rw [← Draft.fields_inspect.declared] at fresh
    exact Draft.fields_depend.close_insert absent fresh
  | @trigger whole _ type rules found htype known =>
    refine ⟨whole, whole.change "trigger" fun v => v.put [] (.object (members.insert key x)), rfl,
      rfl, ?_⟩
    -- the document changes in one member only, and the other fields are read from the others
    have changed : (whole.change "trigger" fun v => v.put [] (.object (members.insert key x))).get?
        "trigger" = some (.object (members.insert key x)) := by
      rw [Members.get?_change, if_pos rfl, found, Option.map_some, Json.put_nil]
    have adds := Draft.trigger_adds Members.agreeBut_change found changed
      (Trigger.variants_follow.read_insert htype known absent fresh)
    exact adds.close_change (by decide)
  | @node whole _ items index type rules found listed htype known =>
    refine ⟨whole, whole.change "nodes" fun v =>
      v.put [toString index] (.object (members.insert key x)), rfl, rfl, ?_⟩
    have changed : (whole.change "nodes" fun v =>
        v.put [toString index] (.object (members.insert key x))).get? "nodes" =
          some (.array (items.set index (.object (members.insert key x)))) := by
      rw [Members.get?_change, if_pos rfl, found, Option.map_some, Json.put_index]
    have adds := Draft.nodes_adds Members.agreeBut_change found changed
      (Node.readAll_set listed
        (Node.variants_follow.read_insert htype known absent fresh))
    exact adds.close_change (by decide)

/-- Nothing was reported of a key that was not there. -/
lemma unreported (h : Host document place members declared) (absent : members.get? key = none)
    (wf : document.WellFormed) :
    .ofStray ⟨place⟩ key x ∉ (Settings.validateDocument ⟨limit, true⟩ document).diagnostics := by
  intro mem
  obtain ⟨tokens, w, hpath, reaches, -⟩ := (ReportOf.document ⟨limit, true⟩).located _ mem
  have same : place ++ [key] = tokens := congrArg Pointer.tokens hpath
  have resolved := reaches.resolve wf
  rw [← same, Json.resolve?_append, h.resolve, Option.bind_some, Json.resolve?, absent] at resolved
  cases resolved

end Host

/-- Stray keys hide nothing. If faulty documents are checked as well, then whatever the limit, and
for the object of a document itself, its trigger or any of its nodes, where a trigger or node is of
a known type: a key that is not there and not declared for the object may be added with any value.
The report then has one diagnostic more, of the unknown field at the new member and with the
description of its value, and in a document whose objects have each key once taking it out again
leaves the old report. All parts of the document are read as before. -/
theorem stray_adds {limit : Nat} {document : Json} {place : List String} {members : Members Json}
    {declared : List String} {key : String} {x : Json}
    (host : Host document place members declared) (absent : members.get? key = none)
    (fresh : key ∉ declared) :
    let settings : Settings := ⟨limit, true⟩
    let stray : Diagnostic := ⟨⟨place ++ [key]⟩, .unknownField key x.describe⟩
    let strayed := document.put place (.object (members.insert key x))
    let old := (settings.validateDocument document).diagnostics
    let new := (settings.validateDocument strayed).diagnostics
    (∃ before behind, old = before ++ behind ∧ new = before ++ stray :: behind) ∧
      (document.WellFormed → stray ∉ old ∧ new.erase stray = old) ∧
      (Draft.read strayed).1 = { (Draft.read document).1 with complete := false } := by
  intro settings stray strayed old new
  obtain ⟨whole, others, rfl, changed, adds⟩ := host.read_insert (x := x) absent fresh
  have read := Draft.read_adds adds
  obtain ⟨found, draft⟩ := read
  have inserts : Inserts stray old new := by
    simp only [old, new, strayed, settings, changed, Settings.document_faulty, draft]
    exact found.append_right _
  refine ⟨inserts, ?_, ?_⟩
  · intro wf
    have unreported : stray ∉ old := host.unreported absent wf
    exact ⟨unreported, inserts.erase unreported⟩
  · simp only [strayed, changed]
    exact draft

/-- A message that leads to a node that is not there. -/
def lostMessage : Members Json :=
  [("message", .string "hi"), ("nextNodeIndex", .number (.integer 5)), ("type", .string "message")]

/-- A document with this message as its only node. -/
def lostDocument : Json :=
  .object [("id", .string "lost"), ("nodes", .array [.object lostMessage]),
    ("trigger", .object [("type", .string "nestedDialogue")])]

/-- The message may be coloured, and is still reported as lost. -/
theorem lostDocument_adds :
    lostMessage.get? "colour" = none ∧
      let stray : Diagnostic := ⟨⟨["nodes", "0", "colour"]⟩, .unknownField "colour" "null"⟩
      let strayed := lostDocument.put ["nodes", "0"] (.object (lostMessage.insert "colour" .null))
      (Settings.default.validateDocument strayed).diagnostics =
          [stray, ⟨⟨["nodes", "0", "nextNodeIndex"]⟩,
            .danglingReference 0 "nextNodeIndex" "5" 1⟩] ∧
        ∃ before behind,
          (Settings.default.validateDocument lostDocument).diagnostics = before ++ behind ∧
            (Settings.default.validateDocument strayed).diagnostics =
              before ++ stray :: behind := by
  have known : Schema.nodes.lookup "message" = some [.must "message" Schema.short,
      .may "customContent" Schema.customContent, Schema.next] := rfl
  have host : Host lostDocument ["nodes", "0"] lostMessage
      ["type", "message", "customContent", "nextNodeIndex"] :=
    @Host.node _ _ [.object lostMessage] 0 "message" _ rfl rfl rfl known
  exact ⟨rfl, by decide, (stray_adds host rfl (by decide)).1⟩

end DialogueLint
