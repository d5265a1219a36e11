import DialogueLint.Proofs.Dialogue.Encoding
import DialogueLint.Proofs.Integrity.Lawful

/-!
# Successors of nodes

A node names the successors that stand in the fields for its type (`Node.read_successors`). What is
read for each type of node, what a node says its successors are and which fields a type has for them
are three tables, which agree type by type.

What a plan gives is described by a property of its results (`Fields.Gives`), which passes through
the combinators; for a successor it is that the number found in the field is the one in the node. In
most types the successor is the last field of the plan, so that they share one lemma
(`next_matches`); decisions have two successors, and the event that ends a dialogue has none.
-/

namespace DialogueLint

/-! ## What plans give -/

namespace Fields

variable {α β : Type}

/-- Whatever a plan gives has a property. -/
def Gives (plan : Fields α) (P : α → Prop) : Prop :=
  ∀ path members a, (plan.read path members).result? = some a → P a

/-- If all results of a function have a property, so does what a plan makes with the function. -/
lemma Gives.map {plan : Fields α} {f : α → β} {P : β → Prop} (h : ∀ a, P (f a)) :
    (f <$> plan).Gives P := by
  intro path members b result
  obtain ⟨a, -, rfl⟩ := yields_map.mp (yields_of_result result)
  exact h a

/-- A plan gives what its first part makes of the results of the second. -/
lemma Gives.seq {first : Fields (α → β)} {plan : Fields α} {P : β → Prop}
    (h : first.Gives fun f => ∀ a, P (f a)) : (first <*> plan).Gives P := by
  intro path members b result
  obtain ⟨f, hf, a, -, rfl⟩ := yields_seq.mp (yields_of_result result)
  exact h path members f hf a

end Fields

/-! ## Nodes -/

/-- What was read as a successor is its canonical form. -/
lemma Successor.read_result {path : Pointer} {v : Json} {next : Successor}
    (h : (read path v).result? = some next) : v = next.toJson := by
  cases v with
  | null | number n =>
    cases h
    rfl
  | _ => cases h

namespace Node

open Fields

/-- A node is of a type, and its successors are what stands in the fields for the type. -/
structure Matches (node : Node) (type : String) (members : Members Json) : Prop where
  named : node.typeName = type
  fields : node.successors.map Prod.fst = successorFields type
  values : ∀ next ∈ node.successors, members.get? next.1 = some next.2.toJson

/-- The nodes that a plan gives have the successors that stand in the members. -/
def PlanMatches (plan : Fields Node) (type : String) : Prop :=
  ∀ path members node, (plan.read path members).result? = some node → node.Matches type members

/-- A successor that was read stands in its field. -/
lemma successor_found {name : String} {path : Pointer} {members : Members Json}
    {next : Successor}
    (h : ((Fields.required name Successor.read).read path members).result? = some next) :
    members.get? name = some next.toJson := by
  obtain ⟨v, found, hv⟩ := required_result.mp h
  rw [found, Successor.read_result hv]

/-- A plan that reads `nextNodeIndex` last, for nodes whose only successor this is. -/
lemma next_matches {α : Type} {kind : α → Node} {first : Fields (Successor → α)} {type : String}
    (fields : successorFields type = ["nextNodeIndex"])
    (h : first.Gives fun f => ∀ next, (kind (f next)).typeName = type ∧
      (kind (f next)).successors = [("nextNodeIndex", next)]) :
    PlanMatches (kind <$> (first <*> nextField)) type := by
  intro path members node result
  obtain ⟨f, hf, next, hnext, rfl⟩ := yields_seq.mp (yields_map.mp (yields_of_result result))
  obtain ⟨typeName, successors⟩ := h path members f hf next
  refine ⟨typeName, by rw [successors, fields]; rfl, ?_⟩
  rw [successors]
  exact List.forall_mem_singleton.mpr (successor_found hnext)

/-- A decision has the two successors that stand in its fields. -/
lemma decision_matches : PlanMatches (decision <$> Decision.fields) "decision" := by
  intro path members node result
  have fields := yields_of_result result
  simp only [Decision.fields, yields_seq, yields_map] at fields
  obtain ⟨rule, -, pass, hpass, fail, hfail, rfl⟩ := fields
  refine ⟨rfl, rfl, List.forall_mem_cons.mpr ⟨successor_found hpass, ?_⟩⟩
  exact List.forall_mem_singleton.mpr (successor_found hfail)

/-- A node without successors, for a type without fields for them. -/
lemma last_matches {plan : Fields Node} {type : String} (fields : successorFields type = [])
    (h : plan.Gives fun node => node.typeName = type ∧ node.successors = []) :
    PlanMatches plan type := by
  intro path members node result
  obtain ⟨typeName, successors⟩ := h path members node result
  refine ⟨typeName, by rw [successors, fields]; rfl, ?_⟩
  simp [successors]

/-- A simple question has the successor that stands in its field, whatever its kind. -/
lemma promptPlan_matches {kind : PromptKind} :
    PlanMatches (promptPlan kind).2 (promptPlan kind).1 := by
  have fields : successorFields kind.typeName = ["nextNodeIndex"] := by cases kind <;> rfl
  exact next_matches fields (.seq (.seq (.seq (.seq (.map fun _ _ _ _ _ _ => ⟨rfl, rfl⟩)))))

/-- For every type, the nodes of the plan have the successors that stand in the fields for the type.
-/
lemma plans_match : ∀ entry ∈ variants.plans, PlanMatches entry.2 entry.1 := by
  simp only [variants, List.forall_mem_cons, List.not_mem_nil, false_implies, implies_true,
    and_true]
  refine ⟨?action, ?attachmentPrompt, ?card, ?cardCollection, ?choicePrompt, ?confirmationPrompt,
    ?customCardCollection, ?customEvent, promptPlan_matches, promptPlan_matches, decision_matches,
    ?dialogue, ?downloadAction, ?event, ?message, promptPlan_matches, ?operation, ?repeatDialogue,
    ?sequenceDialogue, promptPlan_matches, promptPlan_matches⟩
  case card => exact next_matches rfl (.map fun _ _ => ⟨rfl, rfl⟩)
  case action | downloadAction | message | operation =>
    exact next_matches rfl (.seq (.map fun _ _ _ => ⟨rfl, rfl⟩))
  case dialogue => exact next_matches rfl (.seq (.seq (.map fun _ _ _ _ => ⟨rfl, rfl⟩)))
  case repeatDialogue | sequenceDialogue =>
    exact next_matches rfl (.seq (.seq (.seq (.map fun _ _ _ _ _ => ⟨rfl, rfl⟩))))
  case attachmentPrompt | cardCollection | choicePrompt | confirmationPrompt =>
    exact next_matches rfl (.seq (.seq (.seq (.seq (.map fun _ _ _ _ _ _ => ⟨rfl, rfl⟩)))))
  case customCardCollection =>
    exact next_matches rfl (.seq (.seq (.seq (.seq (.seq (.seq (.seq
      (.map fun _ _ _ _ _ _ _ _ _ => ⟨rfl, rfl⟩))))))))
  case customEvent =>
    apply last_matches rfl
    apply Gives.map
    exact fun _ => ⟨rfl, rfl⟩
  case event =>
    apply last_matches rfl
    apply Gives.map
    exact fun _ => ⟨rfl, rfl⟩

/-- A node that was read is of the type that the object names, and its successors are what stands in
the fields for the type. -/
lemma read_successors {path : Pointer} {v : Json} {node : Node}
    (h : (read path v).result? = some node) :
    ∃ members type, v = .object members ∧ Members.get? members "type" = some (.string type) ∧
      node.Matches type members := by
  obtain ⟨members, type, plan, rfl, htype, found, hplan⟩ := Variants.read_result.mp h
  refine ⟨members, type, rfl, htype, ?_⟩
  exact plans_match (type, plan) (Members.mem_of_get? found) path members node hplan

end Node

end DialogueLint
