import DialogueLint.Proofs.Integrity.Fragment

/-!
# Nodes do not disturb each other

What is reported outside a node does not depend on the node (`node_isolated`). The nodes of an array
are read one by one and then checked one by one, each at its index and among as many nodes as the
array has items. So a node is told of the others by their number only, whether they can be read or
not.

The two documents have the same keys and, but for one item, the same values, so whatever is found
outside the array of nodes is the same. Inside it the items are split at the index: those before and
those behind are read at the same places and checked at the same indices, and what is found in the
item itself is dropped by the filter (`outside`). The number of items is the same on both sides, and
this is all that a check of one node knows of the others.
-/

namespace DialogueLint

open Demands (ifPresent)

/-! ## Outside a place -/

/-- A diagnostic lies at the place that tokens lead to, or further inside. -/
def Diagnostic.liesIn (tokens : List String) (d : Diagnostic) : Bool :=
  tokens.isPrefixOf d.path.tokens

/-- The diagnostics that do not lie where tokens lead, in order. -/
def outside (tokens : List String) (diagnostics : List Diagnostic) : List Diagnostic :=
  diagnostics.filter fun d => !d.liesIn tokens

/-- A diagnostic lies where tokens lead exactly if its path begins with them. -/
lemma Diagnostic.liesIn_iff {tokens : List String} {d : Diagnostic} :
    d.liesIn tokens ↔ tokens <+: d.path.tokens :=
  List.isPrefixOf_iff_prefix

/-- What lies outside in two lists lies outside in the first or in the second, in order. -/
lemma outside_append {tokens : List String} {found more : List Diagnostic} :
    outside tokens (found ++ more) = outside tokens found ++ outside tokens more :=
  List.filter_append _ _

/-! ## Items -/

section Items

variable {path : Pointer} {each : Json × Nat → List Diagnostic}

/-- What is found in items of other indices is found outside an item. -/
lemma outside_others {index : Nat} {items : List (Json × Nat)}
    (inside : ∀ item, ∀ d ∈ each item, (path.item item.2).tokens <+: d.path.tokens)
    (others : ∀ item ∈ items, item.2 ≠ index) :
    outside (path.item index).tokens (items.flatMap each) = items.flatMap each := by
  refine List.filter_eq_self.mpr fun d mem => ?_
  obtain ⟨item, listed, found⟩ := List.mem_flatMap.mp mem
  have different : toString item.2 ≠ toString index := fun same =>
    others item listed (toString_nat_injective same)
  have diverge : Diverge (path.item item.2).tokens (path.item index).tokens :=
    (diverge_singleton different).below path.tokens
  simpa [← Diagnostic.liesIn_iff] using diverge.not_inside (inside item d found)

/-- Outside an item is found what is found in the items before it and behind it. -/
lemma outside_items {earlier later : List Json} {v : Json}
    (inside : ∀ item, ∀ d ∈ each item, (path.item item.2).tokens <+: d.path.tokens) :
    outside (path.item earlier.length).tokens ((earlier ++ v :: later).zipIdx.flatMap each) =
      earlier.zipIdx.flatMap each ++ (later.zipIdx (earlier.length + 1)).flatMap each := by
  have before : ∀ item ∈ earlier.zipIdx, item.2 ≠ earlier.length := by
    intro item mem
    have := List.snd_lt_add_of_mem_zipIdx mem
    omega
  have behind : ∀ item ∈ later.zipIdx (earlier.length + 1), item.2 ≠ earlier.length := by
    intro item mem
    have := List.le_snd_of_mem_zipIdx mem
    omega
  have own : outside (path.item earlier.length).tokens (each (v, earlier.length)) = [] := by
    refine List.filter_eq_nil_iff.mpr fun d mem => ?_
    simpa [Diagnostic.liesIn_iff] using inside _ d mem
  rw [List.zipIdx_append, List.zipIdx_cons, List.flatMap_append, List.flatMap_cons,
    outside_append, outside_append, Nat.zero_add, own, List.nil_append,
    outside_others inside before, outside_others inside behind]

end Items

/-! ## Nodes -/

section Nodes

variable {earlier later : List Json} {v w : Json}

/-- What reading an array of nodes finds outside a node does not depend on the node. -/
lemma Node.readAll_outside (path : Pointer) :
    outside (path.item earlier.length).tokens
        (readAll path (.array (earlier ++ v :: later))).diagnostics =
      outside (path.item earlier.length).tokens
        (readAll path (.array (earlier ++ w :: later))).diagnostics := by
  have inside : ∀ item : Json × Nat, ∀ d ∈ (read (path.item item.2) item.1).diagnostics,
      (path.item item.2).tokens <+: d.path.tokens := fun item => (read_regular item.1).found.within
  rw [readAll_found (by simp), readAll_found (by simp), outside_items inside, outside_items inside]

/-- What checking an array of nodes finds outside a node does not depend on the node: it counts
among the nodes, whether it could be read or not. -/
lemma Node.allDemands_outside (limit : Nat) (path : Pointer) :
    outside (path.item earlier.length).tokens
        ((ifPresent (readAll path (.array (earlier ++ v :: later))).result? allDemands).check
          limit path) =
      outside (path.item earlier.length).tokens
        ((ifPresent (readAll path (.array (earlier ++ w :: later))).result? allDemands).check
          limit path) := by
  have count : (earlier ++ v :: later).length = (earlier ++ w :: later).length := by simp
  have inside : ∀ item : Json × Nat,
      ∀ d ∈ (ifPresent (read (path.item item.2) item.1).result? fun node =>
        node.demands item.2 (earlier ++ w :: later).length).check limit (path.item item.2),
      (path.item item.2).tokens <+: d.path.tokens :=
    fun item => (Demands.regular_moves _).within
  rw [allDemands_found, allDemands_found, count, outside_items inside, outside_items inside]

end Nodes

/-! ## Documents -/

section Documents

variable {earlier later : List Json} {v w : Json}

/-- A required field is read alike from members with the same value under its name. -/
lemma Fields.required_congr {α : Type} {name : String} {reader : Reader α} {path : Pointer}
    {members others : Members Json} (same : members.get? name = others.get? name) :
    (required name reader).read path members = (required name reader).read path others := by
  simp only [required, same]

/-- An optional field is read alike from members with the same value under its name. -/
lemma Fields.optional_congr {α : Type} {name : String} {reader : Reader α} {path : Pointer}
    {members others : Members Json} (same : members.get? name = others.get? name) :
    (optional name reader).read path members = (optional name reader).read path others := by
  simp only [optional, same]

/-- Members with the same value under a name demand the same below it. -/
lemma memberDemands_congr {α : Type} {name : String} {reader : Reader α} {demands : α → Demands}
    {members others : Members Json} (same : members.get? name = others.get? name) :
    memberDemands reader demands name members = memberDemands reader demands name others := by
  simp only [memberDemands, same]

/-- Reading and checking the nodes of a document finds the same outside a node that is replaced. -/
lemma nodes_outside (limit : Nat) {members others : Members Json}
    (nodes : members.get? "nodes" = others.get? "nodes" ∨
      (members.get? "nodes" = some (.array (earlier ++ v :: later)) ∧
        others.get? "nodes" = some (.array (earlier ++ w :: later)))) :
    outside ["nodes", toString earlier.length]
        ((Fields.required "nodes" Node.readAll).read .root members).diagnostics =
      outside ["nodes", toString earlier.length]
        ((Fields.required "nodes" Node.readAll).read .root others).diagnostics ∧
    outside ["nodes", toString earlier.length]
        ((memberDemands Node.readAll Node.allDemands "nodes" members).check limit .root) =
      outside ["nodes", toString earlier.length]
        ((memberDemands Node.readAll Node.allDemands "nodes" others).check limit .root) := by
  rcases nodes with same | ⟨first, second⟩
  · rw [Fields.required_congr same, memberDemands_congr same]
    exact ⟨rfl, rfl⟩
  · simp only [Fields.required, memberDemands, first, second, Demands.check_under]
    exact ⟨Node.readAll_outside (Pointer.root.push "nodes"),
      Node.allDemands_outside limit (Pointer.root.push "nodes")⟩

end Documents

/-- One node never disturbs the others. If faulty documents are checked as well, then whatever the
limit, and for every two objects that are equal but for one item of the array at `nodes`, which may
be anything in both: what is reported outside the item is the same list. -/
theorem node_isolated (limit : Nat) (before after : Members Json) (earlier later : List Json)
    (v w : Json) :
    let document (node : Json) : Json :=
      .object (before ++ ("nodes", .array (earlier ++ node :: later)) :: after)
    let reported (node : Json) : List Diagnostic :=
      outside ["nodes", toString earlier.length]
        (Settings.validateDocument ⟨limit, true⟩ (document node)).diagnostics
    reported v = reported w := by
  intro document reported
  let members (node : Json) : Members Json :=
    before ++ ("nodes", .array (earlier ++ node :: later)) :: after
  -- the other parts of the document are the same, and so are the keys that are not declared
  have others : ∀ name, name ≠ "nodes" → (members v).get? name = (members w).get? name :=
    fun name other => Members.get?_middle_of_ne other
  have undeclared : Fields.undeclared Draft.fields.declared .root (members v) =
      Fields.undeclared Draft.fields.declared .root (members w) := by
    have declared : Draft.fields.declared.contains "nodes" := by decide
    simp only [members, Fields.undeclared, List.filter_append, List.filter_cons, declared,
      Bool.not_true, Bool.false_eq_true, if_false]
  have nodes : (members v).get? "nodes" = (members w).get? "nodes" ∨ _ := Members.get?_middle
  obtain ⟨found, checked⟩ := nodes_outside limit nodes
  simp only [reported, document, Settings.document_report, Draft.read_found, outside_append]
  rw [found, checked, undeclared, Fields.required_congr (others "trigger" (by decide)),
    Fields.required_congr (others "id" (by decide)),
    Fields.optional_congr (others "model" (by decide)),
    Fields.optional_congr (others "entities" (by decide)),
    Fields.optional_congr (others "background" (by decide)),
    memberDemands_congr (others "trigger" (by decide)),
    memberDemands_congr (others "model" (by decide)),
    memberDemands_congr (others "entities" (by decide))]

end DialogueLint
