import DialogueLint.Proofs.Integrity.Acceptance
import DialogueLint.Proofs.Integrity.Regular
import DialogueLint.Proofs.Integrity.Successors
import DialogueLint.Proofs.Integrity.Truncation

/-!
# Dangling successors

Validating nodes reports a dangling reference for a successor that leads nowhere, and only for that
(`dangling_exact`). Only the demand that a successor leads to one of the nodes is ever answered by
such a diagnostic; neither reading nor typing knows of them.

The report is filtered for the kind of its diagnostics, and the filter goes through everything of
which a report is made. What remains is the demands on successors, of which each node has one for
each field of its type. As the fields of a type differ, and so do the indices of nodes, each field
of each node has its own place, and what dangles there is found by looking at one demand alone.
-/

namespace DialogueLint

open Demands (ifPresent)

/-- The diagnostics about dangling references, in order. -/
def dangling (diagnostics : List Diagnostic) : List Diagnostic :=
  diagnostics.filter fun d => d.kind == .danglingReference

/-- The dangling references that a report finds in a field of a node. -/
def Report.danglingAt (report : Report) (index : Nat) (field : String) : List Diagnostic :=
  (dangling report.diagnostics).filter fun d => d.path == ⟨[toString index, field]⟩

section Dangling

variable {diagnostics more : List Diagnostic}

/-- What dangles in two lists dangles in the first or in the second, in order. -/
lemma dangling_append : dangling (diagnostics ++ more) = dangling diagnostics ++ dangling more :=
  List.filter_append _ _

/-- What dangles in several parts is what dangles in each, in order. -/
lemma dangling_flatMap {α : Type} {parts : List α} {each : α → List Diagnostic} :
    dangling (parts.flatMap each) = parts.flatMap fun a => dangling (each a) :=
  List.filter_flatMap

/-- Without diagnostics of the kind, nothing dangles. -/
lemma dangling_eq_nil (h : ∀ d ∈ diagnostics, d.kind ≠ .danglingReference) :
    dangling diagnostics = [] :=
  List.filter_eq_nil_iff.mpr fun d mem => by simpa using h d mem

end Dangling

/-! ## Demands -/

/-- None of the demands is on a successor. -/
def Demands.Leadless (demands : Demands) : Prop :=
  ∀ p ∈ demands, ∀ index field target len, p.2 ≠ .leads index field target len

/-- Only a demand on a successor is answered by a dangling reference. -/
lemma Demand.check_kinds {demand : Demand} {limit : Nat} {path : Pointer}
    (h : ∀ index field target len, demand ≠ .leads index field target len) :
    ∀ d ∈ demand.check limit path, d.kind ≠ .danglingReference := by
  have apart (d : Diagnostic) : d.kind.isOfExpression → d.kind ≠ .danglingReference := by
    intro expression same
    rw [same] at expression
    cases expression
  intro d found
  cases demand with
  | writes r =>
    simp only [Demand.check] at found
    split at found
    · cases List.mem_singleton.mp found
      intro same
      cases same
    · cases found
  | reads r => exact apart d (Typing.ofRead_clear.kinds_at _ d found)
  | types expect e => exact apart d (Typing.check_regular.found.kinds_at _ d found)
  | leads index field target len => exact absurd rfl (h index field target len)

namespace Demands

variable {demands more : Demands} {limit : Nat} {path : Pointer}

/-- No demands are none on a successor. -/
@[simp] lemma leadless_nil : Leadless [] := by
  simp [Leadless]

/-- Demands together are free of successors if both are. -/
@[simp] lemma leadless_append : (demands ++ more).Leadless ↔ demands.Leadless ∧ more.Leadless :=
  List.forall_mem_append

/-- Moving demands below a part does not change what they are on. -/
@[simp] lemma leadless_under {tokens : List String} :
    (demands.under tokens).Leadless ↔ demands.Leadless :=
  List.forall_mem_map

/-- Demands of several parts are free of successors if those of each part are. -/
@[simp] lemma leadless_flatMap {α : Type} {parts : List α} {each : α → Demands} :
    Leadless (parts.flatMap each) ↔ ∀ a ∈ parts, (each a).Leadless := by
  simp only [Leadless, List.forall_mem_flatMap]

/-- Demands of a part that may be absent are free of successors if those of the part are. -/
@[simp] lemma leadless_ifPresent {α : Type} {part : Option α} {each : α → Demands} :
    (ifPresent part each).Leadless ↔ ∀ a, part = some a → (each a).Leadless := by
  cases part <;> simp [ifPresent]

/-- A written reference is no successor. -/
@[simp] lemma leadless_writes {name reference : String} : (writes name reference).Leadless := by
  simp [Leadless, writes, field]

/-- A reference that is read is no successor. -/
@[simp] lemma leadless_reads {name reference : String} :
    (field name (.reads reference)).Leadless := by
  simp [Leadless, field]

/-- An expression is no successor. -/
@[simp] lemma leadless_types {name : String} {expect : Expectation} {e : Expression} :
    (types name expect e).Leadless := by
  simp [Leadless, types, field]

/-- What is not demanded of a successor is never answered by a dangling reference. -/
lemma Leadless.check (h : demands.Leadless) : dangling (demands.check limit path) = [] := by
  apply dangling_eq_nil
  intro d mem
  obtain ⟨p, hp, found⟩ := List.mem_flatMap.mp mem
  exact Demand.check_kinds (h p hp) d found

end Demands

namespace Node

variable {index len limit : Nat} {path : Pointer} {node : Node}

/-- Besides its successors, a node of no type demands that a successor leads somewhere. -/
lemma partDemands_leadless : node.partDemands.Leadless := by
  cases node <;>
    simp [partDemands, Properties.demands, CardContent.demands, TapOptions.demands,
      ButtonOptions.demands, OutputOperation.demands, Lookup.demands, Inputs.demands,
      Outputs.demands]

/-- A successor that leads to a node, or ends the dialogue, meets what is demanded of it. -/
lemma successor_leads {name : String} {next : Successor} (h : Leads len next.toJson) :
    (successorDemand index len (name, next)).check limit path = [] := by
  cases next with
  | none => rfl
  | some n =>
    rcases h with ends | ⟨target, same, lt⟩
    · cases ends
    · cases same
      exact Demands.check_eq_nil.mpr (List.forall_mem_singleton.mpr ⟨target, rfl, lt⟩)

/-- Any other successor is a number, and a dangling reference. -/
lemma successor_dangles {name : String} {next : Successor} (h : ¬ Leads len next.toJson) :
    ∃ n, next.toJson = .number n ∧ (successorDemand index len (name, next)).check limit path =
      [⟨path.push name, .danglingReference index name n.text len⟩] := by
  cases next with
  | none => exact absurd (.inl rfl) h
  | some n =>
    refine ⟨n, rfl, ?_⟩
    have unmet : (Demand.leads index name n len).check limit (path.push name) ≠ [] := by
      intro met
      obtain ⟨target, rfl, lt⟩ := Demand.check_eq_nil.mp met
      exact h (.inr ⟨target, rfl, lt⟩)
    have single : (successorDemand index len (name, some n)).check limit path =
        (Demand.leads index name n len).check limit (path.push name) := List.append_nil _
    rw [single]
    simp only [Demand.check] at unmet ⊢
    split_ifs at unmet ⊢
    · exact absurd rfl unmet
    · rfl

/-- Every diagnostic about a successor lies at its field. -/
lemma successor_located {next : String × Successor} :
    ∀ d ∈ (successorDemand index len next).check limit path,
      d.kind = .danglingReference ∧ d.path = path.push next.1 := by
  obtain ⟨name, next⟩ := next
  by_cases leads : Leads len next.toJson
  · rw [successor_leads leads]
    exact nofun
  · obtain ⟨n, -, found⟩ := successor_dangles leads
    rw [found]
    exact List.forall_mem_singleton.mpr ⟨rfl, rfl⟩

/-- A node dangles at its successors only. -/
lemma demands_dangling :
    dangling ((node.demands index len).check limit path) =
      node.successors.flatMap fun next => (successorDemand index len next).check limit path := by
  rw [demands, Demands.check_append, dangling_append, partDemands_leadless.check,
    List.append_nil]
  have successors : Demands.check limit path (node.successors.flatMap (successorDemand index len)) =
      node.successors.flatMap fun next => (successorDemand index len next).check limit path :=
    List.flatMap_assoc
  rw [successors, dangling, List.filter_eq_self]
  intro d mem
  obtain ⟨next, -, found⟩ := List.mem_flatMap.mp mem
  simp [(successor_located d found).1]

end Node

/-! ## Nodes of an array -/

section Nodes

variable {limit : Nat} {items : List Json}

/-- Where no two keys are the same, what is found for one key is found in one item of a list. -/
lemma flatMap_of_distinct {α β κ : Type} {l : List α} {key : α → κ} {each : α → List β} {a : α}
    (distinct : (l.map key).Nodup) (mem : a ∈ l)
    (others : ∀ b ∈ l, key b ≠ key a → each b = []) : l.flatMap each = each a := by
  induction l with
  | nil => cases mem
  | cons b l ih =>
    obtain ⟨fresh, distinct⟩ := List.nodup_cons.mp distinct
    obtain ⟨first, rest⟩ := List.forall_mem_cons.mp others
    rw [List.flatMap_cons]
    rcases List.mem_cons.mp mem with rfl | later
    · have none : l.flatMap each = [] := by
        apply List.flatMap_eq_nil_iff.mpr
        intro c hc
        apply rest c hc
        intro same
        exact fresh (same ▸ List.mem_map_of_mem hc)
      rw [none, List.append_nil]
    · have apart : key b ≠ key a := by
        intro same
        exact fresh (same ▸ List.mem_map_of_mem later)
      rw [first apart, ih distinct later rest, List.nil_append]

/-- The report of nodes dangles at the successors of those that could be read. -/
lemma nodes_dangling :
    dangling (Settings.validateNodes ⟨limit, true⟩ (.array items)).diagnostics =
      items.zipIdx.flatMap fun item =>
        (Node.read (Pointer.root.item item.2) item.1).result?.elim [] fun node =>
          node.successors.flatMap fun next =>
            (Node.successorDemand item.2 items.length next).check limit
              (Pointer.root.item item.2) := by
  have reading : dangling (Node.readAll .root (.array items)).diagnostics = [] := by
    apply dangling_eq_nil
    intro d mem same
    have form := (Node.readAll_regular (.array items)).found.kinds d mem
    rw [same] at form
    cases form
  rw [Settings.validateNodes, Settings.validatePart, Settings.conclude_faulty, dangling_append,
    reading, List.nil_append, Node.allDemands_found, dangling_flatMap]
  refine List.flatMap_congr fun item _ => ?_
  cases (Node.read (Pointer.root.item item.2) item.1).result? with
  | none => rfl
  | some node => exact Node.demands_dangling

/-- The fields for the successors of a type have different names. -/
lemma Node.successorFields_nodup (type : String) : (successorFields type).Nodup := by
  unfold successorFields
  split <;> decide

/-- In a field for a successor dangles what the successor dangles. -/
lemma danglingAt_successor {index : Nat} {v : Json} {node : Node} {next : String × Successor}
    (found : items[index]? = some v)
    (read : (Node.read (Pointer.root.item index) v).result? = some node)
    (mem : next ∈ node.successors) :
    (Settings.validateNodes ⟨limit, true⟩ (.array items)).danglingAt index next.1 =
      (Node.successorDemand index items.length next).check limit (Pointer.root.item index) := by
  have indices : (items.zipIdx.map Prod.snd).Nodup := by
    rw [List.zipIdx_map_snd]
    exact List.nodup_range'
  have fields : (node.successors.map Prod.fst).Nodup := by
    obtain ⟨_, type, -, -, same⟩ := Node.read_successors read
    rw [same.fields]
    exact Node.successorFields_nodup type
  -- what dangles at a place is found in one item and one field
  have place : ∀ (i : Nat) (other : String × Successor),
      ∀ d ∈ (Node.successorDemand i items.length other).check limit (Pointer.root.item i),
        d.path = ⟨[toString i, other.1]⟩ :=
    fun i other d mem => (Node.successor_located d mem).2
  rw [Report.danglingAt, nodes_dangling, List.filter_flatMap,
    flatMap_of_distinct (a := (v, index)) indices (List.mem_zipIdx_iff_getElem?.mpr found)]
  · simp only [read, Option.elim_some]
    rw [List.filter_flatMap, flatMap_of_distinct fields mem]
    · rw [List.filter_eq_self]
      intro d hd
      simp [place index next d hd]
    · intro other _ different
      apply List.filter_eq_nil_iff.mpr
      intro d hd
      simp [place index other d hd, different]
  · intro item _ different
    apply List.filter_eq_nil_iff.mpr
    intro d hd
    cases result : (Node.read (Pointer.root.item item.2) item.1).result? with
    | none => simp [result] at hd
    | some node =>
      simp only [result, Option.elim_some] at hd
      obtain ⟨other, -, hd⟩ := List.mem_flatMap.mp hd
      have apart : toString item.2 ≠ toString index :=
        fun same => different (toString_nat_injective same)
      simp only [place item.2 other d hd, beq_iff_eq, Pointer.mk.injEq, List.cons.injEq, apart,
        false_and, not_false_eq_true]

end Nodes

/-- Dangling successors are reported exactly. If faulty documents are checked as well, then whatever
the limit, and for every array: a node that can be read has one successor in each of the fields for
its type. Nothing is reported of one that is `null` or the index of an item, written as an integer.
Of any other exactly one dangling reference is reported, with the node, the field, the number as it
is written and the number of items, be they readable or not. There are no other dangling references
in the report. -/
theorem dangling_exact (limit : Nat) (items : List Json) :
    let report := Settings.validateNodes ⟨limit, true⟩ (.array items)
    (∀ index v node, items[index]? = some v →
        (Node.read (Pointer.root.item index) v).result? = some node →
        v.type? = some node.typeName ∧
        node.successors.map Prod.fst = Node.successorFields node.typeName ∧
        ∀ field ∈ Node.successorFields node.typeName, ∃ target, Json.at? [field] v = some target ∧
          (Node.Leads items.length target → report.danglingAt index field = []) ∧
          (¬ Node.Leads items.length target → ∃ n, target = .number n ∧
            report.danglingAt index field = [⟨⟨[toString index, field]⟩,
              .danglingReference index field n.text items.length⟩])) ∧
      ∀ d ∈ report.diagnostics, d.kind = .danglingReference →
        ∃ index v node, items[index]? = some v ∧
          (Node.read (Pointer.root.item index) v).result? = some node ∧
          ∃ field ∈ Node.successorFields node.typeName, d.path = ⟨[toString index, field]⟩ := by
  intro report
  constructor
  · intro index v node found read
    obtain ⟨members, type, rfl, htype, same⟩ := Node.read_successors read
    obtain rfl := same.named
    refine ⟨Json.type?_eq_some.mpr (Json.at?_field.trans htype), same.fields, ?_⟩
    intro field mem
    rw [← same.fields] at mem
    obtain ⟨next, listed, rfl⟩ := List.mem_map.mp mem
    refine ⟨next.2.toJson, Json.at?_field.trans (same.values next listed), ?_, ?_⟩
    · intro leads
      rw [danglingAt_successor found read listed]
      exact Node.successor_leads leads
    · intro dangles
      rw [danglingAt_successor found read listed]
      exact Node.successor_dangles dangles
  · intro d mem kind
    -- conversely, every dangling reference is found among those of a readable node
    have dangles : d ∈ dangling report.diagnostics := List.mem_filter.mpr ⟨mem, by simp [kind]⟩
    rw [nodes_dangling] at dangles
    obtain ⟨⟨v, index⟩, listed, found⟩ := List.mem_flatMap.mp dangles
    cases read : (Node.read (Pointer.root.item index) v).result? with
    | none => simp [read] at found
    | some node =>
      simp only [read, Option.elim_some] at found
      obtain ⟨next, hnext, found⟩ := List.mem_flatMap.mp found
      obtain ⟨_, type, -, -, same⟩ := Node.read_successors read
      obtain rfl := same.named
      refine ⟨index, v, node, List.mem_zipIdx_iff_getElem?.mp listed, read, next.1, ?_,
        (Node.successor_located d found).2⟩
      rw [← same.fields]
      exact List.mem_map_of_mem hnext

end DialogueLint
