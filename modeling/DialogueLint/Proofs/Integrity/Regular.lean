import DialogueLint.Proofs.Dialogue.Conformance
import DialogueLint.Proofs.Dialogue.Regular
import DialogueLint.Proofs.Integrity.Sited
import DialogueLint.Proofs.Typing.Regular

/-!
# Checking demands finds nothing twice

What is found in a part of a dialogue, by reading it and by checking what it demands, is regular.
Demands are checked at the sites of the JSON, which diverge. Reading and checking do not find one
problem both: a part that was read has no structural problems but unknown fields, and those are
never found by a check.

A part that was read demands what stands at the sites of its type, and the sites of one type
diverge, which is decided by going over the tables. So what is found at two sites is never found
twice, and what is found at one site is regular by the role of the site. Reading and checking go
through an array of nodes one after the other, not node by node; that this finds nothing twice
either is the lemma about parts that are gone through twice (`Findings.regular_twice`).
-/

namespace DialogueLint

open Demands (ifPresent)

/-! ## Demands -/

namespace Demand

variable {limit : Nat}

/-- What is wrong with a written reference is reported where it stands. -/
lemma writes_check_path {r : String} {path : Pointer} :
    ∀ d ∈ (writes r).check limit path, d.path = path := by
  simp only [check]
  split <;> simp

/-- What checking a single demand finds is regular. -/
lemma check_regular (demand : Demand) :
    Findings.Regular (·.isOfContent) True fun path => demand.check limit path := by
  cases demand with
  | writes r =>
    simp only [check]
    split
    · exact Findings.regular_here rfl
    · exact Findings.regular_nil
  | reads r => exact Typing.ofRead_clear.kinds_imp fun _ => Kind.ofContent_of_expression
  | types expect e =>
    exact Typing.check_regular.found.kinds_imp fun _ => Kind.ofContent_of_expression
  | leads node field target len =>
    simp only [check]
    split_ifs
    · exact Findings.regular_nil
    · exact Findings.regular_here rfl

end Demand

namespace Demands

variable {limit : Nat} {condition : Prop} {demands more : Demands}

/-- What checking demands finds is regular. -/
def Regular (limit : Nat) (condition : Prop) (demands : Demands) : Prop :=
  Findings.Regular (·.isOfContent) condition fun path => demands.check limit path

/-- Where demands are made only moves what checking them finds. -/
lemma regular_moves (demands : Demands) : Regular limit False demands := by
  have each : ∀ p ∈ demands, Findings.Regular (·.isOfContent) False fun path =>
      p.2.check limit path := fun p _ => (Demand.check_regular p.2).imp False.elim
  exact Findings.regular_parts each False.elim

/-- Without demands nothing is found, which is regular. -/
lemma regular_nil : Regular limit condition [] :=
  Findings.regular_nil

/-- A single demand on the value itself is regular. -/
lemma regular_single (demand : Demand) : Regular limit condition [(.root, demand)] := by
  have single : Findings.Regular (·.isOfContent) condition fun path => demand.check limit path :=
    (Demand.check_regular demand).imp fun _ => trivial
  simpa [Regular, check] using single

/-- Demands together are checked one after the other. -/
lemma check_append {path : Pointer} :
    (demands ++ more).check limit path = demands.check limit path ++ more.check limit path :=
  List.flatMap_append

/-- Demands below a part are checked where the part stands. -/
lemma check_under {tokens : List String} {path : Pointer} :
    (demands.under tokens).check limit path = demands.check limit (path.join ⟨tokens⟩) := by
  simp [check, under, List.flatMap_map, Pointer.join]

/-- Moving the demands of a part that may be absent is moving those of the part. -/
lemma ifPresent_under {α : Type} {part : Option α} {f : α → Demands} {tokens : List String} :
    (ifPresent part fun a => (f a).under tokens) = (ifPresent part f).under tokens := by
  cases part <;> rfl

/-- Demands of several parts are checked part by part. -/
lemma check_parts {ι : Type} {parts : List ι} {place : ι → List String} {each : ι → Demands}
    {path : Pointer} :
    Demands.check limit path (parts.flatMap fun i => (each i).under (place i)) =
      parts.flatMap fun i => (each i).check limit (path.join ⟨place i⟩) := by
  simp only [← check_under]
  exact List.flatMap_assoc

/-- Demands of several parts, one at each of several diverging places. -/
lemma regular_parts {ι : Type} {parts : List ι} {place : ι → List String} (each : ι → Demands)
    (h : ∀ i ∈ parts, Regular limit condition (each i))
    (diverge : condition → parts.Pairwise fun i j => Diverge (place i) (place j)) :
    Regular limit condition (parts.flatMap fun i => (each i).under (place i)) := by
  simp only [Regular, check_parts]
  exact Findings.regular_parts h diverge

end Demands

/-! ## Sites -/

section Sites

variable {limit index len : Nat} {v : Json}

/-- What is behind keys of a well-formed value is well-formed. -/
lemma Json.wellFormed_at? {keys : List String} {w : Json} (wf : v.WellFormed)
    (h : Json.at? keys v = some w) : w.WellFormed := by
  induction keys generalizing v with
  | nil =>
    cases h
    exact wf
  | cons key keys ih =>
    cases v with
    | object members =>
      obtain ⟨u, found, further⟩ := Option.bind_eq_some_iff.mp h
      exact ih (Reader.wellFormed_members wf _ (Members.mem_of_get? found)) further
    | _ => cases h

/-- What an output demands, from where its key leads. -/
def outputWithin (key : String) (v : Json) : Demands :=
  [(.root, .writes key)] ++
    match Json.at? ["var"] v with
    | some (.string r) => Demands.under ["var"] [(.root, .reads r)]
    | _ => []

/-- What an output demands is demanded where its key leads. -/
lemma outputDemands_eq {key : String} : outputDemands key v = (outputWithin key v).under [key] := by
  unfold outputDemands outputWithin
  rw [Demands.under_append]
  cases Json.at? ["var"] v with
  | none => rfl
  | some w => cases w <;> rfl

/-- The key of an output is written where the key leads, and its variable is read further inside. -/
lemma outputWithin_regular {key : String} {condition : Prop} :
    Demands.Regular limit condition (outputWithin key v) := by
  have written : Demands.Regular limit condition [(.root, .writes key)] := Demands.regular_single _
  unfold outputWithin
  split
  · rename_i r _
    have read : Demands.Regular limit condition [(.root, .reads r)] := Demands.regular_single _
    simp only [Demands.Regular, Demands.check_append, Demands.check_under]
    refine written.append (read.inside ["var"]) fun _ d hd e he => ?_
    have here : d.path = .root := Demand.writes_check_path d (by simpa [Demands.check] using hd)
    exact (Diagnostic.apart_of_inside (read.within e he) here).symm
  · simpa using written

/-- What is demanded of the value at a site is regular. -/
lemma Role.demands_regular {role : Role} :
    Demands.Regular limit v.WellFormed (role.demands index len v) := by
  cases role with
  | typed expect => exact Demands.regular_single _
  | written =>
    cases v with
    | string r => exact Demands.regular_single _
    | _ => exact Demands.regular_nil
  | read =>
    cases v with
    | string r => exact Demands.regular_single _
    | _ => exact Demands.regular_nil
  | successor field =>
    cases v with
    | number n => exact Demands.regular_single _
    | _ => exact Demands.regular_nil
  | keys =>
    cases v with
    | object members =>
      exact Demands.regular_parts (fun m => [(.root, .writes m.1)])
        (fun m _ => Demands.regular_single _) Reader.diverge_members
    | _ => exact Demands.regular_nil
  | inputs =>
    cases v with
    | object members =>
      exact Demands.regular_parts (fun m => [(.root, .types .logic m.2)])
        (fun m _ => Demands.regular_single _) Reader.diverge_members
    | _ => exact Demands.regular_nil
  | outputs =>
    cases v with
    | object members =>
      simp only [demands, outputDemands_eq]
      exact Demands.regular_parts (fun m => outputWithin m.1 m.2)
        (fun m _ => outputWithin_regular) Reader.diverge_members
    | _ => exact Demands.regular_nil

/-- What the values at diverging sites demand is regular. -/
lemma siteDemands_regular {sites : List Site}
    (diverge : sites.Pairwise fun a b => Diverge a.keys b.keys) :
    Demands.Regular limit v.WellFormed (siteDemands index len sites v) := by
  have same : siteDemands index len sites v = sites.flatMap fun site =>
      (ifPresent (Json.at? site.keys v) (site.role.demands index len)).under site.keys := by
    refine List.flatMap_congr fun site _ => ?_
    simp only [Site.demands]
    cases Json.at? site.keys v <;> rfl
  rw [same]
  refine Demands.regular_parts _ (fun site _ => ?_) fun _ => diverge
  cases found : Json.at? site.keys v with
  | none => exact Demands.regular_nil
  | some w => exact Role.demands_regular.imp fun wf => Json.wellFormed_at? wf found

/-- The sites of a type of trigger diverge. -/
lemma diverge_ofTrigger {type : String} :
    (Sites.ofTrigger type).Pairwise fun a b => Diverge a.keys b.keys := by
  unfold Sites.ofTrigger
  split <;> decide

/-- The sites of a type of node diverge. -/
lemma diverge_ofNode {type : String} :
    (Sites.ofNode type).Pairwise fun a b => Diverge a.keys b.keys := by
  unfold Sites.ofNode
  split <;> decide

end Sites

/-! ## Parts -/

section Parts

variable {α : Type} {limit : Nat} {v : Json}

/-- What is found in a part, by reading it and by checking what it demands. -/
def Reader.finds (reader : Reader α) (limit : Nat) (demands : α → Demands) (v : Json) : Findings :=
  fun path => (reader path v).diagnostics ++
    (ifPresent (reader path v).result? demands).check limit path

variable {reader : Reader α} {form : Form} {demands : α → Demands}

/-- Problems of content are problems of values. -/
lemma Kind.ofValue_of_content {kind : Kind} (h : kind.isOfContent) : kind.OfValue := by
  rintro rfl
  cases h

/-- What is found by checking the demands of a part that may not have a result. -/
lemma ifPresent_check_regular (regular : reader.Regular)
    (h : ∀ a, (reader .root v).result? = some a → (demands a).Regular limit v.WellFormed) :
    Findings.Regular Kind.OfValue v.WellFormed fun path =>
      (ifPresent (reader path v).result? demands).check limit path := by
  simp only [(regular v).result]
  cases found : (reader .root v).result? with
  | none => exact Findings.regular_nil
  | some a => exact (h a found).kinds_imp fun _ => Kind.ofValue_of_content

/-- A part that was read has no structural problems but unknown fields, which no check finds. -/
lemma apart_of_accepts (accepts : reader.Accepts form)
    (h : ∀ a, (reader .root v).result? = some a → (demands a).Regular limit v.WellFormed) :
    ∀ d ∈ (reader .root v).diagnostics,
      ∀ e ∈ (ifPresent (reader .root v).result? demands).check limit .root, d.Apart e := by
  intro d hd e he
  cases found : (reader .root v).result? with
  | none => simp [found, ifPresent, Demands.check] at he
  | some a =>
    rw [found] at he
    have unknown : d.kind = .unknownField := by
      by_contra other
      have failed := (accepts .root v).definite.mpr ⟨d, hd, other⟩
      rw [found] at failed
      cases failed
    have content : e.kind.isOfContent := (h a found).kinds e he
    apply Diagnostic.apart_of_kind
    rw [unknown]
    intro same
    rw [← same] at content
    cases content

/-- What is found in a part is regular if reading it is, and if what it demands is. -/
lemma Reader.finds_regular (regular : reader.Regular) (accepts : reader.Accepts form)
    (h : ∀ a, (reader .root v).result? = some a → (demands a).Regular limit v.WellFormed) :
    Findings.Regular Kind.OfValue v.WellFormed (reader.finds limit demands v) :=
  ((regular v).found.kinds_imp fun _ => Kind.ofValue_of_form).append
    (ifPresent_check_regular regular h) fun _ => apart_of_accepts accepts h

/-- What a trigger demands is regular. -/
lemma Trigger.demands_regular {trigger : Trigger} {path : Pointer}
    (h : (read path v).result? = some trigger) : trigger.demands.Regular limit v.WellFormed := by
  obtain ⟨type, -, same⟩ := read_demands 0 0 h
  rw [same]
  exact siteDemands_regular diverge_ofTrigger

/-- What a node demands is regular. -/
lemma Node.demands_regular {node : Node} {index len : Nat} {path : Pointer}
    (h : (read path v).result? = some node) :
    (node.demands index len).Regular limit v.WellFormed := by
  obtain ⟨type, -, same⟩ := read_demands index len h
  rw [same]
  exact siteDemands_regular diverge_ofNode

/-- What properties demand is regular: each key is written at its own place. -/
lemma Properties.demands_regular {properties : Properties} {path : Pointer}
    (h : (read path v).result? = some properties) :
    properties.demands.Regular limit v.WellFormed := by
  have sited : Reader.Sited 0 0 read demands (Sites.here .keys) := read_sited
  rw [sited path v properties h]
  exact siteDemands_regular (List.pairwise_singleton _ _)

/-- What is found in a trigger is regular. -/
lemma Trigger.finds_regular :
    Findings.Regular Kind.OfValue v.WellFormed (read.finds limit Trigger.demands v) :=
  Reader.finds_regular read_regular read_accepts fun _ => demands_regular

/-- What is found in properties is regular. -/
lemma Properties.finds_regular :
    Findings.Regular Kind.OfValue v.WellFormed (read.finds limit Properties.demands v) :=
  Reader.finds_regular read_regular read_accepts fun _ => demands_regular

/-- Each node of an array is read. -/
lemma Node.readAll_found {values : List Json} {path : Pointer} (nonempty : values ≠ []) :
    (readAll path (.array values)).diagnostics =
      values.zipIdx.flatMap fun item => (read (path.item item.2) item.1).diagnostics := by
  cases values with
  | nil => exact absurd rfl nonempty
  | cons value values => simp only [readAll, Reader.itemsFrom_eq_map, List.flatMap_map]

/-- Each node of an array that could be read is checked, at its index and among all items. -/
lemma Node.allDemands_found {values : List Json} {path : Pointer} :
    (ifPresent (readAll path (.array values)).result? allDemands).check limit path =
      values.zipIdx.flatMap fun item =>
        (ifPresent (read (path.item item.2) item.1).result? fun node =>
          node.demands item.2 values.length).check limit (path.item item.2) := by
  have slots : ∀ f : Json × Nat → Option Node,
      (values.zipIdx.map f).zipIdx = values.zipIdx.map fun item => (f item, item.2) := by
    intro f
    refine List.ext_getElem? fun i => ?_
    simp only [List.getElem?_zipIdx, List.getElem?_map, Nat.zero_add, Option.map_map]
    rfl
  have under : ∀ item : Json × Nat,
      ((read (path.item item.2) item.1).result?.elim [] fun node =>
        Demands.under [toString item.2] (node.demands item.2 values.length)) =
      Demands.under [toString item.2] ((read (path.item item.2) item.1).result?.elim []
        fun node => node.demands item.2 values.length) :=
    fun item => Demands.ifPresent_under
  rw [readAll_array]
  simp only [ifPresent, Option.elim_some, allDemands, slots, List.flatMap_map, List.length_map,
    List.length_zipIdx, under]
  exact Demands.check_parts

/-- The nodes of an array are gone through twice: each is read, and then each is checked. -/
lemma Node.finds_array {values : List Json} {path : Pointer} (nonempty : values ≠ []) :
    readAll.finds limit allDemands (.array values) path =
      (values.zipIdx.flatMap fun item => (read (path.item item.2) item.1).diagnostics) ++
        values.zipIdx.flatMap fun item =>
          (ifPresent (read (path.item item.2) item.1).result? fun node =>
            node.demands item.2 values.length).check limit (path.item item.2) := by
  rw [Reader.finds, readAll_found nonempty, allDemands_found]

/-- What is found in an array of nodes is regular, though it is gone through twice. -/
lemma Node.finds_regular :
    Findings.Regular Kind.OfValue v.WellFormed (readAll.finds limit allDemands v) := by
  cases v with
  | array values =>
    cases values with
    | nil => exact Findings.regular_here nofun
    | cons value values =>
      have twice : readAll.finds limit allDemands (.array (value :: values)) = _ :=
        funext fun path => finds_array (List.cons_ne_nil _ _)
      rw [twice]
      refine Findings.regular_twice (fun item path => (read path item.1).diagnostics)
        (fun item path => (ifPresent (read path item.1).result? fun node =>
          node.demands item.2 (value :: values).length).check limit path)
        (fun item mem => ?_) (fun item mem => ?_) (fun _ item _ => ?_)
        fun _ => Reader.diverge_items
      · exact ((read_regular item.1).found.kinds_imp fun _ => Kind.ofValue_of_form).imp fun wf =>
          Reader.wellFormed_items wf item mem
      · exact (ifPresent_check_regular read_regular fun _ => demands_regular).imp fun wf =>
          Reader.wellFormed_items wf item mem
      · exact apart_of_accepts read_accepts fun _ => demands_regular
  | null | bool b | number n | string s | object members =>
    exact Findings.regular_here nofun

end Parts

end DialogueLint
