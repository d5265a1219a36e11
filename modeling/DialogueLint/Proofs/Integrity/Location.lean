import DialogueLint.Proofs.Dialogue.Conformance
import DialogueLint.Proofs.Integrity.Sited
import DialogueLint.Proofs.Pointer
import DialogueLint.Proofs.Typing.Location
import DialogueLint.Validation

/-!
# Where validation finds problems

Every diagnostic resolves to a value inside the one that was validated, and speaks about it
(`diagnostic_resolves`). Reading and typing say so of themselves. Demands are made of typed parts,
long after the JSON was read; but since they are what stands at the sites of the JSON, their places
are those of values inside it.

To speak about a value means that the path leads to it, and that the problem is one of the value:
the lemmas for readers and for typing say so of each value that they are given, with the place as a
parameter. For demands, the place is carried along as a base (`Demands.Located`), below which each
demand names a value; it grows by the keys of the sites and by the index of the node. A part that
was read but reported on still makes demands, and they are located as well.
-/

namespace DialogueLint

open Demands (ifPresent)

/-! ## Places of demands -/

/-- A demand really is one on the value at which tokens end. -/
def Demand.About (tokens : List String) (w : Json) : Demand → Prop
  | .types _ e => w = e
  | .leads _ field target _ => tokens.getLast? = some field ∧ w = .number target
  | _ => True

/-- The places of demands lead, from where tokens have led, to the values on which they are. -/
def Demands.Located (base : List String) (v : Json) (demands : Demands) : Prop :=
  ∀ p ∈ demands, ∃ w, v.Reaches p.1.tokens w ∧ p.2.About (base ++ p.1.tokens) w

section Located

variable {base tokens : List String} {v w : Json} {demands more : Demands} {limit : Nat}

/-- What there is to say about a demand speaks about the value. -/
lemma Demand.check_located {path : Pointer} {demand : Demand} (about : demand.About path.tokens w) :
    ∀ d ∈ demand.check limit path, d.Speaks path w := by
  cases demand with
  | writes r =>
    simp only [check]
    split
    · exact Typing.speaks_singleton trivial
    · simp
  | reads r => exact Typing.ofRead_located
  | types expect e =>
    cases about
    exact Typing.check_located
  | leads node field target len =>
    obtain ⟨last, rfl⟩ := about
    simp only [check]
    split_ifs
    · simp
    · exact Typing.speaks_singleton ⟨last, target, rfl, rfl⟩

/-- What speaks about a value further inside speaks about the whole. -/
lemma Diagnostic.Speaks.inside {path : Pointer} {d : Diagnostic}
    (h : d.Speaks (path.join ⟨tokens⟩) w) (reaches : v.Reaches tokens w) : d.Speaks path v := by
  obtain ⟨more, u, hpath, further, about⟩ := h
  refine ⟨tokens ++ more, u, ?_, reaches.append further, about⟩
  rw [hpath]
  simp [Pointer.join]

/-- What there is to say about located demands speaks about the value. -/
lemma Demands.Located.check (path : Pointer) (h : demands.Located path.tokens v) :
    ∀ d ∈ demands.check limit path, d.Speaks path v := by
  intro d mem
  obtain ⟨p, hp, found⟩ := List.mem_flatMap.mp mem
  obtain ⟨w, reaches, about⟩ := h p hp
  exact (Demand.check_located about d found).inside reaches

/-- No demands are located anywhere. -/
lemma Demands.located_nil : Demands.Located base v [] := by
  simp [Demands.Located]

/-- Demands together are located if both are. -/
lemma Demands.Located.append (h : demands.Located base v) (hm : more.Located base v) :
    Demands.Located base v (demands ++ more) :=
  List.forall_mem_append.mpr ⟨h, hm⟩

/-- Demands of several parts are located if those of each part are. -/
lemma Demands.located_flatMap {α : Type} {as : List α} {f : α → Demands}
    (h : ∀ a ∈ as, (f a).Located base v) : Demands.Located base v (as.flatMap f) := by
  intro p mem
  obtain ⟨a, ha, hp⟩ := List.mem_flatMap.mp mem
  exact h a ha p hp

/-- Demands that are located in a value further inside are located in the whole. -/
lemma Demands.Located.under (h : demands.Located (base ++ tokens) w)
    (reaches : v.Reaches tokens w) : (demands.under tokens).Located base v := by
  intro p mem
  obtain ⟨q, hq, rfl⟩ := List.mem_map.mp mem
  obtain ⟨u, further, about⟩ := h q hq
  exact ⟨u, reaches.append further, by simpa using about⟩

/-- Demands of a part that may be absent are located if those of the part are. -/
lemma Demands.located_ifPresent {α : Type} {part : Option α} {f : α → Demands}
    (h : ∀ a, part = some a → (f a).Located base v) : (ifPresent part f).Located base v := by
  cases part with
  | none => exact located_nil
  | some a => exact h a rfl

/-! ## Sites -/

/-- Keys lead to what is behind them. -/
lemma Json.reaches_of_at? {keys : List String} (h : Json.at? keys v = some w) :
    v.Reaches keys w := by
  induction keys generalizing v with
  | nil =>
    cases h
    exact .here
  | cons key keys ih =>
    cases v with
    | object members =>
      obtain ⟨u, found, further⟩ := Option.bind_eq_some_iff.mp h
      exact .member (Members.mem_of_get? found) (ih further)
    | _ => cases h

/-- The two demands of an output are on its key and on the variable behind it. -/
lemma outputDemands_located {members : Members Json} {m : String × Json} (mem : m ∈ members) :
    (outputDemands m.1 m.2).Located base (.object members) := by
  unfold outputDemands
  refine .append (List.forall_mem_singleton.mpr ⟨m.2, .member mem .here, trivial⟩) ?_
  split
  · rename_i r found
    refine .under ?_ (.member mem .here)
    exact List.forall_mem_singleton.mpr ⟨_, Json.reaches_of_at? found, trivial⟩
  · exact Demands.located_nil

/-- What a role demands is located, if the tokens end with the field of a successor. -/
lemma Role.demands_located {role : Role} {index len : Nat}
    (named : ∀ field, role = .successor field → base.getLast? = some field) :
    (role.demands index len w).Located base w := by
  -- most roles demand something of the value itself; only members lie further inside
  have here : ∀ demand : Demand, demand.About (base ++ []) w →
      Demands.Located base w [(.root, demand)] :=
    fun demand about => List.forall_mem_singleton.mpr ⟨w, .here, about⟩
  cases role with
  | typed expect => exact here _ rfl
  | written =>
    cases w with
    | string r => exact here _ trivial
    | _ => exact Demands.located_nil
  | read =>
    cases w with
    | string r => exact here _ trivial
    | _ => exact Demands.located_nil
  | keys =>
    cases w with
    | object members =>
      apply Demands.located_flatMap
      intro m mem
      exact List.forall_mem_singleton.mpr ⟨m.2, .member mem .here, trivial⟩
    | _ => exact Demands.located_nil
  | inputs =>
    cases w with
    | object members =>
      apply Demands.located_flatMap
      intro m mem
      exact List.forall_mem_singleton.mpr ⟨m.2, .member mem .here, rfl⟩
    | _ => exact Demands.located_nil
  | outputs =>
    cases w with
    | object members => exact Demands.located_flatMap fun m mem => outputDemands_located mem
    | _ => exact Demands.located_nil
  | successor field =>
    cases w with
    | number n => exact here _ ⟨by simpa using named field rfl, rfl⟩
    | _ => exact Demands.located_nil

/-- A site for a successor is the field that it names. -/
def Site.Named (site : Site) : Prop :=
  ∀ field, site.role = .successor field → site.keys.getLast? = some field

/-- What is demanded at sites is located at the values there. -/
lemma siteDemands_located {sites : List Site} {index len : Nat}
    (named : ∀ site ∈ sites, site.Named) : (siteDemands index len sites v).Located base v := by
  apply Demands.located_flatMap
  intro site mem
  unfold Site.demands
  cases found : Json.at? site.keys v with
  | none => exact Demands.located_nil
  | some w =>
    refine .under (Role.demands_located fun field same => ?_) (Json.reaches_of_at? found)
    rw [List.getLast?_append, named site mem field same]
    rfl

/-! ## Parts -/

section Parts

variable {path : Pointer}

/-- The sites of triggers name their fields. -/
lemma named_ofTrigger {type : String} : ∀ site ∈ Sites.ofTrigger type, site.Named := by
  unfold Sites.ofTrigger
  split <;> simp [Sites.written, Sites.behind, Sites.here, Site.Named]

/-- The sites of nodes name their fields. -/
lemma named_ofNode {type : String} : ∀ site ∈ Sites.ofNode type, site.Named := by
  unfold Sites.ofNode
  split <;>
    simp [Sites.simplePrompt, Sites.cardContent, Sites.successor, Sites.written, Sites.typed,
      Sites.behind, Sites.here, Site.Named]

/-- What a trigger demands is located in the value that was read as it. -/
lemma Trigger.demands_located {trigger : Trigger} (h : (read path v).result? = some trigger) :
    trigger.demands.Located base v := by
  obtain ⟨type, -, same⟩ := read_demands 0 0 h
  rw [same]
  exact siteDemands_located named_ofTrigger

/-- What a node demands is located in the value that was read as it. -/
lemma Node.demands_located {node : Node} {index len : Nat}
    (h : (read path v).result? = some node) : (node.demands index len).Located base v := by
  obtain ⟨type, -, same⟩ := read_demands index len h
  rw [same]
  exact siteDemands_located named_ofNode

/-- What properties demand is located at their keys. -/
lemma Properties.demands_located {properties : Properties}
    (h : (read path v).result? = some properties) : properties.demands.Located base v := by
  have sited : Reader.Sited 0 0 read demands (Sites.here .keys) := read_sited
  rw [sited path v properties h]
  exact siteDemands_located (by simp [Sites.here, Site.Named])

/-- What each node demands is located at the item that was read as the node. -/
lemma Node.allDemands_located {slots : List (Option Node)}
    (h : (readAll path v).result? = some slots) : (allDemands slots).Located base v := by
  cases v with
  | array values =>
    cases (readAll_array path values).symm.trans h
    refine Demands.located_flatMap fun item mem => Demands.located_ifPresent fun node hnode => ?_
    have slot := List.mem_zipIdx_iff_getElem?.mp mem
    -- the slot at an index is what was read at the item with the index
    simp only [List.getElem?_map, List.getElem?_zipIdx, Option.map_map, Option.map_eq_some_iff,
      Function.comp_apply, Nat.zero_add] at slot
    obtain ⟨value, found, hvalue⟩ := slot
    exact (demands_located (hvalue.trans hnode)).under (.item found .here)
  | _ =>
    cases h
    exact Demands.located_nil

/-- What a required part demands is located in the document. -/
lemma Demands.located_required {α : Type} {name : String} {reader : Reader α} {f : α → Demands}
    {members : Members Json} {a : α}
    (h : ((Fields.required name reader).read path members).result? = some a)
    (each : ∀ base (path : Pointer) v a, (reader path v).result? = some a →
      (f a).Located base v) :
    ((f a).under [name]).Located base (.object members) := by
  obtain ⟨w, found, hw⟩ := Fields.required_result.mp h
  exact .under (each _ _ w a hw) (.of_get? found)

/-- What an optional part demands is located in the document. -/
lemma Demands.located_optional {α : Type} {name : String} {reader : Reader α} {f : α → Demands}
    {members : Members Json} {a : α}
    (h : ((Fields.optional name reader).read path members).result?.join = some a)
    (each : ∀ base (path : Pointer) v a, (reader path v).result? = some a →
      (f a).Located base v) :
    ((f a).under [name]).Located base (.object members) := by
  rcases Fields.optional_result.mp (Option.join_eq_some_iff.mp h) with
    ⟨-, absent⟩ | ⟨w, _, found, hw, same⟩
  · cases absent
  · cases same
    exact .under (each _ _ w a hw) (.of_get? found)

/-- What a document demands is located in it. -/
lemma Draft.demands_located : (read v).1.demands.Located base v := by
  cases v with
  | object members =>
    rw [read_demands]
    refine (((Demands.located_ifPresent fun trigger h => ?_).append ?_).append
      (Demands.located_ifPresent fun model h => ?_)).append
        (Demands.located_ifPresent fun entities h => ?_)
    · exact Demands.located_required h fun _ _ _ _ => Trigger.demands_located
    · cases h : ((Fields.required "nodes" Node.readAll).read .root members).result? with
      | none => exact Demands.located_nil
      | some slots => exact Demands.located_required h fun _ _ _ _ => Node.allDemands_located
    · exact Demands.located_optional h fun _ _ _ _ => Properties.demands_located
    · exact Demands.located_optional h fun _ _ _ _ => Properties.demands_located
  | _ => exact Demands.located_nil

end Parts

end Located

/-! ## Reports -/

/-- A report of a value: as a document or a part of one, or as an expression. -/
inductive ReportOf (v : Json) : Report → Prop where
  | document (settings : Settings) : ReportOf v (settings.validateDocument v)
  | trigger (settings : Settings) : ReportOf v (settings.validateTrigger v)
  | nodes (settings : Settings) : ReportOf v (settings.validateNodes v)
  | properties (settings : Settings) : ReportOf v (settings.validateProperties v)
  | expression {limit : Nat} {expected : Option Family} {report : Report} :
      Typing.inferFamily limit expected v = .error report → ReportOf v report

section Report

variable {v : Json} {settings : Settings}

/-- What reading a document finds speaks about it. -/
lemma Draft.read_located : ∀ d ∈ (read v).2, d.Speaks .root v := by
  rw [read_diagnostics]
  exact (fields_inspect.object .root v).located

/-- A report speaks about the value if reading does and the demands are located. -/
lemma Settings.conclude_located {structural : List Diagnostic} {demands : Demands}
    (reading : ∀ d ∈ structural, d.Speaks .root v) (located : demands.Located [] v) :
    ∀ d ∈ (settings.conclude structural demands).diagnostics, d.Speaks .root v := by
  unfold conclude
  split_ifs
  · exact List.forall_mem_append.mpr ⟨reading, Demands.Located.check .root located⟩
  · exact reading

/-- The report of a part speaks about the part if reading does and the demands are located. -/
lemma Settings.validatePart_located {α : Type} {reader : Reader α} {demands : α → Demands}
    (reading : ∀ d ∈ (reader .root v).diagnostics, d.Speaks .root v)
    (located : ∀ a, (reader .root v).result? = some a → (demands a).Located [] v) :
    ∀ d ∈ (settings.validatePart reader demands v).diagnostics, d.Speaks .root v :=
  conclude_located reading (Demands.located_ifPresent located)

/-- All that is reported of a value speaks about the value. -/
lemma ReportOf.located {report : Report} (h : ReportOf v report) :
    ∀ d ∈ report.diagnostics, d.Speaks .root v := by
  cases h with
  | document settings => exact Settings.conclude_located Draft.read_located Draft.demands_located
  | trigger settings =>
    exact Settings.validatePart_located (Trigger.read_accepts .root v).located
      fun _ => Trigger.demands_located
  | nodes settings =>
    exact Settings.validatePart_located (Node.readAll_inspects .root v).located
      fun _ => Node.allDemands_located
  | properties settings =>
    exact Settings.validatePart_located (Properties.read_accepts .root v).located
      fun _ => Properties.demands_located
  | expression typed =>
    unfold Typing.inferFamily at typed
    simp only at typed
    split at typed
    · cases typed
    · cases typed
      exact Typing.check_located

end Report

/-- Every diagnostic points at a value inside the one that was validated and speaks about it: in a
JSON value whose objects have each key once, the path decodes to tokens that lead to a value, a
missing field is one that this object lacks, an unknown field is its last token, what was found is
how that value is described, and a successor that leads nowhere is the number there. -/
theorem diagnostic_resolves {v : Json} {report : Report} {d : Diagnostic} (wf : v.WellFormed)
    (of : ReportOf v report) (mem : d ∈ report.diagnostics) :
    ∃ tokens w, Pointer.decode? d.path.text = some tokens ∧ v.resolve? tokens = some w ∧
      d.problem.About tokens w := by
  obtain ⟨tokens, w, hpath, reaches, about⟩ := of.located d mem
  have same : d.path.tokens = tokens := by
    rw [hpath]
    rfl
  refine ⟨d.path.tokens, w, Pointer.decode?_text d.path, ?_, about⟩
  rw [same]
  exact reaches.resolve wf

/-- A message with a field that messages do not have, whose key holds a slash. -/
def strayNodes : Json :=
  .array [.object [("a/b", .null), ("message", .string "Hi"),
    ("nextNodeIndex", .number (.integer 0)), ("type", .string "message")]]

/-- No key occurs twice in the message. -/
lemma strayNodes_wellFormed : strayNodes.WellFormed := by
  have ordered : Members.Ordered [("a/b", Json.null), ("message", .string "Hi"),
      ("nextNodeIndex", .number (.integer 0)), ("type", .string "message")] := by
    unfold Members.Ordered
    decide
  refine .array (List.forall_mem_singleton.mpr (.object ordered ?_))
  simp only [List.forall_mem_cons, List.not_mem_nil, false_implies, implies_true, and_true]
  exact ⟨.null, .string _, .number _, .string _⟩

/-- The field with a slash in its key is found again by the path that reports it. -/
theorem strayNodes_resolve :
    strayNodes.WellFormed ∧
      ⟨⟨["0", "a/b"]⟩, .unknownField "a/b" "null"⟩ ∈
        (Settings.default.validateNodes strayNodes).diagnostics ∧
      ∃ tokens w, Pointer.decode? "/0/a~1b" = some tokens ∧ strayNodes.resolve? tokens = some w ∧
        (Problem.unknownField "a/b" "null").About tokens w := by
  have reported : ⟨⟨["0", "a/b"]⟩, .unknownField "a/b" "null"⟩ ∈
      (Settings.default.validateNodes strayNodes).diagnostics := by decide
  exact ⟨strayNodes_wellFormed, reported,
    diagnostic_resolves strayNodes_wellFormed (.nodes .default) reported⟩

end DialogueLint
