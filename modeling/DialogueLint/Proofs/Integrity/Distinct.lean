import DialogueLint.Proofs.Integrity.Fragment
import DialogueLint.Proofs.Integrity.Location

/-!
# No problem is reported twice

In a report no two diagnostics have both one path and one kind, unless they name different missing
fields (`report_distinct`). Diagnostics below different keys of a document are apart, and those
below one key are the report of a part, or are found by reading alone.

The keys of a document split its report: a diagnostic is at the document itself, or below one key.
Below the key of a part the report is that of the part, whose findings are regular and so distinct;
at the document itself, and below other keys, only reading reports anything. A report of a truncated
validation is a part of a full one.
-/

namespace DialogueLint

/-- Diagnostics are distinct if those whose paths begin alike are. -/
lemma distinct_of_heads {diagnostics : List Diagnostic}
    (h : ∀ head : Option String,
      Distinct (diagnostics.filter fun d => d.path.tokens.head? == head)) :
    Distinct diagnostics := by
  induction diagnostics with
  | nil => exact .nil
  | cons d rest ih =>
    refine List.pairwise_cons.mpr ⟨fun e mem => ?_, ih fun head => ?_⟩
    · by_cases same : e.path.tokens.head? = d.path.tokens.head?
      · have own := h d.path.tokens.head?
        rw [List.filter_cons_of_pos (by simp)] at own
        exact (List.pairwise_cons.mp own).1 e (List.mem_filter.mpr ⟨mem, by simp [same]⟩)
      · apply Diagnostic.apart_of_path
        intro path
        exact same (by rw [path])
    · exact (h head).sublist ((List.sublist_cons_self d rest).filter _)

section Report

variable {limit : Nat} {settings : Settings} {v : Json}

/-- Leaving out the checks of a faulty document makes the report shorter. -/
lemma Settings.conclude_sublist {structural : List Diagnostic} {demands : Demands} :
    (settings.conclude structural demands).diagnostics.Sublist
      (structural ++ demands.check settings.maxDepth .root) := by
  unfold conclude
  split_ifs
  · exact List.Sublist.refl _
  · exact List.sublist_append_left _ _

/-- The report of a part has no problem twice if what is found in the part is regular. -/
lemma Settings.validatePart_distinct {α : Type} {reader : Reader α} {demands : α → Demands}
    (finds : Findings.Regular Kind.OfValue v.WellFormed
      (reader.finds settings.maxDepth demands v)) (wf : v.WellFormed) :
    Distinct (settings.validatePart reader demands v).diagnostics :=
  (finds.distinct wf).sublist conclude_sublist

/-- The report of a member, moved below its key, is distinct. -/
lemma memberReport_distinct {validate : Json → Report} {key : String} {members : Members Json}
    (wf : (Json.object members).WellFormed)
    (h : ∀ v : Json, v.WellFormed → Distinct (validate v).diagnostics) :
    Distinct (memberReport validate key members) := by
  unfold memberReport
  split
  · rename_i w found
    exact (h w (Reader.wellFormed_members wf _ (Members.mem_of_get? found))).below _
  · exact .nil

/-- Reading a document finds no problem twice. -/
lemma Draft.read_distinct (wf : v.WellFormed) : Distinct (read v).2 := by
  rw [read_diagnostics]
  exact (fields_regular.object (by decide) v).found.distinct wf

/-- What a part demands is not found below another key, nor at the document itself. -/
lemma filter_elsewhere {α : Type} {reader : Reader α} {demands : α → Demands} {key : String}
    {members : Members Json} {head : Option String} (h : head ≠ some key) :
    ((memberDemands reader demands key members).check limit .root).filter
      (fun d => d.path.tokens.head? == head) = [] := by
  refine List.filter_eq_nil_iff.mpr fun d mem => ?_
  obtain ⟨rest, same⟩ := memberDemands_inside d mem
  simpa [← same] using h.symm

/-- What a check finds is below the key of a part. -/
lemma Settings.document_elsewhere {members : Members Json} {head : Option String}
    (elsewhere : ∀ key ∈ ["nodes", "trigger", "model", "entities"], head ≠ some key) :
    (validateDocument ⟨limit, true⟩ (.object members)).diagnostics.filter
        (fun d => d.path.tokens.head? == head) =
      (Draft.read (.object members)).2.filter fun d => d.path.tokens.head? == head := by
  simp only [document_report, List.filter_append, List.append_nil,
    filter_elsewhere (elsewhere "nodes" (by decide)),
    filter_elsewhere (elsewhere "trigger" (by decide)),
    filter_elsewhere (elsewhere "model" (by decide)),
    filter_elsewhere (elsewhere "entities" (by decide))]

/-- Checking a document whose parts may be faulty finds no problem twice. -/
lemma Settings.validateDocument_distinct (limit : Nat) (wf : v.WellFormed) :
    Distinct (validateDocument ⟨limit, true⟩ v).diagnostics := by
  cases v with
  | object members =>
    obtain ⟨nodes, trigger, model, entities⟩ := document_part limit members
    refine distinct_of_heads fun head => ?_
    -- below the key of a part stands the report of the part, elsewhere only reading finds problems
    by_cases elsewhere : ∀ key ∈ ["nodes", "trigger", "model", "entities"], head ≠ some key
    · rw [document_elsewhere elsewhere]
      exact (Draft.read_distinct wf).sublist List.filter_sublist
    · have below : ∃ key ∈ ["nodes", "trigger", "model", "entities"], head = some key := by
        by_contra none
        exact elsewhere fun key listed same => none ⟨key, listed, same⟩
      obtain ⟨key, listed, rfl⟩ := below
      have part : Distinct ((validateDocument ⟨limit, true⟩ (.object members)).part key) := by
        simp only [List.mem_cons, List.not_mem_nil, or_false] at listed
        rcases listed with rfl | rfl | rfl | rfl
        · rw [nodes]
          exact memberReport_distinct wf fun v => validatePart_distinct Node.finds_regular
        · rw [trigger]
          exact memberReport_distinct wf fun v => validatePart_distinct Trigger.finds_regular
        · rw [model]
          exact memberReport_distinct wf fun v => validatePart_distinct Properties.finds_regular
        · rw [entities]
          exact memberReport_distinct wf fun v => validatePart_distinct Properties.finds_regular
      exact part
  | null | bool b | number n | string s | array items => exact List.pairwise_singleton _ _

/-- All reports are distinct. -/
lemma ReportOf.distinct {report : Report} (wf : v.WellFormed) (h : ReportOf v report) :
    Distinct report.diagnostics := by
  cases h with
  | document settings =>
    have distinct := Settings.validateDocument_distinct settings.maxDepth wf
    rw [Settings.document_faulty] at distinct
    exact distinct.sublist Settings.conclude_sublist
  | trigger settings => exact Settings.validatePart_distinct Trigger.finds_regular wf
  | nodes settings => exact Settings.validatePart_distinct Node.finds_regular wf
  | properties settings => exact Settings.validatePart_distinct Properties.finds_regular wf
  | expression typed =>
    unfold Typing.inferFamily at typed
    simp only at typed
    split at typed
    · cases typed
    · cases typed
      exact Typing.check_regular.found.distinct trivial

end Report

/-- No problem is reported twice. In the report of a JSON value whose objects have each key once, as
a document, a trigger, an array of nodes, properties or an expression, and whatever the settings,
two diagnostics with one path and one kind are about different missing fields. -/
theorem report_distinct {v : Json} {report : Report} (wf : v.WellFormed) (of : ReportOf v report) :
    report.diagnostics.Pairwise fun d e =>
      d.path.text = e.path.text → d.kind = e.kind →
        ∃ field other, d.problem = .missingRequiredField field ∧
          e.problem = .missingRequiredField other ∧ field ≠ other :=
  of.distinct wf

/-- A document without fields but one that it should not have: three fields are missing at the same
place. -/
theorem emptyDocument_distinct :
    (Json.object [("version", .null)]).WellFormed ∧
      (Settings.default.validateDocument (.object [("version", .null)])).diagnostics =
        [⟨.root, .missingRequiredField "trigger"⟩, ⟨.root, .missingRequiredField "nodes"⟩,
          ⟨.root, .missingRequiredField "id"⟩, ⟨⟨["version"]⟩, .unknownField "version" "null"⟩] ∧
      (Settings.default.validateDocument (.object [("version", .null)])).diagnostics.Pairwise
        fun d e => d.path.text = e.path.text → d.kind = e.kind →
          ∃ field other, d.problem = .missingRequiredField field ∧
            e.problem = .missingRequiredField other ∧ field ≠ other := by
  have wf : (Json.object [("version", .null)]).WellFormed :=
    .object (List.pairwise_singleton _ _) (List.forall_mem_singleton.mpr .null)
  exact ⟨wf, by decide, report_distinct wf (.document .default)⟩

end DialogueLint
