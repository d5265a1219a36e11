import DialogueLint.Proofs.Integrity.Fragment
import DialogueLint.Proofs.Reading.Clean

/-!
# The definition and the report agree

A document has a definition exactly if nothing is reported about its structure, so validating a text
gives a dialogue exactly if the report of the text is empty, and otherwise that report
(`define_agrees`). No reader leaves a part out without a report, and no part that was reported on is
in a definition.

A draft holds what could be read of a document, and is complete if nothing was reported on the way.
The proofs go through the parts of a dialogue as they are read from the members
(`Definition.IsReadFrom`): without a report each part is there and has a result, and with all
results there the draft has a definition. Reading behind diagnostics that were there before adds the
same, so that what counts is what was added, and not whether the buffer is empty.
-/

namespace DialogueLint

/-! ## Drafts without a report -/

namespace Node

variable {path : Pointer} {v : Json}

/-- Slots are filled without a report if each of them is. -/
lemma slots_eq_ok {outcomes : List (Outcome Node)} {nodes : List Node} :
    (⟨some (outcomes.map Outcome.result?), outcomes.flatMap Outcome.diagnostics⟩ :
      Outcome (List (Option Node))) = .ok (nodes.map some) ↔ outcomes = nodes.map .ok := by
  simp only [Outcome.eq_ok_iff, Option.some.injEq]
  induction outcomes generalizing nodes with
  | nil => cases nodes <;> simp
  | cons o outcomes ih =>
    cases nodes with
    | nil => simp
    | cons node nodes =>
      simp only [List.map_cons, List.flatMap_cons, List.cons.injEq, List.append_eq_nil_iff, ← ih,
        Outcome.eq_ok_iff]
      tauto

/-- All slots of an array are filled, without a report, if each of its nodes is read without one. -/
lemma readAll_eq_ok {nodes : List Node} : readAll path v = .ok (nodes.map some) ↔
    ∃ values, v = .array values ∧ values ≠ [] ∧
      Reader.itemsFrom read path 0 values = nodes.map .ok := by
  cases v with
  | array values =>
    cases values with
    | nil => simp [readAll, Outcome.ok]
    | cons value values =>
      simp only [readAll, Json.array.injEq, exists_eq_left', ne_eq, reduceCtorEq, not_false_eq_true,
        true_and]
      exact slots_eq_ok
  | null | bool b | number n | string s | object members => simp [readAll, Outcome.ok]

/-- If nothing is reported about nodes, every slot holds a node. -/
lemma readAll_of_clean (clean : (readAll path v).diagnostics = []) :
    ∃ nodes : List Node, readAll path v = .ok (nodes.map some) := by
  cases v with
  | array values =>
    cases values with
    | nil => cases clean
    | cons value values =>
      have same : (readAll path (.array (value :: values))).diagnostics =
          (Reader.items read path (value :: values)).diagnostics := by
        rw [Reader.items, Outcome.diagnostics_all]
        rfl
      rw [same] at clean
      obtain ⟨nodes, hnodes⟩ := (read_accepts.items path (value :: values)).eq_ok clean
      exact ⟨nodes, readAll_eq_ok.mpr
        ⟨_, rfl, List.cons_ne_nil _ _, Outcome.all_eq_ok.mp hnodes⟩⟩
  | null | bool b | number n | string s | object members => cases clean

end Node

/-- All parts of a dialogue are read from the members of a document, without a report. -/
structure Definition.IsReadFrom (d : Definition) (members : Members Json) : Prop where
  trigger : (Fields.required "trigger" Trigger.read).read .root members = .ok d.trigger
  nodes : (Fields.required "nodes" Node.readAll).read .root members = .ok (d.nodes.map some)
  id : (Fields.required "id" .nonEmpty).read .root members = .ok d.id
  model : (Fields.optional "model" Properties.read).read .root members = .ok d.model
  entities : (Fields.optional "entities" Properties.read).read .root members = .ok d.entities
  background : (Fields.optional "background" .bool).read .root members = .ok d.background
  closed : ∀ key ∈ Members.keys members, key ∈ Draft.fields.declared

namespace Draft

open Fields

variable {members : Members Json} {v : Json} {before : List Diagnostic}

/-- If nothing is reported about the structure of a document, a dialogue is read from it. -/
lemma exists_isReadFrom (clean : (read (.object members)).2 = []) :
    ∃ d : Definition, d.IsReadFrom members := by
  rw [read_found] at clean
  simp only [List.append_eq_nil_iff] at clean
  obtain ⟨⟨⟨⟨⟨⟨trigger, nodes⟩, id⟩, model⟩, entities⟩, background⟩, undeclared⟩ := clean
  obtain ⟨trigger, htrigger⟩ :=
    ((required_follows Trigger.read_accepts).settles .root members).eq_ok trigger
  obtain ⟨id, hid⟩ := ((required_follows Reader.nonEmpty_accepts).settles .root members).eq_ok id
  obtain ⟨model, hmodel⟩ :=
    ((optional_follows Properties.read_accepts).settles .root members).eq_ok model
  obtain ⟨entities, hentities⟩ :=
    ((optional_follows Properties.read_accepts).settles .root members).eq_ok entities
  obtain ⟨background, hbackground⟩ :=
    ((optional_follows Reader.bool_accepts).settles .root members).eq_ok background
  -- Nodes do not settle like the other parts: a node with a report leaves an empty slot, and the
  -- array is there all the same.
  have slots : ∃ nodes : List Node,
      (required "nodes" Node.readAll).read .root members = .ok (nodes.map some) := by
    simp only [required] at nodes ⊢
    cases found : Members.get? members "nodes" with
    | none => simp [found, Outcome.fail] at nodes
    | some v =>
      rw [found] at nodes
      exact Node.readAll_of_clean nodes
  obtain ⟨nodes, hnodes⟩ := slots
  exact ⟨⟨id, trigger, nodes, model, entities, background⟩, htrigger, hnodes, hid, hmodel,
    hentities, hbackground, undeclared_eq_nil.mp undeclared⟩

/-- A dialogue that is read from a document is defined by the draft, whatever was reported
before. -/
lemma definition_of_isReadFrom {d : Definition} (h : d.IsReadFrom members) :
    (readBehind before (.object members)).1.definition? = some d := by
  have parts : fields.Reads .root members fun draft => ∀ silent, draft silent =
      ⟨some d.trigger, d.nodes.map some, some d.id, d.model, d.entities, d.background, silent⟩ := by
    simp only [fields, reads_seq, reads_map]
    exact ⟨_, attempt_of_ok h.trigger, _, attempt_of_ok h.nodes, _, attempt_of_ok h.id, _,
      attempt_of_ok h.model, _, attempt_of_ok h.entities, _, attempt_of_ok h.background,
      fun silent => rfl⟩
  obtain ⟨draft, read, hdraft⟩ := parts
  have whole : Fields.object "a dialogue object" fields .root (.object members) = .ok draft :=
    object_eq_ok.mpr ⟨members, rfl, read, h.closed⟩
  have slots : ((d.nodes.map some).mapM fun node => node) = some d.nodes := by
    induction d.nodes with
    | nil => rfl
    | cons node nodes ih => simp [ih]
  simp only [readBehind, whole, Outcome.ok, List.append_nil, BEq.rfl, hdraft, definition?, slots]
  rfl

/-- What is reported behind other diagnostics is what is reported alone. -/
lemma readBehind_report : (readBehind before v).2 = before ++ (read v).2 := by
  have behind : ∀ more, (readBehind more v).2 =
      more ++ (Fields.object "a dialogue object" fields .root v).diagnostics := by
    intro more
    simp only [readBehind]
    split <;> rfl
  rw [behind, read_diagnostics]

/-- A draft is complete only if nothing is reported behind what was reported before. -/
lemma clean_of_complete (h : (readBehind before v).1.complete) : (read v).2 = [] := by
  rw [read_diagnostics]
  cases v with
  | object members =>
    -- The parts may all be there although something was reported, as for an undeclared key; what
    -- decides is the flag, which compares the reports before and behind.
    have result : ∃ draft, (Fields.object "a dialogue object" fields .root
        (.object members)).result? = some draft ∧ ∀ silent, (draft silent).complete → silent := by
      refine ⟨_, rfl, fun silent complete => ?_⟩
      exact ((Bool.and_eq_true _ _).mp complete).2
    obtain ⟨draft, hdraft, silent⟩ := result
    simp only [readBehind, hdraft] at h
    have grown := silent _ h
    simpa using grown
  | null | bool b | number n | string s | array items => cases h

/-- What has a definition is complete. -/
lemma complete_of_definition {draft : Draft} (h : draft.definition?.isSome) : draft.complete := by
  unfold definition? at h
  split at h
  · rfl
  · cases h

/-- A document has a definition exactly if nothing was added to the report. -/
lemma definition_isSome : (readBehind before v).1.definition?.isSome ↔ (read v).2 = [] := by
  constructor
  · exact fun h => clean_of_complete (complete_of_definition h)
  · intro clean
    cases v with
    | object members =>
      obtain ⟨d, hd⟩ := exists_isReadFrom clean
      rw [definition_of_isReadFrom hd]
      rfl
    | null | bool b | number n | string s | array items => cases clean

/-- Reading never reports that a text is not JSON, nor does checking. -/
lemma read_kinds : ∀ d ∈ (read v).2, d.kind ≠ .malformedJson := by
  rw [read_diagnostics]
  intro d mem
  exact Kind.ofValue_of_form ((fields_regular.object (by decide) v).found.kinds d mem)

end Draft

/-! ## Texts -/

namespace Settings

variable {settings : Settings} {v : Json}

/-- Validating a value never reports that a text is not JSON. -/
lemma validateDocument_kinds :
    ∀ d ∈ (settings.validateDocument v).diagnostics, d.kind ≠ .malformedJson := by
  have checked : ∀ d ∈ (Draft.read v).1.demands.check settings.maxDepth .root,
      d.kind ≠ .malformedJson :=
    fun d mem => Kind.ofValue_of_content ((Demands.regular_moves _).kinds d mem)
  simp only [validateDocument, draftAndReport, conclude]
  split_ifs
  · exact List.forall_mem_append.mpr ⟨Draft.read_kinds, checked⟩
  · exact Draft.read_kinds

/-- A document without a report has a definition. -/
lemma definition_of_accepted (h : (settings.validateDocument v).accepted) :
    ∃ d, (Draft.read v).1.definition? = some d := by
  rw [Report.accepted, List.isEmpty_iff] at h
  have clean : (Draft.read v).2 = [] := by
    simp only [validateDocument, draftAndReport, conclude] at h
    split_ifs at h
    · exact (List.append_eq_nil_iff.mp h).1
    · exact h
  exact Option.isSome_iff_exists.mp (Draft.definition_isSome.mpr clean)

/-- Defining a document gives its definition if the report is empty, and else the report. -/
lemma define_eq (settings : Settings) (text : String) :
    (∃ d, settings.define text = .ok d ∧ (settings.validateSource text).accepted) ∨
      (settings.define text = .error (settings.validateSource text) ∧
        ¬ (settings.validateSource text).accepted) := by
  unfold define validateSource
  cases Json.parse text with
  | error fault => exact .inr ⟨rfl, by simp [Report.malformed, Report.accepted]⟩
  | ok document =>
    have report : (settings.draftAndReport document).2 = settings.validateDocument document := rfl
    have draft : (settings.draftAndReport document).1 = (Draft.read document).1 := rfl
    simp only [report, draft]
    by_cases accepted : (settings.validateDocument document).accepted
    · obtain ⟨d, hd⟩ := definition_of_accepted accepted
      exact .inl ⟨d, by simp [hd, accepted], accepted⟩
    · refine .inr ⟨?_, accepted⟩
      split
      · simp [accepted]
      · rfl

end Settings

/-- The definition and the report never disagree, whatever the settings and the text. There is a
dialogue exactly if the report is accepted; otherwise there is exactly the report, which is also
that of the text as a fragment, and which is never empty. A text that is not JSON has a single
diagnostic at the root, a text that is JSON none of that kind. And whatever was reported before, a
document has a definition exactly if reading it adds nothing to the report. -/
theorem define_agrees (settings : Settings) (text : String) (before : List Diagnostic)
    (document : Json) :
    ((∃ d, settings.define text = .ok d) ↔ (settings.validateSource text).accepted) ∧
      (∀ report, settings.define text = .error report ↔
        report = settings.validateSource text ∧ report.diagnostics ≠ []) ∧
      settings.validateText .document text = settings.validateSource text ∧
      (∀ fault, Json.parse text = .error fault →
        (settings.validateSource text).diagnostics =
          [⟨.root, .malformedJson fault.position.line fault.position.column fault.message⟩]) ∧
      (∀ v, Json.parse text = .ok v →
        ∀ d ∈ (settings.validateSource text).diagnostics, d.kind ≠ .malformedJson) ∧
      ((Draft.readBehind before document).1.definition?.isSome ↔
        (Draft.readBehind before document).2 = before) := by
  have accepted_iff : (settings.validateSource text).accepted ↔
      (settings.validateSource text).diagnostics = [] := List.isEmpty_iff
  refine ⟨?accepted, ?rejected, rfl, ?malformed, ?json, ?behind⟩
  case accepted =>
    cases settings.define_eq text with
    | inl defined =>
      obtain ⟨d, hd, accepted⟩ := defined
      exact ⟨fun _ => accepted, fun _ => ⟨d, hd⟩⟩
    | inr rejected =>
      obtain ⟨error, notAccepted⟩ := rejected
      refine ⟨fun ⟨d, hd⟩ => ?_, fun accepted => absurd accepted notAccepted⟩
      rw [error] at hd
      cases hd
  -- an accepted report is empty, and so is no error
  case rejected =>
    intro report
    cases settings.define_eq text with
    | inl defined =>
      obtain ⟨d, hd, accepted⟩ := defined
      rw [hd]
      refine ⟨nofun, fun ⟨same, found⟩ => ?_⟩
      rw [same] at found
      exact absurd (accepted_iff.mp accepted) found
    | inr rejected =>
      obtain ⟨error, notAccepted⟩ := rejected
      rw [error, Except.error.injEq]
      refine ⟨fun same => ⟨same.symm, ?_⟩, fun ⟨same, _⟩ => same.symm⟩
      rw [← same]
      exact fun clean => notAccepted (accepted_iff.mpr clean)
  case malformed =>
    intro fault parsed
    rw [Settings.validateSource, parsed]
    rfl
  case json =>
    intro v parsed
    rw [Settings.validateSource, parsed]
    exact Settings.validateDocument_kinds
  case behind =>
    rw [Draft.definition_isSome, Draft.readBehind_report, List.append_right_eq_self]

end DialogueLint
