import DialogueLint.Proofs.Integrity.Regular
import DialogueLint.Proofs.Integrity.Truncation

/-!
# Fragments and the whole document

Validating a part by itself finds what validating the whole document finds in it
(`document_parts`). A document is gone through twice, read first and checked later, so the problems
of a part are scattered over the report; those whose path begins with the key of the part are the
report of the part, in its order and moved below the key.

The report is filtered by the first token of the paths. Everything that reading or checking a member
finds lies below the key of the member (`memberFound`, `memberDemands`), so the filter keeps all of
it or nothing, and what is left for a key is what the reader of the part found, followed by what its
demands found. That is the report of the part, moved below the key. What has no such key is told by
the fields of a document: one is missing, is there though it should not be, or is a scalar of the
wrong form.
-/

namespace DialogueLint

open Demands (ifPresent)

/-! ## Below a key -/

/-- A diagnostic lies below a key of the document. -/
def Diagnostic.isBelow (key : String) (d : Diagnostic) : Bool :=
  d.path.tokens.head? == some key

/-- The diagnostics below a key, in order. -/
def Report.part (report : Report) (key : String) : List Diagnostic :=
  report.diagnostics.filter (Diagnostic.isBelow key)

/-- What a validation of the member at a key reports, moved below the key. -/
def memberReport (validate : Json → Report) (key : String) (members : Members Json) :
    List Diagnostic :=
  match Members.get? members key with
  | some v => (validate v).diagnostics.map (Diagnostic.below (Pointer.root.push key))
  | none => []

section Below

variable {key name : String} {diagnostics : List Diagnostic}

/-- What lies inside a field is below the key of the field and no other. -/
lemma Diagnostic.isBelow_of_prefix {d : Diagnostic} (h : [name] <+: d.path.tokens) :
    d.isBelow key = (name == key) := by
  obtain ⟨rest, same⟩ := h
  simp [isBelow, ← same]

/-- What lies inside a field is below its key, and below no other. -/
lemma filter_inside (h : ∀ d ∈ diagnostics, [name] <+: d.path.tokens) :
    diagnostics.filter (Diagnostic.isBelow key) = if name = key then diagnostics else [] := by
  split_ifs with same
  · refine List.filter_eq_self.mpr fun d mem => ?_
    simp [Diagnostic.isBelow_of_prefix (h d mem), same]
  · refine List.filter_eq_nil_iff.mpr fun d mem => ?_
    simp [Diagnostic.isBelow_of_prefix (h d mem), same]

end Below

/-! ## Members -/

/-- A text that must not be empty is reported where it stands. -/
lemma Reader.nonEmpty_path (path : Pointer) (v : Json) :
    ∀ d ∈ (nonEmpty path v).diagnostics, d.path = path := by
  cases v with
  | string s =>
    simp only [nonEmpty, sized, andThen, string, Outcome.andThen, Outcome.ok, List.nil_append]
    split_ifs <;> simp [Outcome.fail]
  | _ => exact List.forall_mem_singleton.mpr rfl

/-- What should be true or false is reported where it stands. -/
lemma Reader.bool_path (path : Pointer) (v : Json) :
    ∀ d ∈ (bool path v).diagnostics, d.path = path := by
  cases v with
  | bool b => exact nofun
  | _ => exact List.forall_mem_singleton.mpr rfl

section Members

variable {α : Type} {reader : Reader α} {demands : α → Demands} {limit : Nat} {key name : String}
  {members : Members Json}

/-- What reading the member at a key finds. -/
def memberFound (reader : Reader α) (key : String) (members : Members Json) : List Diagnostic :=
  match Members.get? members key with
  | some v => (reader (Pointer.root.push key) v).diagnostics
  | none => []

/-- What the member at a key demands once it is read. -/
def memberDemands (reader : Reader α) (demands : α → Demands) (key : String)
    (members : Members Json) : Demands :=
  match Members.get? members key with
  | some v => (ifPresent (reader (Pointer.root.push key) v).result? demands).under [key]
  | none => []

/-- What reading a member finds lies inside the member. -/
lemma memberFound_inside (h : reader.Regular) :
    ∀ d ∈ memberFound reader name members, [name] <+: d.path.tokens := by
  unfold memberFound
  split
  · exact (h _).found.within
  · simp

/-- Of a required field, what was found in the member is below its key. -/
lemma filter_required (h : reader.Regular) :
    ((Fields.required name reader).read .root members).diagnostics.filter
        (Diagnostic.isBelow key) =
      if name = key then memberFound reader name members else [] := by
  rw [← filter_inside (memberFound_inside h)]
  simp only [Fields.required, memberFound]
  cases Members.get? members name <;> rfl

/-- Of an optional field, what was found in the member is below its key. -/
lemma filter_optional (h : reader.Regular) :
    ((Fields.optional name reader).read .root members).diagnostics.filter
        (Diagnostic.isBelow key) =
      if name = key then memberFound reader name members else [] := by
  rw [← filter_inside (memberFound_inside h)]
  simp only [Fields.optional, memberFound]
  cases Members.get? members name <;> rfl

/-- No undeclared key lies below a declared one. -/
lemma filter_undeclared {declared : List String} (h : key ∈ declared) :
    (Fields.undeclared declared .root members).filter (Diagnostic.isBelow key) = [] := by
  refine List.filter_eq_nil_iff.mpr fun d mem => ?_
  obtain ⟨m, hm, rfl⟩ := List.mem_map.mp mem
  have other : m.1 ≠ key := by
    rintro rfl
    simp [h] at hm
  simp [Diagnostic.isBelow, Pointer.push, Pointer.root, other]

/-- What checking a member finds lies inside the member. -/
lemma memberDemands_inside :
    ∀ d ∈ (memberDemands reader demands name members).check limit .root,
      [name] <+: d.path.tokens := by
  unfold memberDemands
  split
  · rw [Demands.check_under]
    exact (Demands.regular_moves _).within
  · simp [Demands.check]

/-- What checking a member finds is below the key of the member, and below no other. -/
lemma filter_memberDemands :
    ((memberDemands reader demands name members).check limit .root).filter
        (Diagnostic.isBelow key) =
      if name = key then (memberDemands reader demands name members).check limit .root else [] :=
  filter_inside memberDemands_inside

/-- What reading and checking find in a member is what validating the member finds. -/
lemma memberFound_append
    (moves : ∀ v path, reader.finds limit demands v path =
      (reader.finds limit demands v .root).map (Diagnostic.below path)) :
    memberFound reader key members ++ (memberDemands reader demands key members).check limit .root =
      memberReport (Settings.validatePart ⟨limit, true⟩ reader demands) key members := by
  simp only [memberFound, memberDemands, memberReport]
  cases Members.get? members key with
  | none => rfl
  | some v =>
    have report : (Settings.validatePart ⟨limit, true⟩ reader demands v).diagnostics =
        reader.finds limit demands v .root := by
      simp only [Settings.validatePart, Settings.conclude_faulty]
      rfl
    simp only [report, ← moves, Demands.check_under]
    rfl

/-- What a required field demands is what the member demands. -/
lemma memberDemands_required :
    (ifPresent ((Fields.required key reader).read .root members).result? fun a =>
      (demands a).under [key]) = memberDemands reader demands key members := by
  rw [Demands.ifPresent_under]
  simp only [Fields.required, memberDemands]
  cases Members.get? members key <;> rfl

/-- What an optional field demands is what the member demands. -/
lemma memberDemands_optional :
    (ifPresent ((Fields.optional key reader).read .root members).result?.join fun a =>
      (demands a).under [key]) = memberDemands reader demands key members := by
  rw [Demands.ifPresent_under]
  simp only [Fields.optional, memberDemands]
  cases Members.get? members key with
  | none => rfl
  | some v =>
    simp only [Outcome.map]
    cases (reader (Pointer.root.push key) v).result? <;> rfl

/-- A required field is missing, or what is found lies inside it. -/
lemma mem_required {d : Diagnostic}
    (h : d ∈ ((Fields.required name reader).read .root members).diagnostics) :
    d = ⟨.root, .missingRequiredField name⟩ ∨ d ∈ memberFound reader name members := by
  simp only [Fields.required] at h
  unfold memberFound
  cases found : Members.get? members name with
  | none =>
    rw [found] at h
    exact .inl (List.mem_singleton.mp h)
  | some v =>
    rw [found] at h
    exact .inr h

/-- All that is found in an optional field is found in the member. -/
lemma mem_optional {d : Diagnostic}
    (h : d ∈ ((Fields.optional name reader).read .root members).diagnostics) :
    d ∈ memberFound reader name members := by
  simp only [Fields.optional] at h
  unfold memberFound
  cases found : Members.get? members name with
  | none => simp [found, Outcome.ok] at h
  | some v =>
    rw [found] at h
    exact h

/-- A reader of scalars finds problems only where the value stands. -/
lemma memberFound_path
    (here : ∀ path v, ∀ d ∈ (reader path v).diagnostics, d.path = path) {d : Diagnostic}
    (h : d ∈ memberFound reader name members) : d.path = ⟨[name]⟩ := by
  unfold memberFound at h
  split at h
  · exact here _ _ d h
  · cases h

/-- An undeclared key is reported at the place of the key. -/
lemma mem_undeclared {declared : List String} {d : Diagnostic}
    (h : d ∈ Fields.undeclared declared .root members) :
    ∃ key found, d = ⟨⟨[key]⟩, .unknownField key found⟩ ∧ key ∉ declared := by
  obtain ⟨m, mem, rfl⟩ := List.mem_map.mp h
  exact ⟨m.1, m.2.describe, rfl, by simpa using (List.mem_filter.mp mem).2⟩

end Members

/-! ## Documents -/

section Documents

variable {limit : Nat} {members : Members Json}

/-- What reading a document finds: the problems of each field in turn, and the undeclared keys. -/
lemma Draft.read_found :
    (read (.object members)).2 =
      ((Fields.required "trigger" Trigger.read).read .root members).diagnostics ++
        ((Fields.required "nodes" Node.readAll).read .root members).diagnostics ++
        ((Fields.required "id" .nonEmpty).read .root members).diagnostics ++
        ((Fields.optional "model" Properties.read).read .root members).diagnostics ++
        ((Fields.optional "entities" Properties.read).read .root members).diagnostics ++
        ((Fields.optional "background" .bool).read .root members).diagnostics ++
        Fields.undeclared fields.declared .root members := by
  rw [read_diagnostics]
  rfl

/-- What a document demands is what its four parts demand, one after the other. -/
lemma Draft.demands_eq :
    (read (.object members)).1.demands =
      memberDemands Trigger.read Trigger.demands "trigger" members ++
        memberDemands Node.readAll Node.allDemands "nodes" members ++
        memberDemands Properties.read Properties.demands "model" members ++
        memberDemands Properties.read Properties.demands "entities" members := by
  have nodes : (Node.allDemands (((Fields.required "nodes" Node.readAll).read .root
      members).result?.getD [])).under ["nodes"] =
      memberDemands Node.readAll Node.allDemands "nodes" members := by
    rw [← memberDemands_required]
    cases ((Fields.required "nodes" Node.readAll).read .root members).result? <;> rfl
  rw [read_demands, nodes, memberDemands_required, memberDemands_optional, memberDemands_optional]

/-- The report of a document: what reading it finds, and what the demands of its parts come to. -/
lemma Settings.document_report :
    (validateDocument ⟨limit, true⟩ (.object members)).diagnostics =
      (Draft.read (.object members)).2 ++
        (memberDemands Trigger.read Trigger.demands "trigger" members).check limit .root ++
        (memberDemands Node.readAll Node.allDemands "nodes" members).check limit .root ++
        (memberDemands Properties.read Properties.demands "model" members).check limit .root ++
        (memberDemands Properties.read Properties.demands "entities" members).check limit
          .root := by
  simp only [document_faulty, Draft.demands_eq, Demands.check_append, List.append_assoc]

/-- What the report of a document has below the key of a part is the report of the part. -/
lemma Settings.document_part (limit : Nat) (members : Members Json) :
    let report := validateDocument ⟨limit, true⟩ (.object members)
    report.part "nodes" = memberReport (validateNodes ⟨limit, true⟩) "nodes" members ∧
      report.part "trigger" = memberReport (validateTrigger ⟨limit, true⟩) "trigger" members ∧
      report.part "model" = memberReport (validateProperties ⟨limit, true⟩) "model" members ∧
      report.part "entities" =
        memberReport (validateProperties ⟨limit, true⟩) "entities" members := by
  intro report
  have nodes : _ = memberReport (validateNodes ⟨limit, true⟩) "nodes" members :=
    memberFound_append fun v => Node.finds_regular.moves
  have trigger : _ = memberReport (validateTrigger ⟨limit, true⟩) "trigger" members :=
    memberFound_append fun v => Trigger.finds_regular.moves
  have model : _ = memberReport (validateProperties ⟨limit, true⟩) "model" members :=
    memberFound_append fun v => Properties.finds_regular.moves
  have entities : _ = memberReport (validateProperties ⟨limit, true⟩) "entities" members :=
    memberFound_append fun v => Properties.finds_regular.moves
  have id_regular : Reader.nonEmpty.Regular := Reader.sized_regular
  rw [← nodes, ← trigger, ← model, ← entities]
  refine ⟨?_, ?_, ?_, ?_⟩
  -- all that is not found in the part lies below other keys
  all_goals
    simp (disch := decide) only [report, Report.part, document_report, Draft.read_found,
      List.filter_append, filter_required Trigger.read_regular,
      filter_required Node.readAll_regular, filter_required id_regular,
      filter_optional Properties.read_regular, filter_optional Reader.bool_regular,
      filter_undeclared, filter_memberDemands, String.reduceEq, if_true, if_false,
      List.nil_append, List.append_nil]

end Documents

/-- Fragments agree with the whole document. If faulty documents are checked as well, then whatever
the limit, and for every object: the diagnostics below the key of a part are the report of the part,
in order and moved below the key; a part that is not there has none. Every other diagnostic is about
a missing field of the document, lies at its `id` or its `background`, or is about an undeclared
key. -/
theorem document_parts (limit : Nat) (members : Members Json) :
    let settings : Settings := ⟨limit, true⟩
    let report := settings.validateDocument (.object members)
    report.part "nodes" = memberReport settings.validateNodes "nodes" members ∧
      report.part "trigger" = memberReport settings.validateTrigger "trigger" members ∧
      report.part "model" = memberReport settings.validateProperties "model" members ∧
      report.part "entities" = memberReport settings.validateProperties "entities" members ∧
      ∀ d ∈ report.diagnostics,
        (∀ key ∈ ["nodes", "trigger", "model", "entities"], ¬ d.isBelow key) →
        (∃ field, d = ⟨.root, .missingRequiredField field⟩) ∨
          d.path = ⟨["id"]⟩ ∨ d.path = ⟨["background"]⟩ ∨
          ∃ key found, d = ⟨⟨[key]⟩, .unknownField key found⟩ ∧
            key ∉ ["trigger", "nodes", "id", "model", "entities", "background"] := by
  intro settings report
  obtain ⟨nodes, trigger, model, entities⟩ := Settings.document_part limit members
  refine ⟨nodes, trigger, model, entities, fun d mem elsewhere => ?_⟩
  have part : ∀ key ∈ ["nodes", "trigger", "model", "entities"], ¬ [key] <+: d.path.tokens := by
    intro key listed inside
    exact elsewhere key listed (by simp [Diagnostic.isBelow_of_prefix inside])
  simp only [report, settings, Settings.document_report, Draft.read_found, List.mem_append] at mem
  -- a problem of a part lies below its key, whether reading or checking found it
  rcases mem with
    ((((((((((mem | mem) | mem) | mem) | mem) | mem) | mem) | mem) | mem) | mem) | mem)
  · cases mem_required mem with
    | inl missing => exact .inl ⟨_, missing⟩
    | inr found =>
      exact absurd (memberFound_inside Trigger.read_regular d found) (part _ (by decide))
  · cases mem_required mem with
    | inl missing => exact .inl ⟨_, missing⟩
    | inr found =>
      exact absurd (memberFound_inside Node.readAll_regular d found) (part _ (by decide))
  · cases mem_required mem with
    | inl missing => exact .inl ⟨_, missing⟩
    | inr found => exact .inr (.inl (memberFound_path Reader.nonEmpty_path found))
  · have found := mem_optional mem
    exact absurd (memberFound_inside Properties.read_regular d found) (part _ (by decide))
  · have found := mem_optional mem
    exact absurd (memberFound_inside Properties.read_regular d found) (part _ (by decide))
  · exact .inr (.inr (.inl (memberFound_path Reader.bool_path (mem_optional mem))))
  · exact .inr (.inr (.inr (mem_undeclared mem)))
  · exact absurd (memberDemands_inside d mem) (part _ (by decide))
  · exact absurd (memberDemands_inside d mem) (part _ (by decide))
  · exact absurd (memberDemands_inside d mem) (part _ (by decide))
  · exact absurd (memberDemands_inside d mem) (part _ (by decide))

end DialogueLint
