import DialogueLint.Proofs.Integrity.Distinct
import DialogueLint.Proofs.Integrity.Uses

/-!
# References in namespaces of the system

Outside expressions, validating a document reports a reference in a namespace of the system once for
each use that is refused, and nowhere else (`reserved_exact`). That nothing is missing follows from
the demands that uses come to, that nothing is doubled from reports being distinct.

A use that is refused is demanded at its place, and answered there by one diagnostic that names the
namespace. As no problem is reported twice, it is the only one of its kind at the place; and at any
other place outside the expressions, no demand is answered by such a diagnostic. Inside expressions,
the same diagnostics come from typing, which is why these places are left out.
-/

namespace DialogueLint

/-- What a report says at a place about a reference in a namespace of the system. -/
def Report.reservedAt (report : Report) (place : Pointer) : List Diagnostic :=
  report.diagnostics.filter fun d => d.kind == .reservedNamespace && d.path == place

/-! ## Uses that are refused -/

section Check

variable {limit : Nat} {path : Pointer} {use : Use} {r : String}

/-- A reference that may not be used is in a namespace of the system. -/
lemma Use.Refuses.reserved (refused : use.Refuses r) :
    ∃ space, Reference.reserved? r = some space := by
  apply Option.ne_none_iff_exists'.mp
  cases use with
  | written => exact refused
  | read =>
    intro unreserved
    apply refused
    simp [Reference.isReadable, Reference.isWritable, unreserved]

/-- A use that is refused is reported with the namespace. -/
lemma Use.Refuses.check (refused : use.Refuses r) {space : SystemSpace}
    (reserved : Reference.reserved? r = some space) :
    (use.demand r).check limit path = [⟨path, .reservedNamespace r space⟩] := by
  cases use with
  | written => simp [demand, Demand.check, reserved]
  | read =>
    have unreadable : Reference.isReadable r = false := by simpa [Refuses] using refused
    simp [demand, Demand.check, Diagnostic.ofRead, unreadable, reserved]

/-- Of a use that is not refused nothing is reported. -/
lemma Use.check_of_not_refuses (granted : ¬ use.Refuses r) :
    (use.demand r).check limit path = [] := by
  rw [Demand.check_eq_nil]
  cases use with
  | written => exact not_not.mp granted
  | read => exact not_not.mp granted

/-- A reference in a namespace of the system is reported where its use is refused, or somewhere in
an expression. -/
lemma Demand.reserved_cases {demand : Demand} {d : Diagnostic}
    (found : d ∈ demand.check limit path) (kind : d.kind = .reservedNamespace) :
    (∃ (use : Use) (r : String) (space : SystemSpace), demand = use.demand r ∧ use.Refuses r ∧
        Reference.reserved? r = some space ∧ d = ⟨path, .reservedNamespace r space⟩) ∨
      ∃ expect e, demand = .types expect e ∧ path.tokens <+: d.path.tokens := by
  have uses : ∀ (use : Use) (r : String), demand = use.demand r →
      ∃ space, use.Refuses r ∧ Reference.reserved? r = some space ∧
        d = ⟨path, .reservedNamespace r space⟩ := by
    rintro use r rfl
    by_cases refused : use.Refuses r
    · obtain ⟨space, reserved⟩ := refused.reserved
      rw [refused.check reserved] at found
      exact ⟨space, refused, reserved, List.mem_singleton.mp found⟩
    · rw [Use.check_of_not_refuses refused] at found
      cases found
  cases demand with
  | writes r =>
    obtain ⟨space, refused⟩ := uses .written r rfl
    exact .inl ⟨.written, r, space, rfl, refused⟩
  | reads r =>
    obtain ⟨space, refused⟩ := uses .read r rfl
    exact .inl ⟨.read, r, space, rfl, refused⟩
  | types expect e => exact .inr ⟨expect, e, rfl, Typing.check_regular.found.within d found⟩
  | leads index field target len =>
    simp only [check] at found
    split_ifs at found
    · cases found
    · cases List.mem_singleton.mp found
      cases kind

end Check

/-! ## Reports -/

/-- Reading a document finds nothing about namespaces of the system. -/
lemma Draft.read_unreserved {v : Json} : ∀ d ∈ (read v).2, d.kind ≠ .reservedNamespace := by
  rw [read_diagnostics]
  intro d mem same
  have form := (fields_regular.object (by decide) v).found.kinds d mem
  rw [same] at form
  cases form

/-- References in namespaces of the system are reported exactly. If faulty documents are checked as
well, then whatever the limit, and for every object whose objects have each key once: where a
document uses a reference outside expressions and the use is refused, there is exactly one such
diagnostic, with the reference and its namespace. Every other one lies inside an expression, where
none of these uses is. -/
theorem reserved_exact (limit : Nat) {members : Members Json}
    (wf : (Json.object members).WellFormed) :
    let v := Json.object members
    let report := Settings.validateDocument ⟨limit, true⟩ v
    (∀ place use r, Document.Refers v place use r → use.Refuses r →
        ∃ space, Reference.reserved? r = some space ∧
          report.reservedAt place = [⟨place, .reservedNamespace r space⟩]) ∧
      (∀ d ∈ report.diagnostics, d.kind = .reservedNamespace →
        (∃ use r space, Document.Refers v d.path use r ∧ use.Refuses r ∧
            Reference.reserved? r = some space ∧ d.problem = .reservedNamespace r space) ∨
          ∃ held, Document.Holds v held ∧ held.tokens <+: d.path.tokens) ∧
      ∀ place use r held, Document.Refers v place use r → Document.Holds v held →
        ¬ held.tokens <+: place.tokens := by
  intro v report
  have found : report.diagnostics =
      (Draft.read v).2 ++ (Draft.read v).1.demands.check limit .root := Settings.document_faulty
  refine ⟨fun place use r refers refused => ?_, fun d mem kind => ?_,
    fun place use r held refers holds => refers.outside holds⟩
  · obtain ⟨space, reserved⟩ := refused.reserved
    refine ⟨space, reserved, ?_⟩
    -- the use is demanded, so the diagnostic is in the report, and reports are distinct
    have mem : ⟨place, .reservedNamespace r space⟩ ∈ report.diagnostics := by
      rw [found]
      refine List.mem_append_right _ (List.mem_flatMap.mpr
        ⟨_, Document.refers_iff.mp refers, ?_⟩)
      simp [refused.check reserved]
    exact (Settings.validateDocument_distinct limit wf).filter_eq mem
      (by simp [Diagnostic.kind, Problem.kind])
  · rw [found] at mem
    rcases List.mem_append.mp mem with read | checked
    · exact absurd kind (Draft.read_unreserved d read)
    · obtain ⟨⟨place, demand⟩, made, checked⟩ := List.mem_flatMap.mp checked
      rcases Demand.reserved_cases checked kind with
        ⟨use, r, space, rfl, refused, reserved, rfl⟩ | ⟨expect, e, rfl, inside⟩
      · exact .inl ⟨use, r, space, Document.refers_iff.mpr made, refused, reserved, rfl⟩
      · exact .inr ⟨place, Document.holds_iff.mpr ⟨expect, e, made⟩, inside⟩

/-- A document that has neither a trigger nor an identifier. Its only node calls a dialogue and
stores the output under a reference of the system. -/
def callDocument : Json :=
  .object [("nodes", .array [.object [("dialogueId", .string "order"), ("nextNodeIndex", .null),
    ("outputs", .object [("Bot/name", .object [("var", .string "Dialogue/secret")])]),
    ("type", .string "dialogue")]])]

/-- No object of the document has a key twice. -/
lemma callDocument_wellFormed : callDocument.WellFormed := by
  have ordered : Members.Ordered [("dialogueId", Json.string "order"), ("nextNodeIndex", .null),
      ("outputs", .object [("Bot/name", .object [("var", .string "Dialogue/secret")])]),
      ("type", .string "dialogue")] := by
    unfold Members.Ordered
    decide
  refine .object (List.pairwise_singleton _ _) (List.forall_mem_singleton.mpr ?_)
  refine .array (List.forall_mem_singleton.mpr (.object ordered ?_))
  simp only [List.forall_mem_cons, List.not_mem_nil, false_implies, implies_true, and_true]
  refine ⟨.string _, .null, .object (List.pairwise_singleton _ _) ?_, .string _⟩
  refine List.forall_mem_singleton.mpr (.object (List.pairwise_singleton _ _) ?_)
  exact List.forall_mem_singleton.mpr (.string _)

/-- Of one output both are refused: the key, which is written, and the variable further inside,
which is read. -/
theorem callDocument_reserved :
    callDocument.WellFormed ∧
      let report := Settings.validateDocument ⟨8, true⟩ callDocument
      report.reservedAt ⟨["nodes", "0", "outputs", "Bot/name"]⟩ =
          [⟨⟨["nodes", "0", "outputs", "Bot/name"]⟩, .reservedNamespace "Bot/name" .bot⟩] ∧
        report.reservedAt ⟨["nodes", "0", "outputs", "Bot/name", "var"]⟩ =
          [⟨⟨["nodes", "0", "outputs", "Bot/name", "var"]⟩,
            .reservedNamespace "Dialogue/secret" .dialogue⟩] := by
  obtain ⟨once, -, -⟩ := reserved_exact 8 callDocument_wellFormed
  have writes : Document.Refers callDocument ⟨["nodes", "0", "outputs", "Bot/name"]⟩ .written
      "Bot/name" := by
    refine @Document.Refers.node _ 0 _ ["outputs", "Bot/name"] _ _ rfl (by decide) ?_
    exact @Node.Refers.key _ "dialogue" ["outputs"] _ _ rfl (by decide) rfl
      (List.mem_singleton_self _)
  have reads : Document.Refers callDocument ⟨["nodes", "0", "outputs", "Bot/name", "var"]⟩ .read
      "Dialogue/secret" := by
    refine @Document.Refers.node _ 0 _ ["outputs", "Bot/name", "var"] _ _ rfl (by decide) ?_
    exact @Node.Refers.output _ "dialogue" _
      ("Bot/name", .object [("var", .string "Dialogue/secret")]) _ rfl (by decide) rfl
      (List.mem_singleton_self _) rfl
  obtain ⟨space, bot, key⟩ := once _ .written _ writes (by unfold Use.Refuses; decide)
  obtain ⟨other, dialogue, inside⟩ := once _ .read _ reads (by unfold Use.Refuses; decide)
  have spaces : Reference.reserved? "Bot/name" = some .bot ∧
      Reference.reserved? "Dialogue/secret" = some .dialogue := by decide
  cases spaces.1.symm.trans bot
  cases spaces.2.symm.trans dialogue
  exact ⟨callDocument_wellFormed, key, inside⟩

end DialogueLint
