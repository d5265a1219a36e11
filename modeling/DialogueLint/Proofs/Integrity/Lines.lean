import DialogueLint.Proofs.Dialogue.Plain
import DialogueLint.Proofs.Integrity.Definition
import DialogueLint.Proofs.Integrity.Demands
import DialogueLint.Proofs.Integrity.Location
import DialogueLint.Proofs.Json.Scan
import DialogueLint.Proofs.Typing.Plain

/-!
# One line for each diagnostic

A report shows each diagnostic in a line of its own unless a text that a diagnostic repeats has a
line break. The texts of a document are quoted, but for those that are repeated verbatim: where none
of these has a line break, every report has as many lines as diagnostics (`report_lines`).

It is shown of each source of diagnostics that what it repeats is either quoted, or fixed, or one of
the texts in `Json.Verbatim`: of reading by `DialogueLint.Proofs.Dialogue.Plain`, of typing by
`DialogueLint.Proofs.Typing.Plain`, of texts that are no JSON by `DialogueLint.Proofs.Json.Scan`,
and of demands here. Paths repeat keys and indices, since they lead to values inside the one that
was validated. The condition cannot be dropped: a key with a line break takes several lines
(`brokenKey_split`).
-/

namespace DialogueLint

open Text

/-! ## Demands -/

/-- Whatever there is to say about a demand repeats no line break. -/
def Demand.Plain : Demand → Prop
  | writes r | reads r => (Json.string r).Unbroken
  | types _ e => e.Unbroken
  | leads _ field _ _ => Unbroken field

section Demands

variable {limit index len : Nat} {path : Pointer} {v w : Json} {demand : Demand}
  {keys : List String}

/-- There is nothing with a line break to say about a plain demand. -/
lemma Demand.Plain.check (h : demand.Plain) : ∀ d ∈ demand.check limit path, d.problem.Plain := by
  cases demand with
  | writes r =>
    simp only [Demand.check]
    split
    · rename_i space reserved
      refine List.forall_mem_singleton.mpr (List.forall_mem_singleton.mpr ?_)
      exact Json.Unbroken.reference h (by simp [reserved])
    · simp
  | reads r => exact Typing.plain_ofRead h
  | types expect e => exact Typing.plain_check h
  | leads node field target len =>
    simp only [Demand.check]
    split_ifs
    · simp
    · exact List.forall_mem_singleton.mpr (unbroken_pair h target.unbroken_text)

/-- A field for a successor is named without a line break. -/
def Role.Plain : Role → Prop
  | successor field => Unbroken field
  | _ => True

/-- What is behind keys of an unbroken value is unbroken. -/
lemma Json.Unbroken.at? (h : v.Unbroken) (found : Json.at? keys v = some w) : w.Unbroken :=
  (h.reaches (Json.reaches_of_at? found)).1

/-- A key is a text that is repeated as it is, also where it is a reference. -/
lemma Json.Unbroken.key_reference {members : Members Json} {m : String × Json}
    (h : (Json.object members).Unbroken) (mem : m ∈ members) : (Json.string m.1).Unbroken := by
  rintro s ⟨⟩
  exact h.key mem

/-- What a role demands of an unbroken value is plain. -/
lemma Role.Makes.plain {role : Role} (makes : role.Makes index len w keys demand)
    (named : role.Plain) (unbroken : w.Unbroken) : demand.Plain := by
  cases makes with
  | written | read | typed => exact unbroken
  | key mem | outputKey mem => exact unbroken.key_reference mem
  | input mem => exact unbroken.member mem
  | lookup mem var => exact (unbroken.member mem).at? var
  | successor => exact named

/-- The fields for successors are named without a line break. -/
lemma Sites.plain_ofNode {type : String} : ∀ site ∈ ofNode type, site.role.Plain := by
  unfold ofNode
  split <;>
    simp +decide [simplePrompt, cardContent, successor, written, typed, behind, here, Role.Plain]

/-- Whatever there is to say about several demands repeats no line break. -/
def Demands.Plain (demands : Demands) : Prop :=
  ∀ p ∈ demands, p.2.Plain

/-- There is nothing with a line break to say about plain demands. -/
lemma Demands.Plain.check {demands : Demands} (h : demands.Plain) :
    ∀ d ∈ demands.check limit path, d.problem.Plain := by
  intro d mem
  obtain ⟨p, listed, found⟩ := List.mem_flatMap.mp mem
  exact (h p listed).check d found

/-- What a trigger demands that was read from an unbroken value is plain. -/
lemma Trigger.plain_demands {trigger : Trigger} (h : (read path v).result? = some trigger)
    (unbroken : v.Unbroken) : trigger.demands.Plain := by
  intro p mem
  obtain ⟨-, r, output, -, same⟩ := (mem_demands h).mp mem
  rw [same]
  exact unbroken.at? output

/-- What properties demand that were read from an unbroken value is plain. -/
lemma Properties.plain_demands {properties : Properties}
    (h : (read path v).result? = some properties) (unbroken : v.Unbroken) :
    properties.demands.Plain := by
  intro p mem
  obtain ⟨members, rfl, r, key, -, same⟩ := (mem_demands h).mp mem
  obtain ⟨m, listed, rfl⟩ := List.mem_map.mp key
  rw [same]
  exact unbroken.key_reference listed

/-- What a node demands that was read from an unbroken value is plain. -/
lemma Node.plain_demands {node : Node} (h : (read path v).result? = some node)
    (unbroken : v.Unbroken) : (node.demands index len).Plain := by
  obtain ⟨type, -, same⟩ := read_demands index len h
  rw [same]
  intro p mem
  obtain ⟨site, listed, w, more, found, makes, -⟩ := mem_siteDemands.mp mem
  exact makes.plain (Sites.plain_ofNode site listed) (unbroken.at? found)

/-- What all nodes demand that were read from an unbroken value is plain. -/
lemma Node.plain_allDemands {slots : List (Option Node)}
    (h : (readAll path v).result? = some slots) (unbroken : v.Unbroken) :
    (allDemands slots).Plain := by
  intro p mem
  obtain ⟨items, rfl, index, item, node, more, found, result, made, -⟩ :=
    (mem_allDemands h).mp mem
  exact plain_demands result (unbroken.item (List.mem_of_getElem? found)) (⟨more⟩, p.2) made

/-- What a member of an unbroken document demands is plain. -/
lemma plain_memberDemands {α : Type} {reader : Reader α} (regular : reader.Regular)
    {demands : α → Demands} {key : String} {members : Members Json}
    (unbroken : (Json.object members).Unbroken)
    (h : ∀ {v a}, (reader .root v).result? = some a → v.Unbroken → (demands a).Plain) :
    (memberDemands reader demands key members).Plain := by
  intro p mem
  obtain ⟨v, a, more, found, result, made, -⟩ := (mem_memberDemands regular).mp mem
  exact h result (unbroken.at? found) (⟨more⟩, p.2) made

/-- What the parts of an unbroken document demand is plain. -/
lemma Draft.plain_demands (unbroken : v.Unbroken) : (read v).1.demands.Plain := by
  cases v with
  | object members =>
    rw [demands_eq]
    simp only [Demands.Plain, List.forall_mem_append]
    exact ⟨⟨⟨plain_memberDemands Trigger.read_regular unbroken Trigger.plain_demands,
      plain_memberDemands Node.readAll_regular unbroken Node.plain_allDemands⟩,
      plain_memberDemands Properties.read_regular unbroken Properties.plain_demands⟩,
      plain_memberDemands Properties.read_regular unbroken Properties.plain_demands⟩
  | _ => exact List.forall_mem_nil _

end Demands

/-! ## Reports of values -/

section Reports

variable {settings : Settings} {v : Json} {report : Report}

/-- A report repeats no line break if neither reading nor checking does. -/
lemma Settings.plain_conclude {structural : List Diagnostic} {demands : Demands}
    (reading : ∀ d ∈ structural, d.problem.Plain) (h : demands.Plain) :
    ∀ d ∈ (settings.conclude structural demands).diagnostics, d.problem.Plain := by
  unfold conclude
  split_ifs
  · exact List.forall_mem_append.mpr ⟨reading, h.check⟩
  · exact reading

/-- The report of an unbroken part repeats no line break. -/
lemma Settings.plain_validatePart {α : Type} {reader : Reader α} {demands : α → Demands}
    (reading : reader.Plain) (unbroken : v.Unbroken)
    (h : ∀ {a}, (reader .root v).result? = some a → v.Unbroken → (demands a).Plain) :
    ∀ d ∈ (settings.validatePart reader demands v).diagnostics, d.problem.Plain := by
  refine plain_conclude (reading .root v unbroken) ?_
  cases result : (reader .root v).result? with
  | none => exact List.forall_mem_nil _
  | some a => exact h result unbroken

/-- Reading an unbroken document reports nothing with a line break. -/
lemma Draft.plain_found (unbroken : v.Unbroken) : ∀ d ∈ (read v).2, d.problem.Plain := by
  rw [read_diagnostics]
  exact plain_fields.object (by decide) .root v unbroken

/-- The problems that are reported of an unbroken value repeat no line break. -/
lemma ReportOf.plain (unbroken : v.Unbroken) (h : ReportOf v report) :
    ∀ d ∈ report.diagnostics, d.problem.Plain := by
  cases h with
  | document settings =>
    exact Settings.plain_conclude (Draft.plain_found unbroken) (Draft.plain_demands unbroken)
  | trigger settings =>
    exact Settings.plain_validatePart Trigger.plain_read unbroken Trigger.plain_demands
  | nodes settings =>
    exact Settings.plain_validatePart Node.plain_readAll unbroken Node.plain_allDemands
  | properties settings =>
    exact Settings.plain_validatePart Properties.plain_read unbroken Properties.plain_demands
  | expression typed =>
    unfold Typing.inferFamily at typed
    simp only at typed
    split at typed
    · cases typed
    · cases typed
      exact Typing.plain_check unbroken

/-- What is reported of an unbroken value has no line break in its path either, which leads to a
value inside it. -/
lemma ReportOf.unbroken_texts (unbroken : v.Unbroken) (h : ReportOf v report) :
    ∀ d ∈ report.diagnostics, ∀ t ∈ d.texts, Unbroken t := by
  intro d mem
  refine List.forall_mem_append.mpr ⟨?_, h.plain unbroken d mem⟩
  obtain ⟨tokens, w, path, reaches, -⟩ := h.located d mem
  rw [path]
  exact (unbroken.reaches reaches).2

end Reports

/-! ## Reports of texts -/

/-- A report of a text: as a fragment, as a whole document, or as one that defines no dialogue. -/
inductive ReportOfText (text : String) : Report → Prop where
  | fragment (settings : Settings) (fragment : Fragment) :
      ReportOfText text (settings.validateText fragment text)
  | source (settings : Settings) : ReportOfText text (settings.validateSource text)
  | definition {settings : Settings} {report : Report} :
      settings.define text = .error report → ReportOfText text report

/-- What is validated: a value, or a text that may hold one. -/
inductive Input where
  | value (v : Json)
  | text (source : String)

namespace Input

/-- A validation of the input gives the report. -/
def Reports : Input → Report → Prop
  | value v, report => ReportOf v report
  | text source, report => ReportOfText source report

/-- A text of the input that a report may repeat as it is. -/
def Verbatim : Input → String → Prop
  | value v, s => v.Verbatim s
  | text source, s => ∃ v, Json.parse source = .ok v ∧ v.Verbatim s

end Input

/-- A fragment is validated as the part that it is. -/
lemma ReportOf.fragment {v : Json} (settings : Settings) (fragment : Fragment) :
    ReportOf v (settings.validateFragment fragment v) := by
  cases fragment with
  | document => exact .document settings
  | trigger => exact .trigger settings
  | nodes => exact .nodes settings
  | properties => exact .properties settings

/-- All reports of a text are reports of a fragment: the definition of a dialogue is refused with
the report of the document. -/
lemma ReportOfText.eq_validateText {text : String} {report : Report}
    (h : ReportOfText text report) :
    ∃ (settings : Settings) (fragment : Fragment),
      report = settings.validateText fragment text := by
  cases h with
  | fragment settings fragment => exact ⟨settings, fragment, rfl⟩
  | source settings => exact ⟨settings, .document, rfl⟩
  | @definition settings report refused =>
    rcases settings.define_eq text with ⟨d, defined, -⟩ | ⟨same, -⟩
    · cases defined.symm.trans refused
    · cases same.symm.trans refused
      exact ⟨settings, .document, rfl⟩

/-- A text that is not JSON is reported in fixed words. -/
lemma Report.malformed_unbroken {text : String} {fault : Json.LocatedFault}
    (failed : Json.parse text = .error fault) :
    ∀ d ∈ (malformed fault).diagnostics, ∀ t ∈ d.texts, Unbroken t :=
  List.forall_mem_singleton.mpr (List.forall_mem_singleton.mpr (Json.plain_parse failed))

namespace Input

variable {input : Input} {report : Report}

/-- If no text that is repeated as it is has a line break, no text of a diagnostic has one. -/
lemma Reports.unbroken_texts (of : input.Reports report)
    (unbroken : ∀ s, input.Verbatim s → Unbroken s) :
    ∀ d ∈ report.diagnostics, ∀ t ∈ d.texts, Unbroken t := by
  cases input with
  | value v => exact ReportOf.unbroken_texts unbroken of
  | text source =>
    obtain ⟨settings, fragment, rfl⟩ := ReportOfText.eq_validateText of
    unfold Settings.validateText
    split
    · rename_i v parsed
      have inner : v.Unbroken := fun s verbatim => unbroken s ⟨v, parsed, verbatim⟩
      exact (ReportOf.fragment settings fragment).unbroken_texts inner
    · rename_i fault failed
      exact Report.malformed_unbroken failed

end Input

/-! ## Lines -/

/-- Every diagnostic has a line to itself: the lines are those of the diagnostics in order, none of
them with a line break in it, and `accepted` if there are none. -/
structure Report.Lined (report : Report) : Prop where
  lines : Text.lines report.display =
    if report.diagnostics = [] then ["accepted"] else report.diagnostics.map Diagnostic.display
  unbroken : ∀ d ∈ report.diagnostics, Unbroken d.display

namespace Report

variable {report : Report}

/-- It is enough that no line of a diagnostic is broken. -/
lemma lined_iff : report.Lined ↔ ∀ d ∈ report.diagnostics, Unbroken d.display := by
  refine ⟨Lined.unbroken, fun unbroken => ⟨?_, unbroken⟩⟩
  split_ifs with empty
  · rw [display_eq_accepted.mpr empty]
    decide
  · rw [lines_display empty, flatMap_lines (List.forall_mem_map.mpr unbroken)]

/-- A report that is not empty has a line for each diagnostic if it has as many lines as
diagnostics. -/
lemma lined_iff_length (h : report.diagnostics ≠ []) :
    report.Lined ↔ (Text.lines report.display).length = report.size := by
  have texts := length_lines_eq (report.diagnostics.map Diagnostic.display)
  rw [List.length_map, List.forall_mem_map] at texts
  rw [lined_iff, lines_display h, ← texts]
  rfl

end Report

/-- Every diagnostic is shown in one line, unless something with a line break is repeated as it is.
For every text or JSON value that is validated, as a document or a part of one or as an expression,
and whatever the settings: the report is shown as `accepted` exactly if it is empty; it has a line
for each diagnostic exactly if no token of a path and no text that a problem repeats has a line
break, and, where there is a diagnostic, exactly if there are as many lines as diagnostics. That is
so whenever the keys, the names of methods that there are not and the references into namespaces of
the system have no line break in the value that was validated or read from the text. -/
theorem report_lines {input : Input} {report : Report} (of : input.Reports report) :
    (report.display = "accepted" ↔ report.diagnostics = []) ∧
      (report.Lined ↔ ∀ d ∈ report.diagnostics, ∀ t ∈ d.texts, Unbroken t) ∧
      (report.diagnostics ≠ [] →
        (report.Lined ↔ (Text.lines report.display).length = report.size)) ∧
      ((∀ s, input.Verbatim s → Unbroken s) → report.Lined) := by
  have texts : report.Lined ↔ ∀ d ∈ report.diagnostics, ∀ t ∈ d.texts, Unbroken t := by
    simp only [Report.lined_iff, Diagnostic.unbroken_display]
  refine ⟨Report.display_eq_accepted, texts, Report.lined_iff_length, fun unbroken => ?_⟩
  exact texts.mpr (of.unbroken_texts unbroken)

/-- A document with a field that documents do not have: each of the four problems has its line. -/
theorem versionDocument_lined :
    (Input.value (.object [("version", .null)])).Reports
        (Settings.default.validateDocument (.object [("version", .null)])) ∧
      (Settings.default.validateDocument (.object [("version", .null)])).size = 4 ∧
      (Settings.default.validateDocument (.object [("version", .null)])).Lined := by
  have reports : (Input.value (.object [("version", .null)])).Reports
      (Settings.default.validateDocument (.object [("version", .null)])) :=
    .document .default
  have unbroken : ∀ s, (Json.object [("version", .null)]).Verbatim s → Unbroken s := by
    intro s verbatim
    generalize same : Json.object [("version", .null)] = v at verbatim
    cases verbatim with
    | key mem =>
      cases same
      cases List.mem_singleton.mp mem
      decide
    | member mem inner =>
      cases same
      cases List.mem_singleton.mp mem
      cases inner
    | method => simp at same
    | reference | item => cases same
  exact ⟨reports, by decide, (report_lines reports).2.2.2 unbroken⟩

/-- A dialogue that is accepted but for a key with a line break. -/
def brokenKey : Json :=
  .object [("a\nb", .number (.integer 1)), ("id", .string "x"),
    ("nodes", .array [.object [("event", .string "endDialogue"), ("type", .string "event")]]),
    ("trigger", .object [("type", .string "nestedDialogue")])]

/-- A key is repeated as it is, in the path and in the wording: one problem takes three lines. -/
theorem brokenKey_split :
    (Settings.default.validateDocument brokenKey).size = 1 ∧
      Text.lines (Settings.default.validateDocument brokenKey).display =
        ["/a", "b: UnknownField: Field 'a", "b' is not allowed here (found the number 1)"] := by
  decide

/-- The name of a method that there is not and a reference into a namespace of the system are
repeated as they are too. -/
example :
    Typing.inferFamily 64 none (.object [("method", .array [.string "s", .string "a\nb"])]) =
        .error ⟨[⟨⟨["method", "1"]⟩, .unknownOperator "a\nb"⟩]⟩ ∧
      Typing.inferFamily 64 none (.object [("var", .string "bot/\n")]) =
        .error ⟨[⟨⟨["var"]⟩, .reservedNamespace "bot/\n" .bot⟩]⟩ :=
  ⟨rfl, rfl⟩

end DialogueLint
