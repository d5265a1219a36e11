import DialogueLint.Proofs.Integrity.Fragment
import DialogueLint.Proofs.Pointer.Tokens

/-!
# Places as they are shown

Reports show the root by a slash, which is also how the place of an empty key at the root is
written. No two other places are shown alike (`Pointer.display_eq`). A report has places that are
shown alike only if the document has an empty key and lacks a field that has to be there
(`paths_shown`).

For pointers this is led back to their written form, which is unambiguous: what shows a place is the
written form of another one (`Pointer.shown`), and only the root and its empty key are given the
same. For reports it has to be known what can be reported at these two places: at the root of an
object, that a field is missing, and at an empty key, that there is such a key. Both are seen from
how documents are read, since what checking finds lies below declared keys.
-/

namespace DialogueLint

namespace Pointer

/-- The place of an empty key at the root. -/
def emptyKey : Pointer := ⟨[""]⟩

/-- The place whose written form a place is shown by. -/
def shown (p : Pointer) : Pointer :=
  if p = root then emptyKey else p

/-- The root and the place of an empty key are different places. -/
lemma root_ne_emptyKey : root ≠ emptyKey := by decide

/-- What shows a place is the written form of the place that it is shown by. -/
lemma display_eq_text (p : Pointer) : p.display = p.shown.text := by
  rw [display, shown, isRoot]
  by_cases h : p = root
  · subst h
    rfl
  · have tokens : p.tokens ≠ [] := fun empty => h (congrArg mk empty)
    rw [if_neg h, List.isEmpty_eq_false_iff.mpr tokens]
    rfl

/-- Places are written alike only if they are equal. -/
lemma text_inj {p q : Pointer} : p.text = q.text ↔ p = q :=
  ⟨fun same => text_injective same, congrArg text⟩

/-- Places are shown alike only if they are equal, or if they are the root and its empty key. -/
lemma display_eq {p q : Pointer} :
    p.display = q.display ↔
      p = q ∨ (p = root ∧ q = emptyKey) ∨ (p = emptyKey ∧ q = root) := by
  have texts : p.display = q.display ↔ p.shown = q.shown := by
    rw [display_eq_text, display_eq_text, text_inj]
  rw [texts, shown, shown]
  by_cases hp : p = root
  · by_cases hq : q = root
    · simp [hp, hq]
    · simp [hp, hq, Ne.symm hq, eq_comm]
  · by_cases hq : q = root
    · simp [hp, hq, root_ne_emptyKey]
    · simp [hp, hq]

end Pointer

/-! ## Asking for a place -/

namespace Report

variable {r : Report} {d : Diagnostic} {p : Pointer} {kind : Kind}

/-- Asked for a place by its written form, a report gives what was found exactly there. -/
theorem mem_atPath : d ∈ r.atPath p.text ↔ d ∈ r.diagnostics ∧ d.path = p := by
  rw [atPath, List.mem_filter, beq_iff_eq, Pointer.text_inj]

/-- Asked for a kind at a place by its written form, a report says whether a problem of the kind was
found exactly there. -/
theorem contains_iff :
    r.contains kind p.text ↔ ∃ d ∈ r.diagnostics, d.kind = kind ∧ d.path = p := by
  simp only [contains, List.any_eq_true, Bool.and_eq_true, beq_iff_eq, Pointer.text_inj]

end Report

/-! ## Reports of documents -/

/-- The fields that a document has to have. -/
def Draft.demanded : List String := ["trigger", "nodes", "id"]

section Fields

variable {α : Type} {reader : Reader α} {name : String} {members : Members Json} {d : Diagnostic}

/-- A required field has a problem at the object itself only if it is missing. -/
lemma required_at_root (regular : reader.Regular) (root : d.path = .root) :
    d ∈ ((Fields.required name reader).read .root members).diagnostics ↔
      d = ⟨.root, .missingRequiredField name⟩ ∧ name ∉ members.keys := by
  rw [← Members.get?_eq_none]
  simp only [Fields.required]
  cases members.get? name with
  | none => simp [Outcome.fail]
  | some v =>
    refine iff_of_false (fun mem => ?_) (by simp)
    exact Diagnostic.path_ne_root ((regular v).found.within d mem) root

/-- An optional field has no problem at the object itself. -/
lemma optional_at_root (regular : reader.Regular) (root : d.path = .root) :
    d ∉ ((Fields.optional name reader).read .root members).diagnostics := by
  simp only [Fields.optional]
  cases members.get? name with
  | none => simp [Outcome.ok]
  | some v => exact fun mem => Diagnostic.path_ne_root ((regular v).found.within d mem) root

end Fields

/-- One diagnostic is about a missing field of a document, the other about an empty key of it. -/
def Diagnostic.Clashes (d e : Diagnostic) : Prop :=
  (∃ name, d = ⟨.root, .missingRequiredField name⟩) ∧
    ∃ found, e = ⟨.emptyKey, .unknownField "" found⟩

section Documents

variable {settings : Settings} {members : Members Json} {d : Diagnostic} {key : String}

/-- What checking the parts of a document finds lies below the keys of the parts. -/
lemma Draft.check_inside {limit : Nat} :
    ∀ d ∈ (read (.object members)).1.demands.check limit .root,
      ∃ name ∈ fields.declared, [name] <+: d.path.tokens := by
  rw [demands_eq]
  simp only [Demands.check_append, List.forall_mem_append]
  refine ⟨⟨⟨?_, ?_⟩, ?_⟩, ?_⟩ <;>
    exact fun d mem => ⟨_, by decide, memberDemands_inside d mem⟩

/-- What is reported at a place that is not below a declared key was found in reading. -/
lemma Settings.mem_document_of_outside
    (outside : ∀ name ∈ Draft.fields.declared, ¬ [name] <+: d.path.tokens) :
    d ∈ (settings.validateDocument (.object members)).diagnostics ↔
      d ∈ (Draft.read (.object members)).2 := by
  have checked : d ∉ (Draft.read (.object members)).1.demands.check settings.maxDepth .root := by
    intro mem
    obtain ⟨name, declared, inside⟩ := Draft.check_inside d mem
    exact outside name declared inside
  have conclude : settings.validateDocument (.object members) =
      settings.conclude (Draft.read (.object members)).2
        (Draft.read (.object members)).1.demands := rfl
  rw [conclude, Settings.conclude]
  split_ifs
  · simp [checked]
  · rfl

/-- What is reported at a document itself are the demanded fields that are missing. -/
lemma Settings.mem_document_root (root : d.path = .root) :
    d ∈ (settings.validateDocument (.object members)).diagnostics ↔
      ∃ name ∈ Draft.demanded, d = ⟨.root, .missingRequiredField name⟩ ∧ name ∉ members.keys := by
  rw [mem_document_of_outside fun name _ inside => Diagnostic.path_ne_root inside root,
    Draft.read_found]
  have stray : d ∉ Fields.undeclared Draft.fields.declared .root members := by
    intro mem
    obtain ⟨key, found, rfl, -⟩ := mem_undeclared mem
    cases root
  have id_regular : Reader.nonEmpty.Regular := Reader.sized_regular
  simp only [List.mem_append, required_at_root Trigger.read_regular root,
    required_at_root Node.readAll_regular root, required_at_root id_regular root,
    optional_at_root Properties.read_regular root, optional_at_root Reader.bool_regular root,
    stray, or_false, or_assoc, Draft.demanded, List.exists_mem_cons_iff, List.not_mem_nil,
    false_and, exists_false]

/-- What is reported at a key that documents do not have is that the key is there. -/
lemma Settings.mem_document_key (undeclared : key ∉ Draft.fields.declared)
    (path : d.path = ⟨[key]⟩) :
    d ∈ (settings.validateDocument (.object members)).diagnostics ↔
      ∃ v, (key, v) ∈ members ∧ d = ⟨⟨[key]⟩, .unknownField key v.describe⟩ := by
  have outside : ∀ name ∈ Draft.fields.declared, ¬ [name] <+: d.path.tokens := by
    rintro name declared inside
    have same : name = key := by simpa [path] using inside
    exact undeclared (same ▸ declared)
  have fields : d ∉ (Draft.fields.read .root members).diagnostics := by
    intro mem
    rcases Draft.fields_regular.placed d mem with root | ⟨name, declared, inside⟩
    · cases path.symm.trans root
    · exact outside name declared inside
  have read : (Draft.read (.object members)).2 =
      (Draft.fields.read .root members).diagnostics ++
        Fields.undeclared Draft.fields.declared .root members := Draft.read_diagnostics
  rw [mem_document_of_outside outside, read, List.mem_append, or_iff_right fields]
  constructor
  · intro mem
    obtain ⟨m, stray, rfl⟩ := List.mem_map.mp mem
    have same : m.1 = key := by simpa [Pointer.push, Pointer.root] using path
    subst same
    exact ⟨m.2, List.mem_of_mem_filter stray, rfl⟩
  · rintro ⟨v, mem, rfl⟩
    exact List.mem_map.mpr ⟨(key, v), List.mem_filter.mpr ⟨mem, by simpa using undeclared⟩, rfl⟩

/-- A document that is no object has a single problem. -/
lemma Settings.document_of_value {v : Json} (h : ∀ members, v ≠ .object members) :
    (settings.validateDocument v).diagnostics =
      [⟨.root, .invalidType "a dialogue object" v.describe⟩] := by
  cases v with
  | object members => exact absurd rfl (h members)
  | null | bool b | number n | string s | array items =>
    have conclude : ∀ found : List Diagnostic,
        (settings.conclude found []).diagnostics = found := by
      intro found
      unfold conclude
      split_ifs <;> simp [Demands.check]
    exact conclude _

/-- Only an object with an empty key and without a demanded field has problems both at the root and
at its empty key. -/
lemma Settings.document_clash {v : Json} {e : Diagnostic}
    (hd : d ∈ (settings.validateDocument v).diagnostics)
    (he : e ∈ (settings.validateDocument v).diagnostics)
    (root : d.path = .root) (empty : e.path = .emptyKey) :
    d.Clashes e ∧ ∃ members, v = .object members ∧ "" ∈ Members.keys members ∧
      ∃ name ∈ Draft.demanded, name ∉ Members.keys members := by
  by_cases object : ∃ members, v = .object members
  · obtain ⟨members, rfl⟩ := object
    obtain ⟨name, demanded, rfl, absent⟩ := (mem_document_root root).mp hd
    obtain ⟨w, mem, rfl⟩ := (mem_document_key (by decide) empty).mp he
    exact ⟨⟨⟨name, rfl⟩, w.describe, rfl⟩, members, rfl, List.mem_map.mpr ⟨_, mem, rfl⟩,
      name, demanded, absent⟩
  · rw [document_of_value (not_exists.mp object)] at he
    cases List.mem_singleton.mp he
    cases empty

end Documents

/-- Places that are shown alike are equal, but for the root and its empty key. That the pointers of
two lists of tokens are shown alike means that the lists are equal, or that one is empty and the
other holds an empty token alone. In the report of a document, whatever the settings, two
diagnostics whose places are shown alike are at one place, or one is about a missing field of the
document and the other about its empty key. There are places that are shown alike without being
equal exactly if the document is an object with an empty key and without one of the fields that it
has to have. -/
theorem paths_shown :
    (∀ a b, (Pointer.ofTokens a).display = (Pointer.ofTokens b).display ↔
      a = b ∨ (a = [] ∧ b = [""]) ∨ (a = [""] ∧ b = [])) ∧
    ∀ (settings : Settings) (v : Json),
      (∀ d ∈ (settings.validateDocument v).diagnostics,
        ∀ e ∈ (settings.validateDocument v).diagnostics, d.path.display = e.path.display →
          d.path = e.path ∨ d.Clashes e ∨ e.Clashes d) ∧
      ((∃ d ∈ (settings.validateDocument v).diagnostics,
          ∃ e ∈ (settings.validateDocument v).diagnostics,
            d.path.display = e.path.display ∧ d.path ≠ e.path) ↔
        ∃ members, v = .object members ∧ "" ∈ Members.keys members ∧
          ∃ name ∈ ["trigger", "nodes", "id"], name ∉ Members.keys members) := by
  refine ⟨fun a b => ?_, fun settings v => ⟨fun d hd e he same => ?_, ?_⟩⟩
  · rw [Pointer.ofTokens_eq, Pointer.ofTokens_eq, Pointer.display_eq]
    simp only [Pointer.root, Pointer.emptyKey, Pointer.mk.injEq]
  · rcases Pointer.display_eq.mp same with equal | ⟨root, empty⟩ | ⟨empty, root⟩
    · exact .inl equal
    · exact .inr (.inl (Settings.document_clash hd he root empty).1)
    · exact .inr (.inr (Settings.document_clash he hd root empty).1)
  constructor
  · rintro ⟨d, hd, e, he, same, different⟩
    rcases Pointer.display_eq.mp same with equal | ⟨root, empty⟩ | ⟨empty, root⟩
    · exact absurd equal different
    · exact (Settings.document_clash hd he root empty).2
    · exact (Settings.document_clash he hd root empty).2
  -- the root lacks a field, and the empty key is stray: both are shown as one slash
  · rintro ⟨members, rfl, key, name, demanded, absent⟩
    obtain ⟨m, mem, empty⟩ := List.mem_map.mp key
    obtain ⟨key, w⟩ := m
    cases empty
    exact ⟨⟨.root, .missingRequiredField name⟩,
      (Settings.mem_document_root rfl).mpr ⟨name, demanded, rfl, absent⟩,
      ⟨.emptyKey, .unknownField "" w.describe⟩,
      (Settings.mem_document_key (by decide) rfl).mpr ⟨w, mem, rfl⟩, rfl,
      Pointer.root_ne_emptyKey⟩

/-- A document with an empty key alone: there are problems at two places that are shown alike. -/
theorem emptyKeyDocument_shown :
    "" ∈ Members.keys [("", Json.null)] ∧ "id" ∉ Members.keys [("", Json.null)] ∧
      ∃ d ∈ (Settings.default.validateDocument (.object [("", .null)])).diagnostics,
        ∃ e ∈ (Settings.default.validateDocument (.object [("", .null)])).diagnostics,
          d.path.display = e.path.display ∧ d.path ≠ e.path := by
  have key : "" ∈ Members.keys [("", Json.null)] := by decide
  have absent : "id" ∉ Members.keys [("", Json.null)] := by decide
  exact ⟨key, absent, (paths_shown.2 .default _).2.mpr ⟨_, rfl, key, "id", by decide, absent⟩⟩

/-- What is shown does not tell the root from its empty key, neither for pointers made of tokens nor
in a report. -/
theorem root_shown_as_emptyKey :
    ¬ (∀ a b, (Pointer.ofTokens a).display = (Pointer.ofTokens b).display → a = b) ∧
      ¬ ∀ d ∈ (Settings.default.validateDocument (.object [("", .null)])).diagnostics,
        ∀ e ∈ (Settings.default.validateDocument (.object [("", .null)])).diagnostics,
          d.path.display = e.path.display → d.path = e.path := by
  refine ⟨fun injective => ?_, by decide⟩
  have alike : (Pointer.ofTokens []).display = (Pointer.ofTokens [""]).display := by decide
  exact absurd (injective [] [""] alike) (by decide)

end DialogueLint
