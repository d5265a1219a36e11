import DialogueLint.Proofs.Json.Place
import DialogueLint.Proofs.Reading.Form
import DialogueLint.Proofs.Reading.Steps

/-!
# Reading accepts forms

An outcome settles whether a value has a property if it reports nothing exactly in that case, if all
it reports speaks about the value, and if it has no result exactly if it reports more than unknown
fields (`Outcome.Settles`). A reader accepts a form if it settles, for every value, whether the
value is of the form; a plan follows rules if it settles for all members whether they obey the
rules, in steps each of which reads a field.

Three questions are answered at once: whether anything is reported, whether what is reported speaks
about the value, and whether there is a result. They belong together because each passes through a
combinator only with the help of the others; for example, two outcomes together have a result unless
one of them reports more than unknown fields. The first part is about outcomes, the second about
readers and plans, and the third about the scalars, from which everything else is built in
`DialogueLint.Proofs.Reading.Closure`.
-/

namespace DialogueLint

/-! ## Outcomes -/

namespace Outcome

variable {α β γ : Type}

/-- An outcome reports nothing exactly if something holds, and all it reports speaks about a value.
-/
structure Finds (o : Outcome α) (path : Pointer) (v : Json) (P : Prop) : Prop where
  clean : o.diagnostics = [] ↔ P
  located : ∀ d ∈ o.diagnostics, d.Speaks path v

/-- An outcome finds whether something holds, and has a result unless it reports more than unknown
fields. -/
structure Settles (o : Outcome α) (path : Pointer) (v : Json) (P : Prop) : Prop
    extends o.Finds path v P where
  definite : o.result? = none ↔ ∃ d ∈ o.diagnostics, d.kind ≠ .unknownField

/-- A failure reports something. -/
@[simp] lemma diagnostics_fail_ne_nil {path : Pointer} {problem : Problem} :
    (fail path problem : Outcome α).diagnostics ≠ [] :=
  List.cons_ne_nil _ _

/-- Outcomes together report what each of them reports, in order. -/
lemma diagnostics_all {outcomes : List (Outcome α)} :
    (all outcomes).diagnostics = outcomes.flatMap diagnostics := by
  induction outcomes with
  | nil => rfl
  | cons o rest ih => simp [all, Outcome.zipWith, ih]

section Settles

variable {path : Pointer} {v : Json} {P Q : Prop} {o : Outcome α} {p : Outcome β}

/-- A result without a report settles what holds. -/
lemma settles_ok {a : α} (h : P) : (ok a).Settles path v P where
  clean := by simp [ok, h]
  located := by simp [ok]
  definite := by simp [ok]

/-- A failure at the value itself settles what does not hold. -/
lemma settles_fail {problem : Problem} (h : ¬ P) (known : (problem.kind == .unknownField) = false)
    (about : problem.About path.tokens v) :
    (fail path problem : Outcome α).Settles path v P where
  clean := by simp [h]
  located := by simpa [fail] using Diagnostic.speaks_here about
  definite := by simpa [fail, Diagnostic.kind] using known

/-- What is found may be stated in another way. -/
lemma Finds.iff (h : o.Finds path v P) (same : P ↔ Q) : o.Finds path v Q where
  clean := h.clean.trans same
  located := h.located

/-- What is settled may be stated in another way. -/
lemma Settles.iff (h : o.Settles path v P) (same : P ↔ Q) : o.Settles path v Q where
  toFinds := h.toFinds.iff same
  definite := h.definite

/-- What is made of a result settles what the result settled. -/
lemma Settles.map (h : o.Settles path v P) (f : α → β) : (o.map f).Settles path v P where
  clean := h.clean
  located := h.located
  definite := by simpa [Outcome.map] using h.definite

/-- Two outcomes together find whether both properties hold. -/
lemma Finds.zipWith (ho : o.Finds path v P) (hp : p.Finds path v Q) (f : α → β → γ) :
    (Outcome.zipWith f o p).Finds path v (P ∧ Q) where
  clean := by simp only [Outcome.zipWith, List.append_eq_nil_iff, ho.clean, hp.clean]
  located := List.forall_mem_append.mpr ⟨ho.located, hp.located⟩

/-- Two outcomes together settle whether both properties hold. -/
lemma Settles.zipWith (ho : o.Settles path v P) (hp : p.Settles path v Q) (f : α → β → γ) :
    (Outcome.zipWith f o p).Settles path v (P ∧ Q) where
  toFinds := ho.toFinds.zipWith hp.toFinds f
  definite := by
    simp only [Outcome.zipWith, List.mem_append, or_and_right, exists_or, ← ho.definite,
      ← hp.definite]
    cases o.result? <;> cases p.result? <;> simp

/-- Outcomes together settle whether the property of each of them holds. -/
lemma settles_all {outcomes : List (Outcome α)} {ι : Type} {P : ι → Prop} {of : ι → Outcome α}
    {indices : List ι} (houtcomes : outcomes = indices.map of)
    (h : ∀ i ∈ indices, (of i).Settles path v (P i)) :
    (all outcomes).Settles path v (∀ i ∈ indices, P i) := by
  subst houtcomes
  induction indices with
  | nil => exact settles_ok (by simp)
  | cons i indices ih =>
    obtain ⟨first, others⟩ := List.forall_mem_cons.mp h
    exact (first.zipWith (ih others) _).iff List.forall_mem_cons.symm

/-- Reports of unknown fields may be added. -/
lemma Settles.adding (h : o.Settles path v P) {more : List Diagnostic} (clean : more = [] ↔ Q)
    (unknown : ∀ d ∈ more, d.kind = .unknownField ∧ d.Speaks path v) :
    (o.adding more).Settles path v (P ∧ Q) where
  clean := by rw [Outcome.adding, List.append_eq_nil_iff, h.clean, clean]
  located := List.forall_mem_append.mpr ⟨h.located, fun d mem => (unknown d mem).2⟩
  definite := by
    rw [Outcome.adding, h.definite]
    constructor
    · rintro ⟨d, mem, known⟩
      exact ⟨d, List.mem_append_left _ mem, known⟩
    · rintro ⟨d, mem, known⟩
      rcases List.mem_append.mp mem with mem | mem
      · exact ⟨d, mem, known⟩
      · exact absurd (unknown d mem).1 known

/-- What is found of a member is found of the object. -/
lemma Finds.member {members : Members Json} {key : String} (h : o.Finds (path.push key) v P)
    (mem : (key, v) ∈ members) : o.Finds path (.object members) P where
  clean := h.clean
  located d hd := (h.located d hd).member mem

/-- What is settled of a member is settled of the object. -/
lemma Settles.member {members : Members Json} {key : String} (h : o.Settles (path.push key) v P)
    (mem : (key, v) ∈ members) : o.Settles path (.object members) P where
  toFinds := h.toFinds.member mem
  definite := h.definite

/-- What is settled of an item is settled of the array. -/
lemma Settles.item {items : List Json} {index : Nat} (h : o.Settles (path.item index) v P)
    (found : items[index]? = some v) : o.Settles path (.array items) P where
  clean := h.clean
  located d hd := (h.located d hd).item found
  definite := h.definite

/-- Where nothing is reported, there is a result. -/
lemma Settles.result (h : o.Settles path v P) (holds : P) : ∃ a, o.result? = some a := by
  rw [← Option.isSome_iff_exists, Option.isSome_iff_ne_none, ne_eq, h.definite, h.clean.mpr holds]
  simp

end Settles

end Outcome

/-! ## Readers and plans -/

/-- A reader finds whether a value is of a form. -/
def Reader.Inspects {α : Type} (reader : Reader α) (form : Form) : Prop :=
  ∀ path v, (reader path v).Finds path v (form v)

/-- A reader settles whether a value is of a form. -/
def Reader.Accepts {α : Type} (reader : Reader α) (form : Form) : Prop :=
  ∀ path v, (reader path v).Settles path v (form v)

/-- A plan declares the fields of rules and finds whether they are obeyed. -/
structure Fields.Inspects {α : Type} (plan : Fields α) (rules : List FieldRule) : Prop where
  declared : plan.declared = rules.map FieldRule.name
  finds : ∀ path members, (plan.read path members).Finds path (.object members)
    (∀ rule ∈ rules, rule.Holds members)

/-- A plan declares the fields of rules, reads one field after the other and settles whether the
rules are obeyed. -/
structure Fields.Follows {α : Type} (plan : Fields α) (rules : List FieldRule) : Prop where
  declared : plan.declared = rules.map FieldRule.name
  settles : ∀ path members, (plan.read path members).Settles path (.object members)
    (∀ rule ∈ rules, rule.Holds members)
  steps : ∃ steps, plan.Takes steps ∧ ∀ step ∈ steps, step.ReadsField

/-- From what a reader of a form reports it can be told whether it has a result. -/
lemma Reader.Accepts.definite {α : Type} {reader : Reader α} {form : Form}
    (h : reader.Accepts form) : reader.Definite :=
  Reader.definite_of_fails fun path v => (h path v).definite

/-- A plan that follows rules inspects them. -/
lemma Fields.Follows.inspects {α : Type} {plan : Fields α} {rules : List FieldRule}
    (h : plan.Follows rules) : plan.Inspects rules where
  declared := h.declared
  finds path members := (h.settles path members).toFinds

/-! ## Scalars -/

namespace Reader

variable {α : Type}

/-- That a value has the wrong type settles what does not hold. -/
lemma wrongType_settles {expected : String} {path : Pointer} {v : Json} {P : Prop} (h : ¬ P) :
    (wrongType expected path v : Outcome α).Settles path v P :=
  Outcome.settles_fail h rfl rfl

/-- The reader of strings accepts them. -/
lemma string_accepts : Accepts string .string := by
  intro path v
  cases v with
  | string s => exact Outcome.settles_ok ⟨s, rfl, trivial⟩
  | _ => exact wrongType_settles (by simp [Form.string, Form.text])

/-- The reader of booleans accepts them. -/
lemma bool_accepts : Accepts bool .bool := by
  intro path v
  cases v with
  | bool b => exact Outcome.settles_ok ⟨b, rfl⟩
  | _ => exact wrongType_settles (by simp [Form.bool])

/-- The reader of numbers accepts them. -/
lemma number_accepts : Accepts number .number := by
  intro path v
  cases v with
  | number n => exact Outcome.settles_ok ⟨n, rfl⟩
  | _ => exact wrongType_settles (by simp [Form.number])

/-- The reader of objects accepts them, whatever their members. -/
lemma object_accepts : Accepts object .object := by
  intro path v
  cases v with
  | object members => exact Outcome.settles_ok ⟨members, rfl, fun _ _ => ⟨trivial, trivial⟩⟩
  | _ => exact wrongType_settles (by simp [Form.object, Form.mapOf])

/-- The reader of anything accepts every value. -/
lemma anything_accepts : Accepts anything .anything :=
  fun _ _ => Outcome.settles_ok trivial

/-- A reader that goes on with a string accepts the strings with which it goes on. -/
lemma andThen_accepts {next : Pointer → String → Outcome α} {P : String → Prop}
    (h : ∀ path s, (next path s).Settles path (.string s) (P s)) :
    Accepts (string.andThen next) (.text P) := by
  intro path v
  cases v with
  | string s => exact (h path s).iff (by simp [Form.text])
  | _ => exact wrongType_settles (by simp [Form.text])

/-- The reader of texts of a size accepts those within its bounds. -/
lemma sized_accepts {max : Option Nat} :
    Accepts (sized max) (.text fun s => 1 ≤ s.length ∧ ∀ n ∈ max, s.length ≤ n) := by
  apply andThen_accepts
  intro path s
  have accepted : (s.length = 0 || max.any fun max => max < s.length) = false ↔
      1 ≤ s.length ∧ ∀ n ∈ max, s.length ≤ n := by
    cases max with
    | none => simp [Nat.one_le_iff_ne_zero]
    | some max => simp [Nat.one_le_iff_ne_zero]
  rw [← accepted]
  simp only [String.length_toList]
  split_ifs with refused
  · exact Outcome.settles_fail (by simp only [refused, reduceCtorEq, not_false_eq_true]) rfl
      trivial
  · exact Outcome.settles_ok (by simpa only [Bool.not_eq_true] using refused)

/-- The reader of texts that must not be empty accepts those with a character. -/
lemma nonEmpty_accepts : Accepts nonEmpty .nonEmptyText := by
  have form : Form.nonEmptyText = .text fun s => 1 ≤ s.length ∧ ∀ n ∈ none, s.length ≤ n := by
    simp [Form.nonEmptyText]
  rw [form]
  exact sized_accepts

/-- The reader of short texts accepts 1 to 320 characters. -/
lemma short_accepts : Accepts short (.textOf 1 320) := by
  have form : Form.textOf 1 320 =
      .text fun s => 1 ≤ s.length ∧ ∀ n ∈ some maxShort, s.length ≤ n := by
    simp [Form.textOf, maxShort]
  rw [form]
  exact sized_accepts

/-- The reader of texts that pass a test accepts those with the property that the test decides. -/
lemma matching_accepts {test : String → Bool} {pattern : String} {P : String → Prop}
    (h : ∀ s, test s ↔ P s) : Accepts (matching test pattern) (.text P) := by
  apply andThen_accepts
  intro path s
  rw [← h s]
  split_ifs with accepted
  · exact Outcome.settles_ok accepted
  · exact Outcome.settles_fail accepted rfl trivial

/-- The reader of one of several names accepts the names. -/
lemma oneOf_accepts {choices : List (String × α)} :
    Accepts (oneOf choices) (.oneOf (choices.map Prod.fst)) := by
  apply andThen_accepts
  intro path s
  cases found : choices.lookup s with
  | none => exact Outcome.settles_fail (Members.get?_eq_none.mp found) rfl trivial
  | some choice =>
    exact Outcome.settles_ok
      (Members.get?_isSome.mp (Option.isSome_iff_exists.mpr ⟨choice, found⟩))

end Reader

end DialogueLint
