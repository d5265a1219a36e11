import DialogueLint.Proofs.Diagnostic.Lines
import DialogueLint.Proofs.Json.Verbatim
import DialogueLint.Proofs.Reading.Closure

/-!
# Plain readers

A reader is plain if what it reports of an unbroken value repeats no line break. Composite readers
are plain if their parts are and if the fixed texts that they report, such as the names of fields,
have no line break.

For outcomes and readers the lemmas say that a combinator keeps its parts plain. For plans they are
equivalences where they can be, so that simplification takes a plan of any length apart into its
fields, and is left with the readers of the fields and with fixed names, which are checked by
evaluation. Values that are refused are quoted or described, and the description repeats keys only
(`Json.Unbroken.describe`).
-/

namespace DialogueLint

open Text

/-! ## Outcomes -/

namespace Outcome

variable {α β : Type} {o : Outcome α}

/-- No problem that was met repeats a line break. -/
def Plain (o : Outcome α) : Prop :=
  ∀ d ∈ o.diagnostics, d.problem.Plain

/-- Where nothing was met, nothing is repeated. -/
lemma plain_ok {a : α} : (ok a).Plain :=
  List.forall_mem_nil _

/-- A failure repeats what its problem repeats. -/
lemma plain_fail {path : Pointer} {problem : Problem} (h : problem.Plain) :
    (fail path problem : Outcome α).Plain :=
  List.forall_mem_singleton.mpr h

/-- Using a result in another way does not change what was met. -/
lemma Plain.map (h : o.Plain) {f : α → β} : (o.map f).Plain := h

/-- Plain diagnostics may be added. -/
lemma Plain.adding (h : o.Plain) {more : List Diagnostic} (hm : ∀ d ∈ more, d.problem.Plain) :
    (o.adding more).Plain :=
  List.forall_mem_append.mpr ⟨h, hm⟩

/-- Going on plainly behind a plain outcome is plain. -/
lemma Plain.andThen (h : o.Plain) {next : α → Outcome β} (hn : ∀ a, (next a).Plain) :
    (o.andThen next).Plain := by
  unfold Outcome.andThen
  split
  · exact List.forall_mem_append.mpr ⟨h, hn _⟩
  · exact h

/-- Plain outcomes are plain together. -/
lemma plain_all {outcomes : List (Outcome α)} (h : ∀ o ∈ outcomes, o.Plain) :
    (all outcomes).Plain := by
  unfold Plain
  rw [diagnostics_all]
  intro d mem
  obtain ⟨o, ho, hd⟩ := List.mem_flatMap.mp mem
  exact h o ho d hd

end Outcome

open Outcome

/-! ## Readers -/

namespace Reader

variable {α β : Type} {reader : Reader α}

/-- What is reported of an unbroken value repeats no line break. -/
def Plain (reader : Reader α) : Prop :=
  ∀ path v, v.Unbroken → (reader path v).Plain

/-- A value of the wrong type is described, behind what was expected. -/
lemma plain_wrongType {expected : String} (h : Unbroken expected) :
    (wrongType expected : Reader α).Plain := by
  intro path v unbroken
  exact plain_fail (unbroken_pair h unbroken.describe)

/-- What is no string is described. -/
@[simp] lemma plain_string : string.Plain := by
  intro path v unbroken
  cases v with
  | string s => exact plain_ok
  | _ => exact plain_wrongType (by decide) path _ unbroken

/-- A reader that goes on plainly with what it read is plain. -/
lemma Plain.andThen (h : reader.Plain) {next : Pointer → α → Outcome β}
    (hn : ∀ path a, (next path a).Plain) : (reader.andThen next).Plain :=
  fun path v unbroken => (h path v unbroken).andThen (hn path)

/-- Of a text of the wrong size, the size is repeated and not the text. -/
@[simp] lemma plain_sized {max : Option Nat} : (sized max).Plain := by
  refine plain_string.andThen fun path s => ?_
  simp only
  split_ifs
  · refine plain_fail (unbroken_pair ?_ ?_)
    · cases max with
      | none => decide
      | some max => simp +decide only [toString, unbroken_append, unbroken_repr]
    · simp +decide only [toString, unbroken_append, unbroken_repr]
  · exact plain_ok

/-- Of a text that must not be empty, nothing is repeated. -/
@[simp] lemma plain_nonEmpty : nonEmpty.Plain :=
  plain_sized

/-- Of a text that is too long, nothing is repeated. -/
@[simp] lemma plain_short : short.Plain :=
  plain_sized

/-- A text that fails its test is quoted, behind the pattern that was expected. -/
lemma plain_matching {test : String → Bool} {pattern : String} (h : Unbroken pattern) :
    (matching test pattern).Plain := by
  refine plain_string.andThen fun path s => ?_
  split_ifs
  · exact plain_ok
  · exact plain_fail (unbroken_pair h (unbroken_quote s))

/-- A text that is no key is quoted. -/
@[simp] lemma plain_key : key.Plain :=
  plain_matching (by decide)

/-- A text that is no place for a file is quoted. -/
@[simp] lemma plain_blob : blob.Plain :=
  plain_matching (by decide)

/-- What is no boolean is described. -/
@[simp] lemma plain_bool : bool.Plain := by
  intro path v unbroken
  cases v with
  | bool b => exact plain_ok
  | _ => exact plain_wrongType (by decide) path _ unbroken

/-- What is no number is described. -/
@[simp] lemma plain_number : number.Plain := by
  intro path v unbroken
  cases v with
  | number n => exact plain_ok
  | _ => exact plain_wrongType (by decide) path _ unbroken

/-- What is no object is described. -/
@[simp] lemma plain_object : object.Plain := by
  intro path v unbroken
  cases v with
  | object members => exact plain_ok
  | _ => exact plain_wrongType (by decide) path _ unbroken

/-- Of a value that may be anything, nothing is reported. -/
@[simp] lemma plain_anything : anything.Plain :=
  fun _ _ _ => plain_ok

/-- A name that is none of several is quoted, behind the list of them. -/
lemma plain_oneOf {choices : List (String × α)} (h : ∀ choice ∈ choices, Unbroken choice.1) :
    (oneOf choices).Plain := by
  refine plain_string.andThen fun path s => ?_
  split
  · exact plain_ok
  · have names : Unbroken (", ".intercalate (choices.map Prod.fst)) :=
      unbroken_intercalate (by decide) (List.forall_mem_map.mpr h)
    refine plain_fail (unbroken_pair ?_ (unbroken_quote s))
    simp +decide only [toString, unbroken_append, names]

/-! ## Arrays and maps -/

/-- Items are read one by one. -/
lemma Plain.items (h : reader.Plain) {values : List Json} (unbroken : (Json.array values).Unbroken)
    (path : Pointer) : (Reader.items reader path values).Plain := by
  refine plain_all ?_
  rw [itemsFrom_eq_map]
  refine List.forall_mem_map.mpr fun item mem => h _ _ (unbroken.item ?_)
  exact List.mem_of_getElem? (List.mem_zipIdx_iff_getElem?.mp mem)

/-- What is no array is described. -/
lemma plain_arrayOf {expected : String} (he : Unbroken expected) (h : reader.Plain) :
    (arrayOf expected reader).Plain := by
  intro path v unbroken
  cases v with
  | array values => exact h.items unbroken path
  | _ => exact plain_wrongType he path _ unbroken

/-- What is no object is described, and the members of one are read one by one. -/
lemma plain_mapOf {expected : String} (he : Unbroken expected) {member : String → Reader α}
    (h : ∀ key, Unbroken key → (member key).Plain) : (mapOf expected member).Plain := by
  intro path v unbroken
  cases v with
  | object members =>
    refine plain_all (List.forall_mem_map.mpr fun m mem => ?_)
    exact (h m.1 (unbroken.key mem) _ _ (unbroken.member mem)).map
  | _ => exact plain_wrongType he path _ unbroken

/-- A key that fails its test is repeated, and its value described. -/
lemma Plain.keyed (h : reader.Plain) {test : String → Bool} {key : String} (hk : Unbroken key) :
    (keyed test reader key).Plain := by
  intro path v unbroken
  unfold Reader.keyed
  refine List.forall_mem_append.mpr ⟨?_, h path v unbroken⟩
  split_ifs
  · exact List.forall_mem_nil _
  · exact List.forall_mem_singleton.mpr (unbroken_pair hk unbroken.describe)

end Reader

/-! ## Plans -/

namespace Fields

variable {α β : Type} {plan : Fields α} {reader : Reader α} {name : String}

/-- What a plan reports of an unbroken object repeats no line break. -/
def Plain (plan : Fields α) : Prop :=
  ∀ path members, (Json.object members).Unbroken → (plan.read path members).Plain

/-- A plan that reads nothing reports nothing. -/
@[simp] lemma plain_pure {a : α} : (pure a : Fields α).Plain :=
  fun _ _ _ => plain_ok

/-- A plan is plain if what is made of its result is. -/
@[simp] lemma plain_map {f : α → β} : (f <$> plan).Plain ↔ plan.Plain :=
  Iff.rfl

/-- Plans one behind the other are plain if both are. -/
@[simp] lemma plain_seq {first : Fields (α → β)} :
    (first <*> plan).Plain ↔ first.Plain ∧ plan.Plain := by
  have both : ∀ path members, ((first <*> plan).read path members).Plain ↔
      (first.read path members).Plain ∧ (plan.read path members).Plain :=
    fun _ _ => List.forall_mem_append
  simp only [Plain, both, forall_and]

/-- A plan that is read for what it reports only may stand in front of another one. -/
lemma Plain.seqRight {first : Fields β} (hf : first.Plain) (h : plan.Plain) :
    (first *> plan).Plain :=
  plain_seq.mpr ⟨hf, h⟩

/-- An attempt reports what its plan reports. -/
@[simp] lemma plain_attempt : plan.attempt.Plain ↔ plan.Plain :=
  Iff.rfl

/-- The name of a required field is repeated where the field is missing. -/
@[simp] lemma plain_required (hn : Unbroken name) (h : reader.Plain) :
    (required name reader).Plain := by
  intro path members unbroken
  simp only [required]
  split
  · rename_i found
    exact h _ _ (unbroken.get? found)
  · exact plain_fail (List.forall_mem_singleton.mpr hn)

/-- Of an optional field, nothing is reported where it is absent. -/
@[simp] lemma plain_optional (h : reader.Plain) : (optional name reader).Plain := by
  intro path members unbroken
  simp only [optional]
  split
  · rename_i found
    exact (h _ _ (unbroken.get? found)).map
  · exact plain_ok

/-- If none of several fields is there, their names are repeated. -/
lemma plain_anyOf {union : String} {keys : List String} (hu : Unbroken union)
    (hk : ∀ key ∈ keys, Unbroken key) : (anyOf union keys).Plain := by
  intro path members _
  have listed : Unbroken (", ".intercalate keys) := unbroken_intercalate (by decide) hk
  simp only [anyOf]
  split_ifs
  · exact plain_ok
  · refine plain_fail (unbroken_pair hu ?_)
    simp +decide only [unbroken_append, listed]

/-! ## Closed objects -/

/-- Of a closed object, the undeclared keys are repeated. -/
lemma Plain.close (h : plan.Plain) {members : Members Json}
    (unbroken : (Json.object members).Unbroken) (more : List String) (path : Pointer) :
    (plan.close more path members).Plain := by
  refine (h path members unbroken).adding (List.forall_mem_map.mpr fun m mem => ?_)
  have member := (List.mem_filter.mp mem).1
  exact unbroken_pair (unbroken.key member) (unbroken.member member).describe

/-- What is no object is described, and one that is has its fields read and its other keys repeated.
-/
lemma Plain.object (h : plan.Plain) {expected : String} (he : Unbroken expected) :
    (Fields.object expected plan).Plain := by
  intro path v unbroken
  cases v with
  | object members => exact h.close unbroken [] path
  | _ => exact Reader.plain_wrongType he path _ unbroken

end Fields

/-- Objects told apart by their types are read plainly if the plan for each type is plain. -/
lemma Variants.plain_read {α : Type} {variants : Variants α} (hu : Unbroken variants.union)
    (types : ∀ name ∈ variants.names, Unbroken name)
    (h : ∀ entry ∈ variants.plans, entry.2.Plain) : variants.read.Plain := by
  intro path v unbroken
  cases v with
  | object members =>
    simp only [read]
    split
    · rename_i type found
      simp only [readFields]
      split
      · rename_i plan known
        exact (h _ (Members.mem_of_get? known)).close unbroken ["type"] path
      · have listed : Unbroken (", ".intercalate variants.names) :=
          unbroken_intercalate (by decide) types
        refine plain_fail (unbroken_pair hu ?_)
        simp +decide only [toString, unbroken_append, unbroken_quote, listed]
    · rename_i found
      exact Reader.plain_wrongType (by decide) _ _ (unbroken.get? found)
    · exact plain_fail (List.forall_mem_singleton.mpr (by decide))
  | _ =>
    refine Reader.plain_wrongType ?_ path _ unbroken
    simp +decide only [toString, unbroken_append, hu]

end DialogueLint
