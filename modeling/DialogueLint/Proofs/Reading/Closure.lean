import DialogueLint.Proofs.Reading.Conformance

/-!
# Composite readers accept composite forms

Arrays, maps, plans for the fields of closed objects and objects told apart by their type: what is
known of the parts (`Reader.Accepts`, `Fields.Follows`) carries over to the whole. Only
`Fields.attempt`, which always has a result, leaves no more than an inspection behind.

Each composite form has one lemma, which says that the composite reader accepts the composite form
if the parts accept theirs. Plans carry their rules along as a list, in the order of the fields; a
closed object then adds that no other key is there, and variants look the rules up by type. The
lemmas on plans come twice, for inspections and for rules that are followed, since what only
inspects may have a result where it should not.
-/

namespace DialogueLint

namespace Reader

variable {α : Type} {reader : Reader α} {form : Form}

/-! ## Arrays -/

/-- The items of an array are read each at its own place. -/
lemma itemsFrom_eq_map {path : Pointer} {index : Nat} {values : List Json} :
    itemsFrom reader path index values =
      (values.zipIdx index).map fun item => reader (path.item item.2) item.1 := by
  induction values generalizing index with
  | nil => rfl
  | cons v values ih => simp only [itemsFrom, List.zipIdx_cons, List.map_cons, ih]

/-- What holds of all items of a list holds of them with their indices. -/
lemma forall_mem_zipIdx {P : Json → Prop} {values : List Json} :
    (∀ item ∈ values.zipIdx, P item.1) ↔ ∀ v ∈ values, P v := by
  constructor
  · intro h v mem
    obtain ⟨index, found⟩ := List.mem_iff_getElem?.mp mem
    exact h (v, index) (List.mem_zipIdx_iff_getElem?.mpr found)
  · intro h item mem
    exact h item.1 (List.mem_of_getElem? (List.mem_zipIdx_iff_getElem?.mp mem))

/-- Items are settled one by one, each at its place. -/
lemma Accepts.items (h : reader.Accepts form) (path : Pointer) (values : List Json) :
    (Reader.items reader path values).Settles path (.array values) (∀ v ∈ values, form v) := by
  refine (Outcome.settles_all itemsFrom_eq_map fun item mem => ?_).iff forall_mem_zipIdx
  exact (h (path.item item.2) item.1).item (List.mem_zipIdx_iff_getElem?.mp mem)

/-- A reader of arrays accepts the arrays whose items have the form. -/
lemma arrayOf_accepts {expected : String} (h : reader.Accepts form) :
    Accepts (arrayOf expected reader) (.arrayOf form) := by
  intro path v
  cases v with
  | array values => exact (h.items path values).iff (by simp [Form.arrayOf])
  | _ => exact wrongType_settles (by simp [Form.arrayOf])

/-! ## Maps -/

/-- Members are read, each at its own place, as keys of a kind with values of a form. -/
def AcceptsMembers (member : String → Reader α) (key : String → Prop) (form : Form) : Prop :=
  ∀ name (path : Pointer) v,
    (member name (path.push name) v).Settles (path.push name) v (key name ∧ form v)

/-- Members are read alike, whatever their keys. -/
lemma Accepts.members (h : reader.Accepts form) :
    AcceptsMembers (fun _ => reader) (fun _ => True) form :=
  fun _ _ v => (h _ v).iff (by simp)

/-- A key that fails its test is reported at its member as an unknown field. -/
lemma Accepts.keyed (h : reader.Accepts form) {test : String → Bool} {P : String → Prop}
    (decides : ∀ s, test s ↔ P s) : AcceptsMembers (Reader.keyed test reader) P form := by
  intro name path v
  have read := h (path.push name) v
  rw [← decides name]
  unfold Reader.keyed
  split_ifs with accepted
  · exact read.iff (by simp [accepted])
  · refine ⟨⟨by simp [accepted], List.forall_mem_cons.mpr ⟨?_, read.located⟩⟩, ?_⟩
    · exact Diagnostic.speaks_here ⟨by simp, rfl⟩
    · simpa [Diagnostic.kind, Problem.kind] using read.definite

/-- A reader of maps accepts the maps whose keys and values are as demanded. -/
lemma mapOf_accepts {expected : String} {member : String → Reader α} {key : String → Prop}
    (h : AcceptsMembers member key form) :
    Accepts (mapOf expected member) (.mapOf key form) := by
  intro path v
  cases v with
  | object members =>
    have each : ∀ m ∈ members, ((member m.1 (path.push m.1) m.2).map (m.1, ·)).Settles path
        (.object members) (key m.1 ∧ form m.2) :=
      fun m mem => ((h m.1 path m.2).member mem).map _
    exact (Outcome.settles_all rfl each).iff (by simp [Form.mapOf])
  | _ => exact wrongType_settles (by simp [Form.mapOf])

end Reader

/-! ## Plans -/

namespace Fields

variable {α β : Type} {plan : Fields α} {rules : List FieldRule}

section Inspects

/-- What is made of the result of a plan inspects what the plan inspects. -/
lemma Inspects.map (h : plan.Inspects rules) (f : α → β) : (f <$> plan).Inspects rules where
  declared := h.declared
  finds path members := ⟨(h.finds path members).clean, (h.finds path members).located⟩

/-- Plans one behind the other inspect the rules of both. -/
lemma Inspects.seq {first : Fields (α → β)} {more : List FieldRule} (hf : first.Inspects rules)
    (h : plan.Inspects more) : (first <*> plan).Inspects (rules ++ more) where
  declared := by
    rw [List.map_append, ← hf.declared, ← h.declared]
    rfl
  finds path members :=
    ((hf.finds path members).zipWith (h.finds path members) _).iff List.forall_mem_append.symm

/-- A required field is inspected by its rule, also if its value only is inspected. -/
lemma required_inspects {name : String} {reader : Reader α} {form : Form}
    (h : reader.Inspects form) : (required name reader).Inspects [.must name form] where
  declared := rfl
  finds path members := by
    simp only [List.forall_mem_singleton, required, FieldRule.Holds, FieldRule.must]
    cases found : Members.get? members name with
    | none =>
      have settles : (Outcome.fail path (.missingRequiredField name) : Outcome α).Settles path
          (.object members) (true = false) :=
        Outcome.settles_fail (by simp) rfl ⟨members, rfl, found⟩
      exact settles.toFinds
    | some v => exact (h (path.push name) v).member (Members.mem_of_get? found)

/-- An attempt inspects what the plan inspects, though it has a result in any case. -/
lemma Inspects.attempt (h : plan.Inspects rules) : plan.attempt.Inspects rules where
  declared := h.declared
  finds path members := ⟨(h.finds path members).clean, (h.finds path members).located⟩

end Inspects

/-- A plan that reads nothing has no rules to follow. -/
lemma pure_follows {a : α} : (pure a : Fields α).Follows [] where
  declared := rfl
  settles _ _ := Outcome.settles_ok (by simp)
  steps := ⟨[], .pure, by simp⟩

/-- What is made of the result of a plan follows the rules of the plan. -/
lemma Follows.map (h : plan.Follows rules) (f : α → β) : (f <$> plan).Follows rules where
  declared := h.declared
  settles path members := (h.settles path members).map f
  steps := by
    obtain ⟨steps, takes, fields⟩ := h.steps
    exact ⟨steps, takes.map, fields⟩

/-- Plans one behind the other follow the rules of both. -/
lemma Follows.seq {first : Fields (α → β)} {more : List FieldRule} (hf : first.Follows rules)
    (h : plan.Follows more) : (first <*> plan).Follows (rules ++ more) where
  declared := (hf.inspects.seq h.inspects).declared
  settles path members :=
    ((hf.settles path members).zipWith (h.settles path members) _).iff List.forall_mem_append.symm
  steps := by
    obtain ⟨steps, takes, fields⟩ := hf.steps
    obtain ⟨later, takesLater, laterFields⟩ := h.steps
    exact ⟨steps ++ later, takes.seq takesLater, List.forall_mem_append.mpr ⟨fields, laterFields⟩⟩

/-- A required field follows the rule that it must be there. -/
lemma required_follows {name : String} {reader : Reader α} {form : Form}
    (h : reader.Accepts form) : (required name reader).Follows [.must name form] where
  declared := rfl
  settles path members := by
    simp only [List.forall_mem_singleton, required, FieldRule.Holds, FieldRule.must]
    cases found : Members.get? members name with
    | none => exact Outcome.settles_fail (by simp) rfl ⟨members, rfl, found⟩
    | some v => exact (h (path.push name) v).member (Members.mem_of_get? found)
  steps := ⟨_, .required, List.forall_mem_singleton.mpr (.required h.definite)⟩

/-- An optional field follows the rule that it may be there. -/
lemma optional_follows {name : String} {reader : Reader α} {form : Form}
    (h : reader.Accepts form) : (optional name reader).Follows [.may name form] where
  declared := rfl
  settles path members := by
    simp only [List.forall_mem_singleton, optional, FieldRule.Holds, FieldRule.may]
    cases found : Members.get? members name with
    | none => exact Outcome.settles_ok trivial
    | some v => exact ((h (path.push name) v).member (Members.mem_of_get? found)).map some
  steps := ⟨_, .optional, List.forall_mem_singleton.mpr (.optional h.definite)⟩

/-! ## Closed objects -/

/-- No key is reported as undeclared exactly if all keys are declared. -/
lemma undeclared_eq_nil {declared : List String} {path : Pointer} {members : Members Json} :
    undeclared declared path members = [] ↔ ∀ key ∈ Members.keys members, key ∈ declared := by
  simp [undeclared, Members.keys, List.filter_eq_nil_iff]

/-- What is reported of undeclared keys speaks about their members, as of unknown fields. -/
lemma undeclared_located {declared : List String} {path : Pointer} {members : Members Json} :
    ∀ d ∈ undeclared declared path members,
      d.kind = .unknownField ∧ d.Speaks path (.object members) := by
  intro d mem
  obtain ⟨m, hm, rfl⟩ := List.mem_map.mp mem
  refine ⟨rfl, Diagnostic.Speaks.member ?_ (List.mem_filter.mp hm).1⟩
  exact Diagnostic.speaks_here ⟨by simp, rfl⟩

/-- Members make a closed object if they obey rules and have no keys but the declared ones. -/
def ClosedBy (rules : List FieldRule) (more : List String) (members : Members Json) : Prop :=
  (∀ rule ∈ rules, rule.Holds members) ∧
    ∀ key ∈ Members.keys members, key ∈ more ++ rules.map FieldRule.name

/-- An object is closed if its members are. -/
lemma closed_object {members : Members Json} :
    Form.closed rules (.object members) ↔ ClosedBy rules [] members := by
  simp [Form.closed, ClosedBy, and_comm]

/-- A closed object is inspected by the rules of its plan, and by its having no other keys. -/
lemma Inspects.close (h : plan.Inspects rules) (more : List String) (path : Pointer)
    (members : Members Json) :
    (plan.close more path members).Finds path (.object members) (ClosedBy rules more members) where
  clean := by
    rw [Fields.close, Outcome.adding, List.append_eq_nil_iff, (h.finds path members).clean,
      undeclared_eq_nil, h.declared]
    rfl
  located := List.forall_mem_append.mpr
    ⟨(h.finds path members).located, fun d mem => (undeclared_located d mem).2⟩

/-- A closed object is settled by the rules of its plan, and by its having no other keys. -/
lemma Follows.close (h : plan.Follows rules) (more : List String) (path : Pointer)
    (members : Members Json) :
    (plan.close more path members).Settles path (.object members)
      (ClosedBy rules more members) :=
  (h.settles path members).adding (by rw [undeclared_eq_nil, h.declared]) undeclared_located

/-- What is no object is no closed object. -/
lemma not_closed {v : Json} (h : ∀ members, v ≠ .object members) : ¬ Form.closed rules v := by
  rintro ⟨members, hv, -⟩
  exact h members hv

/-- A reader of objects by a plan that inspects rules inspects the closed form of the rules. -/
lemma Inspects.object (h : plan.Inspects rules) {expected : String} :
    (Fields.object expected plan).Inspects (.closed rules) := by
  intro path v
  cases v with
  | object members => exact (h.close [] path members).iff closed_object.symm
  | _ => exact (Reader.wrongType_settles (not_closed (by simp))).toFinds

/-- A reader of objects by a plan that follows rules accepts the closed form of the rules. -/
lemma Follows.object (h : plan.Follows rules) {expected : String} :
    (Fields.object expected plan).Accepts (.closed rules) := by
  intro path v
  cases v with
  | object members => exact (h.close [] path members).iff closed_object.symm
  | _ => exact Reader.wrongType_settles (not_closed (by simp))

/-- One of several keys is there, or its absence is reported. -/
lemma anyOf_settles {union : String} {names : List String} {path : Pointer}
    {members : Members Json} :
    ((anyOf union names).read path members).Settles path (.object members)
      (Form.withOneOf names (.object members)) := by
  have shown : Form.withOneOf names (.object members) ↔
      names.any (fun name => (Members.get? members name).isSome) := by
    simp [Form.withOneOf]
  rw [shown]
  simp only [anyOf]
  split_ifs with visible
  · exact Outcome.settles_ok visible
  · exact Outcome.settles_fail visible rfl trivial

/-- A closed object may be asked for one of several fields as well. -/
lemma Follows.object_anyOf (h : plan.Follows rules) {expected union : String}
    {names : List String} :
    (Fields.object expected (anyOf union names *> plan)).Accepts
      fun v => Form.closed rules v ∧ Form.withOneOf names v := by
  intro path v
  cases v with
  | object members =>
    have clean : undeclared (anyOf union names *> plan).declared path members = [] ↔
        ∀ key ∈ Members.keys members, key ∈ rules.map FieldRule.name := by
      rw [undeclared_eq_nil, ← h.declared]
      rfl
    refine (((anyOf_settles.map _).zipWith (h.settles path members) _).adding clean
      undeclared_located).iff ?_
    simp only [closed_object, ClosedBy, List.nil_append]
    tauto
  | _ => exact Reader.wrongType_settles fun both => not_closed (by simp) both.1

end Fields

/-- A reader of the closed objects of a form, which may be asked for one of several fields as well.
-/
inductive Reader.ReadsClosed : {α : Type} → Reader α → Form → Prop where
  | object {α : Type} {plan : Fields α} {rules} {expected} :
    plan.Follows rules →
    ReadsClosed (Fields.object expected plan) (.closed rules)
  | anyOf {α : Type} {plan : Fields α} {rules} {expected union names} :
    plan.Follows rules →
    ReadsClosed (Fields.object expected (Fields.anyOf union names *> plan))
      fun v => Form.closed rules v ∧ Form.withOneOf names v

/-- A reader of the closed objects of a form accepts the form. -/
lemma Reader.ReadsClosed.accepts {α : Type} {reader : Reader α} {form : Form}
    (h : reader.ReadsClosed form) : reader.Accepts form := by
  cases h with
  | object follows => exact follows.object
  | anyOf follows => exact follows.object_anyOf

/-! ## Variants -/

namespace Variants

open Fields

variable {α : Type} {variants : Variants α} {table : List (String × List FieldRule)}

/-- The types are those of a table, and the plan of each follows the rules of the table. -/
def Follows (variants : Variants α) (table : List (String × List FieldRule)) : Prop :=
  List.Forall₂ (fun plan entry => plan.1 = entry.1 ∧ plan.2.Follows entry.2) variants.plans table

/-- What a type calls for in the variants and in the table. -/
lemma Follows.lookup (h : variants.Follows table) (type : String) :
    (variants.plans.lookup type = none ∧ table.lookup type = none) ∨
      ∃ plan rules, variants.plans.lookup type = some plan ∧ table.lookup type = some rules ∧
        plan.Follows rules := by
  unfold Follows at h
  generalize variants.plans = plans at h
  induction h with
  | nil => exact .inl ⟨rfl, rfl⟩
  | @cons plan entry plans table hd tl ih =>
    obtain ⟨name, plan⟩ := plan
    obtain ⟨other, rules⟩ := entry
    obtain ⟨rfl, follows⟩ := hd
    -- both tables are looked up entry by entry
    simp only [List.lookup_cons]
    cases type == name with
    | true => exact .inr ⟨plan, rules, rfl, rfl, follows⟩
    | false => exact ih

/-- The field `type` holds a name exactly if it obeys the rule for it. -/
lemma type_holds {type : String} {members : Members Json} :
    (FieldRule.must "type" (.oneOf [type])).Holds members ↔
      Members.get? members "type" = some (.string type) := by
  simp only [FieldRule.Holds, FieldRule.must]
  cases Members.get? members "type" with
  | none => simp
  | some v => simp [Form.oneOf, Form.text]

/-- An object is one of a table, in which no type occurs twice, by the rules for its type. -/
lemma tagged_object (distinct : (table.map Prod.fst).Nodup) {members : Members Json} :
    Form.tagged table (.object members) ↔ ∃ type rules,
      Members.get? members "type" = some (.string type) ∧ table.lookup type = some rules ∧
        ClosedBy rules ["type"] members := by
  simp only [Form.tagged, closed_object, ClosedBy, List.forall_mem_cons, type_holds, Prod.exists]
  constructor
  · rintro ⟨type, rules, mem, ⟨htype, holds⟩, keys⟩
    exact ⟨type, rules, htype, Members.get?_of_mem distinct mem, holds, keys⟩
  · rintro ⟨type, rules, htype, found, holds, keys⟩
    exact ⟨type, rules, Members.mem_of_get? found, ⟨htype, holds⟩, keys⟩

/-- Members with a type are read by the rules for the type. -/
lemma Follows.readFields (h : variants.Follows table) {type : String} (path : Pointer)
    {members : Members Json} (htype : Members.get? members "type" = some (.string type)) :
    (variants.readFields type path members).Settles path (.object members)
      (∃ rules, table.lookup type = some rules ∧ ClosedBy rules ["type"] members) := by
  unfold Variants.readFields
  rcases h.lookup type with ⟨noPlan, noRules⟩ | ⟨plan, rules, found, known, follows⟩
  · simp only [noPlan, noRules]
    refine Outcome.Settles.member ?_ (Members.mem_of_get? htype)
    exact Outcome.settles_fail (by simp) rfl trivial
  · simp only [found]
    exact (follows.close ["type"] path members).iff (by simp [known])

/-- Objects are read by their type as the table says, if no type occurs twice in it. -/
lemma Follows.accepts (h : variants.Follows table) (distinct : (table.map Prod.fst).Nodup) :
    variants.read.Accepts (.tagged table) := by
  intro path v
  cases v with
  | object members =>
    rw [tagged_object distinct]
    simp only [Variants.read]
    cases htype : Members.get? members "type" with
    | none => exact Outcome.settles_fail (by simp) rfl ⟨members, rfl, htype⟩
    | some t =>
      cases t with
      | string type => exact (h.readFields path htype).iff (by simp)
      | _ => exact (Reader.wrongType_settles (by simp)).member (Members.mem_of_get? htype)
  | _ =>
    apply Reader.wrongType_settles
    rintro ⟨_, -, closed⟩
    exact not_closed (by simp) closed

end Variants

end DialogueLint
