import DialogueLint.Proofs.Diagnostic.Regular
import DialogueLint.Proofs.Json.Member
import DialogueLint.Proofs.Reading.Closure

/-!
# Readers with regular findings

A reader is regular if its result does not depend on where the value stands and if what it finds is
regular, in values whose objects have each key once. Composite readers are regular if their parts
are: items and members stand at diverging places, and what a plan finds concerns the fields that it
declares.

The condition that no key occurs twice is needed where findings might meet: members with one key
would stand at one place, and would be reported twice there. Where a value stands is of no
importance for the result, and only moves what is found; this holds without the condition. A plan
says which fields it declares, and what it finds lies inside one of them or is about its absence
(`Diagnostic.Concerns`), so that two plans with different fields are apart, and an undeclared key is
apart from both.
-/

namespace DialogueLint

/-- The kinds of problems that a JSON value can have. -/
def Kind.OfValue (kind : Kind) : Prop := kind ≠ .malformedJson

/-- A problem of the form of a value: of its type, of its size or of the fields of objects. -/
def Kind.isOfForm : Kind → Bool
  | missingRequiredField | unknownField | invalidType => true
  | patternMismatch | cardinalityMismatch | variantNotMatched => true
  | _ => false

/-- A problem of the form is a problem that a value can have. -/
lemma Kind.ofValue_of_form {kind : Kind} (h : kind.isOfForm) : kind.OfValue := by
  rintro rfl
  cases h

/-! ## Outcomes -/

namespace Outcome

variable {α β γ : Type} {usual : Kind → Prop} {condition : Prop}

/-- The result does not depend on the place, and what is found is regular. -/
structure Regular (usual : Kind → Prop) (condition : Prop) (o : Pointer → Outcome α) : Prop where
  result : ∀ path, (o path).result? = (o .root).result?
  found : Findings.Regular usual condition fun path => (o path).diagnostics

variable {o : Pointer → Outcome α} {p : Pointer → Outcome β}

/-- Wherever the part stands, the outcome is that at the root, moved there. -/
lemma Regular.moves (h : Regular usual condition o) (path : Pointer) :
    o path = (o .root).below path := by
  have diagnostics := h.found.moves path
  have result := h.result path
  cases found : o path
  simp only [found] at diagnostics result
  simp only [Outcome.below, ← diagnostics, ← result]

/-- A stronger condition will do as well. -/
lemma Regular.imp {other : Prop} (h : Regular usual condition o) (imp : other → condition) :
    Regular usual other o where
  result := h.result
  found := h.found.imp imp

/-- A result without a report is regular. -/
lemma regular_ok {a : α} : Regular usual condition fun _ => ok a where
  result _ := rfl
  found := Findings.regular_nil

/-- A failure of a usual kind is regular. -/
lemma regular_fail {problem : Problem} (h : usual problem.kind) :
    Regular usual condition fun path => (fail path problem : Outcome α) where
  result _ := rfl
  found := Findings.regular_here h

/-- What is made of a result is regular if the outcome is. -/
lemma Regular.map (h : Regular usual condition o) (f : α → β) :
    Regular usual condition fun path => (o path).map f where
  result path := congrArg (Option.map f) (h.result path)
  found := h.found

/-- An outcome inside a part is regular if it is so by itself. -/
lemma Regular.inside (h : Regular usual condition o) (tokens : List String) :
    Regular usual condition fun path => o (path.join ⟨tokens⟩) where
  result path := (h.result (path.join ⟨tokens⟩)).trans (h.result _).symm
  found := h.found.inside tokens

/-- Two outcomes are regular together if what they find is apart. -/
lemma Regular.zipWith (h : Regular usual condition o) (hp : Regular usual condition p)
    (f : α → β → γ)
    (apart : condition → ∀ d ∈ (o .root).diagnostics, ∀ e ∈ (p .root).diagnostics, d.Apart e) :
    Regular usual condition fun path => .zipWith f (o path) (p path) where
  result path := by simp only [Outcome.zipWith, h.result path, hp.result path]
  found := h.found.append hp.found apart

/-- Regular findings may be added that are apart from the others. -/
lemma Regular.adding {more : Findings} (h : Regular usual condition o)
    (hm : more.Regular usual condition)
    (apart : condition → ∀ d ∈ (o .root).diagnostics, ∀ e ∈ more .root, d.Apart e) :
    Regular usual condition fun path => (o path).adding (more path) where
  result := h.result
  found := h.found.append hm apart

/-- The results of outcomes together depend on the result of each only. -/
lemma all_result_congr {ι : Type} {indices : List ι} {f g : ι → Outcome α}
    (same : ∀ i ∈ indices, (f i).result? = (g i).result?) :
    (all (indices.map f)).result? = (all (indices.map g)).result? := by
  induction indices with
  | nil => rfl
  | cons i indices ih =>
    obtain ⟨first, others⟩ := List.forall_mem_cons.mp same
    simp only [List.map_cons, all, Outcome.zipWith, first, ih others]

/-- Outcomes of several parts, one at each of several diverging places. -/
lemma regular_all {ι : Type} {parts : List ι} {place : ι → List String}
    (each : ι → Pointer → Outcome α) (h : ∀ i ∈ parts, Regular usual condition (each i))
    (diverge : condition → parts.Pairwise fun i j => Diverge (place i) (place j)) :
    Regular usual condition fun path =>
      all (parts.map fun i => each i (path.join ⟨place i⟩)) where
  result path := all_result_congr fun i mem => ((h i mem).inside (place i)).result path
  found := by
    simp only [diagnostics_all, List.flatMap_map]
    exact Findings.regular_parts (fun i mem => (h i mem).found) diverge

/-- What is found lies in the items from an index on, too. -/
def RegularFrom (index : Nat) (usual : Kind → Prop) (condition : Prop)
    (o : Pointer → Outcome α) : Prop :=
  Regular usual condition o ∧ Findings.From index fun path => (o path).diagnostics

/-- Items from an index on are regular if the first one and all later ones are. -/
lemma RegularFrom.cons {index : Nat} {rest : Pointer → Outcome (List α)}
    (later : RegularFrom (index + 1) usual condition rest) (h : Regular usual condition o) :
    RegularFrom index usual condition fun path =>
      .zipWith List.cons (o (path.item index)) (rest path) :=
  ⟨(h.inside [toString index]).zipWith later.1 _ fun _ => later.2.apart h.found,
    later.2.cons h.found⟩

end Outcome

/-- Wherever a value stands, a reader has the same result, and what it finds is regular if objects
have each key once. -/
def Reader.Regular {α : Type} (reader : Reader α) : Prop :=
  ∀ v, Outcome.Regular (·.isOfForm) v.WellFormed fun path => reader path v

/-! ## Scalars -/

namespace Reader

open Outcome

variable {α : Type} {reader : Reader α}

/-- That a value has the wrong type is reported where the value stands. -/
lemma wrongType_regular {expected : String} : Regular (wrongType expected : Reader α) :=
  fun _ => regular_fail rfl

/-- Reading a string is regular. -/
lemma string_regular : Regular string := by
  intro v
  cases v with
  | string s => exact regular_ok
  | _ => exact wrongType_regular _

/-- Reading a boolean is regular. -/
lemma bool_regular : Regular bool := by
  intro v
  cases v with
  | bool b => exact regular_ok
  | _ => exact wrongType_regular _

/-- Reading a number is regular. -/
lemma number_regular : Regular number := by
  intro v
  cases v with
  | number n => exact regular_ok
  | _ => exact wrongType_regular _

/-- Reading an object as it is is regular. -/
lemma object_regular : Regular object := by
  intro v
  cases v with
  | object members => exact regular_ok
  | _ => exact wrongType_regular _

/-- Reading anything is regular, for nothing is found. -/
lemma anything_regular : Regular anything :=
  fun _ => regular_ok

/-- A reader that goes on with a string is regular if what it goes on with is. -/
lemma andThen_regular {next : Pointer → String → Outcome α}
    (h : ∀ s, Outcome.Regular (·.isOfForm) (Json.string s).WellFormed fun path => next path s) :
    Regular (string.andThen next) := by
  intro v
  cases v with
  | string s => exact h s
  | _ => exact regular_fail rfl

/-- Reading a text of a size is regular. -/
lemma sized_regular {max : Option Nat} : Regular (sized max) := by
  apply andThen_regular
  intro s
  simp only
  split_ifs
  · exact regular_fail rfl
  · exact regular_ok

/-- Reading a text that has to pass a test is regular. -/
lemma matching_regular {test : String → Bool} {pattern : String} :
    Regular (matching test pattern) := by
  apply andThen_regular
  intro s
  split_ifs
  · exact regular_ok
  · exact regular_fail rfl

/-- Reading one of several names is regular. -/
lemma oneOf_regular {choices : List (String × α)} : Regular (oneOf choices) := by
  apply andThen_regular
  intro s
  cases choices.lookup s with
  | some choice => exact regular_ok
  | none => exact regular_fail rfl

/-! ## Arrays and maps -/

/-- Items with different indices stand at diverging places. -/
lemma diverge_items {values : List Json} {index : Nat} :
    (values.zipIdx index).Pairwise fun a b => Diverge [toString a.2] [toString b.2] := by
  have indices : ((values.zipIdx index).map Prod.snd).Nodup := by
    rw [List.zipIdx_map_snd]
    exact List.nodup_range'
  refine (List.pairwise_map.mp indices).imp fun different => ?_
  exact diverge_singleton fun same => different (toString_nat_injective same)

/-- The items of a well-formed array are well-formed. -/
lemma wellFormed_items {values : List Json} (wf : (Json.array values).WellFormed) :
    ∀ item ∈ values.zipIdx, item.1.WellFormed := by
  cases wf with
  | array each => exact forall_mem_zipIdx.mpr each

/-- Members with different keys stand at diverging places. -/
lemma diverge_members {members : Members Json} (wf : (Json.object members).WellFormed) :
    members.Pairwise fun a b => Diverge [a.1] [b.1] := by
  cases wf with
  | object ordered _ =>
    exact (List.pairwise_map.mp ordered.nodup).imp fun different => diverge_singleton different

/-- The values of a well-formed object are well-formed. -/
lemma wellFormed_members {members : Members Json} (wf : (Json.object members).WellFormed) :
    ∀ m ∈ members, m.2.WellFormed := by
  cases wf with
  | object _ each => exact each

/-- Items are read regularly, since they stand at diverging places. -/
lemma Regular.items (h : reader.Regular) (values : List Json) :
    Outcome.Regular (·.isOfForm) (Json.array values).WellFormed fun path =>
      Reader.items reader path values := by
  simp only [Reader.items, itemsFrom_eq_map]
  refine regular_all (fun item path => reader path item.1) ?_ fun _ => diverge_items
  intro item mem
  exact (h item.1).imp fun wf => wellFormed_items wf item mem

/-- Reading an array is regular if reading the items is. -/
lemma arrayOf_regular {expected : String} (h : reader.Regular) :
    Regular (arrayOf expected reader) := by
  intro v
  cases v with
  | array values => exact h.items values
  | _ => exact wrongType_regular _

/-- Reading a map is regular if reading the members is, whatever their keys. -/
lemma mapOf_regular {expected : String} {member : String → Reader α}
    (h : ∀ key, (member key).Regular) : Regular (mapOf expected member) := by
  intro v
  cases v with
  | object members =>
    refine regular_all (fun m path => (member m.1 path m.2).map (m.1, ·)) ?_ diverge_members
    intro m mem
    exact ((h m.1 m.2).imp fun wf => wellFormed_members wf m mem).map _
  | _ => exact wrongType_regular _

/-- A key that fails its test is reported besides what is found in the value, in which the key is
not reported again. -/
lemma keyed_regular {test : String → Bool} (h : reader.Regular)
    (known : ∀ v, ∀ d ∈ (reader .root v).diagnostics, d.kind ≠ .unknownField) (key : String) :
    Regular (keyed test reader key) := by
  intro v
  have read := h v
  unfold keyed
  split_ifs
  · exact read
  · refine ⟨read.result, (Findings.regular_here (by rfl)).append read.found ?_⟩
    intro _ d hd e he
    cases List.mem_singleton.mp hd
    exact Diagnostic.apart_of_kind (known v e he).symm

end Reader

/-! ## Plans -/

/-- A diagnostic concerns a field: it lies inside, or says that the field is missing. -/
def Diagnostic.Concerns (name : String) (d : Diagnostic) : Prop :=
  [name] <+: d.path.tokens ∨ (d.path = .root ∧ d.problem = .missingRequiredField name)

/-- Diagnostics that concern different fields are apart. -/
lemma Diagnostic.apart_of_concerns {name other : String} {d e : Diagnostic} (h : name ≠ other)
    (hd : d.Concerns name) (he : e.Concerns other) : d.Apart e := by
  cases hd with
  | inl inside =>
    cases he with
    | inl more => exact apart_of_diverge (diverge_singleton h) inside more
    | inr missing => exact apart_of_inside inside missing.1
  | inr missing =>
    cases he with
    | inl inside => exact (apart_of_inside inside missing.1).symm
    | inr more => exact fun _ _ => ⟨name, other, missing.2, more.2, h⟩

namespace Fields

open Outcome

variable {α β : Type} {plan : Fields α}

/-- What a plan finds is regular, and concerns the fields that the plan declares. -/
structure Regular (plan : Fields α) : Prop where
  read : ∀ members, Outcome.Regular (·.isOfForm)
    (plan.declared.Nodup ∧ ∀ m ∈ members, m.2.WellFormed) fun path => plan.read path members
  concerns : ∀ members, ∀ d ∈ (plan.read .root members).diagnostics,
    ∃ name ∈ plan.declared, d.Concerns name

/-- A plan that reads nothing is regular. -/
lemma pure_regular {a : α} : Regular (pure a) where
  read _ := regular_ok
  concerns _ := by simp [pure, Outcome.ok]

/-- What is made of the result of a plan is as regular as the plan. -/
lemma Regular.map (h : plan.Regular) (f : α → β) : Regular (f <$> plan) where
  read members := (h.read members).map f
  concerns := h.concerns

/-- Plans with different fields are regular one behind the other. -/
lemma Regular.seq {first : Fields (α → β)} (hf : first.Regular) (h : plan.Regular) :
    Regular (first <*> plan) where
  read members := by
    refine Outcome.Regular.zipWith ((hf.read members).imp ?_) ((h.read members).imp ?_) _ ?_
    · intro holds
      exact ⟨(List.nodup_append.mp holds.1).1, holds.2⟩
    · intro holds
      exact ⟨(List.nodup_append.mp holds.1).2.1, holds.2⟩
    · intro holds d hd e he
      obtain ⟨name, declared, concerns⟩ := hf.concerns members d hd
      obtain ⟨other, declares, concerned⟩ := h.concerns members e he
      have different := (List.nodup_append.mp holds.1).2.2 name declared other declares
      exact Diagnostic.apart_of_concerns different concerns concerned
  concerns members := by
    intro d mem
    cases List.mem_append.mp mem with
    | inl left =>
      obtain ⟨name, declared, concerns⟩ := hf.concerns members d left
      exact ⟨name, List.mem_append_left _ declared, concerns⟩
    | inr right =>
      obtain ⟨name, declared, concerns⟩ := h.concerns members d right
      exact ⟨name, List.mem_append_right _ declared, concerns⟩

/-- An attempt is as regular as its plan. -/
lemma Regular.attempt (h : plan.Regular) : plan.attempt.Regular where
  read members := ⟨fun path => congrArg some ((h.read members).result path), (h.read members).found⟩
  concerns := h.concerns

section Field

variable {reader : Reader α} {name : String} {members : Members Json} {v : Json}

/-- A field that is there is read inside the object. -/
lemma field_regular (h : reader.Regular) (found : Members.get? members name = some v)
    {declared : List String} :
    Outcome.Regular (·.isOfForm) (declared.Nodup ∧ ∀ m ∈ members, m.2.WellFormed) fun path =>
      reader (path.push name) v :=
  ((h v).inside [name]).imp fun holds => holds.2 _ (Members.mem_of_get? found)

/-- What is found in a field concerns it. -/
lemma field_concerns (h : reader.Regular) :
    ∀ d ∈ (reader (Pointer.root.push name) v).diagnostics,
      ∃ declared ∈ [name], d.Concerns declared :=
  fun d mem => ⟨name, List.mem_singleton_self _, .inl ((h v).found.within d mem)⟩

/-- A required field is missing, or what is found lies inside it. -/
lemma required_regular (h : reader.Regular) : Regular (required name reader) where
  read members := by
    simp only [required]
    cases found : Members.get? members name with
    | none => exact regular_fail rfl
    | some v => exact field_regular h found
  concerns members := by
    simp only [required]
    cases found : Members.get? members name with
    | none => exact List.forall_mem_singleton.mpr ⟨name, List.mem_singleton_self _, .inr ⟨rfl, rfl⟩⟩
    | some v => exact field_concerns h

/-- What is found in an optional field lies inside it. -/
lemma optional_regular (h : reader.Regular) : Regular (optional name reader) where
  read members := by
    simp only [optional]
    cases found : Members.get? members name with
    | none => exact regular_ok
    | some v => exact (field_regular h found).map some
  concerns members := by
    simp only [optional]
    cases found : Members.get? members name with
    | none => simp [Outcome.ok]
    | some v => exact field_concerns h

end Field

/-! ## Closed objects -/

/-- Undeclared keys are reported once each. -/
lemma undeclared_regular {declared : List String} {members : Members Json} :
    Findings.Regular (·.isOfForm) (Json.object members).WellFormed fun path =>
      undeclared declared path members := by
  simp only [undeclared, List.map_eq_flatMap]
  apply Findings.regular_parts (fun m _ => Findings.regular_here (by rfl))
  intro wf
  exact (Reader.diverge_members wf).filter _

/-- A closed object is regular if what is found in its fields is, and lies in them or at the object
itself. -/
lemma close_regular {members : Members Json} (more : List String)
    (read : Outcome.Regular (·.isOfForm)
      (plan.declared.Nodup ∧ ∀ m ∈ members, m.2.WellFormed) fun path => plan.read path members)
    (placed : ∀ d ∈ (plan.read .root members).diagnostics,
      d.path = .root ∨ ∃ name ∈ plan.declared, [name] <+: d.path.tokens)
    (distinct : plan.declared.Nodup) :
    Outcome.Regular (·.isOfForm) (Json.object members).WellFormed fun path =>
      plan.close more path members := by
  refine (read.imp fun wf => ⟨distinct, Reader.wellFormed_members wf⟩).adding
    undeclared_regular ?_
  intro _ d hd e he
  obtain ⟨m, mem, rfl⟩ := List.mem_map.mp he
  cases placed d hd with
  | inl here => exact (Diagnostic.apart_of_inside (List.prefix_refl [m.1]) here).symm
  | inr inside =>
    -- the key of a field is declared, those reported are not
    obtain ⟨name, declared, inside⟩ := inside
    apply Diagnostic.apart_of_path
    intro same
    have key : name = m.1 := by simpa [same, Pointer.push, Pointer.root] using inside
    have undeclared := (List.mem_filter.mp mem).2
    simp [← key, declared] at undeclared

/-- What a plan finds is about the object itself, or lies inside a declared field. -/
lemma Regular.placed (h : plan.Regular) {members : Members Json} :
    ∀ d ∈ (plan.read .root members).diagnostics,
      d.path = .root ∨ ∃ name ∈ plan.declared, [name] <+: d.path.tokens := by
  intro d mem
  obtain ⟨name, declared, concerns⟩ := h.concerns members d mem
  cases concerns with
  | inl inside => exact .inr ⟨name, declared, inside⟩
  | inr missing => exact .inl missing.1

/-- Reading a closed object is regular if its plan is, and if no field is declared twice. -/
lemma Regular.object (h : plan.Regular) {expected : String} (distinct : plan.declared.Nodup) :
    (Fields.object expected plan).Regular := by
  intro v
  cases v with
  | object members => exact close_regular [] (h.read members) h.placed distinct
  | _ => exact Reader.wrongType_regular _

/-- A closed object may be asked for one of several fields as well. -/
lemma Regular.object_anyOf (h : plan.Regular) {expected union : String} {names : List String}
    (distinct : plan.declared.Nodup) :
    (Fields.object expected (anyOf union names *> plan)).Regular := by
  intro v
  cases v with
  | object members =>
    have shown : Outcome.Regular (·.isOfForm) (plan.declared.Nodup ∧ ∀ m ∈ members, m.2.WellFormed)
        fun path => (anyOf union names).read path members := by
      simp only [anyOf]
      split_ifs
      · exact regular_ok
      · exact regular_fail rfl
    -- the demand for one of several fields reports at the object itself, and of a kind of its own
    have alone : ∀ d ∈ ((anyOf union names).read .root members).diagnostics,
        d.path = .root ∧ d.kind = .variantNotMatched := by
      simp only [anyOf]
      split_ifs
      · simp [Outcome.ok]
      · exact List.forall_mem_singleton.mpr ⟨rfl, rfl⟩
    have read := (shown.map (Function.const Unit id)).zipWith (h.read members)
      (fun (f : α → α) a => f a) ?_
    · refine close_regular [] read ?_ distinct
      exact List.forall_mem_append.mpr ⟨fun d mem => .inl (alone d mem).1, h.placed⟩
    · intro _ d hd e he
      obtain ⟨name, declared, concerns⟩ := h.concerns members e he
      -- a step reports inside its field, or that the field is missing
      cases concerns with
      | inl inside => exact (Diagnostic.apart_of_inside inside (alone d hd).1).symm
      | inr missing =>
        apply Diagnostic.apart_of_kind
        rw [(alone d hd).2, Diagnostic.kind, missing.2]
        rintro ⟨⟩
  | _ => exact Reader.wrongType_regular _

end Fields

/-! ## Variants -/

/-- Objects told apart by their type are regular if the plan for each type is. -/
lemma Variants.read_regular {α : Type} {variants : Variants α}
    (h : ∀ entry ∈ variants.plans, entry.2.Regular ∧ entry.2.declared.Nodup) :
    variants.read.Regular := by
  intro v
  cases v with
  | object members =>
    simp only [read]
    cases Members.get? members "type" with
    | none => exact Outcome.regular_fail rfl
    | some t =>
      cases t with
      | string type =>
        simp only [readFields]
        cases found : variants.plans.lookup type with
        | none => exact (Outcome.regular_fail (by rfl)).inside ["type"]
        | some plan =>
          obtain ⟨regular, distinct⟩ := h _ (Members.mem_of_get? found)
          exact Fields.close_regular ["type"] (regular.read members) regular.placed distinct
      | _ => exact (Outcome.regular_fail (by rfl)).inside ["type"]
  | _ => exact Reader.wrongType_regular _

end DialogueLint
