import DialogueLint.Proofs.Json.Entry
import DialogueLint.Proofs.Reading.Clean

/-!
# Reading loses nothing

A reader is restored by a way of writing if every value that it reads without a report is written
again from the result (`Reader.Restores`). For the plan of a closed object, the entries for its
fields are written again (`Fields.Keeps`).

Only values that are read without a report are spoken of, so that the lemmas need not say what is
written of a faulty value. For plans the result is compared with the entries that the declared keys
find in the members; since nothing was reported, there are no other keys, and members in order are
determined by what their keys find. Variants add the field for the type in front.
-/

namespace DialogueLint

/-- An outcome without a report has one result. -/
lemma Outcome.ok_inj {α : Type} {a b : α} : ok a = ok b ↔ a = b := by
  simp [ok]

namespace Reader

variable {α : Type} {reader : Reader α} {write : α → Json}

/-- Whatever is read without a report is written as the value that was read. -/
def Restores (reader : Reader α) (write : α → Json) : Prop :=
  ∀ path v a, v.WellFormed → reader path v = .ok a → write a = v

/-! ## Scalars -/

/-- A string is written as it was read. -/
lemma string_restores : Restores string .string := by
  intro path v a _ read
  cases v with
  | string s => exact congrArg Json.string (Outcome.ok_inj.mp read).symm
  | _ => exact absurd read Outcome.fail_ne_ok

/-- A boolean is written as it was read. -/
lemma bool_restores : Restores bool .bool := by
  intro path v a _ read
  cases v with
  | bool b => exact congrArg Json.bool (Outcome.ok_inj.mp read).symm
  | _ => exact absurd read Outcome.fail_ne_ok

/-- A number is written as it was read. -/
lemma number_restores : Restores number .number := by
  intro path v a _ read
  cases v with
  | number n => exact congrArg Json.number (Outcome.ok_inj.mp read).symm
  | _ => exact absurd read Outcome.fail_ne_ok

/-- An object is written with the members that were read. -/
lemma object_restores : Restores object .object := by
  intro path v a _ read
  cases v with
  | object members => exact congrArg Json.object (Outcome.ok_inj.mp read).symm
  | _ => exact absurd read Outcome.fail_ne_ok

/-- A value that may be anything is kept as it is. -/
lemma anything_restores : Restores anything id :=
  fun _ _ _ _ read => (Outcome.ok_inj.mp read).symm

/-- A reader that goes on with a string restores it if what follows does. -/
lemma andThen_restores {next : Pointer → String → Outcome α}
    (h : ∀ path s a, next path s = .ok a → write a = .string s) :
    Restores (string.andThen next) write := by
  intro path v a _ read
  cases v with
  | string s =>
    -- behind a string nothing was reported yet
    exact h path s a read
  | _ => exact absurd read Outcome.fail_ne_ok

/-- A text of a size is written as it was read. -/
lemma sized_restores {max : Option Nat} : Restores (sized max) .string := by
  refine andThen_restores fun path s a read => ?_
  simp only at read
  split_ifs at read
  · exact absurd read Outcome.fail_ne_ok
  · exact congrArg Json.string (Outcome.ok_inj.mp read).symm

/-- A text that passed a test is written as it was read. -/
lemma matching_restores {test : String → Bool} {pattern : String} :
    Restores (matching test pattern) .string := by
  refine andThen_restores fun path s a read => ?_
  split_ifs at read
  · exact congrArg Json.string (Outcome.ok_inj.mp read).symm
  · exact absurd read Outcome.fail_ne_ok

/-- A choice is restored from its name, if the table lists each choice under its name. -/
lemma oneOf_restores {choices : List (String × α)} {name : α → String}
    (named : ∀ choice ∈ choices, name choice.2 = choice.1) :
    Restores (oneOf choices) fun a => .string (name a) := by
  refine andThen_restores fun path s a read => ?_
  cases found : choices.lookup s with
  | none =>
    rw [found] at read
    exact absurd read Outcome.fail_ne_ok
  | some choice =>
    rw [found] at read
    rw [← Outcome.ok_inj.mp read]
    exact congrArg Json.string (named _ (Members.mem_of_get? found))

/-! ## Arrays and maps -/

/-- If each item is written in a form of its own, so is the array. -/
lemma items_restore {form : Json → Json} {path : Pointer} {values : List Json} {index : Nat}
    {as : List α} (wf : ∀ v ∈ values, v.WellFormed)
    (h : ∀ path v a, v.WellFormed → reader path v = .ok a → write a = form v)
    (read : itemsFrom reader path index values = as.map .ok) : as.map write = values.map form := by
  induction values generalizing index as with
  | nil =>
    rw [List.map_eq_nil_iff.mp read.symm]
    rfl
  | cons v values ih =>
    obtain ⟨first, rest⟩ := List.forall_mem_cons.mp wf
    cases as with
    | nil => cases read
    | cons a as =>
      obtain ⟨head, tail⟩ := List.cons.inj read
      rw [List.map_cons, List.map_cons, h _ v a first head, ih rest tail]

/-- Items that are read without a report are read alike in a form that is read alike. -/
lemma itemsFrom_map {form : Json → Json} {path : Pointer}
    {values : List Json} {index : Nat} {as : List α} (wf : ∀ v ∈ values, v.WellFormed)
    (h : ∀ path v a, v.WellFormed → reader path v = .ok a → reader path (form v) = .ok a)
    (read : itemsFrom reader path index values = as.map .ok) :
    itemsFrom reader path index (values.map form) = as.map .ok := by
  induction values generalizing index as with
  | nil => exact read
  | cons v values ih =>
    obtain ⟨first, rest⟩ := List.forall_mem_cons.mp wf
    cases as with
    | nil => cases read
    | cons a as =>
      obtain ⟨head, tail⟩ := List.cons.inj read
      simp only [List.map_cons, itemsFrom, h _ v a first head, ih rest tail]

/-- An array is written item by item. -/
lemma Restores.arrayOf (h : reader.Restores write) {expected : String} :
    Restores (arrayOf expected reader) fun as => .array (as.map write) := by
  intro path v as wf read
  cases v with
  | array values =>
    cases wf with
    | array each =>
      have same : as.map write = values.map id := items_restore each h (Outcome.all_eq_ok.mp read)
      exact congrArg Json.array (same.trans (List.map_id values))
  | _ => exact absurd read Outcome.fail_ne_ok

/-- A map is restored if its members are. -/
lemma mapOf_restores {expected : String} {member : String → Reader α}
    (h : ∀ name, (member name).Restores write) :
    Restores (mapOf expected member) fun as => .object (as.map fun m => (m.1, write m.2)) := by
  intro path v as wf read
  cases v with
  | object members =>
    cases wf with
    | object ordered each =>
      have items := Outcome.all_eq_ok.mp read
      refine congrArg Json.object ?_
      clear read ordered
      induction members generalizing as with
      | nil =>
        rw [List.map_eq_nil_iff.mp items.symm]
        rfl
      | cons m members ih =>
        obtain ⟨first, rest⟩ := List.forall_mem_cons.mp each
        cases as with
        | nil => cases items
        | cons a as =>
          obtain ⟨head, tail⟩ := List.cons.inj items
          obtain ⟨x, hx, rfl⟩ := Outcome.map_eq_ok.mp head
          rw [List.map_cons, h m.1 _ m.2 x first hx, ih as rest tail]
  | _ => exact absurd read Outcome.fail_ne_ok

/-- A test of keys adds nothing to what is read. -/
lemma Restores.keyed (h : reader.Restores write) {test : String → Bool} {key : String} :
    Restores (keyed test reader key) write := by
  intro path v a wf read
  obtain ⟨result, clean⟩ := Outcome.eq_ok_iff.mp read
  exact h path v a wf (Outcome.eq_ok_iff.mpr ⟨result, (List.append_eq_nil_iff.mp clean).2⟩)

end Reader

/-! ## Plans -/

namespace Fields

variable {α β : Type} {plan : Fields α} {path : Pointer} {members : Members Json}
  {reader : Reader α} {write : α → Json} {name : String}

/-- What is read from members without a report, and with it the entries of the members at the
declared keys, have a property. -/
def Keeps (plan : Fields α) (path : Pointer) (members : Members Json)
    (P : α → Entries → Prop) : Prop :=
  ∀ a, plan.read path members = .ok a → P a (members.entriesAt plan.declared)

/-- A plan that reads nothing leaves no entries. -/
lemma pure_keeps {a : α} {P : α → Entries → Prop} (h : P a []) :
    (pure a : Fields α).Keeps path members P :=
  fun _ read => Outcome.ok_inj.mp read ▸ h

/-- What is made of a result keeps a property if the result keeps it through the function. -/
lemma keeps_map {f : α → β} {P : β → Entries → Prop} :
    (f <$> plan).Keeps path members P ↔ plan.Keeps path members fun a => P (f a) := by
  constructor
  · exact fun h a read => h (f a) (Outcome.map_eq_ok.mpr ⟨a, read, rfl⟩)
  · intro h b read
    obtain ⟨a, ha, rfl⟩ := Outcome.map_eq_ok.mp read
    exact h a ha

/-- Two plans leave the entries of the first and then those of the second. -/
lemma keeps_seq {first : Fields (α → β)} {P : β → Entries → Prop} :
    (first <*> plan).Keeps path members P ↔ first.Keeps path members fun f entries =>
      plan.Keeps path members fun a more => P (f a) (entries ++ more) := by
  have entries : members.entriesAt (first <*> plan).declared =
      members.entriesAt first.declared ++ members.entriesAt plan.declared := List.map_append
  simp only [Keeps, entries]
  constructor
  · exact fun h f hf a ha => h (f a) (Outcome.zipWith_eq_ok.mpr ⟨f, a, hf, ha, rfl⟩)
  · intro h b read
    obtain ⟨f, a, hf, ha, rfl⟩ := Outcome.zipWith_eq_ok.mp read
    exact h f hf a ha

/-- A required field is read without a report if its key finds a value that is. -/
lemma required_eq_ok {a : α} : (required name reader).read path members = .ok a ↔
    ∃ v, members.get? name = some v ∧ reader (path.push name) v = .ok a := by
  simp only [required]
  cases members.get? name with
  | none => simp [Outcome.fail_ne_ok]
  | some v => simp

/-- An optional field is read without a report if it is absent, or if its key finds a value that is.
-/
lemma optional_eq_ok {a? : Option α} : (optional name reader).read path members = .ok a? ↔
    (members.get? name = none ∧ a? = none) ∨
      ∃ v a, members.get? name = some v ∧ reader (path.push name) v = .ok a ∧ a? = some a := by
  simp only [optional]
  cases members.get? name with
  | none => simp [Outcome.ok_inj, eq_comm]
  | some v =>
    simp only [Outcome.map_eq_ok, reduceCtorEq, false_and, false_or, Option.some.injEq,
      exists_and_left, exists_eq_left', @eq_comm _ a?]

/-- A field that has to be there is written as the value at its key. -/
lemma get?_of_required (h : reader.Restores write) (wf : (Json.object members).WellFormed) {a : α}
    (read : (required name reader).read path members = .ok a) :
    members.get? name = some (write a) := by
  obtain ⟨v, found, hv⟩ := required_eq_ok.mp read
  rw [found, h _ v a (wf.of_get? found) hv]

/-- A field that may be absent is written as what its key finds, if anything. -/
lemma get?_of_optional (h : reader.Restores write) (wf : (Json.object members).WellFormed)
    {a? : Option α} (read : (optional name reader).read path members = .ok a?) :
    members.get? name = a?.map write := by
  cases optional_eq_ok.mp read with
  | inl absent => rw [absent.1, absent.2, Option.map_none]
  | inr present =>
    obtain ⟨v, a, found, hv, rfl⟩ := present
    rw [found, Option.map_some, h _ v a (wf.of_get? found) hv]

/-- A required field leaves the entry of its value. -/
lemma required_keeps (h : reader.Restores write) (wf : (Json.object members).WellFormed)
    {P : α → Entries → Prop} (rest : ∀ a, P a [(name, some (write a))]) :
    (required name reader).Keeps path members P := by
  intro a read
  have entry : members.entriesAt [name] = [(name, some (write a))] := by
    simp [Members.entriesAt, get?_of_required h wf read]
  exact entry ▸ rest a

/-- An optional field leaves an entry with a value if it is there. -/
lemma optional_keeps (h : reader.Restores write) (wf : (Json.object members).WellFormed)
    {P : Option α → Entries → Prop} (rest : ∀ a?, P a? [(name, a?.map write)]) :
    (optional name reader).Keeps path members P := by
  intro a? read
  have entry : members.entriesAt [name] = [(name, a?.map write)] := by
    simp [Members.entriesAt, get?_of_optional h wf read]
  exact entry ▸ rest a?

/-- A demand for one of several fields adds nothing to what is read. -/
lemma anyOf_keeps {union : String} {names : List String} {P : α → Entries → Prop}
    (h : plan.Keeps path members P) : (anyOf union names *> plan).Keeps path members P := by
  intro a read
  obtain ⟨f, x, hf, hx, rfl⟩ := Outcome.zipWith_eq_ok.mp read
  obtain ⟨_, _, rfl⟩ := Outcome.map_eq_ok.mp hf
  exact h x hx

/-- A closed object is written from the entries for its fields. -/
lemma ofEntries_of_close {entries : α → Entries} (more : List String) {a : α}
    (wf : (Json.object members).WellFormed) (distinct : (more ++ plan.declared).Nodup)
    (keeps : plan.Keeps path members fun a es => entries a = es)
    (read : plan.close more path members = .ok a) :
    Json.ofEntries (members.entriesAt more ++ entries a) = .object members := by
  obtain ⟨found, closed⟩ := close_eq_ok.mp read
  cases wf with
  | object ordered _ =>
    rw [keeps a found, Members.entriesAt, Members.entriesAt, ← List.map_append]
    exact Json.ofEntries_entriesAt ordered distinct closed

/-- A closed object is restored by the entries for its fields. -/
lemma closed_restores {expected : String} {entries : α → Entries}
    (keeps : ∀ path members, (Json.object members).WellFormed →
      plan.Keeps path members fun a es => entries a = es)
    (distinct : plan.declared.Nodup) :
    (object expected plan).Restores fun a => .ofEntries (entries a) := by
  intro path v a wf read
  cases v with
  | object members => exact ofEntries_of_close [] wf distinct (keeps path members wf) read
  | _ => exact absurd read Outcome.fail_ne_ok

end Fields

/-! ## Variants -/

namespace Variants

variable {α : Type} {variants : Variants α} {path : Pointer} {v : Json} {a : α}

/-- An object is read by its type without a report if the plan for the type reads it so. -/
lemma read_eq_ok : variants.read path v = .ok a ↔
    ∃ (members : Members Json) (type : String) (plan : Fields α), v = .object members ∧
      members.get? "type" = some (.string type) ∧
        variants.plans.lookup type = some plan ∧ plan.close ["type"] path members = .ok a := by
  cases v with
  | object members =>
    simp only [read, Json.object.injEq]
    cases htype : Members.get? members "type" with
    | none => simp [htype, Outcome.fail_ne_ok]
    | some t =>
      cases t with
      | string type =>
        simp only [readFields]
        cases found : variants.plans.lookup type with
        | none => simp [htype, found, Outcome.fail_ne_ok]
        | some plan => simp [htype, found]
      | _ => simp [htype, Reader.wrongType, Outcome.fail_ne_ok]
  | _ => simp [read, Reader.wrongType, Outcome.fail_ne_ok]

/-- An object is written from its type and the entries for the fields of the type. -/
lemma ofEntries_of_read {typeName : α → String} {entries : α → Entries} (wf : v.WellFormed)
    (each : ∀ members : Members Json, v = .object members → ∀ plan ∈ variants.plans,
      members.get? "type" = some (.string plan.1) → ("type" :: plan.2.declared).Nodup ∧
        plan.2.Keeps path members fun a es => typeName a = plan.1 ∧ entries a = es)
    (read : variants.read path v = .ok a) :
    .ofEntries (("type", some (.string (typeName a))) :: entries a) = v := by
  obtain ⟨members, type, plan, rfl, htype, found, closed⟩ := read_eq_ok.mp read
  obtain ⟨distinct, keeps⟩ := each members rfl _ (Members.mem_of_get? found) htype
  have named : typeName a = type := (keeps a (Fields.close_eq_ok.mp closed).1).1
  have fields : plan.Keeps path members fun a es => entries a = es := fun a read => (keeps a read).2
  have whole := Fields.ofEntries_of_close ["type"] wf distinct fields closed
  rw [named, ← htype]
  exact whole

end Variants

end DialogueLint
