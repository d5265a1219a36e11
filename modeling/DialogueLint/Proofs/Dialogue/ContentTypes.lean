import DialogueLint.Proofs.Dialogue.Conformance
import DialogueLint.Proofs.Dialogue.Restoration

/-!
# Lists of content types

Content types are read one by one, with a list of those seen so far. What is said about an item is
what its index and the items in front of it tell (`readFrom_diagnostics`): the list of those seen is
that of the strings in front (`precedes_succ`), whatever other items stand between them. There is a
result if no item is complained of, and it is the list itself (`contentTypes_exact`).

The invariant of the loop says which strings were seen before an index: those that stand at a
smaller index of the whole list. It is carried through the items by induction, with the items read
so far kept as a prefix of the list, so that what is said about an item can be stated by index
alone.
-/

namespace DialogueLint.ContentTypes

/-- The string at an index of a list. -/
def textAt? (items : List Json) (index : Nat) : Option String :=
  match items[index]? with
  | some (.string text) => some text
  | _ => none

/-- A string stands at a smaller index than the given one. -/
def Precedes (items : List Json) (index : Nat) (text : String) : Prop :=
  ∃ i < index, textAt? items i = some text

instance {items : List Json} {index : Nat} {text : String} :
    Decidable (Precedes items index text) :=
  inferInstanceAs (Decidable (∃ i < index, textAt? items i = some text))

/-- What there is to say about the item at an index of a list: it is no string, or it is one that
stands at a smaller index too. -/
def complaint (path : Pointer) (items : List Json) (index : Nat) : Json → List Diagnostic
  | .string text =>
    if Precedes items index text then
      [⟨path.item index, .cardinalityMismatch "unique content types"
        (Text.quote text ++ " more than once")⟩]
    else []
  | other => [⟨path.item index, .invalidType "a string" other.describe⟩]

section Items

variable {path : Pointer} {items values : List Json} {index : Nat} {text : String} {v : Json}

/-- There is a string at an index exactly if the item there is that string. -/
lemma textAt?_eq_some : textAt? items index = some text ↔ items[index]? = some (.string text) := by
  unfold textAt?
  split
  · rename_i found
    rw [found, Option.some.injEq, Option.some.injEq, Json.string.injEq]
  · rename_i other
    exact ⟨nofun, fun found => absurd found (other text)⟩

/-- The strings in front of the next index are those in front of this one, and the one here. -/
lemma precedes_succ (found : items[index]? = some v) :
    Precedes items (index + 1) text ↔ v = .string text ∨ Precedes items index text := by
  unfold Precedes
  rw [Nat.exists_lt_succ_right, textAt?_eq_some, found, Option.some.injEq, or_comm]

/-- An item that is no string leaves the strings seen as they are. -/
lemma readFrom_other {seen : List String} (other : ∀ text, v ≠ .string text) :
    readFrom path index seen (v :: values) =
      .fail (path.item index) (.invalidType "a string" v.describe) ::
        readFrom path (index + 1) seen values := by
  cases v with
  | string text => exact absurd rfl (other text)
  | null | bool _ | number _ | array _ | object _ => rfl

/-- What is no string is complained of as such. -/
lemma complaint_other (other : ∀ text, v ≠ .string text) :
    complaint path items index v = [⟨path.item index, .invalidType "a string" v.describe⟩] := by
  cases v with
  | string text => exact absurd rfl (other text)
  | null | bool _ | number _ | array _ | object _ => rfl

/-- The strings seen are those in front of an index, and so what is said of an item is what the
items in front of it tell. -/
lemma readFrom_diagnostics {seen : List String}
    (known : ∀ text, text ∈ seen ↔ Precedes items index text)
    (behind : ∀ i v, values[i]? = some v → items[index + i]? = some v) :
    (readFrom path index seen values).flatMap Outcome.diagnostics =
      (values.zipIdx index).flatMap fun item => complaint path items item.2 item.1 := by
  induction values generalizing index seen with
  | nil => rfl
  | cons v values ih =>
    have here : items[index]? = some v := behind 0 v rfl
    have rest : ∀ i v, values[i]? = some v → items[index + 1 + i]? = some v := by
      intro i v found
      rw [Nat.add_right_comm, Nat.add_assoc]
      exact behind (i + 1) v found
    rw [List.zipIdx_cons, List.flatMap_cons]
    by_cases string : ∃ s, v = .string s
    · obtain ⟨s, rfl⟩ := string
      -- the string is among those in front of the next item, whether it was there before or not
      have later : ∀ text, text ∈ s :: seen ↔ Precedes items (index + 1) text := by
        intro text
        rw [precedes_succ here, List.mem_cons, known, Json.string.injEq, eq_comm]
      rw [readFrom, List.flatMap_cons, ih later rest, complaint]
      simp only [List.contains_iff_mem, known]
      split_ifs <;> rfl
    · have other : ∀ text, v ≠ .string text := not_exists.mp string
      have later : ∀ text, text ∈ seen ↔ Precedes items (index + 1) text := by
        intro text
        rw [precedes_succ here, known, or_iff_right (other text)]
      rw [readFrom_other other, List.flatMap_cons, ih later rest, complaint_other other]
      rfl

/-- A complaint about an item is made at the item, and is not about a field. -/
lemma complaint_path : ∀ d ∈ complaint path items index v,
    d.path = path.item index ∧ d.kind ≠ .unknownField := by
  unfold complaint
  split
  · split_ifs
    · exact List.forall_mem_singleton.mpr ⟨rfl, nofun⟩
    · exact List.forall_mem_nil _
  · exact List.forall_mem_singleton.mpr ⟨rfl, nofun⟩

/-- What is complained of is an item that is no string, or the same as one in front of it. -/
lemma complaint_ne_nil : complaint path items index v ≠ [] ↔
    (∀ text, v ≠ .string text) ∨ ∃ i < index, items[i]? = some v := by
  by_cases string : ∃ s, v = .string s
  · obtain ⟨s, rfl⟩ := string
    have repeated : complaint path items index (.string s) ≠ [] ↔ Precedes items index s := by
      rw [complaint]
      split_ifs with h <;> simp [h]
    simp only [repeated, Precedes, textAt?_eq_some]
    exact (or_iff_right fun other => other s rfl).symm
  · have other : ∀ text, v ≠ .string text := not_exists.mp string
    rw [complaint_other other]
    exact iff_of_true (List.cons_ne_nil _ _) (.inl other)

/-- Of an array that is not empty, exactly the complaints about its items are reported, in order. -/
lemma read_diagnostics (nonempty : items ≠ []) :
    (read path (.array items)).diagnostics =
      items.zipIdx.flatMap fun item => complaint path items item.2 item.1 := by
  cases items with
  | nil => exact absurd rfl nonempty
  | cons v items =>
    rw [read, Outcome.diagnostics_all]
    · apply readFrom_diagnostics
      · simp [Precedes]
      · simp
    · nofun

/-- No complaint is about a stray key. -/
lemma read_kind : ∀ d ∈ (read path v).diagnostics, d.kind ≠ .unknownField := by
  intro d mem
  cases v with
  | array items =>
    by_cases empty : items = []
    · subst empty
      cases List.mem_singleton.mp mem
      nofun
    · rw [read_diagnostics empty] at mem
      obtain ⟨item, -, hd⟩ := List.mem_flatMap.mp mem
      exact (complaint_path d hd).2
  | _ =>
    cases List.mem_singleton.mp mem
    nofun

/-- There is a result where there is nothing to complain of, and then it is what was read. -/
lemma read_result {texts : List String} :
    (read path v).result? = some texts ↔
      v = .array (texts.map .string) ∧ texts ≠ [] ∧ texts.Nodup := by
  have settles := read_accepts path v
  -- what is read is written back as it was, and writing is injective
  have restored : ∀ found, (read path v).result? = some found → Form.distinctTexts v →
      v = .array (found.map .string) := by
    intro found result form
    have ok := Outcome.eq_ok_iff.mpr ⟨result, settles.clean.mpr form⟩
    obtain ⟨texts, rfl, -⟩ := form
    have wf : (Json.array (texts.map .string)).WellFormed :=
      .array (List.forall_mem_map.mpr fun text _ => .string text)
    exact (read_restores path _ found wf ok).symm
  have injective : Function.Injective (List.map Json.string) :=
    List.map_injective_iff.mpr fun _ _ => Json.string.inj
  constructor
  · intro result
    have clean : (read path v).diagnostics = [] := by
      by_contra found
      obtain ⟨d, mem⟩ := List.exists_mem_of_ne_nil _ found
      have none := settles.definite.mpr ⟨d, mem, read_kind d mem⟩
      rw [result] at none
      cases none
    have form := settles.clean.mp clean
    have same := restored texts result form
    obtain ⟨own, rfl, nonempty, distinct⟩ := form
    have equal : own = texts := injective (Json.array.inj same)
    exact equal ▸ ⟨rfl, nonempty, distinct⟩
  · rintro ⟨rfl, nonempty, distinct⟩
    have form : Form.distinctTexts (.array (texts.map .string)) := ⟨texts, rfl, nonempty, distinct⟩
    obtain ⟨found, result⟩ := settles.result form
    have same := restored found result form
    have equal : texts = found := injective (Json.array.inj same)
    rw [result, equal]

end Items

/-- Lists of content types are read exactly. A value has a result if and only if it is an array of
at least one string in which none occurs twice, and then the result is these strings in order. Of an
array that is not empty, what is reported comes in the order of the items: one problem for each item
that is no string, and one for each string that an item in front of it is too. -/
theorem contentTypes_exact (path : Pointer) :
    (∀ v texts, (read path v).result? = some texts ↔
      v = .array (texts.map .string) ∧ texts ≠ [] ∧ texts.Nodup) ∧
    ∀ items, items ≠ [] →
      (read path (.array items)).diagnostics =
          (items.zipIdx.flatMap fun item => complaint path items item.2 item.1) ∧
        ∀ i v, items[i]? = some v →
          ((∃ d ∈ (read path (.array items)).diagnostics, d.path = path.item i) ↔
            (∀ text, v ≠ .string text) ∨ ∃ j < i, items[j]? = some v) := by
  refine ⟨fun _ _ => read_result, fun items nonempty => ⟨read_diagnostics nonempty, ?_⟩⟩
  intro i v found
  rw [read_diagnostics nonempty, ← @complaint_ne_nil path items i v]
  constructor
  · rintro ⟨d, mem, here⟩
    obtain ⟨⟨w, j⟩, there, hd⟩ := List.mem_flatMap.mp mem
    have same : j = i := Pointer.item_injective ((complaint_path d hd).1.symm.trans here)
    subst same
    have equal : v = w := by
      simpa [found] using List.mem_zipIdx_iff_getElem?.mp there
    subst equal
    exact List.ne_nil_of_mem hd
  · intro blamed
    obtain ⟨d, hd⟩ := List.exists_mem_of_ne_nil _ blamed
    have there : (v, i) ∈ items.zipIdx := List.mem_zipIdx_iff_getElem?.mpr found
    exact ⟨d, List.mem_flatMap_of_mem there hd, (complaint_path d hd).1⟩

/-- An item that is no string comes between two that are the same. -/
example : (read .root (.array [.string "a", .null, .string "b", .string "a"])).diagnostics =
    [⟨⟨["1"]⟩, .invalidType "a string" "null"⟩, ⟨⟨["3"]⟩,
      .cardinalityMismatch "unique content types" "\"a\" more than once"⟩] := by
  decide

end DialogueLint.ContentTypes
