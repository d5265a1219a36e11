import DialogueLint.Diagnostic.Problem
import DialogueLint.Fragment
import DialogueLint.Json.Name
import DialogueLint.Typing.Method
import Mathlib.Data.List.Nodup

/-!
# Names read back

Families and fragments stand in JSON by their names, as a string or as the only key of an object
with `null` behind it, kinds of problems are asked for by name, and methods are called by name. In
each case nothing but the name counts: a value is read as a family or as a fragment exactly if it is
one of the two forms of its name (`Family.named_eq_ok`, `Fragment.named_eq_ok`), a text is the name
of at most one kind (`Kind.ofName?_eq_some`), and the names of methods are those under which the
table has a method (`Method.mem_names`).

For families and fragments this is one fact about tables that list everything under its own name
(`Json.named_table`): no two have one name, so a name finds what has it, wherever it stands in the
table.
-/

namespace DialogueLint

/-! ## Tables -/

namespace Json

variable {α : Type} {choices : List (String × α)} {name : String} {a : α}

/-- Choosing by a name gives what the table lists first under it. -/
lemma choose_eq_ok : choose choices name = .ok a ↔ choices.lookup name = some a := by
  unfold choose
  split
  · rename_i found
    simp [found]
  · rename_i missing
    simp [missing]

/-- A value holds a name as a string or as the only key of an object, with `null` behind it. -/
lemma named_eq_ok {v : Json} :
    named choices v = .ok a ↔
      ∃ name, choose choices name = .ok a ∧ (v = .string name ∨ v = .object [(name, .null)]) := by
  constructor
  · intro read
    unfold named at read
    split at read
    · exact ⟨_, read, .inl rfl⟩
    · rename_i name value
      cases chosen : choose choices name with
      | error message => simp [chosen, bind, Except.bind] at read
      | ok choice =>
        rw [chosen] at read
        cases value with
        | null =>
          cases read
          exact ⟨name, chosen, .inr rfl⟩
        | _ => cases read
    · cases read
    · cases read
  · rintro ⟨name, chosen, rfl | rfl⟩
    · exact chosen
    · simp only [named, chosen]
      rfl

/-- In a table that lists everything under a name of its own, a name finds what has that name. -/
lemma lookup_table {all : List α} {naming : α → String} (injective : naming.Injective) :
    (all.map fun a => (naming a, a)).lookup name = some a ↔ a ∈ all ∧ name = naming a := by
  induction all with
  | nil => simp
  | cons b all ih =>
    rw [List.map_cons, List.lookup_cons]
    by_cases h : name = naming b
    · rw [h, beq_self_eq_true]
      constructor
      · rintro ⟨⟩
        exact ⟨List.mem_cons_self, rfl⟩
      · rintro ⟨-, same⟩
        exact congrArg some (injective same)
    · have other : a = b → name ≠ naming a := by
        rintro rfl
        exact h
      rw [beq_false_of_ne h, ih, List.mem_cons]
      tauto

/-- With such a table of everything there is, a value is read exactly as what has the name that the
value holds. -/
lemma named_table {all : List α} {naming : α → String} (injective : naming.Injective)
    (complete : ∀ a, a ∈ all) {v : Json} :
    named (all.map fun a => (naming a, a)) v = .ok a ↔
      v = .string (naming a) ∨ v = .object [(naming a, .null)] := by
  simp only [named_eq_ok, choose_eq_ok, lookup_table injective, complete, true_and, exists_eq_left]

end Json

/-! ## Families, fragments and kinds -/

/-- A value is read as a family exactly if it is one of the two forms of the family's name. -/
theorem Family.named_eq_ok {f : Family} {v : Json} :
    Json.named choices v = .ok f ↔ v = .string f.name ∨ v = .object [(f.name, .null)] := by
  have injective : Family.name.Injective := by
    intro f g
    cases f <;> cases g <;> decide
  exact Json.named_table injective mem_all

/-- A value is read as a fragment exactly if it is one of the two forms of the fragment's name. -/
theorem Fragment.named_eq_ok {f : Fragment} {v : Json} :
    Json.named choices v = .ok f ↔ v = .string f.name ∨ v = .object [(f.name, .null)] := by
  have injective : Fragment.name.Injective := by
    intro f g
    cases f <;> cases g <;> decide
  exact Json.named_table injective fun f => by cases f <;> decide

/-- A text is the name of a kind only if it is its own name. -/
theorem Kind.ofName?_eq_some {kind : Kind} {name : String} :
    ofName? name = some kind ↔ name = kind.name := by
  constructor
  · intro found
    rw [ofName?] at found
    have own := List.find?_some found
    exact (eq_of_beq own).symm
  · rintro rfl
    cases kind <;> decide

/-! ## Methods -/

/-- The names of methods are those under which the table has a method. -/
theorem Method.mem_names {name : String} : name ∈ names ↔ named name ≠ [] := by
  rw [names, named, List.mem_eraseDups, List.mem_map, ne_eq, List.filter_eq_nil_iff]
  simp only [beq_iff_eq, not_forall, exists_prop, not_not]

end DialogueLint
