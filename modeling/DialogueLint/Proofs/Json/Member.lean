import DialogueLint.Json.Basic
import Mathlib.Tactic.Common

/-!
# Members

Looking up a key among the members of an object, and which members a key finds.

Members are a list, and a key finds the first member that has it. Where no key occurs twice, as in
members that are in order, finding a value by a key and having the member in the list are the same.
-/

namespace DialogueLint.Members

variable {α : Type} {members before after : Members α} {key name : String} {value other : α}

/-- A key finds the value of the first member if it is the key of it, and else looks further. -/
lemma get?_cons : get? ((name, value) :: members) key =
    if key = name then some value else get? members key := by
  simp only [get?, List.lookup_cons]
  by_cases same : key = name
  · simp [same]
  · simp [beq_eq_false_iff_ne.mpr same, same]

/-- A key finds nothing exactly if no member has it. -/
lemma get?_eq_none : get? members key = none ↔ key ∉ keys members := by
  rw [get?, List.lookup_eq_none_iff, keys, List.mem_map]
  constructor
  · rintro h ⟨m, hm, rfl⟩
    simpa using h m hm
  · intro h m hm
    simp only [bne_iff_ne]
    rintro rfl
    exact h ⟨m, hm, rfl⟩

/-- A key finds something exactly if a member has it. -/
lemma get?_isSome : (get? members key).isSome ↔ key ∈ keys members := by
  rw [Option.isSome_iff_ne_none, ne_eq, get?_eq_none, not_not]

/-- What a key finds is the value of a member with the key. -/
lemma mem_of_get? (h : get? members key = some value) : (key, value) ∈ members := by
  obtain ⟨before, after, rfl, -⟩ := List.lookup_eq_some_iff.mp h
  exact List.mem_append_right _ List.mem_cons_self

/-- Where no key occurs twice, a member is found by its key. -/
lemma get?_of_mem (distinct : (keys members).Nodup) (h : (key, value) ∈ members) :
    get? members key = some value := by
  induction members with
  | nil => simp at h
  | cons m members ih =>
    obtain ⟨other, old⟩ := m
    obtain ⟨fresh, distinct⟩ := List.nodup_cons.mp distinct
    rcases List.mem_cons.mp h with same | later
    · simp only [Prod.mk.injEq] at same
      obtain ⟨rfl, rfl⟩ := same
      simp [get?]
    · have unequal : key ≠ other := by
        rintro rfl
        exact fresh (List.mem_map.mpr ⟨_, later, rfl⟩)
      simpa [get?, List.lookup_cons, beq_eq_false_iff_ne.mpr unequal] using ih distinct later

/-- Members in order have no key twice. -/
lemma Ordered.nodup (h : Ordered members) : (keys members).Nodup := by
  rw [keys, List.Nodup, List.pairwise_map]
  exact List.Pairwise.imp (fun less same => absurd less (by simp [same])) h

/-! ## Members that are equal but for one value -/

/-- Where the value of a member is replaced, its key finds both values, or none of them because it
occurs before. -/
lemma get?_middle :
    get? (before ++ (key, value) :: after) key = get? (before ++ (key, other) :: after) key ∨
      (get? (before ++ (key, value) :: after) key = some value ∧
        get? (before ++ (key, other) :: after) key = some other) := by
  simp only [get?, List.lookup_append, List.lookup_cons_self]
  cases List.lookup key before with
  | none => exact .inr ⟨rfl, rfl⟩
  | some found => exact .inl rfl

/-- Other keys find the same, whatever the value of a member. -/
lemma get?_middle_of_ne (different : name ≠ key) :
    get? (before ++ (key, value) :: after) name = get? (before ++ (key, other) :: after) name := by
  simp only [get?, List.lookup_append, List.lookup_cons, beq_eq_false_iff_ne.mpr different]

end DialogueLint.Members
