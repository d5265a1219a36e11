import DialogueLint.Proofs.Json.Member
import Mathlib.Data.List.Nodup

/-!
# Entries

Writing an object from the entries for its fields. The members of an object are determined by what
its keys find (`Members.Ordered.ext`), so an object is written back from looking up its declared
keys (`Json.ofEntries_entriesAt`).

Two things are used for that. A sorted list of members is determined by what each key finds, so that
two ways of building an object can be compared key by key. And members are put into order one after
the other (`Members.ofList`), which does not change what the keys find if no key is given twice.
-/

namespace DialogueLint

namespace Members

variable {α : Type} {members others : Members α} {key other : String} {value : α}

/-! ## Order -/

instance : Decidable members.Ordered :=
  inferInstanceAs (Decidable (members.Pairwise fun a b => a.1 < b.1))

/-- Behind an insertion, the new key finds the new value, and every other key what it found before.
-/
lemma get?_insert : get? (insert key value members) other =
    if other = key then some value else get? members other := by
  induction members with
  | nil => exact get?_cons
  | cons m members ih =>
    obtain ⟨first, old⟩ := m
    simp only [insert]
    by_cases less : key < first
    · rw [if_pos less, get?_cons]
    · rw [if_neg less]
      by_cases same : key = first
      · subst same
        rw [if_pos rfl, get?_cons, get?_cons]
        split_ifs <;> rfl
      · rw [if_neg same, get?_cons, ih, get?_cons]
        -- no key is both the first one and the new one
        split_ifs with isFirst isKey
        · exact absurd (isKey.symm.trans isFirst) same
        all_goals rfl

/-- A new key makes one member more. -/
lemma insert_of_absent (absent : get? members key = none) (value : α) :
    ∃ before behind, members = before ++ behind ∧
      insert key value members = before ++ (key, value) :: behind := by
  induction members with
  | nil => exact ⟨[], [], rfl, rfl⟩
  | cons m members ih =>
    obtain ⟨other, old⟩ := m
    rw [get?_cons] at absent
    split_ifs at absent with same
    simp only [insert]
    by_cases less : key < other
    · rw [if_pos less]
      exact ⟨[], (other, old) :: members, rfl, rfl⟩
    · rw [if_neg less, if_neg same]
      obtain ⟨before, behind, split, inserted⟩ := ih absent
      exact ⟨(other, old) :: before, behind, congrArg _ split, congrArg _ inserted⟩

/-- A member behind an insertion is the new one or was there before. -/
lemma mem_insert {m : String × α} (h : m ∈ insert key value members) :
    m = (key, value) ∨ m ∈ members := by
  induction members with
  | nil => exact .inl (List.mem_singleton.mp h)
  | cons first members ih =>
    obtain ⟨other, old⟩ := first
    simp only [insert] at h
    split_ifs at h with less same
    · exact List.mem_cons.mp h
    · cases List.mem_cons.mp h with
      | inl new => exact .inl new
      | inr later => exact .inr (List.mem_cons_of_mem _ later)
    · cases List.mem_cons.mp h with
      | inl here => exact .inr (here ▸ List.mem_cons_self)
      | inr later => exact (ih later).imp_right (List.mem_cons_of_mem _)

/-- Putting a value at a key keeps the members in order. -/
lemma Ordered.insert (h : Ordered members) : Ordered (insert key value members) := by
  induction members with
  | nil => exact List.pairwise_singleton _ _
  | cons m members ih =>
    obtain ⟨other, old⟩ := m
    obtain ⟨first, rest⟩ := List.pairwise_cons.mp h
    simp only [Members.insert]
    split_ifs with less same
    · refine List.pairwise_cons.mpr ⟨?_, h⟩
      exact List.forall_mem_cons.mpr ⟨less, fun m mem => String.lt_trans less (first m mem)⟩
    · subst same
      exact List.pairwise_cons.mpr ⟨first, rest⟩
    · have greater : other < key :=
        Std.lt_of_le_of_ne (String.not_lt.mp less) (Ne.symm same)
      refine List.pairwise_cons.mpr ⟨fun m mem => ?_, ih rest⟩
      cases mem_insert mem with
      | inl new => exact new ▸ greater
      | inr old => exact first m old

/-- Members that were put in one after the other are in order. -/
lemma ordered_ofList {pairs : Members α} : Ordered (ofList pairs) := by
  have behind : ∀ members : Members α, Ordered members →
      Ordered (pairs.foldl (fun members pair => insert pair.1 pair.2 members) members) := by
    induction pairs with
    | nil => exact fun _ h => h
    | cons pair pairs ih => exact fun _ h => ih _ h.insert
  exact behind [] .nil

/-- Members in order are determined by what each key finds. -/
lemma Ordered.ext (h : Ordered members) (h' : Ordered others)
    (same : ∀ key, get? members key = get? others key) : members = others := by
  have sub : ∀ {as bs : Members α}, Ordered as → (∀ key, get? as key = get? bs key) → as ⊆ bs := by
    intro as bs has same m mem
    exact mem_of_get? ((same m.1).symm.trans (get?_of_mem has.nodup mem))
  have perm : members.Perm others := by
    refine (List.perm_ext_iff_of_nodup ?_ ?_).mpr fun m => ⟨?_, ?_⟩
    · exact List.Nodup.of_map Prod.fst h.nodup
    · exact List.Nodup.of_map Prod.fst h'.nodup
    · exact fun mem => sub h same mem
    · exact fun mem => sub h' (fun key => (same key).symm) mem
  refine perm.eq_of_pairwise (fun a b _ _ less greater => ?_) h h'
  exact absurd less (String.lt_asymm greater)

/-! ## Changed members -/

/-- What a key finds behind a filter, if no key occurs twice. -/
lemma get?_filter {keep : String × α → Bool} (distinct : (keys members).Nodup) :
    get? (members.filter keep) key = (get? members key).filter fun value => keep (key, value) := by
  induction members with
  | nil => rfl
  | cons m members ih =>
    obtain ⟨other, value⟩ := m
    obtain ⟨fresh, rest⟩ := List.nodup_cons.mp distinct
    rw [List.filter_cons, get?_cons]
    by_cases same : key = other
    · subst same
      have absent : get? members key = none := get?_eq_none.mpr fresh
      by_cases kept : keep (key, value)
      · simp [kept, get?_cons, Option.filter]
      · simp [kept, ih rest, absent, Option.filter]
    · rw [if_neg same, ← ih rest]
      split_ifs
      · rw [get?_cons, if_neg same]
      · rfl

/-- What a key finds among changed values is the changed value that it found before. -/
lemma get?_map {β : Type} {f : String → α → β} :
    get? (members.map fun m => (m.1, f m.1 m.2)) key = (get? members key).map (f key) := by
  induction members with
  | nil => rfl
  | cons m members ih =>
    rw [List.map_cons, get?_cons, get?_cons, ih]
    split_ifs with same
    · rw [same, Option.map_some]
    · rfl

end Members

/-! ## Entries -/

/-- The values for the fields of an object; a field without a value is left out. -/
abbrev Entries : Type := List (String × Option Json)

/-- What the declared keys of an object find. -/
def Members.entriesAt (members : Members Json) (names : List String) : Entries :=
  names.map fun name => (name, get? members name)

/-- The object with the entries that have a value. -/
def Json.ofEntries (entries : Entries) : Json :=
  .object (Members.ofList (entries.filterMap fun entry => entry.2.map (entry.1, ·)))

namespace Members

variable {members : Members Json} {names : List String} {key : String}

/-- Putting members into order does not change what keys find, if no key occurs twice. -/
lemma get?_ofList {α : Type} {pairs : Members α} (distinct : (keys pairs).Nodup) :
    get? (ofList pairs) key = get? pairs key := by
  have behind : ∀ members : Members α,
      get? (pairs.foldl (fun members pair => insert pair.1 pair.2 members) members) key =
        (get? pairs key).or (get? members key) := by
    induction pairs with
    | nil => exact fun _ => rfl
    | cons pair pairs ih =>
      intro members
      obtain ⟨fresh, distinct⟩ := List.nodup_cons.mp distinct
      rw [List.foldl_cons, ih distinct, get?_insert, get?_cons]
      split_ifs with same
      · rw [same, get?_eq_none.mpr fresh]
        rfl
      · rfl
  exact (behind []).trans (Option.or_none)

/-- The members that are written for looked up keys. -/
lemma get?_present : get? ((members.entriesAt names).filterMap fun entry =>
    entry.2.map (entry.1, ·)) key = if key ∈ names then get? members key else none := by
  induction names with
  | nil => rfl
  | cons name names ih =>
    simp only [entriesAt, List.map_cons, List.filterMap_cons, List.mem_cons] at ih ⊢
    by_cases same : key = name
    · subst same
      rw [if_pos (.inl rfl)]
      cases found : get? members key with
      | none =>
        rw [found] at ih
        exact ih.trans (ite_self none)
      | some value => exact get?_cons.trans (if_pos rfl)
    · simp only [same, false_or, ← ih]
      cases get? members name with
      | none => rfl
      | some value => exact get?_cons.trans (if_neg same)

/-- The keys of the entries with a value are among the names, in their order. -/
lemma keys_present : (keys ((members.entriesAt names).filterMap fun entry =>
    entry.2.map (entry.1, ·))).Sublist names := by
  induction names with
  | nil => exact .slnil
  | cons name names ih =>
    simp only [entriesAt, List.map_cons, List.filterMap_cons] at ih ⊢
    cases get? members name with
    | none => exact ih.cons _
    | some value => exact ih.cons_cons _

end Members

/-- What a key finds in a well-formed object is well-formed. -/
lemma Json.WellFormed.of_get? {members : Members Json} {key : String} {v : Json}
    (wf : (Json.object members).WellFormed) (h : members.get? key = some v) : v.WellFormed := by
  cases wf with
  | object _ each => exact each _ (Members.mem_of_get? h)

/-- An object without other keys than the declared ones is written from what these find. -/
lemma Json.ofEntries_entriesAt {members : Members Json} {names : List String}
    (ordered : members.Ordered) (distinct : names.Nodup)
    (closed : ∀ key ∈ members.keys, key ∈ names) :
    ofEntries (members.entriesAt names) = .object members := by
  refine congrArg object (Members.ordered_ofList.ext ordered fun key => ?_)
  rw [Members.get?_ofList (Members.keys_present.nodup distinct), Members.get?_present]
  split_ifs with declared
  · rfl
  · exact (Members.get?_eq_none.mpr fun mem => declared (closed key mem)).symm

end DialogueLint
