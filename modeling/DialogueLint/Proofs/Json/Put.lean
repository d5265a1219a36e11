import DialogueLint.Proofs.Json.Place
import Mathlib.Data.List.Basic

/-!
# Putting a value in a place

`Json.put` puts another value where tokens lead and leaves the rest of the JSON value as it is.
Where tokens lead to a value, putting that value there changes nothing (`Json.put_self`), and to put
something further inside is to put the changed value there (`Json.put_append`).

Objects are changed at the first member that a key finds and arrays at the item of an index
(`Members.change`, `Json.changeItem`). The lemmas say what such a change leaves alone, and how it
goes on inside; they are stated for any change of the value found, so that putting a value in a
place is the case in which the old one is forgotten.
-/

namespace DialogueLint

namespace Members

variable {α : Type} {members : Members α} {key : String} {value : α} {f g : α → α}

/-- Changes the value that a key finds. -/
def change (key : String) (f : α → α) : Members α → Members α
  | [] => []
  | (other, value) :: rest =>
    if key = other then (other, f value) :: rest else (other, value) :: change key f rest

/-- What counts is how the value that is found is changed. -/
lemma change_congr (found : get? members key = some value) (same : f value = g value) :
    change key f members = change key g members := by
  induction members with
  | nil => rfl
  | cons m rest ih =>
    obtain ⟨other, old⟩ := m
    simp only [change]
    by_cases here : key = other
    · have first : old = value := by simpa [get?, here] using found
      rw [if_pos here, if_pos here, first, same]
    · have later : get? rest key = some value := by
        simpa [get?, List.lookup_cons, beq_eq_false_iff_ne.mpr here] using found
      rw [if_neg here, if_neg here, ih later]

/-- A changed member is found changed, and all others as they were. -/
lemma get?_change {name : String} : get? (change key f members) name =
    if name = key then (get? members key).map f else get? members name := by
  induction members with
  | nil => simp [change, get?]
  | cons m rest ih =>
    obtain ⟨other, old⟩ := m
    simp only [change]
    by_cases here : key = other
    · subst here
      by_cases same : name = key
      · simp [get?_cons, same]
      · simp [get?_cons, same]
    · rw [if_neg here, get?_cons, ih, get?_cons, get?_cons, if_neg here]
      -- no name is both the first key and the changed one
      split_ifs with first changed
      · exact absurd (changed.symm.trans first) here
      all_goals rfl

/-- Changing a member into itself changes nothing. -/
lemma change_id : change key id members = members := by
  induction members with
  | nil => rfl
  | cons m rest ih =>
    obtain ⟨other, old⟩ := m
    simp only [change, id, ih, ite_self]

end Members

namespace Json

/-- Changes the item whose decimal index is a token. -/
def changeItem (token : String) (f : Json → Json) (items : List Json) : List Json :=
  items.mapIdx fun index v => if toString index = token then f v else v

/-- The value with another one put where tokens lead; where they lead nowhere it stays as it is. -/
def put : Json → List String → Json → Json
  | _, [], new => new
  | .object members, key :: tokens, new =>
    .object (Members.change key (fun v => v.put tokens new) members)
  | .array items, token :: tokens, new =>
    .array (changeItem token (fun v => v.put tokens new) items)
  | v, _ :: _, _ => v

section Items

variable {items : List Json} {token : String} {value : Json} {f g : Json → Json}

/-- What counts is how the item that is found is changed. -/
lemma changeItem_congr (found : itemAt? items token = some value) (same : f value = g value) :
    changeItem token f items = changeItem token g items := by
  refine List.ext_getElem (by simp [changeItem]) fun index first second => ?_
  simp only [changeItem, List.getElem_mapIdx]
  split_ifs with here
  · -- a token is the index of one item only
    have there : index < items.length := by simpa [changeItem] using first
    have own := itemAt?_toString (List.getElem?_eq_getElem there)
    rw [here, found, Option.some.injEq] at own
    rw [← own, same]
  · rfl

/-- Changing an item into itself changes nothing. -/
lemma changeItem_id : changeItem token id items = items := by
  simp [changeItem, List.mapIdx_eq_iff]

/-- An item is changed at its index. -/
lemma changeItem_toString (index : Nat) (f : Json → Json) (items : List Json) :
    changeItem (toString index) f items = items.modify index f := by
  refine List.ext_getElem (by simp [changeItem]) fun other first second => ?_
  simp only [changeItem, List.getElem_mapIdx, List.getElem_modify]
  by_cases same : index = other
  · simp [same]
  · have different : toString other ≠ toString index := fun equal =>
      same (toString_nat_injective equal).symm
    rw [if_neg different, if_neg same]

end Items

/-- Where no token leads, the value itself is replaced. -/
@[simp] lemma put_nil (v new : Json) : v.put [] new = new := by
  cases v <;> rfl

/-- The only member of an object is changed at its key. -/
lemma put_member (key : String) (v : Json) (tokens : List String) (new : Json) :
    (object [(key, v)]).put (key :: tokens) new = object [(key, v.put tokens new)] := by
  simp [put, Members.change]

/-- A value is put into an array by putting it into the item at the index. -/
lemma put_item (items : List Json) (index : Nat) (tokens : List String) (new : Json) :
    (array items).put (toString index :: tokens) new =
      array (items.modify index fun v => v.put tokens new) := by
  rw [put, changeItem_toString]

/-- An item is replaced at its index. -/
lemma put_index (items : List Json) (index : Nat) (new : Json) :
    (array items).put [toString index] new = array (items.set index new) := by
  simp only [put_item, put_nil, List.set_eq_modify]

/-- A value is put further inside by putting the changed value where tokens lead first. -/
lemma put_append {v w new : Json} {tokens more : List String} (h : resolve? tokens v = some w) :
    v.put (tokens ++ more) new = v.put tokens (w.put more new) := by
  induction tokens generalizing v with
  | nil =>
    cases h
    simp
  | cons token tokens ih =>
    cases v with
    | object members =>
      obtain ⟨u, found, further⟩ := Option.bind_eq_some_iff.mp h
      exact congrArg object (Members.change_congr found (ih further))
    | array items =>
      obtain ⟨u, found, further⟩ := Option.bind_eq_some_iff.mp h
      exact congrArg array (changeItem_congr found (ih further))
    | _ => cases h

/-- Putting a value where it is changes nothing. -/
lemma put_self {v w : Json} {tokens : List String} (h : resolve? tokens v = some w) :
    v.put tokens w = v := by
  induction tokens generalizing v with
  | nil =>
    cases h
    simp
  | cons token tokens ih =>
    cases v with
    | object members =>
      obtain ⟨u, found, further⟩ := Option.bind_eq_some_iff.mp h
      rw [put, Members.change_congr found (g := id) (ih further), Members.change_id]
    | array items =>
      obtain ⟨u, found, further⟩ := Option.bind_eq_some_iff.mp h
      rw [put, changeItem_congr found (g := id) (ih further), changeItem_id]
    | _ => cases h

/-! ## What tokens lead to -/

/-- A key leads into the only member of an object. -/
lemma resolve?_member (key : String) (v : Json) (tokens : List String) :
    resolve? (key :: tokens) (object [(key, v)]) = resolve? tokens v := by
  simp [resolve?, Members.get?]

/-- An index leads into the item of an array. -/
lemma resolve?_item {items : List Json} {index : Nat} {v : Json} (h : items[index]? = some v)
    (tokens : List String) :
    resolve? (toString index :: tokens) (array items) = resolve? tokens v := by
  rw [resolve?, itemAt?_toString h, Option.bind_some]

/-- Tokens resolve one after the other. -/
lemma resolve?_append {v : Json} {tokens more : List String} :
    resolve? (tokens ++ more) v = (resolve? tokens v).bind (resolve? more) := by
  induction tokens generalizing v with
  | nil => rfl
  | cons token tokens ih =>
    cases v with
    | object members =>
      simp only [List.cons_append, resolve?, Option.bind_assoc]
      exact congrArg _ (funext fun _ => ih)
    | array items =>
      simp only [List.cons_append, resolve?, Option.bind_assoc]
      exact congrArg _ (funext fun _ => ih)
    | _ => rfl

end Json

end DialogueLint
