import DialogueLint.Diagnostic.Report
import DialogueLint.Json.Describe
import DialogueLint.Proofs.Json.Member

/-!
# Places

Which values the tokens of a pointer lead to. `Json.Reaches` relates a value to the values inside it
and the tokens that lead there, and `Json.resolve?` looks for them; in a value whose objects have
each key once, what is reached is found (`Json.Reaches.resolve`).

A diagnostic speaks about a value if its path leads to a place inside the value at which its problem
really is (`Diagnostic.Speaks`).

The relation is used where places are followed from the outside to the inside, along the recursion
of a reader; the function is what a client would run on a path. What it means for a problem to be
about a value is said kind by kind (`Problem.About`): for example, a missing field is not among the
keys of the object, and the words for what was found describe the value that is there.
-/

namespace DialogueLint

/-- The decimal form of a number determines it. -/
lemma toString_nat_injective {m n : Nat} (h : toString m = toString n) : m = n := by
  have digits : Nat.toDigits 10 m = Nat.toDigits 10 n := by
    rw [← Nat.toList_repr, ← Nat.toList_repr]
    exact congrArg String.toList h
  rw [← Nat.ofDigitChars_ten_toDigits (n := m), digits, Nat.ofDigitChars_ten_toDigits]

/-- Different items of an array stand at different places. -/
lemma Pointer.item_injective {path : Pointer} {i j : Nat} (h : path.item i = path.item j) :
    i = j := by
  have last : [toString i] = [toString j] := List.append_cancel_left (congrArg tokens h)
  exact toString_nat_injective (List.singleton_inj.mp last)

namespace Json

/-- A value is inside another, where tokens lead: the key of a member of an object, or the decimal
index of an item of an array. -/
inductive Reaches : Json → List String → Json → Prop where
  | here {v} : Reaches v [] v
  | member {members key v tokens w} : (key, v) ∈ members → Reaches v tokens w →
      Reaches (.object members) (key :: tokens) w
  | item {items} {index : Nat} {v tokens w} : items[index]? = some v → Reaches v tokens w →
      Reaches (.array items) (toString index :: tokens) w

/-- The item whose decimal index is a token. -/
def itemAt? (items : List Json) (token : String) : Option Json :=
  (items.zipIdx.find? fun item => toString item.2 == token).map Prod.fst

/-- The value to which tokens lead: keys in objects, decimal indices in arrays. -/
def resolve? : List String → Json → Option Json
  | [], v => some v
  | key :: tokens, .object members => (Members.get? members key).bind (resolve? tokens)
  | token :: tokens, .array items => (itemAt? items token).bind (resolve? tokens)
  | _ :: _, _ => none

/-- Tokens lead on from where tokens have led. -/
lemma Reaches.append {v w u : Json} {tokens more : List String} (h : Reaches v tokens w)
    (next : Reaches w more u) : Reaches v (tokens ++ more) u := by
  induction h with
  | here => exact next
  | member mem _ ih => exact .member mem (ih next)
  | item found _ ih => exact .item found (ih next)

/-- A key leads to what it finds. -/
lemma Reaches.of_get? {members : Members Json} {key : String} {v : Json}
    (h : Members.get? members key = some v) : Reaches (.object members) [key] v :=
  .member (Members.mem_of_get? h) .here

/-- The decimal form of an index finds the item at the index. -/
lemma itemAt?_toString {items : List Json} {index : Nat} {v : Json}
    (h : items[index]? = some v) : itemAt? items (toString index) = some v := by
  have mem : (v, index) ∈ items.zipIdx := List.mem_zipIdx_iff_getElem?.mpr h
  have found : (items.zipIdx.find? fun item => toString item.2 == toString index).isSome :=
    List.find?_isSome.mpr ⟨_, mem, by simp⟩
  obtain ⟨⟨w, other⟩, hw⟩ := Option.isSome_iff_exists.mp found
  have same : other = index := by
    have := List.find?_some hw
    exact toString_nat_injective (by simpa using this)
  subst same
  have at_index := List.mem_zipIdx_iff_getElem?.mp (List.mem_of_find?_eq_some hw)
  simp only at at_index
  rw [h] at at_index
  simp only [itemAt?, hw, Option.map_some, at_index]

/-- Where each key occurs once, tokens resolve to what they lead to. -/
lemma Reaches.resolve {v w : Json} {tokens : List String} (h : Reaches v tokens w)
    (wf : v.WellFormed) : resolve? tokens v = some w := by
  induction h with
  | here => rfl
  | @member members key v tokens w mem _ ih =>
    cases wf with
    | object ordered each =>
      rw [resolve?, Members.get?_of_mem ordered.nodup mem]
      exact ih (each _ mem)
  | @item items index v tokens w found _ ih =>
    cases wf with
    | array each =>
      rw [resolve?, itemAt?_toString found]
      exact ih (each _ (List.mem_of_getElem? found))

end Json

/-- A problem really is what is the matter with the value at which tokens end. -/
def Problem.About (tokens : List String) (w : Json) : Problem → Prop
  | .missingRequiredField field =>
    ∃ members, w = .object members ∧ Members.get? members field = none
  | .unknownField field found => tokens.getLast? = some field ∧ found = w.describe
  | .invalidType _ found => found = w.describe
  | .danglingReference _ field index _ =>
    tokens.getLast? = some field ∧ ∃ n, w = .number n ∧ index = n.text
  | _ => True

/-- The path of a diagnostic leads, from a place, to a value inside the value there, and the problem
is the matter with it. -/
def Diagnostic.Speaks (path : Pointer) (v : Json) (d : Diagnostic) : Prop :=
  ∃ tokens w, d.path = path.join ⟨tokens⟩ ∧ v.Reaches tokens w ∧ d.problem.About d.path.tokens w

namespace Diagnostic

variable {path : Pointer} {v w : Json} {d : Diagnostic}

/-- A problem of the value itself. -/
lemma speaks_here {problem : Problem} (h : problem.About path.tokens v) :
    Speaks path v ⟨path, problem⟩ :=
  ⟨[], v, (Pointer.join_root path).symm, .here, h⟩

/-- What speaks about a member speaks about the object. -/
lemma Speaks.member {members : Members Json} {key : String} (h : Speaks (path.push key) v d)
    (mem : (key, v) ∈ members) : Speaks path (.object members) d := by
  obtain ⟨tokens, w, hpath, reaches, about⟩ := h
  refine ⟨key :: tokens, w, ?_, .member mem reaches, about⟩
  rw [hpath]
  simp [Pointer.join, Pointer.push]

/-- What speaks about an item speaks about the array. -/
lemma Speaks.item {items : List Json} {index : Nat} (h : Speaks (path.item index) v d)
    (found : items[index]? = some v) : Speaks path (.array items) d := by
  obtain ⟨tokens, w, hpath, reaches, about⟩ := h
  refine ⟨toString index :: tokens, w, ?_, .item found reaches, about⟩
  rw [hpath]
  simp [Pointer.join, Pointer.item, Pointer.push]

end Diagnostic

end DialogueLint
