import DialogueLint.Json.Describe
import DialogueLint.Proofs.Json.Place
import DialogueLint.Proofs.Text.Lines
import DialogueLint.Typing.Method

/-!
# Texts that are repeated verbatim

What a report may repeat of a value as it is (`Json.Verbatim`): keys, references into namespaces of
the system and names of methods that there are not. All other texts of a value are quoted. A value
is unbroken if none of the texts that may be repeated has a line break, and so is all that is inside
it.

The lemmas say that unbrokenness goes from the outside to the inside, so that the induction of a
reader or of typing can take it along: to items, to members, to whatever tokens lead to, and to the
description of the value itself, which repeats the keys of an object and nothing else of it.
-/

namespace DialogueLint

namespace Json

/-- A text of a value that a report may repeat as it is. -/
inductive Verbatim : Json → String → Prop where
  /-- A reference into a namespace of the system. -/
  | reference {r} : (Reference.reserved? r).isSome → Verbatim (.string r) r
  /-- A key. -/
  | key {members m} : m ∈ members → Verbatim (.object members) m.1
  /-- The name in a call of a method that there is not. -/
  | method {receiver name rest} : Method.named name = [] →
      Verbatim (.object [("method", .array (receiver :: .string name :: rest))]) name
  | item {items v s} : v ∈ items → Verbatim v s → Verbatim (.array items) s
  | member {members m s} : m ∈ members → Verbatim m.2 s → Verbatim (.object members) s

/-- No text that a report may repeat as it is has a line break. -/
def Unbroken (v : Json) : Prop :=
  ∀ s, v.Verbatim s → Text.Unbroken s

namespace Unbroken

variable {v w : Json} {items : List Json} {members : Members Json} {m : String × Json}
  {tokens : List String}

/-- The items of an unbroken array are unbroken. -/
lemma item (h : (array items).Unbroken) (mem : v ∈ items) : v.Unbroken :=
  fun s verbatim => h s (.item mem verbatim)

/-- The values of an unbroken object are unbroken. -/
lemma member (h : (object members).Unbroken) (mem : m ∈ members) : m.2.Unbroken :=
  fun s verbatim => h s (.member mem verbatim)

/-- The keys of an unbroken object have no line break. -/
lemma key (h : (object members).Unbroken) (mem : m ∈ members) : Text.Unbroken m.1 :=
  h _ (.key mem)

/-- What a key finds in an unbroken object is unbroken. -/
lemma get? {name : String} (h : (object members).Unbroken)
    (found : members.get? name = some v) : v.Unbroken :=
  h.member (Members.mem_of_get? found)

/-- An unbroken reference into a namespace of the system has no line break. -/
lemma reference {r : String} (h : (string r).Unbroken) (reserved : (Reference.reserved? r).isSome) :
    Text.Unbroken r :=
  h r (.reference reserved)

/-- Of an unbroken value, whatever tokens lead to is unbroken, and so are the tokens. -/
lemma reaches (h : v.Unbroken) (reaches : v.Reaches tokens w) :
    w.Unbroken ∧ ∀ t ∈ tokens, Text.Unbroken t := by
  induction reaches with
  | here => exact ⟨h, by simp⟩
  | member mem _ ih =>
    obtain ⟨inner, others⟩ := ih (h.member mem)
    exact ⟨inner, List.forall_mem_cons.mpr ⟨h.key mem, others⟩⟩
  | item found _ ih =>
    obtain ⟨inner, others⟩ := ih (h.item (List.mem_of_getElem? found))
    exact ⟨inner, List.forall_mem_cons.mpr ⟨Text.unbroken_nat _, others⟩⟩

/-- The words about an unbroken value repeat only its keys. -/
lemma describe (h : v.Unbroken) : Text.Unbroken v.describe := by
  cases v with
  | null => decide
  | bool b => cases b <;> decide
  | number n => simp +decide only [Json.describe, toString, Text.unbroken_append, n.unbroken_text]
  | string s =>
    simp +decide only [Json.describe, toString, Text.unbroken_append, Text.unbroken_quote]
  | array items =>
    simp +decide only [Json.describe, toString, Text.unbroken_append, Text.unbroken_repr]
  | object members =>
    cases members with
    | nil => decide
    | cons m members =>
      have keys : Text.Unbroken (", ".intercalate (Members.keys (m :: members))) := by
        refine Text.unbroken_intercalate (by decide) fun key mem => ?_
        obtain ⟨other, listed, rfl⟩ := List.mem_map.mp mem
        exact h.key listed
      simp +decide only [Json.describe, Text.unbroken_append, keys]

end Unbroken

end Json

end DialogueLint
