import DialogueLint.Proofs.Json.Put
import DialogueLint.Proofs.Typing.Position
import DialogueLint.Typing.Infer

/-!
# Positions further down

The operands of the operands of an expression, and so on: `positionsAt n e` lists what lies `n`
steps of typing below `e`, with the places. At every position stands the value to which its place
leads (`positionsAt_resolve`), so that a position can be given another expression by `Json.put`.

Positions and their operands come in pairs, as the functions of
`DialogueLint.Proofs.Typing.Position` list them. Every one of these lists has a lemma that says what
a member of it looks like (`arrayPositions_inv`, `unaryPositions_inv`, `methodPositions_inv` and so
on); the proofs about positions take members apart by these and never unfold the lists.
-/

namespace DialogueLint

/-- The place of an operand of `!` or `!!` that stands by itself. An array there would be read as
one that holds the operand. -/
def Pointer.isBare (place : Pointer) : Bool :=
  place.tokens.getLast?.any ["!", "!!"].contains

/-- Whether an expression that is put at a place is read as the operand there. -/
def Pointer.Admits (place : Pointer) (e : Json) : Prop :=
  place.isBare → ∀ items, e ≠ .array items

namespace Typing

/-- The positions that lie so many steps below an expression. -/
def positionsAt : Nat → Json → Positions
  | 0, e => [(.root, e)]
  | n + 1, e => (positions e).flatMap fun p =>
      (positionsAt n p.2).map fun q => (p.1.join q.1, q.2)

/-- Typing of an expression to which so many steps have led. -/
def inferAt (limit depth : Nat) : Typer :=
  inferWithin limit (limit + 1 - depth)

/-! ## Where positions are -/

/-- A position among operands is that of an item for which the rule is to be an expression. -/
lemma operandPositions_inv {index : Nat} {rules : List Operand} {values : List Json}
    {place : Pointer} {e : Json} (h : (place, e) ∈ operandPositions index rules values) :
    ∃ i expect, place = Pointer.root.item (index + i) ∧ rules[i]? = some (.expression expect) ∧
      values[i]? = some e := by
  induction values generalizing index rules with
  | nil => cases rules with
    | nil => simp [operandPositions] at h
    | cons rule rules => cases rule <;> simp [operandPositions] at h
  | cons value values ih =>
    cases rules with
    | nil => simp [operandPositions] at h
    | cons rule rules =>
      -- a position further on is counted from the next index
      have later : (place, e) ∈ operandPositions (index + 1) rules values →
          ∃ i expect, place = Pointer.root.item (index + i) ∧
            (rule :: rules)[i]? = some (.expression expect) ∧ (value :: values)[i]? = some e := by
        intro mem
        obtain ⟨i, expect, same, found, there⟩ := ih mem
        refine ⟨i + 1, expect, ?_, found, there⟩
        rw [same, Nat.add_right_comm, Nat.add_assoc]
      cases rule with
      | expression expect =>
        rcases List.mem_cons.mp h with first | mem
        · cases first
          exact ⟨0, expect, rfl, rfl, rfl⟩
        · exact later mem
      | format kind => exact later h
      | binding => exact later h

section Inversion

variable {value : Json} {place : Pointer} {e : Json}

/-- A position in an argument array is that of an item for which the rule is to be an expression. -/
lemma arrayPositions_inv {arity : Arity} {operands : Operands}
    (h : (place, e) ∈ arrayPositions arity operands value) :
    ∃ values i expect, value = .array values ∧ place = Pointer.root.item i ∧
      arity.accepts values.length ∧
      (operands.layout values.length)[i]? = some (.expression expect) ∧ values[i]? = some e := by
  cases value with
  | array values =>
    simp only [arrayPositions] at h
    split_ifs at h with accepts
    · obtain ⟨i, expect, rfl, rule, there⟩ := operandPositions_inv h
      rw [Nat.zero_add]
      exact ⟨values, i, expect, rfl, rfl, accepts, rule, there⟩
    · cases h
  | _ => cases h

/-- A single operand is the only item of an array, or stands by itself and is no array. -/
lemma unaryPositions_inv (h : (place, e) ∈ unaryPositions value) :
    (value = .array [e] ∧ place = Pointer.root.item 0) ∨
      (value = e ∧ place = .root ∧ ∀ items, e ≠ .array items) := by
  unfold unaryPositions at h
  split at h
  · cases List.mem_singleton.mp h
    exact .inl ⟨rfl, rfl⟩
  · cases h
  · rename_i bare
    cases List.mem_singleton.mp h
    exact .inr ⟨rfl, rfl, bare⟩

/-- A receiver is a position where methods are called on a family, and stands in front. -/
lemma receiverPositions_inv {m : Method} (h : (place, e) ∈ receiverPositions m value) :
    (∃ family, m.receiver = .family family) ∧ place = Pointer.root.item 0 ∧ e = value := by
  unfold receiverPositions at h
  split at h
  · rename_i family called
    cases List.mem_singleton.mp h
    exact ⟨⟨family, called⟩, rfl, rfl⟩
  · cases h

/-- A position of a call of a method is that of the receiver, or lies in the argument array. -/
lemma invocationPositions_inv {m : Method} {rest : List Json}
    (h : (place, e) ∈ invocationPositions m value rest) :
    (m.arguments = none ∧ rest = [] ∧ (place, e) ∈ receiverPositions m value) ∨
      ∃ rules arguments, m.arguments = some rules ∧ rest = [arguments] ∧
        ((place, e) ∈ receiverPositions m value ∨
          ∃ q, (q, e) ∈ arrayPositions rules.arity rules.operands arguments ∧
            Pointer.join ⟨[toString 2]⟩ q = place) := by
  unfold invocationPositions at h
  split at h
  · rename_i takes
    exact .inl ⟨takes, rfl, h⟩
  · rename_i rules arguments takes
    refine .inr ⟨rules, arguments, takes, rfl, ?_⟩
    rw [List.mem_append, mem_under] at h
    exact h
  · cases h

/-- A position in a call of a method is one in the receiver or the arguments of a method of that
name. -/
lemma methodPositions_inv (h : (place, e) ∈ methodPositions value) :
    ∃ receiver name rest first others, value = .array (receiver :: .string name :: rest) ∧
      Method.named name = first :: others ∧
      (place, e) ∈ invocationPositions first receiver rest := by
  unfold methodPositions at h
  split at h
  · rename_i receiver name rest
    split at h
    · cases h
    · rename_i first others named
      exact ⟨receiver, name, rest, first, others, rfl, named, h⟩
  · cases h

/-- What is typed behind a key is what a method call takes, or an operator. -/
lemma callPositions_inv {key : String} (h : (place, e) ∈ callPositions key value) :
    (place, e) ∈ methodPositions value ∨ (place, e) ∈ unaryPositions value ∨
      ∃ arity operands, (place, e) ∈ arrayPositions arity operands value := by
  unfold callPositions at h
  split_ifs at h
  · cases h
  · cases h
  · exact .inl h
  · split at h
    · rename_i operator _
      unfold operatorPositions at h
      split at h
      · exact .inr (.inl h)
      · exact .inr (.inr ⟨operator.arity, operator.operands, h⟩)
    · cases h

/-- Only an object has positions, and they are behind its key. -/
lemma positions_inv (h : (place, e) ∈ positions value) :
    ∃ key inner q, value = .object [(key, inner)] ∧ (q, e) ∈ callPositions key inner ∧
      Pointer.join ⟨[key]⟩ q = place := by
  unfold positions at h
  split at h
  · rename_i key inner
    obtain ⟨q, hq, same⟩ := mem_under.mp h
    exact ⟨key, inner, q, rfl, hq, same⟩
  · cases h

/-- What lies one step further down lies below an operand. -/
lemma mem_positionsAt_succ {n : Nat} :
    (place, e) ∈ positionsAt (n + 1) value ↔
      ∃ p operand, (p, operand) ∈ positions value ∧
        ∃ q, (q, e) ∈ positionsAt n operand ∧ p.join q = place := by
  simp only [positionsAt, List.mem_flatMap, List.mem_map, Prod.mk.injEq, Prod.exists]
  refine exists_congr fun p => exists_congr fun operand => and_congr_right fun _ => ?_
  exact exists_congr fun q => by simp [and_comm]

end Inversion

/-! ## What is at a position -/

section Resolve

variable {value : Json} {place : Pointer} {e : Json}

/-- The place of a position in an argument array leads to it. -/
lemma arrayPositions_resolve {arity : Arity} {operands : Operands}
    (h : (place, e) ∈ arrayPositions arity operands value) :
    Json.resolve? place.tokens value = some e := by
  obtain ⟨values, i, -, rfl, rfl, -, -, there⟩ := arrayPositions_inv h
  exact Json.resolve?_item there []

/-- The place of a position in a call of a method leads to it. -/
lemma methodPositions_resolve (h : (place, e) ∈ methodPositions value) :
    Json.resolve? place.tokens value = some e := by
  obtain ⟨receiver, name, rest, first, others, rfl, -, h⟩ := methodPositions_inv h
  have onReceiver : (place, e) ∈ receiverPositions first receiver →
      Json.resolve? place.tokens (.array (receiver :: .string name :: rest)) = some e := by
    intro mem
    obtain ⟨-, rfl, rfl⟩ := receiverPositions_inv mem
    exact Json.resolve?_item rfl []
  rcases invocationPositions_inv h with ⟨-, -, h⟩ | ⟨rules, arguments, -, rfl, h | ⟨q, hq, rfl⟩⟩
  · exact onReceiver h
  · exact onReceiver h
  · exact (Json.resolve?_item rfl q.tokens).trans (arrayPositions_resolve hq)

/-- The place of a position leads to what stands there. -/
lemma positions_resolve (h : (place, e) ∈ positions value) :
    Json.resolve? place.tokens value = some e := by
  obtain ⟨key, inner, q, rfl, hq, rfl⟩ := positions_inv h
  refine (Json.resolve?_member key inner q.tokens).trans ?_
  rcases callPositions_inv hq with hq | hq | ⟨arity, operands, hq⟩
  · exact methodPositions_resolve hq
  · rcases unaryPositions_inv hq with ⟨rfl, rfl⟩ | ⟨rfl, rfl, -⟩
    · exact Json.resolve?_item rfl []
    · rfl
  · exact arrayPositions_resolve hq

/-- The place of a position further down leads to what stands there. -/
lemma positionsAt_resolve {n : Nat} (h : (place, e) ∈ positionsAt n value) :
    Json.resolve? place.tokens value = some e := by
  induction n generalizing value place with
  | zero =>
    cases List.mem_singleton.mp h
    rfl
  | succ n ih =>
    obtain ⟨p, operand, hp, q, hq, rfl⟩ := mem_positionsAt_succ.mp h
    rw [Pointer.join_tokens, Json.resolve?_append, positions_resolve hp]
    exact ih hq

end Resolve

section Bare

variable {value : Json} {place : Pointer} {e : Json}

/-- An index is not the name of an operator. -/
lemma item_not_bare (above : Pointer) (index : Nat) : ¬ (above.item index).isBare := by
  have digits : ∀ c ∈ (toString index).toList, c.isDigit := by
    intro c mem
    rw [Nat.toString_eq_repr, Nat.toList_repr] at mem
    exact Nat.isDigit_of_mem_toDigits (by decide) (by decide) mem
  have different : toString index ∉ ["!", "!!"] := by
    intro mem
    have named : toString index = "!" ∨ toString index = "!!" := by simpa using mem
    rcases named with name | name
    · exact absurd (digits '!' (name ▸ by decide)) (by decide)
    · exact absurd (digits '!' (name ▸ by decide)) (by decide)
  simpa [Pointer.isBare, Pointer.item] using different

/-- An operand is an item, or stands by itself and is no array. -/
lemma callPositions_item {key : String} (h : (place, e) ∈ callPositions key value) :
    (∃ above index, place = Pointer.item above index) ∨ ∀ items, e ≠ .array items := by
  have array : ∀ {arity operands inner q}, (q, e) ∈ arrayPositions arity operands inner →
      ∃ above index, q = Pointer.item above index := by
    intro arity operands inner q hq
    obtain ⟨-, i, -, -, rfl, -⟩ := arrayPositions_inv hq
    exact ⟨.root, i, rfl⟩
  rcases callPositions_inv h with h | h | ⟨arity, operands, h⟩
  · left
    obtain ⟨receiver, name, rest, first, others, -, -, h⟩ := methodPositions_inv h
    rcases invocationPositions_inv h with ⟨-, -, h⟩ | ⟨rules, arguments, -, -, h | ⟨q, hq, rfl⟩⟩
    · exact ⟨.root, 0, (receiverPositions_inv h).2.1⟩
    · exact ⟨.root, 0, (receiverPositions_inv h).2.1⟩
    · obtain ⟨above, index, rfl⟩ := array hq
      exact ⟨_, index, Pointer.join_push _ above _⟩
  · rcases unaryPositions_inv h with ⟨-, rfl⟩ | ⟨-, -, bare⟩
    · exact .inl ⟨.root, 0, rfl⟩
    · exact .inr bare
  · exact .inl (array h)

/-- At every position another expression can be put, unless it is the bare operand of a unary
operator and the expression is an array. -/
lemma positions_admitted (h : (place, e) ∈ positions value) : place.Admits e := by
  obtain ⟨key, inner, q, rfl, hq, rfl⟩ := positions_inv h
  intro bare
  rcases callPositions_item hq with ⟨above, index, rfl⟩ | single
  · rw [Pointer.item, Pointer.join_push] at bare
    exact absurd bare (item_not_bare _ index)
  · exact single

end Bare

/-! ## Putting something at a position -/

section Put

variable {value : Json} {place : Pointer} {e : Json}

/-- A position lies behind the only key of an object. -/
lemma positionsAt_inside {n : Nat} (h : (place, e) ∈ positionsAt (n + 1) value) :
    ∃ key inner tokens, value = .object [(key, inner)] ∧ place.tokens = key :: tokens := by
  obtain ⟨p, operand, hp, q, -, rfl⟩ := mem_positionsAt_succ.mp h
  obtain ⟨key, inner, r, same, -, rfl⟩ := positions_inv hp
  exact ⟨key, inner, r.tokens ++ q.tokens, same, rfl⟩

/-- A position lies inside the expression, not where the expression is. -/
lemma positionsAt_deeper {n : Nat} (h : (place, e) ∈ positionsAt (n + 1) value) (path : Pointer) :
    ¬ (path.join place).tokens <+: path.tokens := by
  obtain ⟨key, inner, tokens, -, here⟩ := positionsAt_inside h
  rw [Pointer.join_tokens, here]
  intro inside
  have longer := inside.length_le
  rw [List.length_append, List.length_cons] at longer
  omega

/-- What has positions is no array, whatever is put there. -/
lemma positionsAt_put_admitted {n : Nat} (h : (place, e) ∈ positionsAt (n + 1) value)
    (outer : Pointer) (new : Json) : outer.Admits (value.put place.tokens new) := by
  obtain ⟨key, inner, tokens, rfl, here⟩ := positionsAt_inside h
  rw [here, Json.put_member]
  exact fun _ _ => nofun

/-- Whether a position takes something is decided by its last step. -/
lemma positionsAt_admits {n : Nat} (h : (place, e) ∈ positionsAt (n + 1) value) (outer : Pointer)
    {new : Json} : (outer.join place).Admits new ↔ place.Admits new := by
  obtain ⟨key, inner, tokens, -, here⟩ := positionsAt_inside h
  have last : (outer.tokens ++ place.tokens).getLast? = place.tokens.getLast? :=
    List.getLast?_append_of_ne_nil _ (here ▸ List.cons_ne_nil key tokens)
  simp only [Pointer.Admits, Pointer.isBare, Pointer.join_tokens, last]

/-- What stands at a position is read as the operand there. -/
lemma positionsAt_admitted {n : Nat} (h : (place, e) ∈ positionsAt (n + 1) value) :
    place.Admits e := by
  induction n generalizing value place with
  | zero =>
    obtain ⟨p, operand, hp, q, hq, rfl⟩ := mem_positionsAt_succ.mp h
    cases List.mem_singleton.mp hq
    rw [Pointer.join_root]
    exact positions_admitted hp
  | succ n ih =>
    obtain ⟨p, operand, hp, q, hq, rfl⟩ := mem_positionsAt_succ.mp h
    exact (positionsAt_admits hq p).mpr (ih hq)

end Put

/-! ## Steps -/

/-- An expression goes down no further exactly if none of its operands does. -/
lemma positionsAt_succ_eq_nil {n : Nat} {e : Json} :
    positionsAt (n + 1) e = [] ↔ ∀ p ∈ positions e, positionsAt n p.2 = [] := by
  simp only [positionsAt, List.flatMap_eq_nil_iff, List.map_eq_nil_iff]

/-- Where nothing lies some steps below an expression, nothing lies more steps below it. -/
lemma positionsAt_eq_nil_add {n : Nat} (m : Nat) {e : Json} (h : positionsAt n e = []) :
    positionsAt (n + m) e = [] := by
  induction n generalizing e with
  | zero => cases h
  | succ n ih =>
    rw [Nat.add_right_comm]
    exact positionsAt_succ_eq_nil.mpr fun p hp => ih (positionsAt_succ_eq_nil.mp h p hp)

end Typing

end DialogueLint
