import DialogueLint.Proofs.Typing.Complaint
import DialogueLint.Proofs.Typing.Replacement

/-!
# Two spellings of a single operand

The operand of `!` and `!!` stands by itself or as the only item of an array. One that is no array
means the same in both spellings: typing gives the same families and finds the same, but for the
place of the operand (`inferAt_alone`). So in a larger expression one spelling can be put for the
other, wherever the call is an operand (`spelling_irrelevant`). Where typing reaches the call, it
looks at nothing but the families there and what it finds; where it does not, nothing that is put
there is looked at (`inferWithin_unreached`).

A diagnostic is moved from one spelling's place of the operand to the other's by `Pointer.rebase`,
which leaves all places outside the operand alone. Typing of two spellings agrees up to that at the
call (`inferAt_spelling`), and what surrounds the call keeps the agreement, because it puts its own
findings before and behind, none of which lies inside the call unless the families are complained
of, at the place of the call itself.
-/

namespace DialogueLint

namespace Pointer

/-- The place that lies below a new place as this one lies below an old one. A place that does not
lie below the old one stays as it is. -/
def rebase (place old new : Pointer) : Pointer :=
  if old.tokens <+: place.tokens then ⟨new.tokens ++ place.tokens.drop old.tokens.length⟩
  else place

variable {old new place : Pointer}

/-- A place below the old one is moved below the new one. -/
lemma rebase_join (q : Pointer) : (old.join q).rebase old new = new.join q := by
  simp [rebase, join]

/-- A place elsewhere stays. -/
lemma rebase_of_not_inside (h : ¬ old.tokens <+: place.tokens) : place.rebase old new = place :=
  if_neg h

end Pointer

/-- The same problem at the rebased place. -/
def Diagnostic.rebase (old new : Pointer) (d : Diagnostic) : Diagnostic :=
  ⟨d.path.rebase old new, d.problem⟩

/-- A diagnostic below the old place is moved below the new one. -/
lemma Diagnostic.rebase_below {old new : Pointer} (d : Diagnostic) :
    (Diagnostic.below old d).rebase old new = Diagnostic.below new d :=
  congrArg (Diagnostic.mk · d.problem) (Pointer.rebase_join d.path)

/-- Two outcomes have the same result, and either both of them or neither found anything. -/
def Outcome.Agree {α : Type} (o p : Outcome α) : Prop :=
  o.result? = p.result? ∧ (o.diagnostics = [] ↔ p.diagnostics = [])

/-- How the operand of `!` or `!!` is written. -/
inductive Spelling where
  /-- By itself. -/
  | alone
  /-- As the only item of an array. -/
  | listed

namespace Spelling

/-- What is written behind the operator. -/
def operand (e : Json) : Spelling → Json
  | alone => e
  | listed => .array [e]

/-- Where the operand stands below the operator. -/
def place : Spelling → Pointer
  | alone => .root
  | listed => Pointer.root.item 0

/-- A call of the operator. -/
def call (s : Spelling) (key : String) (e : Json) : Json :=
  .object [(key, s.operand e)]

end Spelling

namespace Typing

open Spelling

section Call

variable {limit depth levels : Nat} {key : String} {path : Pointer} {e : Json}
  (unary : key ∈ ["!", "!!"]) (single : ∀ items, e ≠ .array items)

include unary single in
/-- In either spelling the operand is looked at where it stands. -/
lemma level_call (sub : Typer) (s : Spelling) :
    level sub path (s.call key e) =
      ⟨some (Shape.resultFamilies .boolean),
        expressionOperand sub key .logic ((path.push key).join s.place) e⟩ := by
  have found : Operator.ofName? key = some ⟨key, .boolean, .exactly 1, .unary⟩ := by
    have named : key = "!" ∨ key = "!!" := by simpa using unary
    rcases named with rfl | rfl <;> rfl
  obtain ⟨notVar, notCurrent, notMethod⟩ := operator_key found
  have operator : level sub path (s.call key e) =
      operatorCall sub ⟨key, .boolean, .exactly 1, .unary⟩ (path.push key) (s.operand e) := by
    simp only [Spelling.call, level, Typing.call, notVar, notCurrent, notMethod, found, if_false]
  rw [operator]
  cases s with
  | listed => rfl
  | alone =>
    rw [place, Pointer.join_root]
    cases e with
    | array items => exact absurd rfl (single items)
    | _ => rfl

include unary single in
/-- What is found in a call lies where the operand stands, and is the same wherever that is. -/
lemma inferWithin_call (s : Spelling) :
    inferWithin limit (levels + 1) path (s.call key e) =
      ⟨some (Shape.resultFamilies .boolean),
        (expressionOperand (inferWithin limit levels) key .logic .root e).map
          (Diagnostic.below ((path.push key).join s.place))⟩ := by
  have operand := @expressionOperand_clear _ key (inferWithin_regular limit levels) .logic e
  rw [inferWithin, level_call unary single, operand.moves]

include unary single in
/-- An operand by itself is typed like one in an array, but for its place. -/
lemma inferAt_alone :
    (inferAt limit depth path (alone.call key e)).result? =
        (inferAt limit depth path (listed.call key e)).result? ∧
      (inferAt limit depth path (alone.call key e)).diagnostics =
        (inferAt limit depth path (listed.call key e)).diagnostics.map
          (Diagnostic.rebase ((path.push key).item 0) (path.push key)) := by
  unfold inferAt
  cases limit + 1 - depth with
  | zero =>
    -- the call itself is too deep, and that is found outside the operand
    have outside : ¬ ((path.push key).item 0).tokens <+: path.tokens := by
      intro inside
      have longer := inside.length_le
      simp only [Pointer.item, Pointer.push_tokens, List.length_append, List.length_singleton]
        at longer
      omega
    refine ⟨rfl, ?_⟩
    simp only [inferWithin, Outcome.fail, List.map_singleton, Diagnostic.rebase,
      Pointer.rebase_of_not_inside outside]
  | succ levels =>
    rw [inferWithin_call unary single, inferWithin_call unary single]
    refine ⟨rfl, ?_⟩
    have here : (path.push key).join alone.place = path.push key := Pointer.join_root _
    rw [here, List.map_map]
    exact List.map_congr_left fun d _ => (Diagnostic.rebase_below d).symm

include unary single in
/-- Two spellings of a call are typed alike, but for the place of the operand. -/
lemma inferAt_spelling (s t : Spelling) :
    (inferAt limit depth path (s.call key e)).Agree (inferAt limit depth path (t.call key e)) := by
  obtain ⟨result, found⟩ := @inferAt_alone limit depth key path e unary single
  have clean := congrArg (· = []) found
  simp only [List.map_eq_nil_iff, eq_iff_iff] at clean
  cases s <;> cases t
  · exact ⟨rfl, Iff.rfl⟩
  · exact ⟨result, clean⟩
  · exact ⟨result.symm, clean.symm⟩
  · exact ⟨rfl, Iff.rfl⟩

end Call

/-! ## Larger expressions -/

section Surrounding

variable {limit levels n : Nat} {path place : Pointer} {c e new : Json}

/-- What lies so many steps and then some below an expression lies these below what lies those
below. -/
lemma mem_positionsAt_add {m : Nat} :
    (place, e) ∈ positionsAt (m + n) c ↔
      ∃ p operand, (p, operand) ∈ positionsAt m c ∧
        ∃ q, (q, e) ∈ positionsAt n operand ∧ p.join q = place := by
  induction m generalizing c place with
  | zero =>
    rw [Nat.zero_add]
    constructor
    · intro h
      exact ⟨.root, c, List.mem_singleton_self _, place, h, rfl⟩
    · rintro ⟨p, operand, hp, q, hq, rfl⟩
      cases List.mem_singleton.mp hp
      exact hq
  | succ m ih =>
    rw [Nat.add_right_comm]
    simp only [mem_positionsAt_succ, ih]
    constructor
    · rintro ⟨p, operand, hp, _, ⟨q, inner, hq, r, hr, rfl⟩, rfl⟩
      exact ⟨_, inner, ⟨p, operand, hp, q, hq, rfl⟩, r, hr, Pointer.join_assoc p q r⟩
    · rintro ⟨_, inner, ⟨p, operand, hp, q, hq, rfl⟩, r, hr, rfl⟩
      exact ⟨p, operand, hp, _, ⟨q, inner, hq, r, hr, rfl⟩, (Pointer.join_assoc p q r).symm⟩

/-- Typing looks at nothing that lies as many steps below an expression as it goes down. -/
lemma inferWithin_unreached (h : (place, e) ∈ positionsAt (levels + n) c)
    (admits : place.Admits new) :
    inferWithin limit levels path (c.put place.tokens new) = inferWithin limit levels path c := by
  cases levels with
  | zero => rfl
  | succ levels =>
    obtain ⟨p, operand, hp, q, hq, rfl⟩ := mem_positionsAt_add.mp h
    have admitted : p.Admits (operand.put q.tokens new) := by
      cases n with
      | zero =>
        cases List.mem_singleton.mp hq
        rw [Pointer.join_root] at admits
        simpa [Pointer.root] using admits
      | succ n => exact positionsAt_put_admitted hq p new
    obtain ⟨surroundings, fill⟩ := @inferWithin_surroundings limit 0 levels path p c operand hp
    rw [Nat.zero_add] at fill
    have own := fill operand (positionsAt_admitted hp)
    rw [Json.put_self (positionsAt_resolve hp)] at own
    rw [Pointer.join_tokens, Json.put_append (positionsAt_resolve hp), fill _ admitted, own]
    rfl

/-- What surrounds a place keeps the agreement of what stands there. -/
lemma Surroundings.fill_agree (surroundings : Surroundings place) {o p : Outcome FamilySet}
    (h : o.Agree p) : (surroundings.fill o).Agree (surroundings.fill p) := by
  obtain ⟨result, found⟩ := h
  refine ⟨congrArg surroundings.result? result, ?_⟩
  simp only [fill, Frame.around, List.append_eq_nil_iff, result, found]

/-- If two expressions are inferred alike, they are checked alike. -/
lemma check_agree {expect : Expectation} {other : Json}
    (h : (infer limit path c).Agree (infer limit path other)) :
    (check limit expect path c).Agree (check limit expect path other) := by
  obtain ⟨result, found⟩ := h
  constructor
  · simp only [check, result]
    cases (infer limit path other).result? with
    | none => rfl
    | some s =>
      cases expect with
      | logic => rfl
      | family f =>
        simp only
        split_ifs <;> rfl
  · simp only [check_diagnostics, List.append_eq_nil_iff, result, found]

end Surrounding

/-- The two spellings of a single operand agree. If the operand is no array, a call in which it
stands by itself has the families of the call with an array of one item, at any place, any depth and
any limit; the same is found in the operand, in the same order, at the place where the operand
stands. So wherever a call is an operand of an expression, or the expression itself, writing it the
other way changes neither what a check gives nor whether it finds anything. -/
theorem spelling_irrelevant {key : String} {e : Json} (unary : key ∈ ["!", "!!"])
    (single : ∀ items, e ≠ .array items) :
    (∀ limit depth path,
      (inferAt limit depth path (alone.call key e)).result? =
          (inferAt limit depth path (listed.call key e)).result? ∧
        (inferAt limit depth path (alone.call key e)).diagnostics =
          (inferAt limit depth path (listed.call key e)).diagnostics.map
            (Diagnostic.rebase ((path.push key).item 0) (path.push key))) ∧
      ∀ (s t : Spelling) limit expect path c n place, (place, s.call key e) ∈ positionsAt n c →
        (check limit expect path c).Agree
          (check limit expect path (c.put place.tokens (t.call key e))) := by
  refine ⟨fun limit depth path => inferAt_alone unary single, ?_⟩
  intro s t limit expect path c n place h
  apply check_agree
  cases n with
  | zero =>
    cases List.mem_singleton.mp h
    rw [Pointer.root, Json.put_nil]
    exact @inferAt_spelling limit 0 key path e unary single s t
  | succ n =>
    have other : place.Admits (t.call key e) := by
      intro _ items array
      cases array
    -- below the limit nothing is looked at, and above it the call counts by its outcome alone
    rcases Nat.lt_or_ge limit n with beyond | reached
    · obtain ⟨m, rfl⟩ := Nat.exists_eq_add_of_lt beyond
      have levels : limit + m + 1 + 1 = limit + 1 + (m + 1) := by omega
      rw [levels] at h
      rw [infer, inferWithin_unreached h other]
      exact ⟨rfl, Iff.rfl⟩
    · obtain ⟨surroundings, fill⟩ :=
        @inferAt_surroundings limit 0 n path place c _ h (by rwa [Nat.zero_add])
      have own := fill _ (positionsAt_admitted h)
      rw [Json.put_self (positionsAt_resolve h)] at own
      have agree := surroundings.fill_agree
        (@inferAt_spelling limit (0 + (n + 1)) key (path.join place) e unary single s t)
      rwa [← own, ← fill _ other] at agree

/-- Whether a variable and something else hold. -/
def variableHolds (s : Spelling) (reference : String) : Json :=
  operation "and" [s.call "!!" (lookedUp reference), .bool true]

/-- A variable that may not be read is reported where it stands, in either spelling. -/
theorem variableHolds_spellings :
    (inferAt 8 1 ⟨["and", "0"]⟩ (listed.call "!!" (lookedUp "bot/x"))).diagnostics =
        [⟨⟨["and", "0", "!!", "0", "var"]⟩, .reservedNamespace "bot/x" .bot⟩] ∧
      (inferAt 8 1 ⟨["and", "0"]⟩ (alone.call "!!" (lookedUp "bot/x"))).diagnostics =
        [⟨⟨["and", "0", "!!", "var"]⟩, .reservedNamespace "bot/x" .bot⟩] ∧
      (check 8 .logic .root (variableHolds alone "bot/x")).Agree
        (check 8 .logic .root (variableHolds listed "bot/x")) := by
  obtain ⟨moves, agrees⟩ := @spelling_irrelevant "!!" (lookedUp "bot/x") (by decide) nofun
  have inArray : (inferAt 8 1 ⟨["and", "0"]⟩ (listed.call "!!" (lookedUp "bot/x"))).diagnostics =
      [⟨⟨["and", "0", "!!", "0", "var"]⟩, .reservedNamespace "bot/x" .bot⟩] := by decide
  have position : (⟨["and", "0"]⟩, alone.call "!!" (lookedUp "bot/x")) ∈
      positionsAt 1 (variableHolds alone "bot/x") := List.mem_cons_self
  refine ⟨inArray, ?_, agrees alone listed 8 .logic .root _ 1 _ position⟩
  rw [(moves 8 1 _).2, inArray]
  decide

end Typing

end DialogueLint
