import DialogueLint.Proofs.Typing.Indexing

/-!
# Every argument is looked at

An operator or method is called with an argument array. If it does not take that many arguments,
all that is found in the array is that; otherwise there is a rule for each argument, because the
rules in the tables cover every number of arguments that is accepted (`Operands.Covers`), and what
is found is what each argument gives by its rule, in order (`arguments_exact`). What is found around
the array lies elsewhere.

That the rules suffice is a property of the tables, decided row by row (`Operator.covers`,
`Method.covers`). The rest is about arrays of any length: an operand and its rule are paired as long
as there are both, and `Operands.Covers` says that it is the operands that end first.
-/

namespace DialogueLint

open Typing

/-! ## Rules for every number of operands -/

/-- There are rules for every number of operands that is accepted. -/
def Operands.Covers (arity : Arity) : Operands → Prop
  | .uniform _ => True
  | .positional rules => ∃ max ∈ arity.max, max ≤ rules.length
  | .byCount layouts => ∃ max ∈ arity.max, ∀ count ≤ max, arity.min ≤ count →
      ∃ rules ∈ layouts, rules.length = count
  | .ordered => arity = .exactly 2
  | .unary => arity = .exactly 1

instance (arity : Arity) : (operands : Operands) → Decidable (operands.Covers arity)
  | .uniform _ => inferInstanceAs (Decidable True)
  | .positional rules => inferInstanceAs (Decidable (∃ max ∈ arity.max, max ≤ rules.length))
  | .byCount layouts => inferInstanceAs (Decidable (∃ max ∈ arity.max, ∀ count ≤ max,
      arity.min ≤ count → ∃ rules ∈ layouts, rules.length = count))
  | .ordered => inferInstanceAs (Decidable (arity = .exactly 2))
  | .unary => inferInstanceAs (Decidable (arity = .exactly 1))

/-- Every operator has rules for every number of operands that it takes. -/
lemma Operator.covers {key : String} {operator : Operator}
    (found : ofName? key = some operator) : operator.operands.Covers operator.arity := by
  have table : ∀ operator ∈ table, operator.operands.Covers operator.arity := by decide
  exact table operator (List.mem_of_find?_eq_some found)

/-- Every method with an argument array has rules for every number of arguments that it takes. -/
lemma Method.covers {name : String} {m : Method} (mem : m ∈ named name) {rules : Arguments}
    (takes : m.arguments = some rules) : rules.operands.Covers rules.arity := by
  have table : ∀ m ∈ table, ∀ rules ∈ m.arguments, rules.operands.Covers rules.arity := by decide
  exact table m (List.mem_filter.mp mem).1 rules takes

namespace Operands.Covers

variable {arity : Arity} {operands : Operands} {count : Nat}

/-- If the rules go by the number of operands, some rules are as many as the operands. -/
lemma layouts {layouts : List (List Operand)} (h : (byCount layouts).Covers arity)
    (accepts : arity.accepts count) : ∃ rules ∈ layouts, rules.length = count := by
  obtain ⟨max, bound, all⟩ := h
  have within : arity.min ≤ count ∧ count ≤ max := by
    simpa [Arity.accepts, Option.mem_def.mp bound] using accepts
  exact all count within.2 within.1

/-- The rules are as many as the operands at least. -/
lemma length (h : operands.Covers arity) (accepts : arity.accepts count) :
    count ≤ (operands.layout count).length := by
  cases operands with
  | uniform expect => simp [layout]
  | positional rules =>
    obtain ⟨max, bound, enough⟩ := h
    have within : arity.min ≤ count ∧ count ≤ max := by
      simpa [Arity.accepts, Option.mem_def.mp bound] using accepts
    exact Nat.le_trans within.2 enough
  | byCount layouts =>
    obtain ⟨rules, mem, length⟩ := Covers.layouts h accepts
    have found : (layouts.find? fun rules => rules.length == count).isSome :=
      List.find?_isSome.mpr ⟨rules, mem, by simp [length]⟩
    obtain ⟨own, hown⟩ := Option.isSome_iff_exists.mp found
    have same : own.length = count := by simpa using List.find?_some hown
    simp [layout, hown, same]
  | ordered => simp [layout]
  | unary =>
    have exactly : arity = .exactly 1 := h
    have one : count = 1 := by simpa [exactly] using accepts
    simp [layout, one]

end Operands.Covers

namespace Typing

section Arrays

variable {sub : Typer} {name : String} {arity : Arity} {operands : Operands} {path : Pointer}
  {values : List Json}

/-! ## Arrays -/

/-- Operands are looked at one by one. -/
lemma operandsFrom_eq_flatMap {index : Nat} {rules : List Operand} :
    operandsFrom sub name path index rules values = ((rules.zip values).zipIdx index).flatMap
      fun p => operand sub name p.1.1 (path.item p.2) p.1.2 := by
  induction values generalizing index rules with
  | nil => cases rules <;> rfl
  | cons value values ih =>
    cases rules with
    | nil => rfl
    | cons rule rules =>
      rw [operandsFrom, ih, List.zip_cons_cons, List.zipIdx_cons, List.flatMap_cons]

/-- A single operand in an array is looked at as one of several would be. -/
lemma unaryOperand_array (one : arity = .exactly 1) :
    unaryOperand sub name arity path (.array values) =
      operandArray sub name arity .unary path values := by
  subst one
  match values with
  | [] | _ :: _ :: _ => rfl
  | [value] => exact (List.append_nil _).symm

/-- In an array of the wrong size nothing is found but that. -/
lemma operandArray_rejected (rejects : ¬ arity.accepts values.length) :
    operandArray sub name arity operands path values =
      [⟨path, .arityMismatch name arity values.length⟩] := by
  unfold operandArray
  rw [if_neg rejects]

/-- In an array of an accepted size each operand is looked at by its rule, in order. -/
lemma operandArray_accepted (accepts : arity.accepts values.length)
    (unordered : operands ≠ .ordered) :
    operandArray sub name arity operands path values =
      ((operands.layout values.length).zip values).zipIdx.flatMap
        fun p => operand sub name p.1.1 (path.item p.2) p.1.2 := by
  unfold operandArray
  rw [if_pos accepts, ← operandsFrom_eq_flatMap]
  cases operands with
  | ordered => exact absurd rfl unordered
  | _ => rfl

/-- Two operands are not comparable if both have families, and share none that can be compared by
size. -/
lemma comparisonRemark_ne_nil {left? right? : Option FamilySet} :
    comparisonRemark name path left? right? ≠ [] ↔ ∃ l ∈ left?, ∃ r ∈ right?,
      ¬ ∃ f ∈ Family.ordered, l.contains f ∧ r.contains f := by
  cases left? with
  | none => simp [comparisonRemark]
  | some l =>
    cases right? with
    | none => simp [comparisonRemark]
    | some r =>
      simp only [Option.mem_def, Option.some.injEq, exists_eq_left', ← ordered_any_iff]
      simp [comparisonRemark]

/-- Two operands that are not comparable are complained of once. -/
lemma comparisonRemark_single {left? right? : Option FamilySet} :
    (comparisonRemark name path left? right?).length ≤ 1 ∧
      ∀ d ∈ comparisonRemark name path left? right?, d.kind = .operandType := by
  unfold comparisonRemark
  split
  · split_ifs
    · simp
    · refine ⟨Nat.le_refl 1, List.forall_mem_singleton.mpr ?_⟩
      unfold incomparable
      split_ifs <;> rfl
  · simp

/-- What is found in an argument array: that it has not as many items as are taken, or else what its
items give one by one. -/
structure FoundIn (sub : Typer) (name : String) (arity : Arity) (operands : Operands)
    (path : Pointer) (values : List Json) (found : List Diagnostic) : Prop where
  /-- If there are too few items or too many, nothing else is found. -/
  rejected : ¬ arity.accepts values.length →
    found = [⟨path, .arityMismatch name arity values.length⟩]
  /-- Otherwise there is a rule for each item. -/
  covered : arity.accepts values.length →
    values.length ≤ (operands.layout values.length).length
  /-- Where the rules depend on the number of items, there are rules for this number. -/
  counted : arity.accepts values.length → ∀ layouts, operands = .byCount layouts →
    ∃ rules ∈ layouts, rules.length = values.length
  /-- Each item is looked at by its rule, in order. -/
  each : arity.accepts values.length → operands ≠ .ordered →
    found = ((operands.layout values.length).zip values).zipIdx.flatMap
      fun p => operand sub name p.1.1 (path.item p.2) p.1.2
  /-- Items that are compared by size are two; they are typed, and complained of once if both have
  families but share none that can be compared by size. -/
  compared : arity.accepts values.length → operands = .ordered →
    ∃ a b remark, values = [a, b] ∧
      found = (sub (path.item 0) a).diagnostics ++ (sub (path.item 1) b).diagnostics ++ remark ∧
      remark.length ≤ 1 ∧ (∀ d ∈ remark, d.kind = .operandType) ∧
      (remark ≠ [] ↔ ∃ l ∈ (sub (path.item 0) a).result?, ∃ r ∈ (sub (path.item 1) b).result?,
        ¬ ∃ f ∈ Family.ordered, l.contains f ∧ r.contains f)

/-- What is found in the array of a call that has rules for all operands. -/
lemma operandArray_foundIn (covers : operands.Covers arity) :
    FoundIn sub name arity operands path values
      (operandArray sub name arity operands path values) where
  rejected := operandArray_rejected
  covered := covers.length
  counted accepts layouts same := Operands.Covers.layouts (same ▸ covers) accepts
  each := operandArray_accepted
  compared accepts ordered := by
    subst ordered
    have two : arity = .exactly 2 := covers
    have length : values.length = 2 := by simpa [two] using accepts
    obtain ⟨a, b, rfl⟩ := List.length_eq_two.mp length
    refine ⟨a, b, comparisonRemark name path (sub (path.item 0) a).result?
      (sub (path.item 1) b).result?, rfl, ?_, comparisonRemark_single.1, comparisonRemark_single.2,
      comparisonRemark_ne_nil⟩
    rw [← comparison_eq]
    simp only [operandArray, accepts, if_true]

end Arrays

/-! ## Calls -/

/-- An expression calls an operator or a method of a name with arguments: how many are taken, what
they must be, where their array is, and what they are. -/
inductive Calls (path : Pointer) :
    Json → String → Arity → Operands → Pointer → List Json → Prop
  | operator {key operator values} : Operator.ofName? key = some operator →
      Calls path (operation key values) key operator.arity operator.operands (path.push key) values
  | method {receiver name m rules values} : m ∈ Method.named name → m.arguments = some rules →
      Calls path (invocation receiver name values) name rules.arity rules.operands
        ((path.push "method").item 2) values

section Calls

variable {sub : Typer} {path place : Pointer} {e : Json} {name : String} {arity : Arity}
  {operands : Operands} {values : List Json}

/-- What a call of an operator finds in its array is all that it finds. -/
lemma operatorCall_array {operator : Operator} (covers : operator.operands.Covers operator.arity) :
    (operatorCall sub operator path (.array values)).diagnostics =
      operandArray sub operator.name operator.arity operator.operands path values := by
  unfold operatorCall
  cases operands : operator.operands with
  | unary =>
    rw [operands] at covers
    exact unaryOperand_array covers
  | uniform _ | positional _ | byCount _ | ordered => rfl

/-- All that is found besides the arguments is found in the receiver. -/
lemma namedCall_arguments (clear : Regular sub) {m : Method} (named : m ∈ Method.named name)
    {rules : Arguments} (takes : m.arguments = some rules) {receiver : Json} :
    ∃ before behind,
      (namedCall sub name path [receiver, .string name, .array values]).diagnostics =
        before ++ operandArray sub name rules.arity rules.operands (path.item 2) values ++ behind ∧
      Outside (path.item 2) before ∧ Outside (path.item 2) behind := by
  cases hnamed : Method.named name with
  | nil =>
    rw [hnamed] at named
    cases named
  | cons first others =>
    have own : first.arguments = some rules := by
      rw [← takes]
      exact (named_uniform (hnamed ▸ List.mem_cons_self) named).1
    let typed := Typing.receiver sub first (path.item 0) receiver
    have before : Outside (path.item 2) typed.diagnostics :=
      outside_item (i := 0) (receiver_typed clear).found (by decide)
    refine ⟨typed.diagnostics,
      (overload first.name (first :: others) (path.item 0) typed.result?).diagnostics, ?_, before,
      overload_outside (List.prefix_refl _)⟩
    simp only [namedCall, hnamed, own]
    rfl

/-- Around the arguments of a call something may be found, but nothing in them. -/
lemma level_arguments (clear : Regular sub) (call : Calls path e name arity operands place values) :
    ∃ before found behind, (level sub path e).diagnostics = before ++ found ++ behind ∧
      Outside place before ∧ Outside place behind ∧
      FoundIn sub name arity operands place values found := by
  cases call with
  | @operator _ operator _ found =>
    obtain ⟨hvar, hcurrent, hmethod⟩ := operator_key found
    have hname : operator.name = name := by simpa using List.find?_some found
    have covers := Operator.covers found
    refine ⟨[], _, [], ?_, outside_nil _, outside_nil _, operandArray_foundIn covers⟩
    have array := @operatorCall_array sub (path.push name) values operator covers
    rw [hname] at array
    rw [List.nil_append, List.append_nil, ← array]
    simp only [level, Typing.call, hvar, hcurrent, hmethod, if_false, found]
  | @method receiver _ m rules _ named takes =>
    obtain ⟨before, behind, same, outside⟩ :=
      @namedCall_arguments sub (path.push "method") name values clear m named rules takes receiver
    exact ⟨before, _, behind, same, outside.1, outside.2,
      operandArray_foundIn (Method.covers named takes)⟩

end Calls

/-- Every argument is looked at. For every limit: wherever typing calls an operator or a method with
an argument array, not too deep, what it finds in the array is that the number of arguments is not
accepted, and nothing else, or what each argument gives by its rule, in order, and there is a rule
for each; what is found besides lies elsewhere. And for every way to type operands, and every place
and value, all that typing reads by index is there. -/
theorem arguments_exact (limit : Nat) :
    (∀ depth ≤ limit, ∀ path e name arity operands place values,
      Calls path e name arity operands place values →
        ∃ before found behind,
          (inferAt limit depth path e).diagnostics = before ++ found ++ behind ∧
            Outside place before ∧ Outside place behind ∧
            FoundIn (inferAt limit (depth + 1)) name arity operands place values found) ∧
    ∀ sub path e, Indexed.level sub path e = some (level sub path e) := by
  constructor
  · intro depth below path e name arity operands place values call
    have levels : limit + 1 - depth = limit + 1 - (depth + 1) + 1 := by omega
    have clear : Regular (inferAt limit (depth + 1)) := inferWithin_regular limit _
    have step : inferAt limit depth path e = level (inferAt limit (depth + 1)) path e := by
      unfold inferAt
      rw [levels]
      rfl
    rw [step]
    exact level_arguments clear call
  · intro sub path e
    exact Indexed.level_eq

end Typing

end DialogueLint
