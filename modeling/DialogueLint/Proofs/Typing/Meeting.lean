import DialogueLint.Proofs.Typing.Step
import DialogueLint.Typing.Call
import DialogueLint.Typing.Infer

/-!
# Typing makes a step

An outcome of typing meets an expectation if nothing was found and the families are accepted. If
operands are typed as a judgement says (`Decides`), then one level of typing finds nothing exactly
if the level takes a step (`level_meets`). Whatever the operands give, a level that finds nothing is
of some family (`level_definite`).

`Decides` ties what typing does with operands to a judgement about them, so that every function of a
level has one equivalence: it finds nothing exactly if what the tables ask for is met. The functions
put their findings in a row, and a row is empty if each part is; the equivalences follow that, up to
the level itself.
-/

namespace DialogueLint.Typing

/-- Nothing was found, and the families meet an expectation. -/
def Meets (typed : Outcome FamilySet) (expect : Expectation) : Prop :=
  typed.diagnostics = [] ∧ ∃ families, typed.result? = some families ∧ expect.accepts families

/-- Expressions meet expectations as a judgement says, and meet some if nothing is found. -/
structure Decides (sub : Typer) (D : Judgement) : Prop where
  meets : ∀ path e expect, Meets (sub path e) expect ↔ D expect e
  definite : ∀ path e, (sub path e).diagnostics = [] → Meets (sub path e) .logic

/-- Any expression will do if it has a family. -/
lemma accepts_logic {s : FamilySet} : Expectation.logic.accepts s ↔ ∃ f, s.contains f := by
  simp only [Expectation.accepts, FamilySet.isEmpty, Bool.not_eq_true', List.isEmpty_eq_false_iff]
  constructor
  · intro h
    obtain ⟨f, hf⟩ := List.exists_mem_of_ne_nil _ h
    exact ⟨f, FamilySet.mem_toList.mp hf⟩
  · rintro ⟨f, hf⟩
    exact List.ne_nil_of_mem (FamilySet.mem_toList.mpr hf)

/-- An outcome is fine if it is fine as some family. -/
lemma meets_logic_iff {typed : Outcome FamilySet} :
    Meets typed .logic ↔ ∃ f, Meets typed (.family f) := by
  constructor
  · rintro ⟨clean, s, hs, accepts⟩
    obtain ⟨f, hf⟩ := accepts_logic.mp accepts
    exact ⟨f, clean, s, hs, hf⟩
  · rintro ⟨f, clean, s, hs, hf⟩
    exact ⟨clean, s, hs, accepts_logic.mpr ⟨f, hf⟩⟩

/-! ## Arguments -/

section Arguments

variable {sub : Typer} {D : Judgement} {name : String} {path : Pointer}

/-- There is nothing to say about an operand exactly if it is as expected. -/
lemma expressionOperand_eq_nil (h : Decides sub D) {expect : Expectation} {e : Json} :
    expressionOperand sub name expect path e = [] ↔ D expect e := by
  rw [← h.meets path e expect, expressionOperand, List.append_eq_nil_iff]
  constructor
  · rintro ⟨clean, rest⟩
    obtain ⟨-, s, hs, -⟩ := h.definite path e clean
    refine ⟨clean, s, hs, ?_⟩
    rw [hs] at rest
    by_contra hrefused
    simp [hrefused] at rest
  · rintro ⟨clean, s, hs, accepts⟩
    simp [clean, hs, accepts]

/-- There is nothing to say about an operand exactly if it fits its rule. -/
lemma operand_eq_nil (h : Decides sub D) {rule : Operand} {e : Json} :
    operand sub name rule path e = [] ↔ rule.Fits D e := by
  cases rule with
  | expression expect => exact expressionOperand_eq_nil h
  | format kind => cases e <;> simp [operand, formatOperand, Operand.Fits]
  | binding => cases e <;> simp [operand, bindingOperand, Operand.Fits]

/-- There is nothing to say about operands exactly if each fits its rule. -/
lemma operandsFrom_eq_nil (h : Decides sub D) {index : Nat} {rules : List Operand}
    {values : List Json} :
    operandsFrom sub name path index rules values = [] ↔ FitEach D rules values := by
  induction values generalizing index rules with
  | nil => cases rules <;> simp [operandsFrom, FitEach]
  | cons value values ih =>
    cases rules with
    | nil => simp [operandsFrom, FitEach]
    | cons rule rules =>
      simp only [operandsFrom, FitEach, List.append_eq_nil_iff, operand_eq_nil h, ih]

/-- There is nothing to say about two expressions of one family that can be compared by size. -/
lemma comparison_eq_nil (h : Decides sub D) {a b : Json} :
    comparison sub name path a b = [] ↔ Operands.ordered.Fit D [a, b] := by
  have left := fun f => h.meets (path.item 0) a (.family f)
  have right := fun f => h.meets (path.item 1) b (.family f)
  simp only [comparison, Operands.Fit, List.append_eq_nil_iff, List.forall_mem_cons, ← left,
    ← right, List.not_mem_nil, false_implies, implies_true, and_true]
  constructor
  · rintro ⟨⟨ha, hb⟩, shared⟩
    obtain ⟨-, l, hl, -⟩ := h.definite _ _ ha
    obtain ⟨-, r, hr, -⟩ := h.definite _ _ hb
    simp only [hl, hr, ite_eq_left_iff, reduceCtorEq, imp_false, not_not,
      List.any_eq_true] at shared
    -- the family that is shared is found among those of the left operand
    obtain ⟨f, hf, both⟩ := shared
    obtain ⟨hf, hfl⟩ := List.mem_filter.mp hf
    exact ⟨f, hf, ⟨ha, l, hl, hfl⟩, ⟨hb, r, hr, both⟩⟩
  · rintro ⟨f, hf, ⟨ha, l, hl, hfl⟩, ⟨hb, r, hr, hfr⟩⟩
    have shared : l.ordered.any r.contains :=
      List.any_eq_true.mpr ⟨f, List.mem_filter.mpr ⟨hf, hfl⟩, hfr⟩
    simp [ha, hb, hl, hr, shared]

/-- There is nothing to say about an argument array that fits. Operands that are compared by size
have to be two. -/
lemma argumentArray_eq_nil (h : Decides sub D) {arity : Arity} {operands : Operands}
    (two : operands = .ordered → arity = .exactly 2) {e : Json} :
    argumentArray sub name arity operands path e = [] ↔ ArrayFits D arity operands e := by
  cases e with
  | array values =>
    simp only [argumentArray, operandArray, ArrayFits]
    split_ifs with accepts
    · simp only [accepts, true_and]
      cases operands with
      | ordered =>
        have hlen : values.length = 2 := by simpa [two rfl] using accepts
        obtain ⟨a, b, rfl⟩ := List.length_eq_two.mp hlen
        exact comparison_eq_nil h
      | uniform _ | positional _ | byCount _ | unary => exact operandsFrom_eq_nil h
    · simp [accepts]
  | _ => simp [argumentArray, ArrayFits]

/-- There is nothing to say about a single operand exactly if it fits, alone or as the only item of
an array. -/
lemma unaryOperand_eq_nil (h : Decides sub D) {arity : Arity} {e : Json} :
    unaryOperand sub name arity path e = [] ↔ UnaryFits D e := by
  cases e with
  | array values =>
    cases values with
    | nil => simp [unaryOperand, UnaryFits]
    | cons value values =>
      cases values with
      | nil => exact expressionOperand_eq_nil h
      | cons other values => simp [unaryOperand, UnaryFits]
  | _ => exact expressionOperand_eq_nil h

end Arguments

/-! ## Operators -/

/-- Operators that compare by size take two operands, and no result is `null`. -/
lemma operator_uniform {key : String} {operator : Operator}
    (found : Operator.ofName? key = some operator) :
    (operator.operands = .ordered → operator.arity = .exactly 2) ∧ operator.result ≠ .null := by
  have table : ∀ operator ∈ Operator.table,
      (operator.operands = .ordered → operator.arity = .exactly 2) ∧ operator.result ≠ .null := by
    decide
  exact table operator (List.mem_of_find?_eq_some found)

/-- A call of an operator has the families of the result, without problems if the operands fit. -/
lemma operatorCall_meets {sub : Typer} {D : Judgement} (h : Decides sub D) {operator : Operator}
    (two : operator.operands = .ordered → operator.arity = .exactly 2) {path : Pointer} {e : Json}
    {f : Family} :
    Meets (operatorCall sub operator path e) (.family f) ↔
      (Shape.resultFamilies operator.result).contains f ∧ operator.Fits D e := by
  have clean : (operatorCall sub operator path e).diagnostics = [] ↔ operator.Fits D e := by
    unfold operatorCall Operator.Fits
    cases hops : operator.operands with
    | unary => exact unaryOperand_eq_nil h
    | uniform _ | positional _ | byCount _ | ordered =>
      exact argumentArray_eq_nil h (hops ▸ two)
  rw [Meets, clean, and_comm]
  simp [operatorCall, Expectation.accepts]

/-! ## Methods -/

/-- Methods together give what one of them gives. -/
lemma contains_results {methods : List Method} {f : Family} :
    (results methods).contains f ↔
      ∃ m ∈ methods, (Shape.resultFamilies m.result).contains f := by
  have fold : ∀ (methods : List Method) (s : FamilySet),
      (methods.foldl (fun s m => s.union (Shape.resultFamilies m.result)) s).contains f ↔
        s.contains f ∨ ∃ m ∈ methods, (Shape.resultFamilies m.result).contains f := by
    intro methods
    induction methods with
    | nil => simp
    | cons m methods ih =>
      intro s
      simp [ih, or_assoc]
  rw [results, fold methods .empty]
  simp

/-- Of several methods, those count whose receivers have the families that were found. -/
lemma overload_meets {name : String} {methods : List Method} {path : Pointer} {s : FamilySet}
    {f : Family} :
    Meets (overload name methods path (some s)) (.family f) ↔
      ∃ m ∈ methods, takes s m ∧ (Shape.resultFamilies m.result).contains f := by
  cases hmatching : methods.filter (takes s) with
  | nil =>
    have none : ∀ m ∈ methods, ¬ takes s m := List.filter_eq_nil_iff.mp hmatching
    simp only [overload, hmatching, Meets, List.cons_ne_nil, false_and, false_iff, not_exists,
      not_and]
    intro m hm htakes
    exact absurd htakes (none m hm)
  | cons m matching =>
    simp only [overload, hmatching, Meets, Outcome.ok, true_and, Option.some.injEq,
      exists_eq_left', Expectation.accepts, contains_results]
    simp only [← hmatching, List.mem_filter, and_assoc]

/-- There is nothing to say about reading a reference that may be read. -/
lemma ofRead_eq_nil {path : Pointer} {r : String} :
    Diagnostic.ofRead path r = [] ↔ Reference.isReadable r := by
  unfold Diagnostic.ofRead
  split_ifs with readable
  · simp [readable]
  -- what may not be read is in a namespace of the system, so that there is something to say
  · have reserved : (Reference.reserved? r).isSome := by
      simp only [Reference.isReadable, Reference.isWritable, Bool.or_eq_true, not_or] at readable
      exact Option.isSome_iff_ne_none.mpr (by simpa using readable.1)
    obtain ⟨space, hspace⟩ := Option.isSome_iff_exists.mp reserved
    simp [hspace, readable]

/-- A reference that is looked up is of every family but `null`, and may be read. -/
lemma lookup_meets {path : Pointer} {e : Json} {f : Family} :
    Meets (lookup path e) (.family f) ↔
      f ≠ .null ∧ ∃ r, e = .string r ∧ Reference.isReadable r := by
  cases e with
  | string r =>
    simp only [Meets, lookup, ofRead_eq_nil, Option.some.injEq, exists_eq_left', Json.string.injEq,
      Expectation.accepts]
    cases f <;> simp [Shape.families, Shape.belongsTo, Shape.isOwn]
  | _ => simp [Meets, lookup, Outcome.fail]

/-- A loop item is of any family but `null`, if it is named by a text. -/
lemma loopItem_meets {path : Pointer} {e : Json} {f : Family} :
    Meets (loopItem path e) (.family f) ↔ f ≠ .null ∧ ∃ tag, e = .string tag := by
  cases e with
  | string tag =>
    simp only [Meets, loopItem, Outcome.ok, Option.some.injEq, exists_eq_left', Expectation.accepts]
    cases f <;> simp [Shape.families, Shape.belongsTo, Shape.isOwn]
  | _ => simp [Meets, loopItem, Outcome.fail]

/-- There is nothing to say about a receiver that is looked up in place exactly if it is a variable
that may be read. -/
lemma lookupReceiver_clean {name : String} {path : Pointer} {e : Json} :
    (lookupReceiver name path e).diagnostics = [] ↔
      ∃ r, e = lookedUp r ∧ Reference.isReadable r := by
  unfold lookupReceiver
  split
  · rename_i value
    cases value with
    | string r => simp [lookup, ofRead_eq_nil]
    | _ => simp [lookup, Outcome.fail]
  · rename_i other notLookup
    simp only [Outcome.fail, List.cons_ne_nil, false_iff, not_exists, not_and]
    rintro r rfl
    exact absurd rfl (notLookup _)

/-- A call of methods of one name is of a family if one of them has such a result, and fits. -/
lemma methodOn_meets {sub : Typer} {D : Judgement} (h : Decides sub D) {first : Method}
    {methods : List Method}
    (kind : ∀ m ∈ methods, first.receiver = .lookup ↔ m.receiver = .lookup) {path : Pointer}
    {e : Json} {arguments : List Diagnostic} {f : Family} :
    Meets (methodOn sub first methods path e arguments) (.family f) ↔
      arguments = [] ∧ ∃ m ∈ methods,
        (Shape.resultFamilies m.result).contains f ∧ m.receiver.Fits D e := by
  have parts : Meets (methodOn sub first methods path e arguments) (.family f) ↔
      (receiver sub first (path.item 0) e).diagnostics = [] ∧ arguments = [] ∧
        Meets (overload first.name methods (path.item 0)
          (receiver sub first (path.item 0) e).result?) (.family f) := by
    simp only [Meets, methodOn, List.append_eq_nil_iff, and_assoc]
  rw [parts]
  cases hfirst : first.receiver with
  | lookup =>
    -- a variable that is looked up in place leaves all methods in question
    have lookups : ∀ m ∈ methods, m.receiver = .lookup := fun m hm => (kind m hm).mp hfirst
    simp only [receiver, hfirst, lookupReceiver_clean]
    constructor
    · rintro ⟨⟨r, rfl, hr⟩, hargs, hchosen⟩
      obtain ⟨m, hm, -, hf⟩ := overload_meets.mp hchosen
      refine ⟨hargs, m, hm, hf, ?_⟩
      rw [lookups m hm]
      exact ⟨r, rfl, hr⟩
    · rintro ⟨hargs, m, hm, hf, fits⟩
      rw [lookups m hm] at fits
      obtain ⟨r, rfl, hr⟩ := fits
      refine ⟨⟨r, rfl, hr⟩, hargs, overload_meets.mpr ⟨m, hm, ?_, hf⟩⟩
      simp [takes, lookups m hm]
  | family g =>
    -- otherwise the families of the receiver choose among the methods
    have families : ∀ m ∈ methods, ∃ g, m.receiver = .family g := by
      intro m hm
      cases hreceiver : m.receiver with
      | lookup => exact absurd ((kind m hm).mpr hreceiver) (by simp [hfirst])
      | family g => exact ⟨g, rfl⟩
    simp only [receiver, hfirst]
    constructor
    · rintro ⟨clean, hargs, hchosen⟩
      obtain ⟨-, s, hs, -⟩ := h.definite _ _ clean
      rw [hs] at hchosen
      obtain ⟨m, hm, htakes, hf⟩ := overload_meets.mp hchosen
      obtain ⟨g, hg⟩ := families m hm
      simp only [takes, hg] at htakes
      refine ⟨hargs, m, hm, hf, ?_⟩
      rw [hg]
      exact (h.meets _ _ _).mp ⟨clean, s, hs, htakes⟩
    · rintro ⟨hargs, m, hm, hf, fits⟩
      obtain ⟨g, hg⟩ := families m hm
      rw [hg] at fits
      obtain ⟨clean, s, hs, htakes⟩ := (h.meets (path.item 0) e (.family g)).mpr fits
      refine ⟨clean, hargs, ?_⟩
      rw [hs]
      refine overload_meets.mpr ⟨m, hm, ?_, hf⟩
      simp only [takes, hg]
      exact htakes

/-- Methods take no operands that are compared by size, and no result is `null`. -/
lemma method_uniform {m : Method} (mem : m ∈ Method.table) :
    (∀ rules ∈ m.arguments, rules.operands ≠ .ordered) ∧ m.result ≠ .null := by
  have table : ∀ m ∈ Method.table,
      (∀ rules ∈ m.arguments, rules.operands ≠ .ordered) ∧ m.result ≠ .null := by
    decide
  exact table m mem

/-- A method call is of a family if a method of the name has such a result, and fits. -/
lemma namedCall_meets {sub : Typer} {D : Judgement} (h : Decides sub D) {name : String}
    {path : Pointer} {e : Json} {rest : List Json} {f : Family} :
    Meets (namedCall sub name path (e :: .string name :: rest)) (.family f) ↔
      ∃ m ∈ Method.named name, (Shape.resultFamilies m.result).contains f ∧
        m.receiver.Fits D e ∧ m.ArgumentsFit D rest := by
  cases hnamed : Method.named name with
  | nil => simp [namedCall, hnamed, Meets, Outcome.fail]
  | cons first others =>
    have mem : first ∈ Method.named name := hnamed ▸ List.mem_cons_self
    -- typing looks at the first method only, but all methods of the name take the same arguments
    have uniform : ∀ m ∈ first :: others, first.arguments = m.arguments ∧
        (first.receiver = .lookup ↔ m.receiver = .lookup) :=
      fun m hm => named_uniform mem (hnamed ▸ hm)
    have kind := fun m hm => (uniform m hm).2
    have arguments : ∀ m ∈ first :: others,
        m.ArgumentsFit D rest ↔ first.ArgumentsFit D rest := by
      intro m hm
      unfold Method.ArgumentsFit
      rw [(uniform m hm).1]
    have parts : Meets (namedCall sub name path (e :: .string name :: rest)) (.family f) ↔
        first.ArgumentsFit D rest ∧ ∃ m ∈ first :: others,
          (Shape.resultFamilies m.result).contains f ∧ m.receiver.Fits D e := by
      simp only [namedCall, hnamed, Method.ArgumentsFit]
      cases hrules : first.arguments with
      | none =>
        cases rest with
        | nil =>
          rw [methodOn_meets h kind]
          simp only [true_and]
        | cons argument rest => simp [Meets, Outcome.fail]
      | some rules =>
        have notOrdered : rules.operands ≠ .ordered :=
          (method_uniform (List.mem_filter.mp mem).1).1 rules hrules
        cases rest with
        | nil => simp [Meets, Outcome.fail]
        | cons argument rest =>
          cases rest with
          | nil =>
            simp only []
            rw [← argumentArray_eq_nil h fun ordered => absurd ordered notOrdered]
            exact methodOn_meets h kind
          | cons other rest => simp [Meets, Outcome.fail]
    rw [parts]
    constructor
    · rintro ⟨fit, m, hm, hf, takes⟩
      exact ⟨m, hm, hf, takes, (arguments m hm).mpr fit⟩
    · rintro ⟨m, hm, hf, takes, fit⟩
      exact ⟨(arguments m hm).mp fit, m, hm, hf, takes⟩

/-- The value behind `method` makes a call of a family as a method of the name does. -/
lemma methodCall_meets {sub : Typer} {D : Judgement} (h : Decides sub D) {path : Pointer}
    {e : Json} {f : Family} :
    Meets (methodCall sub path e) (.family f) ↔
      ∃ receiver name rest, e = .array (receiver :: .string name :: rest) ∧
        ∃ m ∈ Method.named name, (Shape.resultFamilies m.result).contains f ∧
          m.receiver.Fits D receiver ∧ m.ArgumentsFit D rest := by
  constructor
  · intro hm
    unfold methodCall at hm
    split at hm
    · split at hm
      · rename_i receiver name rest
        exact ⟨receiver, name, rest, rfl, (namedCall_meets h).mp hm⟩
      · exact absurd hm.1 (by simp [Outcome.fail])
      · exact absurd hm.1 (by simp [Outcome.fail])
    · exact absurd hm.1 (by simp [Outcome.fail])
  · rintro ⟨receiver, name, rest, rfl, hm⟩
    exact (namedCall_meets h).mpr hm

/-! ## One level -/

/-- The value behind a key makes an expression of a family as a step does. -/
lemma call_meets {sub : Typer} {D : Judgement} (h : Decides sub D) {path : Pointer} {key : String}
    {e : Json} {f : Family} : Meets (call sub path key e) (.family f) ↔ CallStep D f key e := by
  unfold call CallStep
  split_ifs with hvar hcurrent hmethod
  · exact lookup_meets
  · exact loopItem_meets
  · exact methodCall_meets h
  · cases found : Operator.ofName? key with
    | none => simp [Meets, Outcome.fail]
    | some operator => simpa using operatorCall_meets h (operator_uniform found).1

/-- One level of typing gives a family as a step does. -/
lemma level_meets {sub : Typer} {D : Judgement} (h : Decides sub D) {path : Pointer} {e : Json}
    {f : Family} : Meets (level sub path e) (.family f) ↔ Step D f e := by
  cases e with
  | null => cases f <;> simp [level, Step, Meets, Outcome.ok, Expectation.accepts, Shape.families]
  | bool b =>
    cases f <;> simp [level, Step, Meets, Outcome.ok, Expectation.accepts, Shape.families,
      Shape.belongsTo, Shape.isOwn, Shape.literalFamilies]
  | number n =>
    cases f <;> simp [level, Step, Meets, Outcome.ok, Expectation.accepts, Shape.families,
      Shape.belongsTo, Shape.isOwn, Shape.literalFamilies]
  | string text =>
    cases f <;> simp [level, Step, Meets, Outcome.ok, Expectation.accepts, Shape.families,
      Shape.belongsTo, Shape.isOwn, Shape.literalFamilies, Grammar.textual]
  | array items => simp [level, Step, Meets, Outcome.fail]
  | object members =>
    cases members with
    | nil => simp [level, Step, Meets, Outcome.fail]
    | cons member members =>
      cases members with
      | nil => exact call_meets h
      | cons other members => simp [level, Step, Meets, Outcome.fail]

/-! ## A level is of some family -/

/-- A result is of the family that it is given as. -/
lemma contains_resultFamilies_self {result : Family} (h : result ≠ .null) :
    (Shape.resultFamilies result).contains result := by
  cases result with
  | null => exact absurd rfl h
  | _ => rfl

/-- Whatever the receiver is, there is a family for a call of one of several methods. -/
lemma overload_definite {name : String} {methods : List Method} {path : Pointer}
    {families? : Option FamilySet} (some_method : methods ≠ [])
    (results_proper : ∀ m ∈ methods, m.result ≠ .null) :
    ∃ s, (overload name methods path families?).result? = some s ∧ ∃ f, s.contains f := by
  -- no result is `null`, so every choice of methods has a family
  have definite : ∀ chosen : List Method, chosen ≠ [] → chosen ⊆ methods →
      ∃ f, (results chosen).contains f := by
    intro chosen nonempty sub
    obtain ⟨m, hm⟩ := List.exists_mem_of_ne_nil _ nonempty
    exact ⟨m.result, contains_results.mpr
      ⟨m, hm, contains_resultFamilies_self (results_proper m (sub hm))⟩⟩
  cases families? with
  | none => exact ⟨_, rfl, definite methods some_method (List.Subset.refl _)⟩
  | some s =>
    cases hmatching : methods.filter (takes s) with
    | nil =>
      refine ⟨results methods, ?_, definite methods some_method (List.Subset.refl _)⟩
      simp only [overload, hmatching]
    | cons m matching =>
      refine ⟨results (m :: matching), ?_, definite _ (List.cons_ne_nil _ _) ?_⟩
      · simp only [overload, hmatching, Outcome.ok]
      · rw [← hmatching]
        exact List.filter_subset_self _

/-- A call of a method in which nothing is found is of some family. -/
lemma namedCall_definite {sub : Typer} {name : String} {path : Pointer} {items : List Json}
    (clean : (namedCall sub name path items).diagnostics = []) :
    Meets (namedCall sub name path items) .logic := by
  refine ⟨clean, ?_⟩
  simp only [accepts_logic]
  cases hnamed : Method.named name with
  | nil => simp [namedCall, hnamed, Outcome.fail] at clean
  | cons first others =>
    have proper : ∀ m ∈ first :: others, m.result ≠ .null := fun m hm =>
      (method_uniform (List.mem_filter.mp (hnamed ▸ hm)).1).2
    simp only [namedCall, hnamed] at clean ⊢
    split at clean
    · exact overload_definite (List.cons_ne_nil _ _) proper
    · exact overload_definite (List.cons_ne_nil _ _) proper
    · simp [Outcome.fail] at clean

/-- What stands behind a key is of some family if nothing is found in it. -/
lemma call_definite {sub : Typer} {path : Pointer} {key : String} {e : Json}
    (clean : (call sub path key e).diagnostics = []) : Meets (call sub path key e) .logic := by
  unfold call at clean ⊢
  split_ifs at clean ⊢ with hvar hcurrent hmethod
  · refine ⟨clean, Shape.unspecific.families, ?_, rfl⟩
    cases e with
    | string r => rfl
    | _ => simp [lookup, Outcome.fail] at clean
  · refine ⟨clean, Shape.unspecific.families, ?_, rfl⟩
    cases e with
    | string tag => rfl
    | _ => simp [loopItem, Outcome.fail] at clean
  · unfold methodCall at clean ⊢
    split at clean
    · split at clean
      · exact namedCall_definite clean
      · simp [Outcome.fail] at clean
      · simp [Outcome.fail] at clean
    · simp [Outcome.fail] at clean
  · cases found : Operator.ofName? key with
    | none => simp [found, Outcome.fail] at clean
    | some operator =>
      simp only [found] at clean
      exact ⟨clean, _, rfl, accepts_logic.mpr
        ⟨_, contains_resultFamilies_self (operator_uniform found).2⟩⟩

/-- One level of typing is of some family, unless there is something to say about it. -/
lemma level_definite {sub : Typer} {path : Pointer} {e : Json}
    (clean : (level sub path e).diagnostics = []) : Meets (level sub path e) .logic := by
  cases e with
  | null | bool b | number n | string text => exact ⟨rfl, _, rfl, rfl⟩
  | array items => simp [level, Outcome.fail] at clean
  | object members =>
    cases members with
    | nil => simp [level, Outcome.fail] at clean
    | cons member members =>
      cases members with
      | nil => exact call_definite clean
      | cons other members => simp [level, Outcome.fail] at clean

end DialogueLint.Typing
