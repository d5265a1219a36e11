import DialogueLint.Proofs.Json.Place
import DialogueLint.Typing.Infer

/-!
# Where typing finds problems

All that typing reports speaks about the expression (`check_located`): if that is so of the
operands, it is so of every part of a level, up to the level itself, and hence of all levels.

The invariant is `Diagnostic.Speaks`: the place of a diagnostic leads from the expression to a
value, and the problem is one that this value has. It goes up a level because a place further in,
put behind the index or key that was read, still leads to the same value; and it holds where a level
reports something of its own because the level has just looked at the value there.
-/

namespace DialogueLint.Typing

/-- All that is reported about expressions speaks about them. -/
def Located (sub : Typer) : Prop :=
  ∀ path e, ∀ d ∈ (sub path e).diagnostics, d.Speaks path e

section Operands

variable {sub : Typer} {name : String} {path : Pointer}

/-- A single problem of the value itself speaks about it. -/
lemma speaks_singleton {e : Json} {problem : Problem} (about : problem.About path.tokens e) :
    ∀ d ∈ [(⟨path, problem⟩ : Diagnostic)], d.Speaks path e :=
  List.forall_mem_singleton.mpr (Diagnostic.speaks_here about)

/-- A failure speaks about the value at hand if its problem does. -/
lemma speaks_fail {e : Json} {problem : Problem} (about : problem.About path.tokens e) :
    ∀ d ∈ (Outcome.fail path problem : Outcome FamilySet).diagnostics, d.Speaks path e :=
  speaks_singleton about

/-- What is found in an operand, and about its families, speaks about it. -/
lemma expressionOperand_located (h : Located sub) {expect : Expectation} {e : Json} :
    ∀ d ∈ expressionOperand sub name expect path e, d.Speaks path e := by
  refine List.forall_mem_append.mpr ⟨h path e, ?_⟩
  cases (sub path e).result? with
  | none => simp
  | some s =>
    simp only
    split_ifs
    · simp
    · exact speaks_singleton trivial

/-- What is found about a format speaks about it. -/
lemma formatOperand_located {kind : Format} {e : Json} :
    ∀ d ∈ formatOperand kind path e, d.Speaks path e := by
  cases e with
  | string text =>
    simp only [formatOperand]
    split_ifs
    · simp
    · exact speaks_singleton trivial
  | _ => exact speaks_singleton rfl

/-- What is found about a name for items speaks about it. -/
lemma bindingOperand_located {e : Json} : ∀ d ∈ bindingOperand path e, d.Speaks path e := by
  cases e with
  | string name => simp [bindingOperand]
  | _ => exact speaks_singleton rfl

/-- Whatever the rule, what is found about an operand speaks about it. -/
lemma operand_located (h : Located sub) {rule : Operand} {e : Json} :
    ∀ d ∈ operand sub name rule path e, d.Speaks path e := by
  cases rule with
  | expression expect => exact expressionOperand_located h
  | format kind => exact formatOperand_located
  | binding => exact bindingOperand_located

/-- What is reported about the last items of an array speaks about the array. -/
lemma operandsFrom_located (h : Located sub) {items : List Json} {index : Nat}
    {rules : List Operand} {values : List Json}
    (behind : ∀ i v, values[i]? = some v → items[index + i]? = some v) :
    ∀ d ∈ operandsFrom sub name path index rules values, d.Speaks path (.array items) := by
  induction values generalizing index rules with
  | nil => cases rules <;> simp [operandsFrom]
  | cons value values ih =>
    cases rules with
    | nil => simp [operandsFrom]
    | cons rule rules =>
      refine List.forall_mem_append.mpr ⟨fun d mem => ?_, ih fun i v found => ?_⟩
      · exact (operand_located h d mem).item (behind 0 value rfl)
      · rw [show index + 1 + i = index + (i + 1) by omega]
        exact behind (i + 1) v found

/-- What is found about two operands that are compared speaks about their array. -/
lemma comparison_located (h : Located sub) {a b : Json} :
    ∀ d ∈ comparison sub name path a b, d.Speaks path (.array [a, b]) := by
  have left : ∀ d : Diagnostic, d.Speaks (path.item 0) a → d.Speaks path (.array [a, b]) :=
    fun d speaks => speaks.item rfl
  have right : ∀ d : Diagnostic, d.Speaks (path.item 1) b → d.Speaks path (.array [a, b]) :=
    fun d speaks => speaks.item rfl
  refine List.forall_mem_append.mpr ⟨List.forall_mem_append.mpr ⟨?_, ?_⟩, ?_⟩
  · exact fun d mem => left d (h _ a d mem)
  · exact fun d mem => right d (h _ b d mem)
  · split
    · split_ifs
      · simp
      · refine List.forall_mem_singleton.mpr ?_
        unfold incomparable
        split_ifs
        · exact left _ (Diagnostic.speaks_here trivial)
        · exact right _ (Diagnostic.speaks_here trivial)
    · simp

/-- What is found about operands speaks about their array. -/
lemma operandArray_located (h : Located sub) {arity : Arity} {operands : Operands}
    {values : List Json} :
    ∀ d ∈ operandArray sub name arity operands path values, d.Speaks path (.array values) := by
  unfold operandArray
  split_ifs
  · split
    · exact comparison_located h
    · exact operandsFrom_located h (by simp)
  · exact speaks_singleton trivial

/-- What is found about arguments speaks about what should be their array. -/
lemma argumentArray_located (h : Located sub) {arity : Arity} {operands : Operands} {e : Json} :
    ∀ d ∈ argumentArray sub name arity operands path e, d.Speaks path e := by
  cases e with
  | array values => exact operandArray_located h
  | _ => exact speaks_singleton rfl

/-- What is found about a single operand speaks about it or its array. -/
lemma unaryOperand_located (h : Located sub) {arity : Arity} {e : Json} :
    ∀ d ∈ unaryOperand sub name arity path e, d.Speaks path e := by
  unfold unaryOperand
  split
  · exact fun d mem => (expressionOperand_located h d mem).item rfl
  · exact speaks_singleton trivial
  · exact expressionOperand_located h

/-- What is found about a call of an operator speaks about its operands. -/
lemma operatorCall_located (h : Located sub) {operator : Operator} {e : Json} :
    ∀ d ∈ (operatorCall sub operator path e).diagnostics, d.Speaks path e := by
  unfold operatorCall
  split
  · exact unaryOperand_located h
  · exact argumentArray_located h

end Operands

section Methods

variable {sub : Typer} {name : String} {path : Pointer}

/-- What is found about a read of a reference speaks about the reference. -/
lemma ofRead_located {e : Json} {r : String} :
    ∀ d ∈ Diagnostic.ofRead path r, d.Speaks path e := by
  unfold Diagnostic.ofRead
  split_ifs
  · simp
  · split
    · exact speaks_singleton trivial
    · simp

/-- What is found about a look-up speaks about its name. -/
lemma lookup_located {e : Json} : ∀ d ∈ (lookup path e).diagnostics, d.Speaks path e := by
  cases e with
  | string r => exact ofRead_located
  | _ => exact speaks_fail rfl

/-- What is found about a loop item speaks about its name. -/
lemma loopItem_located {e : Json} : ∀ d ∈ (loopItem path e).diagnostics, d.Speaks path e := by
  cases e with
  | string tag => simp [loopItem, Outcome.ok]
  | _ => exact speaks_fail rfl

/-- What is found about a receiver speaks about it. -/
lemma receiver_located (h : Located sub) {m : Method} {e : Json} :
    ∀ d ∈ (receiver sub m path e).diagnostics, d.Speaks path e := by
  unfold receiver
  split
  · unfold lookupReceiver
    split
    · exact fun d mem => (lookup_located d mem).member List.mem_cons_self
    · exact speaks_fail trivial
  · exact h path e

/-- What is found about the choice of a method speaks about its receiver. -/
lemma overload_located {methods : List Method} {families? : Option FamilySet} {e : Json} :
    ∀ d ∈ (overload name methods path families?).diagnostics, d.Speaks path e := by
  unfold overload
  split
  · simp [Outcome.ok]
  · split
    · exact speaks_singleton trivial
    · simp [Outcome.ok]

/-- What is reported about a call with a receiver and arguments speaks about the call. -/
lemma methodOn_located (h : Located sub) {first : Method} {methods : List Method} {e : Json}
    {items : List Json} {arguments : List Diagnostic} (found : items[0]? = some e)
    (located : ∀ d ∈ arguments, d.Speaks path (.array items)) :
    ∀ d ∈ (methodOn sub first methods path e arguments).diagnostics,
      d.Speaks path (.array items) := by
  refine List.forall_mem_append.mpr ⟨List.forall_mem_append.mpr ⟨?_, located⟩, ?_⟩
  · exact fun d mem => (receiver_located h d mem).item found
  · exact fun d mem => (overload_located (e := e) d mem).item found

/-- What is found about a call of a method of a name speaks about the array of the call. -/
lemma namedCall_located (h : Located sub) {items : List Json} {e : Json}
    (found : items[1]? = some e) :
    ∀ d ∈ (namedCall sub name path items).diagnostics, d.Speaks path (.array items) := by
  unfold namedCall
  split
  · intro d mem
    have here : d.Speaks (path.item 1) e := by
      refine speaks_fail ?_ d mem
      trivial
    exact here.item found
  · split
    · exact methodOn_located h rfl (by simp)
    · exact methodOn_located h rfl fun d mem => (argumentArray_located h d mem).item rfl
    · exact speaks_fail trivial

/-- What is found about a call of a method speaks about what should be its array. -/
lemma methodCall_located (h : Located sub) {e : Json} :
    ∀ d ∈ (methodCall sub path e).diagnostics, d.Speaks path e := by
  unfold methodCall
  split
  · split
    · exact namedCall_located h rfl
    · rename_i other _ _
      intro d mem
      have here : d.Speaks (path.item 1) other := by
        refine speaks_fail ?_ d mem
        rfl
      exact here.item rfl
    · exact speaks_fail trivial
  · exact speaks_fail rfl

/-- What is found behind a key speaks about the value there. -/
lemma call_located (h : Located sub) {key : String} {e : Json} :
    ∀ d ∈ (call sub path key e).diagnostics, d.Speaks path e := by
  unfold call
  split_ifs
  · exact lookup_located
  · exact loopItem_located
  · exact methodCall_located h
  · split
    · exact operatorCall_located h
    · exact speaks_fail trivial

end Methods

/-- If what is found about operands speaks about them, what a level finds speaks about the
expression. -/
lemma level_located {sub : Typer} (h : Located sub) : Located (level sub) := by
  intro path e
  unfold level
  split
  case h_1 | h_2 | h_3 | h_4 => simp [Outcome.ok]
  case h_5 => exact speaks_fail rfl
  case h_6 => exact fun d mem => (call_located h d mem).member List.mem_cons_self
  case h_7 => exact speaks_fail trivial

/-- With so many levels left, all that is found speaks about the expression. -/
lemma inferWithin_located (limit levels : Nat) : Located (inferWithin limit levels) := by
  induction levels with
  | zero => exact fun path e => speaks_fail trivial
  | succ levels ih => exact level_located ih

/-- All that a check reports speaks about the expression. -/
lemma check_located {limit : Nat} {expect : Expectation} {path : Pointer} {e : Json} :
    ∀ d ∈ (check limit expect path e).diagnostics, d.Speaks path e := by
  have typed := inferWithin_located limit (limit + 1) path e
  simp only [check]
  split
  · exact typed
  · split
    · exact typed
    · split_ifs
      · exact typed
      · exact List.forall_mem_append.mpr ⟨typed, speaks_singleton trivial⟩

end DialogueLint.Typing
