import DialogueLint.Proofs.Typing.Frame

/-!
# What surrounds a position

What is found around a position of an expression, and the families of the expression, depend on
nothing of what stands there but its families. For the positions of one level this is so because all
that a call does with an operand is to type it (`level_surroundings`); for the positions further
down, surroundings are put into surroundings (`inferAt_surroundings`).

Surroundings are wider than frames: they hold what is found around a position and, besides, which
families the whole has by those of the position. For an operand of an operator the families of the
whole are fixed, and its frame is enough; for a receiver they depend on its families, through the
methods that it chooses. Putting surroundings into surroundings composes both parts, and the
induction on the depth of the position needs no more.
-/

namespace DialogueLint.Typing

/-- What is found around a position, and the families of the whole, given the families of what
stands at the position. -/
structure Surroundings (place : Pointer) extends Frame place where
  /-- The families of the whole. -/
  result? : Option FamilySet → Option FamilySet
  definite : ∀ families?, ∃ s, result? families? = some s ∧ ∃ f, s.contains f
  grows : ∀ s t, s.Widens t → behind (some s) = [] →
    ∀ u v, result? (some s) = some u → result? (some t) = some v →
      ∀ f, u.contains f → v.contains f

/-- The outcome for a whole whose families are the same whatever stands at the position. -/
def Frame.giving {place : Pointer} (frame : Frame place) (s : FamilySet)
    (nonempty : ∃ f, s.contains f) : Surroundings place where
  toFrame := frame
  result? _ := some s
  definite _ := ⟨s, rfl, nonempty⟩
  grows _ _ _ _ u v hu hv f hf := by
    cases hu
    cases hv
    exact hf

namespace Surroundings

variable {place inner : Pointer}

/-- The outcome for the whole, given that of what stands at the position. -/
def fill (surroundings : Surroundings place) (o : Outcome FamilySet) : Outcome FamilySet :=
  ⟨surroundings.result? o.result?, surroundings.around o⟩

/-- More families at the position are more families of the whole. -/
lemma widens (surroundings : Surroundings place) {s t u v : FamilySet} (wider : s.Widens t)
    (nothing : surroundings.behind (some s) = []) (hu : surroundings.result? (some s) = some u)
    (hv : surroundings.result? (some t) = some v) : u.Widens v := by
  obtain ⟨w, hw, nonempty⟩ := surroundings.definite (some t)
  rw [hv] at hw
  cases hw
  exact ⟨fun f _ => surroundings.grows s t wider nothing u v hu hv f, nonempty⟩

/-- Surroundings of a position inside what stands at another position. -/
def comp (outer : Surroundings place) (own : Surroundings inner)
    (inside : place.tokens <+: inner.tokens) (proper : ¬ inner.tokens <+: place.tokens) :
    Surroundings inner where
  before := outer.before ++ own.before
  behind families? := own.behind families? ++ outer.behind (own.result? families?)
  before_outside := List.forall_mem_append.mpr
    ⟨fun d mem within => outer.before_outside d mem (inside.trans within), own.before_outside⟩
  behind_outside families? := by
    refine List.forall_mem_append.mpr ⟨own.behind_outside families?, fun d mem within => ?_⟩
    -- what is complained of at the outer position lies outside the inner one
    have here : d.path = place := (outer.behind_outside _ d mem (inside.trans within)).1
    exact absurd (here ▸ within) proper
  persists s t wider nothing := by
    obtain ⟨first, second⟩ := List.append_eq_nil_iff.mp nothing
    obtain ⟨u, hu, -⟩ := own.definite (some s)
    obtain ⟨v, hv, -⟩ := own.definite (some t)
    rw [hu] at second
    have still : outer.behind (some v) = [] :=
      outer.persists u v (own.widens wider first hu hv) second
    rw [own.persists s t wider first, hv, still, List.append_nil]
  result? families? := outer.result? (own.result? families?)
  definite families? := outer.definite (own.result? families?)
  grows s t wider nothing := by
    obtain ⟨first, second⟩ := List.append_eq_nil_iff.mp nothing
    obtain ⟨u, hu, -⟩ := own.definite (some s)
    obtain ⟨v, hv, -⟩ := own.definite (some t)
    rw [hu] at second
    rw [hu, hv]
    exact outer.grows u v (own.widens wider first hu hv) second

/-- To fill surroundings in surroundings is to fill the inner ones and put that into the outer ones.
-/
lemma fill_comp {outer : Surroundings place} {own : Surroundings inner}
    {inside : place.tokens <+: inner.tokens} {proper : ¬ inner.tokens <+: place.tokens}
    {o : Outcome FamilySet} :
    (outer.comp own inside proper).fill o = outer.fill (own.fill o) := by
  simp only [fill, comp, Frame.around, List.append_assoc]

/-- Where nothing is found, nothing is found if the position gets more families, and the whole has
no fewer than before. -/
lemma fill_widened {surroundings : Surroundings place} {s t : FamilySet} (wider : s.Widens t)
    (clean : (surroundings.fill (.ok s)).diagnostics = []) :
    ∃ u v, surroundings.fill (.ok s) = .ok u ∧ surroundings.fill (.ok t) = .ok v ∧
      ∀ f, u.contains f → v.contains f := by
  obtain ⟨before, behind⟩ := List.append_eq_nil_iff.mp clean
  have still : (surroundings.fill (.ok t)).diagnostics = [] :=
    List.append_eq_nil_iff.mpr ⟨before, surroundings.persists s t wider behind⟩
  obtain ⟨u, hu, -⟩ := surroundings.definite (some s)
  obtain ⟨v, hv, -⟩ := surroundings.definite (some t)
  exact ⟨u, v, congrArg₂ Outcome.mk hu clean, congrArg₂ Outcome.mk hv still,
    surroundings.grows s t wider behind u v hu hv⟩

end Surroundings

/-! ## The tables are usual -/

/-- Operands of operators are usual, and only `!` and `!!` take one by itself. -/
lemma operator_usual {key : String} {operator : Operator}
    (found : Operator.ofName? key = some operator) :
    operator.operands.Usual operator.arity ∧ (operator.operands = .unary → key ∈ ["!", "!!"]) := by
  have table : ∀ operator ∈ Operator.table,
      .expression (.family .null) ∉ operator.operands.rules ∧
        (operator.operands = .unary → operator.name ∈ ["!", "!!"]) := by
    decide
  obtain ⟨proper, unary⟩ := table operator (List.mem_of_find?_eq_some found)
  have name : operator.name = key := by simpa using List.find?_some found
  exact ⟨⟨(operator_uniform found).1, proper⟩, name ▸ unary⟩

/-- Arguments of methods are usual, and no method is called on `null`. -/
lemma method_usual {m : Method} (mem : m ∈ Method.table) :
    (∀ rules ∈ m.arguments, rules.operands.Usual rules.arity) ∧ m.receiver ≠ .family .null := by
  have table : ∀ m ∈ Method.table,
      (∀ rules ∈ m.arguments, .expression (.family .null) ∉ rules.operands.rules) ∧
        m.receiver ≠ .family .null := by
    decide
  obtain ⟨proper, receiver⟩ := table m mem
  refine ⟨fun rules hrules => ⟨fun ordered => ?_, proper rules hrules⟩, receiver⟩
  exact absurd ordered ((method_uniform mem).1 rules hrules)

/-! ## One level -/

section Level

variable {sub : Typer} {path : Pointer} {value operand : Json} {place : Pointer}

/-- What surrounds an operand of an operator. -/
lemma operatorCall_surroundings (clear : Regular sub) {operator : Operator}
    (usual : operator.operands.Usual operator.arity) (proper : operator.result ≠ .null)
    (h : (place, operand) ∈ operatorPositions operator value) :
    ∃ surroundings : Surroundings (path.join place), ∀ e,
      (operator.operands = .unary → place = .root → ∀ items, e ≠ .array items) →
        operatorCall sub operator path (value.put place.tokens e) =
          surroundings.fill (sub (path.join place) e) := by
  have nonempty : ∃ f, (Shape.resultFamilies operator.result).contains f :=
    ⟨operator.result, contains_resultFamilies_self proper⟩
  simp only [operatorPositions, operatorCall] at h ⊢
  cases hops : operator.operands with
  | unary =>
    rw [hops] at h
    obtain ⟨frame, around⟩ := @unaryPositions_frame sub operator.name path operator.arity _ _ _ h
    refine ⟨frame.giving _ nonempty, fun e bare => ?_⟩
    exact congrArg (Outcome.mk _) (around e (bare rfl))
  | uniform _ | positional _ | byCount _ | ordered =>
    rw [hops] at h usual
    obtain ⟨frame, around⟩ :=
      @arrayPositions_frame sub operator.name path clear _ _ usual value place operand h
    refine ⟨frame.giving _ nonempty, fun e _ => ?_⟩
    exact congrArg (Outcome.mk _) (around e)

section Methods

variable {name : String} {first : Method} {methods : List Method} {s t : FamilySet}

/-- A method that is called on a receiver is called on one of more families. -/
lemma takes_of_widens {m : Method} (proper : m.receiver ≠ .family .null) (wider : s.Widens t)
    (h : takes s m) : takes t m := by
  unfold takes at h ⊢
  split at h
  · rename_i family receiver
    exact wider.1 family (fun null => proper (null ▸ receiver)) h
  · exact h

/-- A method that can be called on a receiver can be called on one with more families. -/
lemma overload_meets_of_widens (table : ∀ m ∈ methods, m ∈ Method.table) (wider : s.Widens t)
    {f : Family}
    (h : Meets (overload name methods path (some s)) (.family f)) :
    Meets (overload name methods path (some t)) (.family f) := by
  obtain ⟨m, hm, takes, hf⟩ := overload_meets.mp h
  exact overload_meets.mpr
    ⟨m, hm, takes_of_widens (method_usual (table m hm)).2 wider takes, hf⟩

/-- The choice of a method is complained of at the receiver, and only if it has families. -/
lemma overload_path {families? : Option FamilySet} :
    ∀ d ∈ (overload name methods path families?).diagnostics,
      d.path = path ∧ families? ≠ none := by
  intro d mem
  cases families? with
  | none => cases mem
  | some s =>
    simp only [overload] at mem
    split at mem
    · cases List.mem_singleton.mp mem
      exact ⟨rfl, Option.some_ne_none s⟩
    · cases mem

/-- The receiver is complained of where it stands, which is not among the arguments. -/
lemma overload_outside {families? : Option FamilySet}
    (inside : (path.item 2).tokens <+: place.tokens) :
    Outside place (overload name methods (path.item 0) families?).diagnostics := by
  intro d mem within
  rw [(overload_path d mem).1] at within
  have apart : Diverge (path.item 2).tokens (path.item 0).tokens :=
    (show Diverge ["2"] ["0"] by decide).below path.tokens
  exact apart.1 (inside.trans within)

/-- Whichever methods of the table are chosen, the call has a family. -/
lemma overload_table_definite (nonempty : methods ≠ []) (table : ∀ m ∈ methods, m ∈ Method.table)
    (families? : Option FamilySet) :
    ∃ s, (overload name methods path families?).result? = some s ∧ ∃ f, s.contains f :=
  overload_definite nonempty fun m hm => (method_uniform (table m hm)).2

/-- The surroundings of a receiver, given what is found in the arguments: the families of the
receiver choose among the methods. -/
def Surroundings.ofReceiver (name : String) (path : Pointer) (nonempty : methods ≠ [])
    (table : ∀ m ∈ methods, m ∈ Method.table) (found : List Diagnostic)
    (outside : Outside path found) : Surroundings path where
  before := []
  behind families? := found ++ (overload name methods path families?).diagnostics
  before_outside := outside_nil _
  behind_outside families? := List.forall_mem_append.mpr
    ⟨fun d mem inside => absurd inside (outside d mem), fun d mem _ => overload_path d mem⟩
  persists s t wider nothing := by
    obtain ⟨own, clean⟩ := List.append_eq_nil_iff.mp nothing
    obtain ⟨u, hu, f, hf⟩ := overload_table_definite nonempty table (some s)
    rw [own, (overload_meets_of_widens table wider ⟨clean, u, hu, hf⟩).1, List.append_nil]
  result? families? := (overload name methods path families?).result?
  definite := overload_table_definite nonempty table
  grows s t wider nothing u v hu hv f hf := by
    obtain ⟨-, clean⟩ := List.append_eq_nil_iff.mp nothing
    obtain ⟨-, w, hw, there⟩ := overload_meets_of_widens table wider ⟨clean, u, hu, hf⟩
    rw [hv] at hw
    cases hw
    exact there

/-- What surrounds the receiver of a method. -/
lemma methodOn_receiver_surroundings {g : Family} (family : first.receiver = .family g)
    (nonempty : methods ≠ []) (table : ∀ m ∈ methods, m ∈ Method.table)
    {found : List Diagnostic} (outside : Outside (path.item 0) found) :
    ∃ surroundings : Surroundings (path.item 0), ∀ e,
      methodOn sub first methods path e found = surroundings.fill (sub (path.item 0) e) := by
  refine ⟨.ofReceiver first.name (path.item 0) nonempty table found outside, fun e => ?_⟩
  simp only [methodOn, receiver, family]
  exact congrArg (Outcome.mk _) (List.append_assoc _ _ _)

/-- Nothing about a receiver depends on the arguments. -/
lemma methodOn_argument_surroundings (clear : Regular sub) (nonempty : methods ≠ [])
    (table : ∀ m ∈ methods, m ∈ Method.table) (inside : (path.item 2).tokens <+: place.tokens)
    (frame : Frame place) :
    ∃ surroundings : Surroundings place, ∀ o,
      methodOn sub first methods path value (frame.around o) = surroundings.fill o := by
  let typed := receiver sub first (path.item 0) value
  have before : Outside place typed.diagnostics := fun d mem within =>
    outside_item (receiver_typed clear).found (by decide) d mem (inside.trans within)
  have behind : Outside place
      (overload first.name methods (path.item 0) typed.result?).diagnostics :=
    overload_outside inside
  -- the choice among the methods is made by the receiver, so it is the same for all arguments
  obtain ⟨s, hs, definite⟩ := overload_table_definite nonempty table typed.result?
  refine ⟨((frame.after _ before).andThen _ behind).giving s definite, fun o => ?_⟩
  have around := @Frame.around_andThen _ _ (frame.after _ before) behind o
  rw [Frame.around_after] at around
  exact congrArg₂ Outcome.mk hs around.symm

end Methods

section Named

variable {name : String} {first : Method} {others : List Method} {rest : List Json}

/-- The methods of a name are methods of the table. -/
lemma mem_table_of_named (named : Method.named name = first :: others) :
    ∀ m ∈ first :: others, m ∈ Method.table :=
  fun _ mem => (List.mem_filter.mp (named ▸ mem)).1

/-- The receiver is the first item of a call, whatever the arguments are. -/
lemma receiverPositions_surroundings (named : Method.named name = first :: others)
    (h : (place, operand) ∈ receiverPositions first value) {arguments : List Diagnostic}
    (outside : Outside (path.item 0) arguments)
    (call : ∀ e, namedCall sub name path (e :: .string name :: rest) =
      methodOn sub first (first :: others) path e arguments) :
    ∃ surroundings : Surroundings (path.join place), ∀ e,
      methodCall sub path ((Json.array (value :: .string name :: rest)).put place.tokens e) =
        surroundings.fill (sub (path.join place) e) := by
  obtain ⟨⟨g, family⟩, rfl, -⟩ := receiverPositions_inv h
  obtain ⟨surroundings, fill⟩ := @methodOn_receiver_surroundings sub path first _ g family
    (List.cons_ne_nil first others) (mem_table_of_named named) arguments outside
  refine ⟨surroundings, fun e => ?_⟩
  have put : (Json.array (value :: .string name :: rest)).put (Pointer.root.item 0).tokens e =
      .array (e :: .string name :: rest) := Json.put_index _ 0 e
  rw [put]
  exact (call e).trans (fill e)

/-- The arguments are in the last item of a call. -/
lemma argumentPositions_surroundings (clear : Regular sub)
    (named : Method.named name = first :: others) {rules : Arguments}
    (takes : first.arguments = some rules) {receiver arguments : Json}
    (h : (place, operand) ∈ arrayPositions rules.arity rules.operands arguments) :
    ∃ surroundings : Surroundings (path.join (Pointer.join ⟨[toString 2]⟩ place)), ∀ e,
      methodCall sub path ((Json.array [receiver, .string name, arguments]).put
          (Pointer.join ⟨[toString 2]⟩ place).tokens e) =
        surroundings.fill (sub (path.join (Pointer.join ⟨[toString 2]⟩ place)) e) := by
  have table := mem_table_of_named named
  have usual : rules.operands.Usual rules.arity :=
    (method_usual (table first List.mem_cons_self)).1 rules takes
  have same : path.join (Pointer.join ⟨[toString 2]⟩ place) = (path.item 2).join place :=
    (Pointer.join_assoc path ⟨[toString 2]⟩ place).symm
  rw [same]
  obtain ⟨frame, around⟩ :=
    @arrayPositions_frame sub name (path.item 2) clear _ _ usual arguments place operand h
  obtain ⟨surroundings, fill⟩ := @methodOn_argument_surroundings sub path receiver _ first _ clear
    (List.cons_ne_nil first others) table (List.prefix_append _ place.tokens) frame
  refine ⟨surroundings, fun e => ?_⟩
  have put : (Json.array [receiver, .string name, arguments]).put
      (Pointer.join ⟨[toString 2]⟩ place).tokens e =
        .array [receiver, .string name, arguments.put place.tokens e] :=
    Json.put_item _ 2 place.tokens e
  simp only [put, methodCall, namedCall, named, takes, around]
  exact fill _

end Named

/-- What surrounds the receiver or an argument of a method. -/
lemma methodCall_surroundings (clear : Regular sub) (h : (place, operand) ∈ methodPositions value) :
    ∃ surroundings : Surroundings (path.join place), ∀ e,
      methodCall sub path (value.put place.tokens e) =
        surroundings.fill (sub (path.join place) e) := by
  obtain ⟨receiver, name, rest, first, others, rfl, named, h⟩ := methodPositions_inv h
  rcases invocationPositions_inv h with
    ⟨takes, rfl, mem⟩ | ⟨rules, arguments, takes, rfl, mem | ⟨q, hq, rfl⟩⟩
  · exact receiverPositions_surroundings named mem (outside_nil _) fun e => by
      simp only [namedCall, named, takes]
  · let found := argumentArray sub name rules.arity rules.operands (path.item 2) arguments
    have beside : Outside (path.item 0) found :=
      outside_item (argumentArray_clear clear) (by decide)
    exact receiverPositions_surroundings named mem beside fun e => by
      simp only [namedCall, named, takes, found]
  · exact argumentPositions_surroundings clear named takes hq

/-- Around a position behind a key nothing depends on what is put there but by its families. -/
lemma call_surroundings (clear : Regular sub) {key : String}
    (h : (place, operand) ∈ callPositions key value) :
    ∃ surroundings : Surroundings (path.join place), ∀ e, (Pointer.join ⟨[key]⟩ place).Admits e →
      call sub path key (value.put place.tokens e) =
        surroundings.fill (sub (path.join place) e) := by
  unfold callPositions at h
  simp only [call]
  split_ifs at h ⊢
  · cases h
  · cases h
  · obtain ⟨surroundings, fill⟩ := @methodCall_surroundings sub path _ _ _ clear h
    exact ⟨surroundings, fun e _ => fill e⟩
  · cases found : Operator.ofName? key with
    | none =>
      rw [found] at h
      cases h
    | some operator =>
      rw [found] at h
      obtain ⟨usual, unary⟩ := operator_usual found
      obtain ⟨surroundings, fill⟩ := @operatorCall_surroundings sub path _ _ _ clear _ usual
        (operator_uniform found).2 h
      -- only the operand of a negation stands where the array would, and there no array is put
      refine ⟨surroundings, fun e admits => fill e fun single here => ?_⟩
      subst here
      apply admits
      have bare : key = "!" ∨ key = "!!" := by simpa using unary single
      rcases bare with rfl | rfl <;> rfl

/-- Around an operand of a level nothing depends on what is put there but by its families. -/
lemma level_surroundings (clear : Regular sub) (h : (place, operand) ∈ positions value) :
    ∃ surroundings : Surroundings (path.join place), ∀ e, place.Admits e →
      level sub path (value.put place.tokens e) =
        surroundings.fill (sub (path.join place) e) := by
  obtain ⟨key, inner, q, rfl, hq, rfl⟩ := positions_inv h
  rw [← Pointer.join_assoc]
  obtain ⟨surroundings, fill⟩ := @call_surroundings sub (path.push key) _ _ _ clear key hq
  refine ⟨surroundings, fun e admits => ?_⟩
  have put : (Json.object [(key, inner)]).put (Pointer.join ⟨[key]⟩ q).tokens e =
      .object [(key, inner.put q.tokens e)] := Json.put_member key inner q.tokens e
  rw [put]
  exact fill e admits

end Level

/-! ## Levels -/

/-- A position of an expression that lies some steps further down is a position of an operand, which
is what is put in the place of the operand. -/
lemma inferWithin_surroundings {limit levels n : Nat} {path place : Pointer} {value e : Json}
    (h : (place, e) ∈ positionsAt (n + 1) value) :
    ∃ surroundings : Surroundings (path.join place), ∀ e, place.Admits e →
      inferWithin limit (levels + (n + 1)) path (value.put place.tokens e) =
        surroundings.fill (inferWithin limit levels (path.join place) e) := by
  induction n generalizing value path place with
  | zero =>
    obtain ⟨p, operand, hp, q, hq, rfl⟩ := mem_positionsAt_succ.mp h
    cases List.mem_singleton.mp hq
    rw [Pointer.join_root]
    exact level_surroundings (inferWithin_regular limit levels) hp
  | succ n ih =>
    -- what surrounds the position in the operand is put into what surrounds the operand
    obtain ⟨p, operand, hp, q, hq, rfl⟩ := mem_positionsAt_succ.mp h
    obtain ⟨own, fillOwn⟩ := @ih (path.join p) q operand hq
    obtain ⟨outer, fillOuter⟩ :=
      @level_surroundings _ path _ _ p (inferWithin_regular limit (levels + (n + 1))) hp
    have same : path.join (p.join q) = (path.join p).join q :=
      (Pointer.join_assoc path p q).symm
    have inside : (path.join p).tokens <+: ((path.join p).join q).tokens :=
      List.prefix_append _ q.tokens
    rw [same]
    refine ⟨outer.comp own inside (positionsAt_deeper hq _), fun e admits => ?_⟩
    rw [Surroundings.fill_comp, ← fillOwn e ((positionsAt_admits hq p).mp admits),
      Pointer.join_tokens, Json.put_append (positions_resolve hp)]
    exact fillOuter _ (positionsAt_put_admitted hq p e)

/-- Whatever is put at a position that typing reaches is looked at by typing it there, and in no
other way. -/
lemma inferAt_surroundings {limit depth n : Nat} {path place : Pointer} {value e : Json}
    (h : (place, e) ∈ positionsAt (n + 1) value) (reached : depth + n ≤ limit) :
    ∃ surroundings : Surroundings (path.join place), ∀ e, place.Admits e →
      inferAt limit depth path (value.put place.tokens e) =
        surroundings.fill (inferAt limit (depth + (n + 1)) (path.join place) e) := by
  have levels : limit + 1 - depth = limit + 1 - (depth + (n + 1)) + (n + 1) := by omega
  simp only [inferAt, levels]
  exact inferWithin_surroundings h

end DialogueLint.Typing
