import DialogueLint.Proofs.Typing.Descent
import DialogueLint.Proofs.Typing.Meeting
import DialogueLint.Proofs.Typing.Regular

/-!
# What is found around an operand

An operand is looked at in one way only: it is typed. Before that something may be found elsewhere,
and behind it something that depends on the operand by its families alone (`Frame`). Nothing that is
found around an operand lies inside it, unless the operand has families and they are what is
complained of; and where there is nothing to complain of, there is nothing if the operand gets more
families.

Frames are built in the order in which a call looks at its operands: the operand itself is framed by
its own remark (`Frame.ofOperand`), what is found before it is put in front (`Frame.after`), and
what is found in later operands behind (`Frame.andThen`). For both it has to be shown that nothing
of it lies inside the operand, which is so because items of an array never lie in one another.
-/

namespace DialogueLint

/-- One set can stand for another at an operand: it has all families of the other but perhaps
`null`, and is not empty. -/
def FamilySet.Widens (s t : FamilySet) : Prop :=
  (∀ f, f ≠ .null → s.contains f → t.contains f) ∧ ∃ f, t.contains f

/-- No position asks for `null`, so every other expectation is met by more families. -/
lemma Expectation.accepts_of_widens {expect : Expectation} {s t : FamilySet}
    (proper : expect ≠ .family .null) (wider : s.Widens t) (h : expect.accepts s) :
    expect.accepts t := by
  cases expect with
  | logic => exact Typing.accepts_logic.mpr wider.2
  | family f => exact wider.1 f (fun null => proper (null ▸ rfl)) h

/-! ## What tables ask of operands -/

/-- The rules that operands may have, however many operands there are. -/
def Operands.rules : Operands → List Operand
  | .uniform expect => [.expression expect]
  | .positional rules => rules
  | .byCount layouts => layouts.flatten
  | .ordered => [.expression .logic]
  | .unary => [.expression .logic]

/-- The rule of an operand is one of the rules that the operator has. -/
lemma Operands.mem_rules {operands : Operands} {count : Nat} {rule : Operand}
    (h : rule ∈ operands.layout count) : rule ∈ operands.rules := by
  cases operands with
  | uniform expect => exact List.mem_singleton.mpr (List.eq_of_mem_replicate h)
  | positional rules => exact h
  | byCount layouts =>
    cases found : layouts.find? fun rules => rules.length == count with
    | none => simp [Operands.layout, found] at h
    | some rules =>
      have mem : rule ∈ rules := by simpa [Operands.layout, found] using h
      exact List.mem_flatten_of_mem (List.mem_of_find?_eq_some found) mem
  | ordered => exact List.mem_singleton.mpr (List.eq_of_mem_replicate h)
  | unary => exact h

/-- Rules for arguments as all operators and methods have them: two operands are compared by size,
and none has to be `null`. -/
structure Operands.Usual (arity : Arity) (operands : Operands) : Prop where
  two : operands = .ordered → arity = .exactly 2
  proper : .expression (.family .null) ∉ operands.rules

/-! ## Frames -/

namespace Typing

/-- Nothing is found at a place or inside it. -/
def Outside (place : Pointer) (found : List Diagnostic) : Prop :=
  ∀ d ∈ found, ¬ place.tokens <+: d.path.tokens

/-- Where nothing is found, nothing is found inside. -/
lemma outside_nil (place : Pointer) : Outside place [] :=
  List.forall_mem_nil _

/-- What is found around an operand at a place, given the families of the operand. -/
structure Frame (place : Pointer) where
  /-- What is found before the operand is typed. -/
  before : List Diagnostic
  /-- What is found once the operand is typed. -/
  behind : Option FamilySet → List Diagnostic
  before_outside : Outside place before
  behind_outside : ∀ families?, ∀ d ∈ behind families?, place.tokens <+: d.path.tokens →
    d.path = place ∧ families? ≠ none
  persists : ∀ s t, s.Widens t → behind (some s) = [] → behind (some t) = []

namespace Frame

variable {place : Pointer}

/-- What is found in an operand and around it. -/
def around (frame : Frame place) (o : Outcome FamilySet) : List Diagnostic :=
  frame.before ++ o.diagnostics ++ frame.behind o.result?

/-- Something is found before that lies outside the operand. -/
def after (frame : Frame place) (found : List Diagnostic) (outside : Outside place found) :
    Frame place where
  before := found ++ frame.before
  behind := frame.behind
  before_outside := List.forall_mem_append.mpr ⟨outside, frame.before_outside⟩
  behind_outside := frame.behind_outside
  persists := frame.persists

/-- Something is found behind that lies outside the operand. -/
def andThen (frame : Frame place) (found : List Diagnostic) (outside : Outside place found) :
    Frame place where
  before := frame.before
  behind families? := frame.behind families? ++ found
  before_outside := frame.before_outside
  behind_outside families? := List.forall_mem_append.mpr
    ⟨frame.behind_outside families?, fun d mem inside => absurd inside (outside d mem)⟩
  persists s t wider nothing := by
    obtain ⟨own, more⟩ := List.append_eq_nil_iff.mp nothing
    rw [frame.persists s t wider own, more, List.append_nil]

/-- What is found before an operand comes first. -/
lemma around_after {found : List Diagnostic} {frame : Frame place} {outside : Outside place found}
    {o : Outcome FamilySet} :
    (frame.after found outside).around o = found ++ frame.around o := by
  simp only [around, after, List.append_assoc]

/-- What is found behind an operand comes last. -/
lemma around_andThen {found : List Diagnostic} {frame : Frame place}
    {outside : Outside place found} {o : Outcome FamilySet} :
    (frame.andThen found outside).around o = frame.around o ++ found := by
  simp only [around, andThen, List.append_assoc]

end Frame

/-! ## Operands -/

section Operands

variable {sub : Typer} {name : String} {path : Pointer}

/-- What is complained of when an operand has families that are not expected. -/
def operandRemark (name : String) (expect : Expectation) (path : Pointer) :
    Option FamilySet → List Diagnostic
  | none => []
  | some s =>
    if expect.accepts s then [] else [⟨path, .operandType name expect.wording (wording s)⟩]

/-- An operand is typed, and then remarked on. -/
lemma expressionOperand_eq (expect : Expectation) (e : Json) :
    expressionOperand sub name expect path e =
      (sub path e).diagnostics ++ operandRemark name expect path (sub path e).result? := by
  simp only [expressionOperand]
  cases (sub path e).result? <;> rfl

/-- An operand of the wrong family is complained of where it stands, if it has families. -/
lemma operandRemark_path {expect : Expectation} {families? : Option FamilySet} :
    ∀ d ∈ operandRemark name expect path families?, d.path = path ∧ families? ≠ none := by
  intro d mem
  cases families? with
  | none => cases mem
  | some s =>
    simp only [operandRemark] at mem
    split_ifs at mem
    · cases mem
    · cases List.mem_singleton.mp mem
      exact ⟨rfl, Option.some_ne_none s⟩

/-- An operand of an expected family has an expected family if it gets more. -/
lemma operandRemark_persists {expect : Expectation} (proper : expect ≠ .family .null)
    {s t : FamilySet} (wider : s.Widens t)
    (nothing : operandRemark name expect path (some s) = []) :
    operandRemark name expect path (some t) = [] := by
  have accepts : expect.accepts s := by
    by_contra refused
    simp [operandRemark, refused] at nothing
  simp only [operandRemark, expect.accepts_of_widens proper wider accepts, if_true]

/-- The frame of an operand by itself: all that is found is what is complained of. -/
def Frame.ofOperand (name : String) (path : Pointer) (expect : Expectation)
    (proper : expect ≠ .family .null) : Frame path where
  before := []
  behind := operandRemark name expect path
  before_outside := outside_nil _
  behind_outside _ d mem _ := operandRemark_path d mem
  persists _ _ := operandRemark_persists proper

/-- What is found in an item lies outside every other item. -/
lemma outside_item {found : Findings} {i j : Nat} (clear : Clear found) (different : i ≠ j) :
    Outside (path.item j) (found (path.item i)) := by
  intro d mem
  have diverge : Diverge (path.item i).tokens (path.item j).tokens :=
    (diverge_singleton fun same => different (toString_nat_injective same)).below path.tokens
  exact diverge.not_inside (clear.within d mem)

/-- What is found in the items from an index on lies outside every item before. -/
lemma outside_from {found : Findings} {i j : Nat} (clear : Clear found)
    (later : Findings.From j found) (less : i < j) :
    Outside (path.item i) (found path) := by
  intro d mem
  rw [clear.moves] at mem
  obtain ⟨e, he, rfl⟩ := List.mem_map.mp mem
  obtain ⟨k, le, inside⟩ := later e he
  have diverge : Diverge [toString k] [toString i] := diverge_singleton fun same => by
    have := toString_nat_injective same
    omega
  have below : path.tokens ++ [toString k] <+: (Diagnostic.below path e).path.tokens :=
    (List.prefix_append_right_inj path.tokens).mpr inside
  exact (diverge.below path.tokens).not_inside below

/-- The other operands of an operand are looked at before it or behind it. -/
lemma operandsFrom_frame (clear : Regular sub) {index i : Nat} {rules : List Operand}
    {values : List Json} {expect : Expectation} {e : Json}
    (rule : rules[i]? = some (.expression expect)) (there : values[i]? = some e)
    (proper : expect ≠ .family .null) :
    ∃ frame : Frame (path.item (index + i)), ∀ e,
      operandsFrom sub name path index rules (values.set i e) =
        frame.around (sub (path.item (index + i)) e) := by
  induction values generalizing index i rules with
  | nil => cases there
  | cons value values ih =>
    cases rules with
    | nil => cases rule
    | cons first rules =>
      cases i with
      | zero =>
        -- the operand comes first, and the others are found behind it
        cases rule
        obtain ⟨rest, later⟩ := @operandsFrom_clear sub name clear (index + 1) rules values
        refine ⟨(Frame.ofOperand name (path.item index) expect proper).andThen
          (operandsFrom sub name path (index + 1) rules values)
          (outside_from rest later (Nat.lt_succ_self index)), fun e => ?_⟩
        rw [Frame.around_andThen]
        exact congrArg (· ++ _) (expressionOperand_eq expect e)
      | succ i =>
        -- the first operand is found before whatever the frame of the rest finds
        obtain ⟨frame, around⟩ := @ih (index + 1) i rules rule there
        have own : Clear fun path => operand sub name first path value := operand_clear clear
        have shift : index + (i + 1) = index + 1 + i := by omega
        rw [shift]
        refine ⟨frame.after (operand sub name first (path.item index) value)
          (outside_item own (by omega)), fun e => ?_⟩
        rw [Frame.around_after, ← around]
        rfl

/-- What is complained of when two operands are compared by size. -/
def comparisonRemark (name : String) (path : Pointer) :
    Option FamilySet → Option FamilySet → List Diagnostic
  | some l, some r => if l.ordered.any r.contains then [] else [incomparable name path l r]
  | _, _ => []

/-- Both operands of a comparison are typed, and then remarked on together. -/
lemma comparison_eq (a b : Json) :
    comparison sub name path a b =
      (sub (path.item 0) a).diagnostics ++ (sub (path.item 1) b).diagnostics ++
        comparisonRemark name path (sub (path.item 0) a).result? (sub (path.item 1) b).result? := by
  simp only [comparison]
  cases (sub (path.item 0) a).result? with
  | none => rfl
  | some l => cases (sub (path.item 1) b).result? <;> rfl

/-- Two operands that do not compare are complained of at one of them, and both have families. -/
lemma comparisonRemark_path {left? right? : Option FamilySet} {i : Nat} :
    ∀ d ∈ comparisonRemark name path left? right?, (path.item i).tokens <+: d.path.tokens →
      d.path = path.item i ∧ left? ≠ none ∧ right? ≠ none := by
  intro d mem inside
  cases left? with
  | none => cases mem
  | some l =>
    cases right? with
    | none => cases mem
    | some r =>
      refine ⟨?_, Option.some_ne_none l, Option.some_ne_none r⟩
      -- which of the two is blamed depends on their families, but items do not lie in one another
      have one : ∃ j, d.path = path.item j := by
        simp only [comparisonRemark] at mem
        split_ifs at mem
        · cases mem
        · cases List.mem_singleton.mp mem
          unfold incomparable
          split_ifs
          · exact ⟨0, rfl⟩
          · exact ⟨1, rfl⟩
      obtain ⟨j, same⟩ := one
      by_contra different
      have apart : toString j ≠ toString i := by
        intro equal
        rw [toString_nat_injective equal] at same
        exact different same
      rw [same] at inside
      exact ((diverge_singleton apart).below path.tokens).2 inside

/-- Two sets share a family that can be compared by size. -/
lemma ordered_any_iff {l r : FamilySet} :
    l.ordered.any r.contains ↔ ∃ f ∈ Family.ordered, l.contains f ∧ r.contains f := by
  simp only [FamilySet.ordered, List.any_filter, List.any_eq_true, Bool.and_eq_true]

/-- What is shared is not `null`, so it is shared by more families as well. -/
lemma comparisonRemark_persists {l r l' r' : FamilySet}
    (left : ∀ f, f ≠ .null → l.contains f → l'.contains f)
    (right : ∀ f, f ≠ .null → r.contains f → r'.contains f)
    (nothing : comparisonRemark name path (some l) (some r) = []) :
    comparisonRemark name path (some l') (some r') = [] := by
  have shared : l.ordered.any r.contains := by
    by_contra none
    simp [comparisonRemark, none] at nothing
  obtain ⟨f, comparable, hl, hr⟩ := ordered_any_iff.mp shared
  have proper : f ≠ .null := by
    rintro rfl
    exact absurd comparable (by decide)
  have still : l'.ordered.any r'.contains :=
    ordered_any_iff.mpr ⟨f, comparable, left f proper hl, right f proper hr⟩
  simp only [comparisonRemark, still, if_true]

/-- The frame of the left of two operands that are compared by size, given what is found in the
right one and its families. -/
def Frame.ofLeft (name : String) (path : Pointer) (found : List Diagnostic)
    (right? : Option FamilySet) (beside : Outside (path.item 0) found) :
    Frame (path.item 0) where
  before := []
  behind left? := found ++ comparisonRemark name path left? right?
  before_outside := outside_nil _
  behind_outside left? := by
    refine List.forall_mem_append.mpr ⟨fun d mem inside => absurd inside (beside d mem), ?_⟩
    intro d mem inside
    obtain ⟨here, some, -⟩ := comparisonRemark_path d mem inside
    exact ⟨here, some⟩
  persists s t wider nothing := by
    obtain ⟨own, remark⟩ := List.append_eq_nil_iff.mp nothing
    rw [own, List.nil_append]
    cases right? with
    | none => rfl
    | some r => exact comparisonRemark_persists wider.1 (fun _ _ h => h) remark

/-- The frame of the right of two operands that are compared by size, given what is found in the
left one and its families. -/
def Frame.ofRight (name : String) (path : Pointer) (found : List Diagnostic)
    (left? : Option FamilySet) (beside : Outside (path.item 1) found) :
    Frame (path.item 1) where
  before := found
  behind := comparisonRemark name path left?
  before_outside := beside
  behind_outside right? d mem inside := by
    obtain ⟨here, -, some⟩ := comparisonRemark_path d mem inside
    exact ⟨here, some⟩
  persists s t wider nothing := by
    cases left? with
    | none => rfl
    | some l => exact comparisonRemark_persists (fun _ _ h => h) wider.1 nothing

/-- Of two operands that are compared by size, the left is looked at before the right. -/
lemma comparison_left_frame (clear : Regular sub) (b : Json) :
    ∃ frame : Frame (path.item 0), ∀ e,
      comparison sub name path e b = frame.around (sub (path.item 0) e) := by
  have beside : Outside (path.item 0) (sub (path.item 1) b).diagnostics :=
    outside_item (clear b).found (by decide)
  refine ⟨Frame.ofLeft name path _ (sub (path.item 1) b).result? beside, fun e => ?_⟩
  rw [comparison_eq]
  exact List.append_assoc _ _ _

/-- Of two operands that are compared by size, the right is looked at behind the left. -/
lemma comparison_right_frame (clear : Regular sub) (a : Json) :
    ∃ frame : Frame (path.item 1), ∀ e,
      comparison sub name path a e = frame.around (sub (path.item 1) e) :=
  ⟨Frame.ofRight name path _ (sub (path.item 0) a).result?
    (outside_item (clear a).found (by decide)), comparison_eq a⟩

/-! ## Argument arrays -/

/-- What is found around an operand of an array of accepted size. -/
lemma operandArray_frame (clear : Regular sub) {arity : Arity} {operands : Operands}
    (usual : Operands.Usual arity operands) {values : List Json} {i : Nat} {expect : Expectation}
    {e : Json} (accepts : arity.accepts values.length)
    (rule : (operands.layout values.length)[i]? = some (.expression expect))
    (there : values[i]? = some e) :
    ∃ frame : Frame (path.item i), ∀ e,
      operandArray sub name arity operands path (values.set i e) =
        frame.around (sub (path.item i) e) := by
  have proper : expect ≠ .family .null := by
    rintro rfl
    exact usual.proper (Operands.mem_rules (List.mem_of_getElem? rule))
  simp only [operandArray, List.length_set, accepts, if_true]
  cases operands with
  | ordered =>
    have two : values.length = 2 := by simpa [usual.two rfl] using accepts
    obtain ⟨a, b, rfl⟩ := List.length_eq_two.mp two
    cases i with
    | zero => exact comparison_left_frame clear b
    | succ i =>
      cases i with
      | zero => exact comparison_right_frame clear a
      | succ i => cases there
  | uniform _ | positional _ | byCount _ | unary =>
    have framed := @operandsFrom_frame sub name path clear 0 i _ values expect e rule there proper
    rw [Nat.zero_add] at framed
    simpa only [List.length_set] using framed

/-- What is found around a position in an argument array, whatever is put there. -/
lemma arrayPositions_frame (clear : Regular sub) {arity : Arity} {operands : Operands}
    (usual : Operands.Usual arity operands) {value : Json} {place : Pointer} {e : Json}
    (h : (place, e) ∈ arrayPositions arity operands value) :
    ∃ frame : Frame (path.join place), ∀ e,
      argumentArray sub name arity operands path (value.put place.tokens e) =
        frame.around (sub (path.join place) e) := by
  obtain ⟨values, i, expect, rfl, rfl, accepts, rule, there⟩ := arrayPositions_inv h
  have put : ∀ e, (Json.array values).put (Pointer.root.item i).tokens e =
      .array (values.set i e) := Json.put_index values i
  simp only [put]
  exact operandArray_frame clear usual accepts rule there

/-! ## Single operands -/

/-- The single operand stands in an item, or where the operator's array would. There it must not be
an array itself. -/
lemma unaryPositions_frame {arity : Arity} {value : Json} {place : Pointer} {operand : Json}
    (h : (place, operand) ∈ unaryPositions value) :
    ∃ frame : Frame (path.join place), ∀ e, (place = .root → ∀ items, e ≠ .array items) →
      unaryOperand sub name arity path (value.put place.tokens e) =
        frame.around (sub (path.join place) e) := by
  rcases unaryPositions_inv h with ⟨rfl, rfl⟩ | ⟨rfl, rfl, -⟩
  · refine ⟨Frame.ofOperand name (path.item 0) .logic nofun, fun e _ => ?_⟩
    have put : (Json.array [operand]).put (Pointer.root.item 0).tokens e = .array [e] :=
      Json.put_index [operand] 0 e
    rw [put]
    exact expressionOperand_eq .logic e
  · rw [Pointer.join_root]
    refine ⟨Frame.ofOperand name path .logic nofun, fun e bare => ?_⟩
    simp only [Pointer.root, Json.put_nil]
    cases e with
    | array items => exact absurd rfl (bare rfl items)
    | _ => exact expressionOperand_eq .logic _

end Operands

end Typing

end DialogueLint
