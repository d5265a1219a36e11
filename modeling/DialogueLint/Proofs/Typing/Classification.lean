import DialogueLint.Proofs.Typing.Complaint
import DialogueLint.Proofs.Typing.Depth
import DialogueLint.Proofs.Typing.Tables

/-!
# Which families an expression can have

The families that typing gives are of few forms (`Classified`): `null` has its own family alone, a
text has four, what stands for a value of no particular family has all but `null`, and everything
else has one. Only methods that count dates and times on and back can have some of three, because
methods of one name are told apart by their receiver; which, depends on the families of the receiver
(`overload_contains`). This is so whatever is wrong with the expression, as long as it has families
at all (`level_classified`).

The tables enter by a few facts that are decided over all rows: methods that count give the family
that they are called on, methods of one other name give one result, and only a choice is an operator
with a result of no particular family. The rest follows the functions of a level from the inside
out, and is said of outcomes that have families, whatever else they report. No induction is needed,
because a level takes no more than the families of the receiver from below.
-/

namespace DialogueLint

open Typing Grammar

/-! ## Families of shapes -/

/-- A boolean is of one family. -/
lemma Shape.families_bool : (literal .bool).families = .of .boolean := by
  decide

/-- A number is of one family. -/
lemma Shape.families_number : (literal .number).families = .of .numeric := by
  decide

/-- A text may stand for a date or a time as well. -/
lemma Shape.families_text : (literal .text).families = .ofList textual := by
  decide

/-- A result of no particular family is of every family but `null`. -/
lemma Shape.resultFamilies_any : resultFamilies .any = .ofList Family.proper := by
  decide

/-- Any other result is of its own family alone. -/
lemma Shape.resultFamilies_single {result : Family} (notAny : result ≠ .any)
    (notNull : result ≠ .null) : resultFamilies result = .of result := by
  cases result with
  | any => exact absurd rfl notAny
  | null => exact absurd rfl notNull
  | _ => decide

namespace Typing

/-! ## Forms of expressions -/

/-- The expressions of no particular family: look-ups, loop items, choices and items of lists. -/
def IsUnspecific (e : Json) : Prop :=
  (∃ key ∈ ["var", "current", "if"], ∃ value, e = .object [(key, value)]) ∨
    ∃ receiver rest, e = methodCallOf receiver "getItem" rest

/-- The names of the methods that count dates and times on and back. -/
def IsCounting (name : String) : Prop :=
  ∃ verb ∈ ["add", "subtract"], ∃ unit ∈ Method.timeUnits ++ Method.dateUnits, name = verb ++ unit

instance (name : String) : Decidable (IsCounting name) :=
  inferInstanceAs (Decidable (∃ verb ∈ ["add", "subtract"],
    ∃ unit ∈ Method.timeUnits ++ Method.dateUnits, name = verb ++ unit))

/-- The families of a value that is counted on or back, given those of the receiver: of the families
that methods of the name are called on, those of the receiver or, if it has none of them, all. -/
def Counted (name : String) (receiver? : Option FamilySet) (f : Family) : Prop :=
  f ∈ receiverFamilies (Method.named name) ∧
    ∀ s ∈ receiver?, s.contains f ∨ ∀ g ∈ receiverFamilies (Method.named name), ¬ s.contains g

/-- The expressions that have a family of their own. -/
structure IsSpecific (e : Json) : Prop where
  notText : ∀ text, e ≠ .string text
  notUnspecific : ¬ IsUnspecific e
  notCounting : ∀ receiver name rest, e = methodCallOf receiver name rest → ¬ IsCounting name

/-- The families that an expression can have, given those of the receivers of methods. -/
inductive Classified (receiver? : Json → Option FamilySet) : Json → FamilySet → Prop
  | null : Classified receiver? .null (.of .null)
  | text {text} : Classified receiver? (.string text) (.ofList textual)
  | unspecific {e} : IsUnspecific e → Classified receiver? e (.ofList Family.proper)
  | counting {receiver name rest s} : IsCounting name →
      (∀ f, s.contains f ↔ Counted name (receiver? receiver) f) →
      Classified receiver? (methodCallOf receiver name rest) s
  | single {e f} : IsSpecific e → e ≠ .null → f ≠ .any → f ≠ .null → Classified receiver? e (.of f)

/-- Only objects are of no particular family. -/
lemma not_isUnspecific {e : Json} (notObject : ∀ members, e ≠ .object members) :
    ¬ IsUnspecific e := by
  rintro (⟨key, -, value, same⟩ | ⟨receiver, rest, same⟩)
  · exact notObject _ same
  · exact notObject _ same

/-- Whatever is neither a text nor an object has a family of its own. -/
lemma isSpecific_of_no_call {e : Json} (notText : ∀ text, e ≠ .string text)
    (notObject : ∀ members, e ≠ .object members) : IsSpecific e where
  notText := notText
  notUnspecific := not_isUnspecific notObject
  notCounting _ _ _ same := absurd same (notObject _)

/-- A call of an operator other than a choice has a family of its own. -/
lemma isSpecific_of_key {key : String} {value : Json} (other : key ∉ ["var", "current", "if"])
    (noMethod : key ≠ "method") : IsSpecific (.object [(key, value)]) where
  notText := by simp
  notUnspecific := by
    rintro (⟨_, hkey, _, same⟩ | ⟨_, _, same⟩)
    · cases same
      exact other hkey
    · cases same
      exact noMethod rfl
  notCounting := by
    rintro _ _ _ same
    cases same
    exact absurd rfl noMethod

/-- So has a call of a method that neither counts nor takes an item of a list. -/
lemma isSpecific_of_method {receiver : Json} {name : String} {rest : List Json}
    (noItem : name ≠ "getItem") (plain : ¬ IsCounting name) :
    IsSpecific (methodCallOf receiver name rest) where
  notText := by simp
  notUnspecific := by
    rintro (⟨_, hkey, _, same⟩ | ⟨_, _, same⟩)
    · cases same
      exact absurd hkey (by decide)
    · cases same
      exact noItem rfl
  notCounting := by
    rintro _ _ _ same
    cases same
    exact plain

/-! ## Calls -/

section Calls

variable {sub : Typer} {name : String} {path : Pointer} {receiver : Json} {rest : List Json}
  {s : FamilySet} {f : Family}

/-- The families of a call are those of the methods that the receiver chooses: the methods that can
be called on it or, if there are none, all of them. -/
lemma overload_contains {methods : List Method} {receiver? : Option FamilySet}
    (h : (overload name methods path receiver?).result? = some s) :
    s.contains f ↔ ∃ m ∈ methods, (Shape.resultFamilies m.result).contains f ∧
      ∀ t ∈ receiver?, takes t m ∨ ∀ n ∈ methods, ¬ takes t n := by
  cases receiver? with
  | none =>
    cases h
    simp [contains_results]
  | some t =>
    cases hmatching : methods.filter (takes t) with
    | nil =>
      have none : ∀ n ∈ methods, ¬ takes t n := List.filter_eq_nil_iff.mp hmatching
      simp only [overload, hmatching, Option.some.injEq] at h
      subst h
      rw [contains_results]
      constructor
      · rintro ⟨m, hm, hf⟩
        exact ⟨m, hm, hf, fun u hu => .inr (by cases hu; exact none)⟩
      · rintro ⟨m, hm, hf, -⟩
        exact ⟨m, hm, hf⟩
    | cons m matching =>
      have some : m ∈ methods ∧ takes t m := List.mem_filter.mp (hmatching ▸ List.mem_cons_self)
      simp only [overload, hmatching, Outcome.ok, Option.some.injEq] at h
      subst h
      rw [contains_results, ← hmatching]
      constructor
      · rintro ⟨n, hn, hf⟩
        obtain ⟨hn, taken⟩ := List.mem_filter.mp hn
        exact ⟨n, hn, hf, fun u hu => .inl (by cases hu; exact taken)⟩
      · rintro ⟨n, hn, hf, chosen⟩
        rcases chosen t rfl with taken | none
        · exact ⟨n, List.mem_filter.mpr ⟨hn, taken⟩, hf⟩
        · exact absurd some.2 (none m some.1)

/-- Of methods with one result, whichever are chosen give that result. -/
lemma overload_uniform {methods : List Method} {receiver? : Option FamilySet} {result : Family}
    (nonempty : methods ≠ []) (same : ∀ m ∈ methods, m.result = result)
    (h : (overload name methods path receiver?).result? = some s) :
    s = Shape.resultFamilies result := by
  have choice : ∃ m ∈ methods, ∀ t ∈ receiver?, takes t m ∨ ∀ n ∈ methods, ¬ takes t n := by
    by_cases taken : ∃ m ∈ methods, ∀ t ∈ receiver?, takes t m
    · obtain ⟨m, hm, taken⟩ := taken
      exact ⟨m, hm, fun t ht => .inl (taken t ht)⟩
    · obtain ⟨m, hm⟩ := List.exists_mem_of_ne_nil _ nonempty
      refine ⟨m, hm, fun t ht => .inr fun n hn htakes => taken ⟨n, hn, fun u hu => ?_⟩⟩
      rwa [Option.mem_unique hu ht]
  ext f
  rw [Bool.eq_iff_iff, overload_contains h]
  constructor
  · rintro ⟨m, hm, hf, -⟩
    rwa [same m hm] at hf
  · intro hf
    obtain ⟨m, hm, chosen⟩ := choice
    exact ⟨m, hm, (same m hm).symm ▸ hf, chosen⟩

/-- A family is one of the receivers' if a method is called on it. -/
lemma mem_receiverFamilies {methods : List Method} :
    f ∈ receiverFamilies methods ↔ ∃ m ∈ methods, m.receiver = .family f := by
  rw [receiverFamilies, List.mem_filterMap]
  refine exists_congr fun m => and_congr_right fun _ => ?_
  cases m.receiver <;> simp

/-- A method that counts is called on the family that it gives, a date or time. -/
lemma named_counting {m : Method} (counting : IsCounting name) (named : m ∈ Method.named name) :
    m.receiver = .family m.result ∧ m.result ∈ [.date, .dateTime, .time] := by
  have table : ∀ m ∈ Method.table, IsCounting m.name →
      m.receiver = .family m.result ∧ m.result ∈ [.date, .dateTime, .time] := by
    decide
  obtain ⟨mem, hname⟩ := List.mem_filter.mp named
  obtain rfl : m.name = name := by simpa using hname
  exact table m mem counting

/-- Other methods of one name have one result, which is of no particular family for items of lists
only. -/
lemma named_plain {m n : Method} (plain : ¬ IsCounting name) (hm : m ∈ Method.named name)
    (hn : n ∈ Method.named name) :
    n.result = m.result ∧ (m.result = .any ↔ name = "getItem") := by
  have table : ∀ m ∈ Method.table, ¬ IsCounting m.name →
      (∀ n ∈ Method.table, n.name = m.name → n.result = m.result) ∧
        (m.result = .any ↔ m.name = "getItem") := by
    decide
  obtain ⟨mem, mname⟩ := List.mem_filter.mp hm
  obtain ⟨other, nname⟩ := List.mem_filter.mp hn
  obtain rfl : m.name = name := by simpa using mname
  obtain ⟨same, unspecific⟩ := table m mem plain
  exact ⟨same n other (by simpa using nname), unspecific⟩

/-- Methods that count are called on the families that they give. -/
lemma mem_counting_families (counting : IsCounting name) :
    f ∈ receiverFamilies (Method.named name) ↔ ∃ m ∈ Method.named name, m.result = f := by
  rw [mem_receiverFamilies]
  refine exists_congr fun m => and_congr_right fun hm => ?_
  rw [(named_counting counting hm).1, Receiver.family.injEq]

/-- Only dates and times are counted on and back. -/
lemma Counted.temporal {receiver? : Option FamilySet} (h : Counted name receiver? f)
    (counting : IsCounting name) : f ∈ [.date, .dateTime, .time] := by
  obtain ⟨m, hm, rfl⟩ := (mem_counting_families counting).mp h.1
  exact (named_counting counting hm).2

/-- A value that is counted on or back has the families of the methods that the receiver chooses. -/
lemma overload_counted {receiver? : Option FamilySet} (counting : IsCounting name)
    (h : (overload name (Method.named name) path receiver?).result? = some s) :
    s.contains f ↔ Counted name receiver? f := by
  have takes : ∀ m ∈ Method.named name, ∀ t, takes t m ↔ t.contains m.result := by
    intro m hm t
    simp only [Typing.takes, (named_counting counting hm).1]
  have own : ∀ m ∈ Method.named name,
      (Shape.resultFamilies m.result).contains f ↔ m.result = f := by
    have single : ∀ g ∈ [.date, .dateTime, .time], Shape.resultFamilies g = .of g := by decide
    intro m hm
    rw [single m.result (named_counting counting hm).2, FamilySet.contains_of, beq_iff_eq, eq_comm]
  unfold Counted
  simp only [overload_contains h, mem_counting_families counting]
  constructor
  · rintro ⟨m, hm, hf, chosen⟩
    refine ⟨⟨m, hm, (own m hm).mp hf⟩, fun t ht => (chosen t ht).imp ?_ ?_⟩
    · intro taken
      exact (own m hm).mp hf ▸ (takes m hm t).mp taken
    · rintro none g ⟨n, hn, rfl⟩ there
      exact none n hn ((takes n hn t).mpr there)
  · rintro ⟨⟨m, hm, rfl⟩, chosen⟩
    refine ⟨m, hm, (own m hm).mpr rfl, fun t ht => (chosen t ht).imp (takes m hm t).mpr ?_⟩
    intro none n hn taken
    exact none n.result ⟨n, hn, rfl⟩ ((takes n hn t).mp taken)

/-- A call of a method has the families of the method. -/
lemma namedCall_classified
    (h : (namedCall sub name path (receiver :: .string name :: rest)).result? = some s) :
    Classified (fun v => (sub (path.item 0) v).result?) (methodCallOf receiver name rest) s := by
  cases hnamed : Method.named name with
  | nil => simp [namedCall, hnamed, Outcome.fail] at h
  | cons first others =>
    have mem : first ∈ Method.named name := hnamed ▸ List.mem_cons_self
    have hname : first.name = name := by simpa using (List.mem_filter.mp mem).2
    have chosen : (overload name (Method.named name) (path.item 0)
        (Typing.receiver sub first (path.item 0) receiver).result?).result? = some s := by
      simp only [namedCall, hnamed] at h
      rw [hnamed, ← hname]
      split at h
      · rename_i items
        cases items
        exact h
      · rename_i items
        cases items
        exact h
      · cases h
    by_cases counting : IsCounting name
    · refine .counting counting fun f => ?_
      have called := (named_counting counting mem).1
      simp only [Typing.receiver, called] at chosen
      exact overload_counted counting chosen
    · have same : ∀ m ∈ Method.named name, m.result = first.result :=
        fun m hm => (named_plain counting mem hm).1
      obtain rfl := overload_uniform (List.ne_nil_of_mem mem) same chosen
      by_cases item : name = "getItem"
      · rw [(named_plain counting mem mem).2.mpr item, Shape.resultFamilies_any]
        exact .unspecific (.inr ⟨receiver, rest, item ▸ rfl⟩)
      · have notAny : first.result ≠ .any := mt (named_plain counting mem mem).2.mp item
        have notNull := (method_uniform (List.mem_filter.mp mem).1).2
        rw [Shape.resultFamilies_single notAny notNull]
        exact .single (isSpecific_of_method item counting) (by simp) notAny notNull

/-- Only a choice is an operator with a result of no particular family. -/
lemma operator_unspecific {key : String} {operator : Operator}
    (found : Operator.ofName? key = some operator) : operator.result = .any ↔ key = "if" := by
  have table : ∀ operator ∈ Operator.table, operator.result = .any ↔ operator.name = "if" := by
    decide
  have hname : operator.name = key := by simpa using List.find?_some found
  exact hname ▸ table operator (List.mem_of_find?_eq_some found)

/-- A look-up is of every family but `null`. -/
lemma lookup_classified {value : Json} (h : (lookup path value).result? = some s) :
    s = .ofList Family.proper := by
  cases value with
  | string r =>
    cases h
    exact Shape.resultFamilies_any
  | _ => cases h

/-- A loop item is of every family but `null`. -/
lemma loopItem_classified {value : Json} (h : (loopItem path value).result? = some s) :
    s = .ofList Family.proper := by
  cases value with
  | string tag =>
    cases h
    exact Shape.resultFamilies_any
  | _ => cases h

/-- What stands behind a single key has the families that the key gives it. -/
lemma call_classified {key : String} {value : Json}
    (h : (call sub (path.push key) key value).result? = some s) :
    Classified (fun v => (sub ((path.push "method").item 0) v).result?)
      (.object [(key, value)]) s := by
  unfold call at h
  split_ifs at h with hvar hcurrent hmethod
  · rw [lookup_classified h, hvar]
    exact .unspecific (.inl ⟨"var", by decide, value, rfl⟩)
  · rw [loopItem_classified h, hcurrent]
    exact .unspecific (.inl ⟨"current", by decide, value, rfl⟩)
  · rw [hmethod] at h ⊢
    unfold methodCall at h
    split at h
    · split at h
      · exact namedCall_classified h
      · cases h
      · cases h
    · cases h
  · split at h
    · rename_i operator found
      cases h
      by_cases choice : key = "if"
      · rw [(operator_unspecific found).mpr choice, Shape.resultFamilies_any, choice]
        exact .unspecific (.inl ⟨"if", by decide, value, rfl⟩)
      · have notAny : operator.result ≠ .any := mt (operator_unspecific found).mp choice
        have notNull := (operator_uniform found).2
        have specific : IsSpecific (.object [(key, value)]) :=
          isSpecific_of_key (by simp [hvar, hcurrent, choice]) hmethod
        rw [Shape.resultFamilies_single notAny notNull]
        exact .single specific (by simp) notAny notNull
    · cases h

end Calls

/-- Whatever families the operands have, if any, those of a level are of one of the few forms. -/
lemma level_classified {sub : Typer} {path : Pointer} {e : Json} {s : FamilySet}
    (h : (level sub path e).result? = some s) :
    Classified (fun v => (sub ((path.push "method").item 0) v).result?) e s := by
  cases e with
  | null =>
    cases h
    exact .null
  | bool b =>
    cases h
    rw [Shape.families_bool]
    exact .single (isSpecific_of_no_call nofun nofun) nofun nofun nofun
  | number n =>
    cases h
    rw [Shape.families_number]
    exact .single (isSpecific_of_no_call nofun nofun) nofun nofun nofun
  | string text =>
    cases h
    rw [Shape.families_text]
    exact .text
  | array items => cases h
  | object members =>
    cases members with
    | nil => cases h
    | cons member members =>
      obtain ⟨key, value⟩ := member
      cases members with
      | nil => exact call_classified h
      | cons other members => cases h

/-! ## What the forms have in common -/

/-- A value that is counted on or back is no item of a list, nor any other expression of no
particular family. -/
lemma IsCounting.not_unspecific {name : String} {receiver : Json} {rest : List Json}
    (counting : IsCounting name) : ¬ IsUnspecific (methodCallOf receiver name rest) := by
  rintro (⟨key, hkey, value, same⟩ | ⟨_, _, same⟩)
  · cases same
    exact absurd hkey (by decide)
  · cases same
    exact absurd counting (by decide)

/-- Whatever the receiver is, a value that is counted on or back has a family. -/
lemma IsCounting.exists_counted {name : String} (counting : IsCounting name)
    (receiver? : Option FamilySet) : ∃ f, Counted name receiver? f := by
  have some : receiverFamilies (Method.named name) ≠ [] := by
    have each : ∀ verb ∈ ["add", "subtract"], ∀ unit ∈ Method.timeUnits ++ Method.dateUnits,
        receiverFamilies (Method.named (verb ++ unit)) ≠ [] := by
      decide
    obtain ⟨verb, hverb, unit, hunit, rfl⟩ := counting
    exact each verb hverb unit hunit
  by_cases shared : ∃ s ∈ receiver?, ∃ f ∈ receiverFamilies (Method.named name), s.contains f
  · obtain ⟨s, hs, f, hf, there⟩ := shared
    exact ⟨f, hf, fun t ht => .inl (Option.mem_unique hs ht ▸ there)⟩
  · obtain ⟨f, hf⟩ := List.exists_mem_of_ne_nil _ some
    exact ⟨f, hf, fun s hs => .inr fun g hg there => shared ⟨s, hs, g, hg, there⟩⟩

namespace Classified

variable {receiver? : Json → Option FamilySet} {e : Json} {s : FamilySet}

/-- An expression that has families has at least one. -/
lemma nonempty (h : Classified receiver? e s) : ∃ f, s.contains f := by
  cases h with
  | null => exact ⟨.null, rfl⟩
  | text => exact ⟨.string, rfl⟩
  | unspecific => exact ⟨.any, rfl⟩
  | counting counting families =>
    obtain ⟨f, hf⟩ := counting.exists_counted (receiver? _)
    exact ⟨f, (families f).mpr hf⟩
  | @single _ f => exact ⟨f, by simp⟩

/-- Only `null` has its family, and no other. -/
lemma contains_null (h : Classified receiver? e s) : s.contains .null ↔ e = .null := by
  cases h with
  | null => simp
  | text => simp [textual]
  | unspecific unspecific =>
    have notNull : e ≠ .null := by
      rintro rfl
      exact absurd unspecific (not_isUnspecific (by simp))
    simp [Family.proper, notNull]
  | counting counting families =>
    rw [families]
    simp only [reduceCtorEq, iff_false]
    exact fun counted => absurd (counted.temporal counting) (by decide)
  | @single _ f _ notNull _ proper => simp [notNull, proper.symm]

/-- What belongs to no particular family is what stands for any value, and belongs to all families
but `null`. -/
lemma contains_any (h : Classified receiver? e s) :
    (s.contains .any ↔ IsUnspecific e) ∧ (IsUnspecific e → s = .ofList Family.proper) := by
  cases h with
  | null =>
    have not : ¬ IsUnspecific .null := not_isUnspecific (by simp)
    exact ⟨by simp [not], fun h => absurd h not⟩
  | @text text =>
    have not : ¬ IsUnspecific (.string text) := not_isUnspecific (by simp)
    exact ⟨by simp [textual, not], fun h => absurd h not⟩
  | unspecific unspecific => exact ⟨by simp [Family.proper, unspecific], fun _ => rfl⟩
  | counting counting families =>
    rw [families]
    refine ⟨iff_of_false ?_ counting.not_unspecific, fun h => absurd h counting.not_unspecific⟩
    exact fun counted => absurd (counted.temporal counting) (by decide)
  | @single _ f specific _ proper _ =>
    refine ⟨iff_of_false ?_ specific.notUnspecific, fun h => absurd h specific.notUnspecific⟩
    simp [proper.symm]

/-- The families of a value that is counted on or back are those that its receiver leaves. -/
lemma counted (h : Classified receiver? e s) {receiver : Json} {name : String} {rest : List Json}
    (call : e = methodCallOf receiver name rest) (counting : IsCounting name) (f : Family) :
    s.contains f ↔ Counted name (receiver? receiver) f := by
  cases h with
  | null | text => cases call
  | unspecific unspecific => exact absurd (call ▸ unspecific) counting.not_unspecific
  | counting _ families =>
    cases call
    exact families f
  | single specific => exact absurd counting (specific.notCounting _ _ _ call)

/-- A text has the four families of texts. -/
lemma eq_of_text (h : Classified receiver? e s) {text : String} (literal : e = .string text) :
    s = .ofList textual := by
  cases h with
  | null | counting => cases literal
  | text => rfl
  | unspecific unspecific =>
    subst literal
    exact absurd unspecific (not_isUnspecific (by simp))
  | single specific => exact absurd literal (specific.notText text)

/-- An expression with a family of its own has that one alone. -/
lemma eq_of_specific (h : Classified receiver? e s) (specific : IsSpecific e) :
    ∃ f, s = .of f := by
  cases h with
  | @text text => exact absurd rfl (specific.notText text)
  | unspecific unspecific => exact absurd unspecific specific.notUnspecific
  | counting counting => exact absurd counting (specific.notCounting _ _ _ rfl)
  | null => exact ⟨.null, rfl⟩
  | @single _ f => exact ⟨f, rfl⟩

end Classified

/-! ## All levels -/

section Levels

variable {limit depth : Nat} {path : Pointer} {e : Json}

/-- With so many levels left, families are of one of the few forms. -/
lemma inferWithin_classified {levels : Nat} {s : FamilySet}
    (h : (inferWithin limit (levels + 1) path e).result? = some s) :
    Classified (fun v => (inferWithin limit levels ((path.push "method").item 0) v).result?) e s :=
  level_classified h

/-- At every depth, families are of one of the few forms. -/
lemma inferAt_classified {s : FamilySet} (h : (inferAt limit depth path e).result? = some s) :
    Classified (fun v => (inferAt limit (depth + 1) ((path.push "method").item 0) v).result?)
      e s := by
  rcases Nat.lt_or_ge limit depth with beyond | below
  · -- nothing has families below the limit
    have levels : limit + 1 - depth = 0 := by omega
    rw [inferAt, levels] at h
    cases h
  · have levels : limit + 1 - depth = limit + 1 - (depth + 1) + 1 := by omega
    rw [inferAt, levels] at h
    exact inferWithin_classified h

/-- Whatever families typing gives, there is one. -/
lemma inferWithin_definite (limit levels : Nat) : Definite (inferWithin limit levels) := by
  intro path e s h
  cases levels with
  | zero => cases h
  | succ levels => exact (inferWithin_classified h).nonempty

/-- Typing complains of nothing that an expression always is. -/
lemma inferWithin_sensible (limit levels : Nat) (path : Pointer) (e : Json) :
    Sensible (inferWithin limit levels path e).diagnostics := by
  induction levels generalizing path e with
  | zero => exact sensible_problem trivial
  | succ levels ih => exact level_sensible (inferWithin_definite limit levels) ih

/-- An operand that may be any expression is not complained of, but for what is wrong inside. -/
lemma expressionOperand_logic {name : String} :
    expressionOperand (inferAt limit depth) name .logic path e =
      (inferAt limit depth path e).diagnostics := by
  rw [expressionOperand_eq, operandRemark_logic, List.append_nil]
  exact fun s hs => inferWithin_definite limit _ path e s hs

/-- A check complains of the family of the whole, and not of an operand. -/
lemma findings_operandType {expect? : Option Expectation} {d : Diagnostic}
    (mem : d ∈ findings limit expect? path e) {name expected found : String}
    (complaint : d.problem = .operandType name expected found) :
    expected ≠ Expectation.logic.wording ∧ found ≠ "an unclassified expression" := by
  have typed : d ∈ (infer limit path e).diagnostics := by
    cases expect? with
    | none => exact mem
    | some expect =>
      rw [findings, check_diagnostics] at mem
      refine (List.mem_append.mp mem).resolve_right fun remark => ?_
      have kind := (familyRemark_kind d remark).2
      rw [Diagnostic.kind, complaint] at kind
      cases kind
  have sense : d.problem.OfTyping := inferWithin_sensible limit _ path e d typed
  rw [complaint] at sense
  exact sense

end Levels

/-- The families of expressions. For every limit, depth, place and value: if the value has families,
there is one; `null` has its own family alone, and nothing else has it; what belongs to no
particular family belongs to all but `null`, and is a look-up, a loop item, a choice or an item of a
list; a text has the four families of texts; a value that is counted on or back has those dates and
times that methods of the name are called on and the receiver has or, if the receiver has no
families or none of these, all that methods of the name are called on; and everything else has one
family. So an operand that may be any expression is never of the wrong family, and no complaint says
that one is or that an operand has no family. -/
theorem families_classified (limit depth : Nat) (path : Pointer) (e : Json) :
    (∀ s, (inferAt limit depth path e).result? = some s →
      (∃ f, s.contains f) ∧
      (s.contains .null ↔ e = .null) ∧ (e = .null → s = .of .null) ∧
      (s.contains .any ↔ s = .ofList Family.proper) ∧ (s.contains .any ↔ IsUnspecific e) ∧
      (∀ text, e = .string text → s = .ofList textual) ∧
      (∀ receiver name rest, e = methodCallOf receiver name rest → IsCounting name →
        (∀ f, s.contains f → f ∈ [.date, .dateTime, .time]) ∧
        ∀ f, s.contains f ↔ Counted name
          (inferAt limit (depth + 1) ((path.push "method").item 0) receiver).result? f) ∧
      (IsSpecific e → ∃ f, s = .of f)) ∧
    (∀ name operand place, expressionOperand (inferAt limit depth) name .logic place operand =
      (inferAt limit depth place operand).diagnostics) ∧
    ∀ expect?, ∀ d ∈ findings limit expect? path e, ∀ name expected found,
      d.problem = .operandType name expected found →
        expected ≠ Expectation.logic.wording ∧ found ≠ "an unclassified expression" := by
  refine ⟨fun s h => ?families, fun _ _ _ => expressionOperand_logic,
    fun _ _ mem _ _ _ => findings_operandType mem⟩
  case families =>
    have form := inferAt_classified h
    obtain ⟨unspecific, all⟩ := form.contains_any
    refine ⟨form.nonempty, form.contains_null, ?null, ?any, unspecific,
      fun _ => form.eq_of_text, ?counting, form.eq_of_specific⟩
    -- `null` is specific, and of the one family that it has it is known that it is `null`'s own
    case null =>
      intro null
      obtain ⟨f, rfl⟩ := form.eq_of_specific (null ▸ isSpecific_of_no_call nofun nofun)
      have own := form.contains_null.mpr null
      rw [FamilySet.contains_of, beq_iff_eq] at own
      rw [own]
    case any =>
      constructor
      · exact fun any => all (unspecific.mp any)
      · rintro rfl
        rfl
    case counting =>
      intro receiver name rest call counting
      have families := form.counted call counting
      exact ⟨fun f hf => ((families f).mp hf).temporal counting, families⟩

example : (infer 1 .root (invocation (.string "08:30") "addHours" [.number (.integer 2)])).result? =
    some (.ofList [.dateTime, .time]) := by decide

end Typing

end DialogueLint
