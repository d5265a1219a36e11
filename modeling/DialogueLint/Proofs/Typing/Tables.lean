import DialogueLint.Proofs.Typing.Step

/-!
# The tables hold the grammar

The grammar derives exactly what takes a step whose operands are derivable (`derivable_iff_step`):
so the tables of operators and methods hold all operators and methods of the grammar, with the same
operands and results, and no others.

One direction takes a rule of the grammar and finds the row of the table that it speaks of, which is
decided for each list of names. The other goes through the table by its sections
(`Operator.comparing`, `Operator.numeric` and so on), and for each row takes the operands apart as
the row demands and applies the rule.
-/

namespace DialogueLint.Typing

open Grammar

variable {D : Judgement} {f : Family}

/-! ## The tables take a step -/

/-- An operator with an argument array that fits takes a step. -/
lemma Step.operation {key : String} {values : List Json} (operator : Operator)
    (found : Operator.ofName? key = some operator)
    (yields : (Shape.resultFamilies operator.result).contains f)
    (accepts : operator.arity.accepts values.length) (fit : operator.operands.Fit D values)
    (notUnary : operator.operands ≠ .unary) : Step D f (Typing.operation key values) := by
  obtain ⟨hvar, hcurrent, hmethod⟩ := operator_key found
  simp only [Step, CallStep, hvar, hcurrent, hmethod, if_false]
  refine ⟨operator, found, yields, ?_⟩
  unfold Operator.Fits
  split
  · contradiction
  · exact ⟨accepts, fit⟩

/-- Both negations take a single operand that fits. -/
lemma Step.negation {key : String} {value : Json} (hkey : key ∈ ["!", "!!"])
    (fits : UnaryFits D value) : Step D .boolean (.object [(key, value)]) := by
  simp only [List.mem_cons, List.not_mem_nil, or_false] at hkey
  rcases hkey with rfl | rfl
  · exact ⟨⟨"!", .boolean, .exactly 1, .unary⟩, rfl, rfl, fits⟩
  · exact ⟨⟨"!!", .boolean, .exactly 1, .unary⟩, rfl, rfl, fits⟩

/-- A method that can be called on a receiver, with arguments that fit, takes a step. -/
lemma Step.method {receiver : Json} {name : String} {rest : List Json} (m : Method)
    (named : m ∈ Method.named name) (yields : (Shape.resultFamilies m.result).contains f)
    (takes : m.receiver.Fits D receiver) (fit : m.ArgumentsFit D rest) :
    Step D f (.object [("method", .array (receiver :: .string name :: rest))]) :=
  ⟨receiver, name, rest, rfl, m, named, yields, takes, fit⟩

/-- The constants of a family are in the tables, with no operands. -/
lemma step_constant {key : String} (hkey : key ∈ constants f) :
    Step D f (Typing.operation key []) := by
  have found : Operator.ofName? key = some ⟨key, f, .exactly 0, .none⟩ ∧
      (Shape.resultFamilies f).contains f := by
    revert key
    cases f <;> decide
  exact .operation _ found.1 found.2 rfl trivial nofun

/-- The methods that count values of a family on and back are in the table. -/
lemma mem_named_counting {verb unit : String} (hverb : verb ∈ ["add", "subtract"])
    (hunit : unit ∈ units f) :
    ⟨verb ++ unit, .family f, f, some ⟨.exactly 1, Method.oneNumber⟩⟩ ∈
      Method.named (verb ++ unit) := by
  have all : ∀ verb ∈ ["add", "subtract"], ∀ unit ∈ units f,
      ⟨verb ++ unit, .family f, f, some ⟨.exactly 1, Method.oneNumber⟩⟩ ∈
        Method.named (verb ++ unit) := by
    cases f <;> decide
  exact all verb hverb unit hunit

/-- What is counted in a unit of a family is of the family. -/
lemma contains_counting {unit : String} (hunit : unit ∈ units f) :
    (Shape.resultFamilies f).contains f := by
  cases f <;> first | rfl | exact absurd hunit List.not_mem_nil

/-- A result of no particular family is of every family but `null`. -/
lemma contains_unspecific (hf : f ≠ .null) : (Shape.resultFamilies .any).contains f := by
  cases f <;> first | rfl | exact absurd rfl hf

/-- No array is an expression. -/
lemma not_derivable_array {expect : Expectation} {items : List Json} :
    ¬ Derivable expect (.array items) := by
  intro h
  cases h with
  | logic h => cases h

/-- What is derivable takes a step whose operands are derivable. -/
lemma Derivable.step {e : Json} (h : Derivable (.family f) e) : Step Derivable f e := by
  cases h with
  | bool => rfl
  | number => rfl
  | text hf => exact hf
  | null => rfl
  | var hf hr => exact ⟨hf, _, rfl, hr⟩
  | current hf => exact ⟨hf, _, rfl⟩
  | choice hf hlen hes =>
    have accepts := (Arity.accepts_atLeast 3 _).mpr hlen
    exact .operation _ rfl (contains_unspecific hf) accepts (fit_uniform.mpr hes) nofun
  | getItem hf hl hi =>
    exact .method _ List.mem_cons_self (contains_unspecific hf) hl ⟨rfl, hi, trivial⟩
  | equality hkey ha hb =>
    have fit : Operands.anything.Fit Derivable [_, _] := ⟨ha, hb, trivial⟩
    simp only [List.mem_cons, List.not_mem_nil, or_false] at hkey
    rcases hkey with rfl | rfl | rfl | rfl
    all_goals exact .operation _ rfl rfl rfl fit nofun
  | connective hkey hlen hes =>
    have accepts := (Arity.accepts_atLeast 2 _).mpr hlen
    simp only [List.mem_cons, List.not_mem_nil, or_false] at hkey
    rcases hkey with rfl | rfl
    all_goals exact .operation _ rfl rfl accepts (fit_uniform.mpr hes) nofun
  | negation hkey he => exact .negation hkey he
  | @bareNegation _ e hkey he =>
    apply Step.negation hkey
    -- behind a negation an array stands for its item, but no array is an expression by itself
    cases e with
    | array items => exact absurd he not_derivable_array
    | _ => exact he
  | comparison hkey hf ha hb =>
    have fit : Operands.ordered.Fit Derivable [_, _] :=
      ⟨_, hf, List.forall_mem_cons.mpr ⟨ha, List.forall_mem_singleton.mpr hb⟩⟩
    simp only [List.mem_cons, List.not_mem_nil, or_false] at hkey
    rcases hkey with rfl | rfl | rfl | rfl
    all_goals exact .operation _ rfl rfl rfl fit nofun
  | matchesPattern hs hp => exact .method _ List.mem_cons_self rfl hs ⟨rfl, hp, trivial⟩
  | constant hkey => exact step_constant hkey
  | reading hkey hs hp =>
    have fit : (Operands.families [.string, .string]).Fit Derivable [_, _] := ⟨hs, hp, trivial⟩
    -- only dates and times are read from texts, each by an operator of its own
    cases f with
    | date | dateTime | time =>
      simp only [readers, List.mem_singleton] at hkey
      subst hkey
      exact .operation _ rfl rfl rfl fit nofun
    | _ => exact absurd hkey List.not_mem_nil
  | counting hverb hunit ht hn =>
    exact .method _ (mem_named_counting hverb hunit) (contains_counting hunit) ht
      ⟨rfl, hn, trivial⟩
  | sum hkey hlen hes =>
    have accepts := (Arity.accepts_atLeast 1 _).mpr hlen
    simp only [List.mem_cons, List.not_mem_nil, or_false] at hkey
    rcases hkey with rfl | rfl
    all_goals exact .operation _ rfl rfl accepts (fit_uniform.mpr hes) nofun
  | product hlen hes =>
    have accepts := (Arity.accepts_atLeast 2 _).mpr hlen
    exact .operation _ rfl rfl accepts (fit_uniform.mpr hes) nofun
  | quotient hkey ha hb =>
    have fit : Operands.numeric.Fit Derivable [_, _] := ⟨ha, hb, trivial⟩
    simp only [List.mem_cons, List.not_mem_nil, or_false] at hkey
    rcases hkey with rfl | rfl
    all_goals exact .operation _ rfl rfl rfl fit nofun
  | getCount hr => exact .method _ List.mem_cons_self rfl ⟨_, rfl, hr⟩ trivial
  | indexOf hs hp => exact .method _ List.mem_cons_self rfl hs ⟨rfl, hp, trivial⟩
  | indexOfFrom hs hp hi => exact .method _ List.mem_cons_self rfl hs ⟨rfl, hp, hi, trivial⟩
  | length hs => exact .method _ List.mem_cons_self rfl hs trivial
  | round hn hd => exact .method _ List.mem_cons_self rfl hn ⟨rfl, hd, trivial⟩
  | cat hlen hes =>
    have accepts := (Arity.accepts_atLeast 2 _).mpr hlen
    exact .operation _ rfl rfl accepts (fit_uniform.mpr hes) nofun
  | substr hs hi => exact .operation _ rfl rfl rfl ⟨hs, hi, trivial⟩ nofun
  | substrOf hs hi hn => exact .operation _ rfl rfl rfl ⟨hs, hi, hn, trivial⟩ nofun
  | dateFormat hd hp => exact .operation _ rfl rfl rfl ⟨hd, ⟨_, rfl, hp⟩, trivial⟩ nofun
  | dateTimeFormat hd hp => exact .operation _ rfl rfl rfl ⟨hd, ⟨_, rfl, hp⟩, trivial⟩ nofun
  | toUTC ht hp => exact .operation _ rfl rfl rfl ⟨ht, hp, trivial⟩ nofun
  | toUTCOf hd ht hp => exact .operation _ rfl rfl rfl ⟨hd, ht, hp, trivial⟩ nofun
  | addItem hl hlen hes =>
    have accepts := (Arity.accepts_atLeast 1 _).mpr hlen
    exact .method _ List.mem_cons_self rfl hl ⟨accepts, fit_uniform.mpr hes⟩
  | filter hl he => exact .method _ List.mem_cons_self rfl hl ⟨rfl, he, trivial⟩
  | filterAs hl he => exact .method _ List.mem_cons_self rfl hl ⟨rfl, ⟨_, rfl⟩, he, trivial⟩
  | split hs hp => exact .method _ List.mem_cons_self rfl hs ⟨rfl, hp, trivial⟩
  | @sort _ es hl hes =>
    have accepts := (Arity.accepts_atLeast 0 es.length).mpr (Nat.zero_le _)
    exact .method _ List.mem_cons_self rfl hl ⟨accepts, fit_uniform.mpr hes⟩
  | removeItem hl => exact .method _ List.mem_cons_self rfl hl ⟨rfl, trivial⟩
  | removeItemAt hl hi => exact .method _ List.mem_cons_self rfl hl ⟨rfl, hi, trivial⟩
  | updateItem hl hi he => exact .method _ List.mem_cons_self rfl hl ⟨rfl, hi, he, trivial⟩

/-! ## Nothing else takes a step -/

/-- A result of a family is of no other family, unless it is of every family. -/
lemma eq_of_contains_resultFamilies {result : Family}
    (h : (Shape.resultFamilies result).contains f) (notAny : result ≠ .any) : f = result := by
  cases result <;> first | exact absurd rfl notAny | (cases f <;> first | rfl | exact nomatch h)

/-- What is of no particular family is not `null`. -/
lemma ne_null_of_contains (h : (Shape.resultFamilies .any).contains f) : f ≠ .null := by
  rintro rfl
  exact nomatch h

/-- Equality and logic are in the grammar. -/
lemma derivable_of_logical {operator : Operator} {value : Json} (mem : operator ∈ Operator.logical)
    (yields : (Shape.resultFamilies operator.result).contains f)
    (fits : operator.Fits Derivable value) :
    Derivable (.family f) (.object [(operator.name, value)]) := by
  have equality : ∀ {key : String}, key ∈ ["===", "==", "!==", "!="] →
      ArrayFits Derivable (.exactly 2) .anything value →
      Derivable (.family .boolean) (.object [(key, value)]) := by
    intro key hkey h
    obtain ⟨a, b, rfl, ha, hb, -⟩ := h.two
    exact .equality hkey ha hb
  have connective : ∀ {key : String}, key ∈ ["and", "or"] →
      ArrayFits Derivable (.atLeast 2) .anything value →
      Derivable (.family .boolean) (.object [(key, value)]) := by
    intro key hkey h
    obtain ⟨es, rfl, hlen, hes⟩ := h.atLeast
    exact .connective hkey hlen hes
  have negation : ∀ {key : String}, key ∈ ["!", "!!"] → UnaryFits Derivable value →
      Derivable (.family .boolean) (.object [(key, value)]) := by
    intro key hkey h
    unfold UnaryFits at h
    split at h
    · exact .negation hkey h
    · exact h.elim
    · exact .bareNegation hkey h
  simp only [Operator.logical, List.mem_cons, List.not_mem_nil, or_false] at mem
  rcases mem with rfl | rfl | rfl | rfl | rfl | rfl | rfl | rfl
  all_goals
    obtain rfl := eq_of_contains_resultFamilies yields nofun
    first
    | exact equality (by simp) fits
    | exact connective (by simp) fits
    | exact negation (by simp) fits

/-- Calls of operators that compare, choose or combine are derivable. -/
lemma derivable_of_comparing {operator : Operator} {value : Json}
    (mem : operator ∈ Operator.comparing)
    (yields : (Shape.resultFamilies operator.result).contains f)
    (fits : operator.Fits Derivable value) :
    Derivable (.family f) (.object [(operator.name, value)]) := by
  have comparison : ∀ {key : String}, key ∈ [">", ">=", "<", "<="] →
      ArrayFits Derivable (.exactly 2) .ordered value →
      Derivable (.family .boolean) (.object [(key, value)]) := by
    intro key hkey h
    obtain ⟨a, b, rfl, g, hg, hab⟩ := h.two
    exact .comparison hkey hg (hab a (by simp)) (hab b (by simp))
  simp only [Operator.comparing, List.mem_cons, List.not_mem_nil, or_false] at mem
  rcases mem with rfl | rfl | rfl | rfl
  all_goals
    obtain rfl := eq_of_contains_resultFamilies yields nofun
    exact comparison (by simp) fits

/-- Calls of operators on numbers are derivable. -/
lemma derivable_of_numeric {operator : Operator} {value : Json} (mem : operator ∈ Operator.numeric)
    (yields : (Shape.resultFamilies operator.result).contains f)
    (fits : operator.Fits Derivable value) :
    Derivable (.family f) (.object [(operator.name, value)]) := by
  have sum : ∀ {key : String}, key ∈ ["+", "-"] →
      ArrayFits Derivable (.atLeast 1) .numeric value →
      Derivable (.family .numeric) (.object [(key, value)]) := by
    intro key hkey h
    obtain ⟨es, rfl, hlen, hes⟩ := h.atLeast
    exact .sum hkey hlen hes
  have product : ArrayFits Derivable (.atLeast 2) .numeric value →
      Derivable (.family .numeric) (.object [("*", value)]) := by
    intro h
    obtain ⟨es, rfl, hlen, hes⟩ := h.atLeast
    exact .product hlen hes
  have quotient : ∀ {key : String}, key ∈ ["/", "%"] →
      ArrayFits Derivable (.exactly 2) .numeric value →
      Derivable (.family .numeric) (.object [(key, value)]) := by
    intro key hkey h
    obtain ⟨a, b, rfl, ha, hb, -⟩ := h.two
    exact .quotient hkey ha hb
  have constant : ∀ {key : String}, key ∈ constants .numeric →
      ArrayFits Derivable (.exactly 0) .none value →
      Derivable (.family .numeric) (.object [(key, value)]) := by
    intro key hkey h
    obtain rfl := h.none
    exact .constant hkey
  simp only [Operator.numeric, List.mem_cons, List.not_mem_nil, or_false] at mem
  rcases mem with rfl | rfl | rfl | rfl | rfl | rfl | rfl | rfl | rfl | rfl | rfl
  all_goals
    obtain rfl := eq_of_contains_resultFamilies yields nofun
    first
    | exact sum (by simp) fits
    | exact product fits
    | exact quotient (by simp) fits
    | exact constant (by simp [constants]) fits

/-- Calls of operators on texts are derivable. -/
lemma derivable_of_textual {operator : Operator} {value : Json} (mem : operator ∈ Operator.textual)
    (yields : (Shape.resultFamilies operator.result).contains f)
    (fits : operator.Fits Derivable value) :
    Derivable (.family f) (.object [(operator.name, value)]) := by
  simp only [Operator.textual, List.mem_cons, List.not_mem_nil, or_false] at mem
  rcases mem with rfl | rfl | rfl | rfl | rfl
  all_goals obtain rfl := eq_of_contains_resultFamilies yields nofun
  · obtain ⟨es, rfl, hlen, hes⟩ := ArrayFits.atLeast fits
    exact .cat hlen hes
  · rcases ArrayFits.twoOrThree fits with ⟨s, i, rfl, hs, hi, -⟩ | ⟨s, i, n, rfl, hs, hi, hn, -⟩
    · exact .substr hs hi
    · exact .substrOf hs hi hn
  · obtain ⟨d, p, rfl, hd, ⟨text, rfl, hp⟩, -⟩ := ArrayFits.two fits
    exact .dateFormat hd hp
  · obtain ⟨d, p, rfl, hd, ⟨text, rfl, hp⟩, -⟩ := ArrayFits.two fits
    exact .dateTimeFormat hd hp
  · rcases ArrayFits.twoOrThree fits with ⟨t, p, rfl, ht, hp, -⟩ | ⟨d, t, p, rfl, hd, ht, hp, -⟩
    · exact .toUTC ht hp
    · exact .toUTCOf hd ht hp

/-- Calls of operators on dates and times are derivable. -/
lemma derivable_of_temporal {operator : Operator} {value : Json}
    (mem : operator ∈ Operator.temporal)
    (yields : (Shape.resultFamilies operator.result).contains f)
    (fits : operator.Fits Derivable value) :
    Derivable (.family f) (.object [(operator.name, value)]) := by
  have constant : ∀ {key : String} {g : Family}, key ∈ constants g →
      ArrayFits Derivable (.exactly 0) .none value →
      Derivable (.family g) (.object [(key, value)]) := by
    intro key g hkey h
    obtain rfl := h.none
    exact .constant hkey
  have reading : ∀ {key : String} {g : Family}, key ∈ readers g →
      ArrayFits Derivable (.exactly 2) (.families [.string, .string]) value →
      Derivable (.family g) (.object [(key, value)]) := by
    intro key g hkey h
    obtain ⟨s, p, rfl, hs, hp, -⟩ := h.two
    exact .reading hkey hs hp
  simp only [Operator.temporal, List.mem_cons, List.not_mem_nil, or_false] at mem
  rcases mem with rfl | rfl | rfl | rfl | rfl | rfl
  all_goals obtain rfl := eq_of_contains_resultFamilies yields nofun
  · exact constant List.mem_cons_self fits
  · exact reading List.mem_cons_self fits
  · exact constant List.mem_cons_self fits
  · exact reading List.mem_cons_self fits
  · exact constant List.mem_cons_self fits
  · exact reading List.mem_cons_self fits

/-- An operator whose operands are derivable is in the grammar. -/
lemma derivable_of_operator {key : String} {operator : Operator} {value : Json}
    (found : Operator.ofName? key = some operator)
    (yields : (Shape.resultFamilies operator.result).contains f)
    (fits : operator.Fits Derivable value) : Derivable (.family f) (.object [(key, value)]) := by
  obtain rfl : operator.name = key := by
    simpa using List.find?_some found
  have mem := List.mem_of_find?_eq_some found
  simp only [Operator.table, List.mem_append] at mem
  rcases mem with ((((mem | mem) | mem) | mem) | mem) | mem
  · exact derivable_of_logical mem yields fits
  · exact derivable_of_comparing mem yields fits
  · exact derivable_of_numeric mem yields fits
  · exact derivable_of_textual mem yields fits
  · exact derivable_of_temporal mem yields fits
  · obtain rfl := List.mem_singleton.mp mem
    obtain ⟨es, rfl, hlen, hes⟩ := ArrayFits.atLeast fits
    exact .choice (ne_null_of_contains yields) hlen hes

/-- A method that takes arguments is called with an argument array. -/
lemma argumentsFit_some {m : Method} {rules : Arguments} {rest : List Json}
    (h : m.ArgumentsFit D rest) (takes : m.arguments = some rules) :
    ∃ arguments, rest = [arguments] ∧ ArrayFits D rules.arity rules.operands arguments := by
  unfold Method.ArgumentsFit at h
  rw [takes] at h
  split at h
  · contradiction
  · rename_i arguments eq
    cases eq
    exact ⟨arguments, rfl, h⟩
  · exact h.elim

/-- A method without an argument array is called with nothing behind its name. -/
lemma argumentsFit_none {m : Method} {rest : List Json} (h : m.ArgumentsFit D rest)
    (takes : m.arguments = none) : rest = [] := by
  unfold Method.ArgumentsFit at h
  rw [takes] at h
  split at h
  · rfl
  · contradiction
  · exact h.elim

/-- A method call. -/
abbrev methodCallOf (receiver : Json) (name : String) (rest : List Json) : Json :=
  .object [("method", .array (receiver :: .string name :: rest))]

/-- Methods on values that are not dates or times are in the grammar. -/
lemma derivable_of_plain {m : Method} {receiver : Json} {rest : List Json}
    (mem : m ∈ Method.plain) (yields : (Shape.resultFamilies m.result).contains f)
    (takes : m.receiver.Fits Derivable receiver) (fit : m.ArgumentsFit Derivable rest) :
    Derivable (.family f) (methodCallOf receiver m.name rest) := by
  simp only [Method.plain, List.mem_cons, List.not_mem_nil, or_false] at mem
  rcases mem with rfl | rfl | rfl | rfl | rfl | rfl | rfl | rfl | rfl | rfl | rfl | rfl
  -- only `getItem` has a result of every family
  case inl =>
    obtain ⟨_, rfl, fits⟩ := argumentsFit_some fit rfl
    obtain ⟨i, rfl, hi, -⟩ := fits.one
    exact .getItem (ne_null_of_contains yields) takes hi
  all_goals obtain rfl := eq_of_contains_resultFamilies yields nofun
  · obtain ⟨_, rfl, fits⟩ := argumentsFit_some fit rfl
    obtain ⟨p, rfl, hp, -⟩ := fits.one
    exact .matchesPattern takes hp
  · obtain rfl := argumentsFit_none fit rfl
    obtain ⟨r, rfl, hr⟩ := takes
    exact .getCount hr
  · obtain ⟨_, rfl, fits⟩ := argumentsFit_some fit rfl
    rcases fits.oneOrTwo with ⟨p, rfl, hp, -⟩ | ⟨p, i, rfl, hp, hi, -⟩
    · exact .indexOf takes hp
    · exact .indexOfFrom takes hp hi
  · obtain rfl := argumentsFit_none fit rfl
    exact .length takes
  · obtain ⟨_, rfl, fits⟩ := argumentsFit_some fit rfl
    obtain ⟨d, rfl, hd, -⟩ := fits.one
    exact .round takes hd
  · obtain ⟨_, rfl, fits⟩ := argumentsFit_some fit rfl
    obtain ⟨es, rfl, hlen, hes⟩ := ArrayFits.atLeast fits
    exact .addItem takes hlen hes
  · obtain ⟨_, rfl, fits⟩ := argumentsFit_some fit rfl
    rcases fits.oneOrTwo with ⟨e, rfl, he, -⟩ | ⟨name, e, rfl, ⟨name, rfl⟩, he, -⟩
    · exact .filter takes he
    · exact .filterAs takes he
  · obtain ⟨_, rfl, fits⟩ := argumentsFit_some fit rfl
    obtain ⟨p, rfl, hp, -⟩ := fits.one
    exact .split takes hp
  · obtain ⟨_, rfl, fits⟩ := argumentsFit_some fit rfl
    obtain ⟨es, rfl, -, hes⟩ := ArrayFits.atLeast fits
    exact .sort takes hes
  · obtain ⟨_, rfl, fits⟩ := argumentsFit_some fit rfl
    rcases fits.noneOrOne with rfl | ⟨i, rfl, hi, -⟩
    · exact .removeItem takes
    · exact .removeItemAt takes hi
  · obtain ⟨_, rfl, fits⟩ := argumentsFit_some fit rfl
    obtain ⟨i, e, rfl, hi, he, -⟩ := fits.two
    exact .updateItem takes hi he

/-- Calls of methods that count on and back are derivable. -/
lemma derivable_of_counting {m : Method} {g : Family} {receiver : Json} {rest : List Json}
    (mem : m ∈ Method.counting g (units g))
    (yields : (Shape.resultFamilies m.result).contains f)
    (takes : m.receiver.Fits Derivable receiver) (fit : m.ArgumentsFit Derivable rest) :
    Derivable (.family f) (methodCallOf receiver m.name rest) := by
  obtain ⟨verb, hverb, mem⟩ := List.mem_flatMap.mp mem
  obtain ⟨unit, hunit, rfl⟩ := List.mem_map.mp mem
  have notAny : g ≠ .any := by
    rintro rfl
    exact absurd hunit List.not_mem_nil
  obtain rfl := eq_of_contains_resultFamilies yields notAny
  obtain ⟨_, rfl, fits⟩ := argumentsFit_some fit rfl
  obtain ⟨n, rfl, hn, -⟩ := fits.one
  exact .counting hverb hunit takes hn

/-- A method whose receiver and arguments are derivable is in the grammar. -/
lemma derivable_of_method {m : Method} {name : String} {receiver : Json} {rest : List Json}
    (named : m ∈ Method.named name) (yields : (Shape.resultFamilies m.result).contains f)
    (takes : m.receiver.Fits Derivable receiver) (fit : m.ArgumentsFit Derivable rest) :
    Derivable (.family f) (methodCallOf receiver name rest) := by
  obtain ⟨mem, hname⟩ := List.mem_filter.mp named
  obtain rfl : m.name = name := by simpa using hname
  simp only [Method.table, List.mem_append] at mem
  rcases mem with ((mem | mem) | mem) | mem
  · exact derivable_of_plain mem yields takes fit
  · exact derivable_of_counting (g := .date) mem yields takes fit
  · exact derivable_of_counting (g := .dateTime) mem yields takes fit
  · exact derivable_of_counting (g := .time) mem yields takes fit

/-- What takes a step whose operands are derivable is derivable. -/
lemma derivable_of_step {e : Json} (h : Step Derivable f e) : Derivable (.family f) e := by
  unfold Step at h
  split at h
  case h_1 => exact h ▸ .null
  case h_2 => exact h ▸ .bool
  case h_3 => exact h ▸ .number
  case h_4 => exact .text h
  case h_5 key value =>
    unfold CallStep at h
    split_ifs at h with hvar hcurrent hmethod
    · obtain ⟨hf, r, rfl, hr⟩ := h
      exact hvar ▸ .var hf hr
    · obtain ⟨hf, tag, rfl⟩ := h
      exact hcurrent ▸ .current hf
    · obtain ⟨receiver, name, rest, rfl, m, named, yields, takes, fit⟩ := h
      exact hmethod ▸ derivable_of_method named yields takes fit
    · obtain ⟨operator, found, yields, fits⟩ := h
      exact derivable_of_operator found yields fits
  case h_6 => exact h.elim

/-- The grammar derives exactly what takes a step with derivable operands. -/
lemma derivable_iff_step {e : Json} : Derivable (.family f) e ↔ Step Derivable f e :=
  ⟨Derivable.step, derivable_of_step⟩

end DialogueLint.Typing
