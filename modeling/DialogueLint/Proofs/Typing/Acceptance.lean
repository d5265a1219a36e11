import DialogueLint.Proofs.Typing.Meeting
import DialogueLint.Proofs.Typing.Tables

/-!
# Typing accepts the grammar

Typing says nothing about an expression exactly if the grammar derives the expression in the family
that is asked for and the expression is not too high, and the families it gives are exactly the
derivable ones (`check_iff_derivable`). The proof goes by induction on the levels that are left: a
level takes the steps of the grammar (`level_meets`, `derivable_iff_step`), and a step looks at the
operands that count for the height and at no others (`step_within`).

The levels are what the induction is on, and not the expression: with no level left, neither side
says anything of the expression itself, and one more level makes one step on both sides. A place
counts for the diagnostics only, never for whether there are any, so the grammar need not speak of
places.
-/

namespace DialogueLint.Typing

/-- Typing with so many levels left decides the grammar for lower expressions. -/
lemma inferWithin_decides (limit levels : Nat) :
    Decides (inferWithin limit levels) (Judgement.within Derivable fun e => height e < levels) := by
  induction levels with
  | zero =>
    constructor
    · intro path e expect
      simp [inferWithin, Meets, Outcome.fail, Judgement.within]
    · intro path e clean
      simp [inferWithin, Outcome.fail] at clean
  | succ levels ih =>
    -- a level takes a step with operands that the remaining levels suffice for
    have family : ∀ path e f, Meets (inferWithin limit (levels + 1) path e) (.family f) ↔
        Derivable (.family f) e ∧ height e < levels + 1 := by
      intro path e f
      rw [inferWithin, level_meets ih, step_within, ← derivable_iff_step, ← height_le_iff,
        Nat.lt_succ_iff]
    constructor
    · intro path e expect
      cases expect with
      | logic =>
        rw [meets_logic_iff, Judgement.within, derivable_logic_iff, exists_and_right.symm]
        exact exists_congr (family path e)
      | family f => exact family path e f
    · intro path e clean
      exact level_definite clean

/-- An expression meets an expectation if it is derivable, and not too high. -/
lemma infer_meets {limit : Nat} {path : Pointer} {e : Json} {expect : Expectation} :
    Meets (infer limit path e) expect ↔ Derivable expect e ∧ height e ≤ limit := by
  rw [infer, (inferWithin_decides limit (limit + 1)).meets, Judgement.within, Nat.lt_succ_iff]

/-- An expression in which nothing is found is of some family. -/
lemma infer_definite {limit : Nat} {path : Pointer} {e : Json}
    (clean : (infer limit path e).diagnostics = []) : Meets (infer limit path e) .logic :=
  (inferWithin_decides limit (limit + 1)).definite path e clean

/-- A set that has a family has a first one. -/
lemma primary_isSome {s : FamilySet} {f : Family} (h : s.contains f) : s.primary.isSome := by
  rw [FamilySet.primary, List.find?_isSome]
  exact ⟨f, Family.mem_byPriority f, h⟩

/-- A check finds nothing exactly if the inference meets what is asked for. -/
lemma check_clean_meets {limit : Nat} {path : Pointer} {e : Json} {expect : Expectation} :
    (check limit expect path e).diagnostics = [] ↔ Meets (infer limit path e) expect := by
  -- a check only adds to what the inference finds, so the inference finds nothing either
  have bare : (check limit expect path e).diagnostics = [] →
      (infer limit path e).diagnostics = [] := by
    intro clean
    cases typed : (infer limit path e).result? with
    | none => simpa only [check, typed] using clean
    | some s =>
      cases expect with
      | logic => simpa only [check, typed] using clean
      | family f =>
        simp only [check, typed] at clean
        split_ifs at clean
        · exact clean
        · exact (List.append_eq_nil_iff.mp clean).1
  constructor
  · intro clean
    obtain ⟨typed, s, hs, accepts⟩ := infer_definite (bare clean)
    refine ⟨typed, s, hs, ?_⟩
    cases expect with
    | logic => exact accepts
    | family f =>
      simp only [check, hs] at clean
      by_contra refused
      simp only [Expectation.accepts] at refused
      simp [refused] at clean
  · rintro ⟨typed, s, hs, accepts⟩
    cases expect with
    | logic => simp only [check, hs, typed]
    | family f =>
      simp only [Expectation.accepts] at accepts
      simp only [check, hs, accepts, typed, if_true]

/-- There is nothing to say about an expression exactly if it is derivable as what is asked for, and
not too high. -/
lemma check_clean {limit : Nat} {path : Pointer} {e : Json} {expect : Expectation} :
    (check limit expect path e).diagnostics = [] ↔ Derivable expect e ∧ height e ≤ limit :=
  check_clean_meets.trans infer_meets

/-- Where a check finds nothing, it gives families. -/
lemma check_result {limit : Nat} {path : Pointer} {e : Json} {expect : Expectation}
    (clean : (check limit expect path e).diagnostics = []) :
    (check limit expect path e).result?.isSome := by
  obtain ⟨typed, s, hs, accepts⟩ := check_clean_meets.mp clean
  cases expect with
  | logic =>
    obtain ⟨f, hf⟩ := accepts_logic.mp accepts
    simp only [check, hs]
    exact primary_isSome hf
  | family f =>
    simp only [Expectation.accepts] at accepts
    simp only [check, hs, accepts, if_true, Option.isSome_some]

/-- A family is found for an expression exactly if a check of it finds nothing. -/
lemma inferFamily_ok {limit : Nat} {expected : Option Family} {e : Json} :
    (∃ f, inferFamily limit expected e = .ok f) ↔
      (check limit (expected.elim .logic .family) .root e).diagnostics = [] := by
  unfold inferFamily
  constructor
  · rintro ⟨f, h⟩
    simp only at h
    split at h
    · assumption
    · cases h
  · intro clean
    obtain ⟨f, hf⟩ := Option.isSome_iff_exists.mp (check_result clean)
    simp only [hf, clean]
    exact ⟨f, rfl⟩

/-- Typing gives families without problems exactly if they are those in which the grammar derives
the expression, there is one, and the expression is not too high. -/
lemma infer_eq_iff {limit : Nat} {path : Pointer} {e : Json} {s : FamilySet} :
    infer limit path e = ⟨some s, []⟩ ↔
      (Derivable .logic e ∧ height e ≤ limit) ∧ ∀ f, s.contains f ↔ Derivable (.family f) e := by
  have families : ∀ t, infer limit path e = ⟨some t, []⟩ → height e ≤ limit →
      ∀ f, t.contains f ↔ Derivable (.family f) e := by
    intro t ht low f
    have meets : Meets (infer limit path e) (.family f) ↔
        Derivable (.family f) e ∧ height e ≤ limit := infer_meets
    simpa [Meets, ht, low, Expectation.accepts] using meets
  constructor
  · intro h
    have derivable : Derivable .logic e ∧ height e ≤ limit :=
      infer_meets.mp (infer_definite (congrArg Outcome.diagnostics h))
    exact ⟨derivable, families s h derivable.2⟩
  · rintro ⟨derivable, hs⟩
    have meets : Meets (infer limit path e) .logic := infer_meets.mpr derivable
    obtain ⟨clean, t, ht, -⟩ := meets
    have typed : infer limit path e = ⟨some t, []⟩ := by
      rw [← ht, ← clean]
    have same : t = s := by
      ext f
      rw [Bool.eq_iff_iff, families t typed derivable.2, hs]
    rw [typed, same]

/-- The checker accepts the grammar. For every limit, place and value, nothing is found wrong with
the value as an expression of a family, or of any family, exactly if the grammar derives it as such
and it is at most as high as the limit; a family is inferred in exactly these cases; and families
are given without problems exactly if they are those in which the grammar derives the value. -/
theorem check_iff_derivable (limit : Nat) (path : Pointer) (e : Json) :
    (∀ expect, (check limit expect path e).diagnostics = [] ↔
      Derivable expect e ∧ height e ≤ limit) ∧
    (∀ expected : Option Family, (∃ f, inferFamily limit expected e = .ok f) ↔
      Derivable (expected.elim .logic .family) e ∧ height e ≤ limit) ∧
    (∀ s, infer limit path e = ⟨some s, []⟩ ↔
      (Derivable .logic e ∧ height e ≤ limit) ∧ ∀ f, s.contains f ↔ Derivable (.family f) e) := by
  refine ⟨?check, ?inferred, ?families⟩
  case check =>
    intro expect
    exact check_clean
  case inferred =>
    intro expected
    exact inferFamily_ok.trans check_clean
  case families =>
    intro s
    exact infer_eq_iff

end DialogueLint.Typing
