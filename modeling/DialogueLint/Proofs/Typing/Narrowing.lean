import DialogueLint.Proofs.Typing.Acceptance
import DialogueLint.Proofs.Typing.Classification

/-!
# Narrowing an inference

The family of an expression can be asked for by itself or as a given family. Asking for a family
adds one diagnostic if the expression has families and this is none of them, and nothing otherwise
(`reported_narrow`); what is answered is then that family. An inference without an answer, and an
expression without families, always comes with something that was found.

The two halves of the program are set side by side: `infer` types the whole and says nothing of what
was asked for, and narrowing compares the families that came out with it. So what is new in the
narrowed report is one diagnostic at the root, and the diagnostics of the inference, which are of
other kinds (`Problem.OfTyping`), are left as they were.
-/

namespace DialogueLint.Typing

/-- What an inference reports. -/
def reported : Except Report Family → List Diagnostic
  | .ok _ => []
  | .error report => report.diagnostics

section Narrowing

variable {limit : Nat} {path : Pointer} {e : Json}

/-- An expression without families is reported. -/
lemma infer_reports (none : (infer limit path e).result? = none) :
    (infer limit path e).diagnostics ≠ [] := by
  intro clean
  obtain ⟨-, s, hs, -⟩ := infer_definite clean
  rw [none] at hs
  cases hs

/-- A check without a family reports. -/
lemma check_reports {expect : Expectation}
    (none : (check limit expect path e).result? = none) :
    (check limit expect path e).diagnostics ≠ [] := by
  intro clean
  have some := check_result clean
  rw [none] at some
  cases some

/-- An inference reports what a check of the expression by itself finds. -/
lemma reported_inferFamily {expected : Option Family} :
    reported (inferFamily limit expected e) =
      (check limit (expected.elim .logic .family) .root e).diagnostics := by
  unfold inferFamily
  simp only
  split
  · rename_i clean
    exact clean.symm
  · rfl

/-- An inference that gives no family reports something. -/
lemma inferFamily_reports {expected : Option Family} {report : Report}
    (h : inferFamily limit expected e = .error report) : report.diagnostics ≠ [] := by
  intro clean
  have found : (check limit (expected.elim .logic .family) .root e).diagnostics = [] := by
    rw [← reported_inferFamily, h]
    exact clean
  obtain ⟨f, hf⟩ := inferFamily_ok.mpr found
  rw [h] at hf
  cases hf

/-- An inference answers what a check without findings does. -/
lemma inferFamily_eq_ok {expected : Option Family} {f : Family} :
    inferFamily limit expected e = .ok f ↔
      check limit (expected.elim .logic .family) .root e = .ok f := by
  unfold inferFamily
  simp only
  constructor
  · intro h
    split at h
    · rename_i result clean
      cases h
      exact congrArg₂ Outcome.mk result clean
    · cases h
  · intro h
    simp only [h, Outcome.ok]

/-- Where a family is demanded, no other is answered. -/
lemma check_family {f g : Family} (h : (check limit (.family f) path e).result? = some g) :
    g = f := by
  simp only [check] at h
  split at h
  · cases h
  · split_ifs at h
    cases h
    rfl

/-- What an expression is taken for by itself, it is taken for where that is demanded. -/
lemma check_narrow {f : Family} (h : check limit .logic path e = .ok f) :
    check limit (.family f) path e = .ok f := by
  cases typed : (infer limit path e).result? with
  | none =>
    simp only [check, typed] at h
    cases h
  | some s =>
    simp only [check, typed, Outcome.ok, Outcome.mk.injEq] at h ⊢
    obtain ⟨picked, clean⟩ := h
    have member : s.contains f := List.find?_some picked
    rw [if_pos member, clean]

/-- Demanding a family adds a remark on the whole. -/
lemma reported_narrow {f : Family} :
    reported (inferFamily limit (some f) e) = reported (inferFamily limit none e) ++
      familyRemark (.family f) .root (infer limit .root e).result? := by
  have itself : reported (inferFamily limit none e) = (infer limit .root e).diagnostics := by
    rw [reported_inferFamily, Option.elim_none, check_diagnostics]
    cases (infer limit .root e).result? <;> exact List.append_nil _
  rw [itself, reported_inferFamily, Option.elim_some, check_diagnostics]

/-- An expression that has families, but not the one demanded, is said to be another. -/
lemma familyRemark_of_not_contains {f : Family} {s : FamilySet} (nonempty : ∃ g, s.contains g)
    (other : ¬ s.contains f) :
    ∃ found, s.primary = some found ∧
      familyRemark (.family f) path (some s) = [⟨path, .familyMismatch f found⟩] := by
  obtain ⟨g, hg⟩ := nonempty
  obtain ⟨found, picked⟩ := Option.isSome_iff_exists.mp (primary_isSome hg)
  exact ⟨found, picked, by simp [familyRemark, other, picked]⟩

/-- That an expression is of the wrong family is not found by typing it. -/
lemma infer_kind : ∀ d ∈ (infer limit path e).diagnostics, d.kind ≠ .familyMismatch := by
  intro d mem
  have sense : d.problem.OfTyping := inferWithin_sensible limit _ path e d mem
  exact sense.kind_ne

end Narrowing

/-- Inference is never silent, and narrows. For every limit, place and expression: if there are no
families, something is found, and so it is if a check has no family; a report of an inference is not
empty; what is inferred as a given family is that family; what is inferred as a family by itself is
inferred as that family if it is given. An inference as a given family reports what an inference by
itself does and, if the expression has families other than that one, behind it that it is of the
wrong family. A check finds that of the whole expression only. -/
theorem inference_narrows (limit : Nat) (path : Pointer) (e : Json) :
    ((infer limit path e).result? = none → (infer limit path e).diagnostics ≠ []) ∧
    (∀ expect, (check limit expect path e).result? = none →
      (check limit expect path e).diagnostics ≠ []) ∧
    (∀ expected report, inferFamily limit expected e = .error report → report.diagnostics ≠ []) ∧
    (∀ f g, inferFamily limit (some f) e = .ok g → g = f) ∧
    (∀ f, inferFamily limit none e = .ok f → inferFamily limit (some f) e = .ok f) ∧
    (∀ f s, (infer limit .root e).result? = some s → ¬ s.contains f →
      ∃ found, s.primary = some found ∧ reported (inferFamily limit (some f) e) =
        reported (inferFamily limit none e) ++ [⟨.root, .familyMismatch f found⟩]) ∧
    (∀ f, (∀ s, (infer limit .root e).result? = some s → s.contains f) →
      reported (inferFamily limit (some f) e) = reported (inferFamily limit none e)) ∧
    (∀ d ∈ (infer limit path e).diagnostics, d.kind ≠ .familyMismatch) ∧
    ∀ expect, ∀ d ∈ (check limit expect path e).diagnostics, d.kind = .familyMismatch →
      d.path = path := by
  refine ⟨infer_reports, fun _ => check_reports, fun _ _ => inferFamily_reports, ?given, ?itself,
    ?other, ?same, infer_kind, ?whole⟩
  case given =>
    intro f g h
    exact check_family (congrArg Outcome.result? (inferFamily_eq_ok.mp h))
  -- the family that is picked is one of the families found, so asking for it adds nothing
  case itself =>
    intro f h
    exact inferFamily_eq_ok.mpr (check_narrow (inferFamily_eq_ok.mp h))
  case other =>
    intro f s typed other
    have nonempty := inferWithin_definite limit _ .root e s typed
    obtain ⟨found, picked, remark⟩ := @familyRemark_of_not_contains .root f s nonempty other
    refine ⟨found, picked, ?_⟩
    rw [reported_narrow, typed, remark]
  case same =>
    intro f member
    rw [reported_narrow]
    cases typed : (infer limit .root e).result? with
    | none => exact List.append_nil _
    | some s => simp [familyRemark, member s typed]
  case whole =>
    intro expect d mem kind
    rw [check_diagnostics] at mem
    rcases List.mem_append.mp mem with mem | mem
    · exact absurd kind (infer_kind d mem)
    · exact (familyRemark_kind d mem).1

end DialogueLint.Typing
