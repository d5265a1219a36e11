import DialogueLint.Diagnostic.Report
import DialogueLint.Proofs.Text.Lines

/-!
# Lines of reports

A diagnostic is shown in one line unless a line break stands in a token of its path or in a text
that its problem repeats (`Diagnostic.unbroken_display`). A report has the lines of its diagnostics
(`Report.lines_display`), and is shown as accepted only if it has none.

Most of a line is fixed words, which are seen to have no line break by evaluation. The rest are
texts that come from elsewhere, and these are listed for each problem (`Problem.texts`), so that
what is said about lines does not go into the wording again. The sequel only has to look at where
the texts in the lists come from.
-/

namespace DialogueLint

open Text

/-! ## Problems -/

/-- The texts that the wording of a problem repeats. -/
def Problem.texts : Problem → List String
  | malformedJson _ _ message => [message]
  | missingRequiredField field => [field]
  | unknownField field found => [field, found]
  | invalidType expected found => [expected, found]
  | patternMismatch expected value => [expected, value]
  | cardinalityMismatch expected found => [expected, found]
  | variantNotMatched union reason => [union, reason]
  | unknownOperator operator => [operator]
  | arityMismatch operator _ _ => [operator]
  | operandType operator expected found => [operator, expected, found]
  | reservedNamespace reference _ => [reference]
  | familyMismatch _ _ => []
  | danglingReference _ field index _ => [field, index]
  | depthExceeded _ => []

/-- None of the texts that the wording of a problem repeats has a line break. -/
def Problem.Plain (p : Problem) : Prop :=
  ∀ t ∈ p.texts, Unbroken t

/-- The names of kinds are single words. -/
lemma Kind.unbroken_name (kind : Kind) : Unbroken kind.name := by
  cases kind <;> decide

/-- The names of families are single words. -/
lemma Family.unbroken_name (f : Family) : Unbroken f.name := by
  cases f <;> decide

/-- The names of the namespaces of the system have no line break. -/
lemma SystemSpace.unbroken_name (space : SystemSpace) : Unbroken space.name := by
  cases space <;> decide

/-- An arity is worded by numbers and fixed words, with no line break. -/
lemma Arity.unbroken_wording (a : Arity) : Unbroken a.wording := by
  have exactly : Unbroken "exactly " := by decide
  have between : Unbroken " to " := by decide
  have atLeast : Unbroken "at least " := by decide
  unfold wording
  split
  · split_ifs
    · simp only [toString, unbroken_append, exactly, unbroken_repr, true_and]
    · simp only [toString, unbroken_append, between, unbroken_repr, true_and]
  · simp only [toString, unbroken_append, atLeast, unbroken_repr, true_and]

/-- The wording of a problem has a line break only where one of its texts has one. -/
lemma Problem.unbroken_message (p : Problem) : Unbroken p.message ↔ p.Plain := by
  delta Problem.message Problem.Plain Problem.texts
  -- the fixed words of each wording are decided
  cases p <;>
    simp +decide only [toString, unbroken_append, unbroken_repr, Arity.unbroken_wording,
      Family.unbroken_name, SystemSpace.unbroken_name, List.forall_mem_cons, List.not_mem_nil,
      false_implies, implies_true, and_true, true_and, and_assoc]
  exact and_comm

/-! ## Places -/

namespace Pointer

/-- Escaping a character neither makes a line break nor takes one away. -/
lemma break_mem_escapeChar {c : Char} : '\n' ∈ escapeChar c ↔ '\n' = c := by
  unfold escapeChar
  split
  · decide
  · decide
  · exact List.mem_singleton

/-- The written form of a place has a line break only where a token has one. -/
lemma unbroken_text (p : Pointer) : Unbroken p.text ↔ ∀ t ∈ p.tokens, Unbroken t := by
  rw [text, unbroken_ofList, escape]
  simp [break_mem_escapeChar, Unbroken]

/-- What shows a place has a line break only where a token has one. The root is shown by a slash. -/
lemma unbroken_display (p : Pointer) : Unbroken p.display ↔ ∀ t ∈ p.tokens, Unbroken t := by
  obtain ⟨tokens⟩ := p
  cases tokens with
  | nil => exact iff_of_true (by decide) (by simp)
  | cons token tokens => exact unbroken_text _

end Pointer

/-! ## Diagnostics -/

/-- The texts that the line of a diagnostic repeats: the tokens of its path and the texts of its
problem. -/
def Diagnostic.texts (d : Diagnostic) : List String :=
  d.path.tokens ++ d.problem.texts

/-- The line of a diagnostic has a line break only where one of its texts has one. -/
lemma Diagnostic.unbroken_display (d : Diagnostic) :
    Unbroken d.display ↔ ∀ t ∈ d.texts, Unbroken t := by
  have colon : Unbroken ": " := by decide
  simp only [display, toString, unbroken_append, Pointer.unbroken_display, colon,
    Kind.unbroken_name, message, Problem.unbroken_message, Problem.Plain, and_true, texts,
    List.forall_mem_append]

/-- The line of a diagnostic has a colon, which `accepted` has not. -/
lemma Diagnostic.colon_mem_display (d : Diagnostic) : ':' ∈ d.display.toList := by
  simp [display, toString]

/-! ## Reports -/

namespace Report

variable {r : Report}

/-- A report that is not empty is shown by its diagnostics, with line breaks between them. -/
lemma display_of_ne_nil (h : r.diagnostics ≠ []) :
    r.display = "\n".intercalate (r.diagnostics.map Diagnostic.display) := by
  rw [display, accepted, List.isEmpty_eq_false_iff.mpr h]
  rfl

/-- The lines of a report that is not empty are those of its diagnostics. -/
lemma lines_display (h : r.diagnostics ≠ []) :
    lines r.display = (r.diagnostics.map Diagnostic.display).flatMap lines := by
  rw [display_of_ne_nil h, lines_intercalate (by simpa using h)]

/-- Only the empty report is shown as accepted. -/
lemma display_eq_accepted : r.display = "accepted" ↔ r.diagnostics = [] := by
  constructor
  · intro shown
    by_contra h
    obtain ⟨d, rest, same⟩ := List.exists_cons_of_ne_nil h
    have colon : ':' ∈ r.display.toList := by
      rw [display_of_ne_nil h, same]
      cases rest with
      | nil => simpa using d.colon_mem_display
      | cons e rest =>
        rw [List.map_cons, List.map_cons, String.intercalate_cons_cons]
        simp [d.colon_mem_display]
    rw [shown] at colon
    exact absurd colon (by decide)
  · intro empty
    rw [display, accepted, empty]
    rfl

end Report

end DialogueLint
