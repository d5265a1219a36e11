import DialogueLint.Diagnostic.Report

/-!
# Outcomes

What reading or typing a piece of a document gives: a result, if there is one, and the diagnostics
met on the way. A result and diagnostics may come together, so that one problem does not hide the
others.
-/

namespace DialogueLint

/-- A result, if there is one, with the diagnostics met on the way to it. -/
structure Outcome (α : Type) where
  /-- The result. -/
  result? : Option α
  /-- What was found on the way. -/
  diagnostics : List Diagnostic
  deriving Repr, DecidableEq

namespace Outcome

variable {α β : Type}

/-- A result without diagnostics. -/
def ok (a : α) : Outcome α := ⟨some a, []⟩

/-- No result, because of a problem at a place. -/
def fail (path : Pointer) (problem : Problem) : Outcome α := ⟨none, [⟨path, problem⟩]⟩

/-- Applies a function to the result. -/
def map (f : α → β) (o : Outcome α) : Outcome β := ⟨o.result?.map f, o.diagnostics⟩

/-- Goes on with the result, if there is one. -/
def andThen (o : Outcome α) (next : α → Outcome β) : Outcome β :=
  match o.result? with
  | some a => ⟨(next a).result?, o.diagnostics ++ (next a).diagnostics⟩
  | none => ⟨none, o.diagnostics⟩

/-- Combines two outcomes; neither hides the diagnostics of the other. -/
def zipWith {γ : Type} (f : α → β → γ) (o : Outcome α) (p : Outcome β) : Outcome γ :=
  ⟨match o.result?, p.result? with
    | some a, some b => some (f a b)
    | _, _ => none,
    o.diagnostics ++ p.diagnostics⟩

/-- Adds diagnostics behind those of an outcome and keeps its result. -/
def adding (o : Outcome α) (more : List Diagnostic) : Outcome α :=
  ⟨o.result?, o.diagnostics ++ more⟩

/-- The results of all outcomes, if every one has a result, and all diagnostics in order. -/
def all : List (Outcome α) → Outcome (List α)
  | [] => ok []
  | o :: rest => zipWith (· :: ·) o (all rest)

/-- The outcome with every diagnostic moved below a place. -/
def below (p : Pointer) (o : Outcome α) : Outcome α :=
  ⟨o.result?, o.diagnostics.map (Diagnostic.below p)⟩

end Outcome

end DialogueLint
