import DialogueLint.Diagnostic.Problem
import DialogueLint.Json.Basic
import DialogueLint.Pointer

/-!
# Diagnostics and reports

A diagnostic is a problem with the place where it was found. A report lists the diagnostics of one
validation in the order in which they were found; a document without any is accepted.
-/

namespace DialogueLint

/-- A problem at a place of the document. -/
structure Diagnostic where
  /-- Where the problem was found. -/
  path : Pointer
  /-- What is wrong there. -/
  problem : Problem
  deriving Repr, DecidableEq

namespace Diagnostic

/-- The kind of the problem. -/
def kind (d : Diagnostic) : Kind := d.problem.kind

/-- The wording of the problem. -/
def message (d : Diagnostic) : String := d.problem.message

/-- The line that shows a diagnostic: place, kind and wording. -/
def display (d : Diagnostic) : String :=
  s!"{d.path.display}: {d.kind.name}: {d.message}"

/-- The JSON form of a diagnostic. -/
def toJson (d : Diagnostic) : Json :=
  .object [("kind", .string d.kind.name), ("message", .string d.message),
    ("path", .string d.path.text)]

/-- The same problem at the place that its path leads to from another place. -/
def below (p : Pointer) (d : Diagnostic) : Diagnostic :=
  ⟨p.join d.path, d.problem⟩

end Diagnostic

/-- What a validation found, in order. -/
structure Report where
  /-- The diagnostics, first one first. -/
  diagnostics : List Diagnostic
  deriving Repr, DecidableEq

namespace Report

/-- Whether nothing was found. -/
def accepted (r : Report) : Bool :=
  r.diagnostics.isEmpty

/-- The number of diagnostics. -/
def size (r : Report) : Nat :=
  r.diagnostics.length

/-- The kinds of the diagnostics in order. -/
def kinds (r : Report) : List Kind :=
  r.diagnostics.map Diagnostic.kind

/-- The diagnostics whose path is written so. -/
def atPath (r : Report) (path : String) : List Diagnostic :=
  r.diagnostics.filter fun d => d.path.text == path

/-- Whether there is a diagnostic of a kind whose path is written so. -/
def contains (r : Report) (kind : Kind) (path : String) : Bool :=
  r.diagnostics.any fun d => d.kind == kind && d.path.text == path

/-- The text of a report: one line for each diagnostic, or `accepted`. -/
def display (r : Report) : String :=
  if r.accepted then "accepted" else "\n".intercalate (r.diagnostics.map Diagnostic.display)

/-- The JSON form of a report: the array of its diagnostics. -/
def toJson (r : Report) : Json :=
  .array (r.diagnostics.map Diagnostic.toJson)

end Report

end DialogueLint
