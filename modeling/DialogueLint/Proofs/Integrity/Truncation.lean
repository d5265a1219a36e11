import DialogueLint.Validation
import Mathlib.Data.List.Infix
import Mathlib.Tactic.Common

/-!
# Stopping at a faulty structure

Settings that leave the demands of a faulty document alone only cut its report short
(`settings_truncate`). Every validation concludes in the same way from what reading found: the
problems of the structure come first, and those of the demands behind them.

The four validations share the step in which it is decided whether the demands are checked
(`Settings.conclude`). So all four parts of the result are facts about this step, and each
validation is a case of it with its own problems of the structure and its own demands.
-/

namespace DialogueLint

/-- A report that stops at a faulty structure, against the full one: it is the beginning of the full
report, all of it if the structure has no problem, and else the problems of the structure. -/
structure Report.Truncates (stopped full : Report) (structural : List Diagnostic) : Prop where
  leading : stopped.diagnostics <+: full.diagnostics
  whole : structural = [] → stopped = full
  stops : structural ≠ [] → stopped.diagnostics = structural
  empty : stopped.diagnostics = [] ↔ full.diagnostics = []

namespace Settings

variable {limit : Nat} {structural : List Diagnostic} {demands : Demands}

/-- If faulty documents are checked as well, the problems of the demands stand behind those of the
structure. -/
lemma conclude_faulty :
    conclude ⟨limit, true⟩ structural demands = ⟨structural ++ demands.check limit .root⟩ := by
  simp only [conclude, Bool.or_true, if_true]

/-- If faulty documents are not checked, a faulty structure is all that is reported. -/
lemma conclude_stops (h : structural ≠ []) :
    conclude ⟨limit, false⟩ structural demands = ⟨structural⟩ := by
  have found : structural.isEmpty = false := List.isEmpty_eq_false_iff.mpr h
  simp only [conclude, found, Bool.or_false, Bool.false_eq_true, if_false]

/-- A document is read first and its demands are checked then. -/
lemma document_faulty {v : Json} :
    (validateDocument ⟨limit, true⟩ v).diagnostics =
      (Draft.read v).2 ++ (Draft.read v).1.demands.check limit .root := by
  simp only [validateDocument, draftAndReport, conclude_faulty]

/-- Not checking faulty documents truncates what checking them reports. -/
lemma conclude_truncates :
    (conclude ⟨limit, false⟩ structural demands).Truncates
      (conclude ⟨limit, true⟩ structural demands) structural := by
  cases structural with
  | nil => exact ⟨List.prefix_rfl, fun _ => rfl, fun found => absurd rfl found, Iff.rfl⟩
  | cons d found =>
    rw [conclude_stops (List.cons_ne_nil d found), conclude_faulty]
    exact {
      leading := List.prefix_append _ _
      whole := nofun
      stops := fun _ => rfl
      empty := by simp }

end Settings

/-- The choice whether faulty documents are checked only cuts reports short. For every limit and
every JSON value, and for a whole document as for a trigger, an array of nodes and properties: the
report without the choice is the beginning of the report with it; both are the same if reading finds
nothing; if reading finds anything, the report without the choice is just what reading finds; and
one report is empty exactly if the other one is. -/
theorem settings_truncate (limit : Nat) (v : Json) :
    (Settings.validateDocument ⟨limit, false⟩ v).Truncates
        (Settings.validateDocument ⟨limit, true⟩ v) (Draft.read v).2 ∧
      (Settings.validateTrigger ⟨limit, false⟩ v).Truncates
        (Settings.validateTrigger ⟨limit, true⟩ v) (Trigger.read .root v).diagnostics ∧
      (Settings.validateNodes ⟨limit, false⟩ v).Truncates
        (Settings.validateNodes ⟨limit, true⟩ v) (Node.readAll .root v).diagnostics ∧
      (Settings.validateProperties ⟨limit, false⟩ v).Truncates
        (Settings.validateProperties ⟨limit, true⟩ v) (Properties.read .root v).diagnostics :=
  ⟨Settings.conclude_truncates, Settings.conclude_truncates, Settings.conclude_truncates,
    Settings.conclude_truncates⟩

end DialogueLint
