import DialogueLint.Fragment
import DialogueLint.Integrity.Parts
import DialogueLint.Json.Parse
import DialogueLint.Settings.Basic

/-!
# Validation

A validation reads the structure of a document and then checks the demands of what could be read.
Fragments are validated in the same way by themselves. A text that is not JSON has a single
diagnostic.
-/

namespace DialogueLint

/-- The report of a text that is not JSON. -/
def Report.malformed (fault : Json.LocatedFault) : Report :=
  ⟨[⟨.root, .malformedJson fault.position.line fault.position.column fault.message⟩]⟩

namespace Settings

/-- The report of what reading found, and of the demands of what was read. If the settings say so,
demands are left alone once reading has found anything. -/
def conclude (settings : Settings) (structural : List Diagnostic) (demands : Demands) : Report :=
  if structural.isEmpty || settings.checkFaulty then
    ⟨structural ++ demands.check settings.maxDepth .root⟩
  else ⟨structural⟩

/-- The draft of a document and its report. -/
def draftAndReport (settings : Settings) (document : Json) : Draft × Report :=
  let (draft, structural) := Draft.read document
  (draft, settings.conclude structural draft.demands)

/-- The report of a document. -/
def validateDocument (settings : Settings) (document : Json) : Report :=
  (settings.draftAndReport document).2

/-- The report of a part that is read by itself. -/
def validatePart {α : Type} (settings : Settings) (reader : Reader α) (demands : α → Demands)
    (value : Json) : Report :=
  let read := reader .root value
  settings.conclude read.diagnostics (.ifPresent read.result? demands)

/-- The report of a trigger. -/
def validateTrigger (settings : Settings) (value : Json) : Report :=
  settings.validatePart Trigger.read Trigger.demands value

/-- The report of an array of nodes. -/
def validateNodes (settings : Settings) (value : Json) : Report :=
  settings.validatePart Node.readAll Node.allDemands value

/-- The report of properties. -/
def validateProperties (settings : Settings) (value : Json) : Report :=
  settings.validatePart Properties.read Properties.demands value

/-- The report of a fragment. -/
def validateFragment (settings : Settings) : Fragment → Json → Report
  | .document => settings.validateDocument
  | .trigger => settings.validateTrigger
  | .nodes => settings.validateNodes
  | .properties => settings.validateProperties

/-- The report of a text that holds a fragment. -/
def validateText (settings : Settings) (fragment : Fragment) (text : String) : Report :=
  match Json.parse text with
  | .ok value => settings.validateFragment fragment value
  | .error fault => .malformed fault

/-- The report of a text that holds a whole document. -/
def validateSource (settings : Settings) (text : String) : Report :=
  match Json.parse text with
  | .ok document => settings.validateDocument document
  | .error fault => .malformed fault

/-- The dialogue that a text defines, or the report of what is wrong with it. -/
def define (settings : Settings) (text : String) : Except Report Definition :=
  match Json.parse text with
  | .error fault => .error (.malformed fault)
  | .ok document =>
    let (draft, report) := settings.draftAndReport document
    match draft.definition? with
    | some definition => if report.accepted then .ok definition else .error report
    | none => .error report

end Settings

end DialogueLint
