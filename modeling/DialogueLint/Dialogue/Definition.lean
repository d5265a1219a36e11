import DialogueLint.Dialogue.Node.Read
import DialogueLint.Dialogue.Trigger

/-!
# Definitions

Whole dialogues. Reading a document gives a draft, which holds the parts that could be read; a draft
without any diagnostic is complete and has a definition.
-/

namespace DialogueLint

/-- A dialogue. -/
structure Definition where
  id : String
  trigger : Trigger
  nodes : List Node
  model : Option Properties
  entities : Option Properties
  background : Option Bool
  deriving Repr

/-- The parts of a dialogue that could be read. -/
structure Draft where
  trigger : Option Trigger
  nodes : List (Option Node)
  id : Option String
  model : Option Properties
  entities : Option Properties
  background : Option Bool
  complete : Bool
  deriving Repr

namespace Draft

/-- A draft of which nothing could be read. -/
def nothing : Draft := ⟨none, [], none, none, none, none, false⟩

/-- The fields of a document, which make a draft once it is known whether nothing was reported on
the way. A part that cannot be read keeps no other part from being read, but the draft is not
complete then, whatever was reported. -/
def fields : Fields (Bool → Draft) :=
  (fun trigger nodes id model entities background silent =>
      let parsed := trigger.isSome && nodes.isSome && id.isSome && model.isSome &&
        entities.isSome && background.isSome
      ⟨trigger, nodes.getD [], id, model.join, entities.join, background.join,
        parsed && silent⟩) <$>
    (Fields.required "trigger" Trigger.read).attempt <*>
    (Fields.required "nodes" Node.readAll).attempt <*>
    (Fields.required "id" .nonEmpty).attempt <*>
    (Fields.optional "model" Properties.read).attempt <*>
    (Fields.optional "entities" Properties.read).attempt <*>
    (Fields.optional "background" .bool).attempt

/-- The draft of a document, and what is wrong with its structure behind what was reported before.
Nothing was reported on the way if the report has not grown. -/
def readBehind (before : List Diagnostic) (document : Json) : Draft × List Diagnostic :=
  let read := Fields.object "a dialogue object" fields .root document
  let report := before ++ read.diagnostics
  match read.result? with
  | some draft => (draft (report.length == before.length), report)
  | none => (nothing, report)

/-- The draft of a document, and what is wrong with its structure. -/
def read (document : Json) : Draft × List Diagnostic :=
  readBehind [] document

/-- The dialogue that a complete draft defines. -/
def definition? : Draft → Option Definition
  | ⟨some trigger, nodes, some id, model, entities, background, true⟩ =>
    (nodes.mapM fun node => node).map fun nodes =>
      ⟨id, trigger, nodes, model, entities, background⟩
  | _ => none

end Draft

end DialogueLint
