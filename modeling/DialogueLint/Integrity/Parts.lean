import DialogueLint.Integrity.Demand

/-!
# Demands of the parts of a dialogue

Lists of demands for properties, cards, triggers, nodes and whole documents. A node names its
successors first and then its other fields.
-/

namespace DialogueLint

open Demands

/-- Every key of properties is written. -/
def Properties.demands (properties : Properties) : Demands :=
  properties.flatMap fun (key, _) => writes key key

/-- A variable that is looked up is read. -/
def Lookup.demands (lookup : Lookup) : Demands :=
  field "var" (.reads lookup.reference)

/-- Inputs are expressions of any family. -/
def Inputs.demands (inputs : Inputs) : Demands :=
  inputs.flatMap fun (key, input) => types key .logic input

/-- The keys of outputs are written, the variables read. -/
def Outputs.demands (outputs : Outputs) : Demands :=
  outputs.flatMap fun (key, lookup) =>
    writes key key ++ lookup.demands.under [key]

/-- Tap options write two references. -/
def TapOptions.demands (options : TapOptions) : Demands :=
  writes "displayName" options.displayName ++ writes "output" options.output

/-- Button options write up to three references. -/
def ButtonOptions.demands (options : ButtonOptions) : Demands :=
  writes "listName" options.listName ++
    ifPresent options.displayName (writes "displayName") ++ writes "output" options.output

/-- The content of a card holds a condition and references. -/
def CardContent.demands (content : CardContent) : Demands :=
  ifPresent content.isThumbnail (types "isThumbnail" (.family .boolean)) ++
    ifPresent content.tapOptions (fun options => options.demands.under ["tapOptions"]) ++
    ifPresent content.buttonOptions (fun options => options.demands.under ["buttonOptions"])

/-- What is computed from a chosen item is an expression of any family and is written. -/
def OutputOperation.demands (operation : OutputOperation) : Demands :=
  types "operation" .logic operation.operation ++ writes "output" operation.output

/-- A trigger writes the value of an event. -/
def Trigger.demands : Trigger → Demands
  | customEvent _ (some output) => writes "output" output
  | _ => []

namespace Node

/-- What a node demands besides its successors. -/
def partDemands : Node → Demands
  | action node =>
    ifPresent node.bodyOutputs (fun outputs => outputs.demands.under ["outputs", "body"]) ++
      ifPresent node.headerOutputs (fun outputs => outputs.demands.under ["outputs", "header"])
  | attachmentPrompt _ => []
  | card node => node.content.demands.under ["content"]
  | cardCollection node =>
    writes "listName" node.listName ++ node.content.demands.under ["content"] ++
      writes "output" node.output
  | choicePrompt node =>
    writes "listName" node.listName ++ ifPresent node.displayName (writes "displayName") ++
      writes "output" node.output
  | confirmationPrompt node => writes "output" node.output
  | customCardCollection node =>
    writes "listName" node.listName ++
      ifPresent node.outputOperation (fun operation =>
        operation.demands.under ["outputOperation"]) ++
      writes "output" node.output ++ ifPresent node.validation (types "validation" .logic)
  | customEvent node => ifPresent node.data fun lookup => lookup.demands.under ["data"]
  | decision node => types "rule" (.family .boolean) node.rule
  | dialogue node =>
    ifPresent node.inputs (fun inputs => inputs.demands.under ["inputs"]) ++
      ifPresent node.outputs (fun outputs => outputs.demands.under ["outputs"])
  | downloadAction node =>
    ifPresent node.headerOutputs fun outputs => outputs.demands.under ["outputs", "header"]
  | event _ => []
  | message _ => []
  | operation node => types "operation" .logic node.operation ++ writes "output" node.output
  | repeatDialogue node =>
    node.inputs.demands.under ["inputs"] ++ node.outputs.demands.under ["outputs"] ++
      types "repeatUntil" .logic node.repeatUntil
  | sequenceDialogue node =>
    ifPresent node.inputs (fun inputs => inputs.demands.under ["inputs"]) ++
      writes "listName" node.listName
  | simplePrompt node =>
    writes "output" node.output ++ ifPresent node.validation (types "validation" .logic)

/-- What the successor in a field demands of a node among so many nodes. -/
def successorDemand (index len : Nat) : String × Successor → Demands
  | (name, some target) => field name (.leads index name target len)
  | (_, none) => []

/-- What a node at an index among so many nodes demands. -/
def demands (index len : Nat) (node : Node) : Demands :=
  node.successors.flatMap (successorDemand index len) ++ node.partDemands

/-- What the nodes that could be read demand. Empty slots count among the nodes. -/
def allDemands (nodes : List (Option Node)) : Demands :=
  nodes.zipIdx.flatMap fun (node, index) =>
    ifPresent node fun node => (node.demands index nodes.length).under [toString index]

end Node

/-- What the parts of a document that could be read demand. -/
def Draft.demands (draft : Draft) : Demands :=
  ifPresent draft.trigger (fun trigger => trigger.demands.under ["trigger"]) ++
    (Node.allDemands draft.nodes).under ["nodes"] ++
    ifPresent draft.model (fun properties => properties.demands.under ["model"]) ++
    ifPresent draft.entities (fun properties => properties.demands.under ["entities"])

end DialogueLint
