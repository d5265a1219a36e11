import DialogueLint.Dialogue.Definition
import DialogueLint.Proofs.Json.Entry

/-!
# Writing dialogues

The canonical form of a dialogue: every field under its own name, the type of a trigger or node
under `type`, and nothing for what is absent. The outputs of an action, or of a download, are an
object exactly if one of its parts is there.

The definitions follow the types of the dialogue, constructor by constructor, and not the readers:
no function here calls a reader, or is told which fields a reader expects. That reading gives back
what was written is shown in `DialogueLint.Proofs.Dialogue.Restoration`.
-/

namespace DialogueLint

/-! ## Values -/

/-- An array of texts. -/
def Json.ofTexts (texts : List String) : Json := .array (texts.map .string)

/-- An object whose members are each written in the same way. -/
def Json.ofMembers {α : Type} (write : α → Json) (members : Members α) : Json :=
  .object (members.map fun m => (m.1, write m.2))

def Lookup.toJson (lookup : Lookup) : Json :=
  .ofEntries [("var", some (.string lookup.reference))]

def MessageValue.toJson : MessageValue → Json
  | text words => .string words
  | language reference => .ofEntries [("var", some (.string reference))]

def CustomContent.toJson (content : CustomContent) : Json :=
  .ofEntries [("contentType", some (.string content.contentType)),
    ("content", some (.object content.content))]

def PropertyValue.toJson : PropertyValue → Json
  | single text => .string text
  | many texts => .ofTexts texts

def Properties.toJson (properties : Properties) : Json :=
  .ofMembers PropertyValue.toJson properties

def Inputs.toJson (inputs : Inputs) : Json :=
  .ofMembers id inputs

def Outputs.toJson (outputs : Outputs) : Json :=
  .ofMembers Lookup.toJson outputs

/-- The node that comes next, or `null` where the dialogue ends. -/
def Successor.toJson (next : Successor) : Json :=
  next.elim .null .number

def Service.toJson (service : Service) : Json :=
  .ofEntries [("url", some (.string service.url)),
    ("headers", service.headers.map (.ofMembers .string)),
    ("method", service.method.map fun method => .string method.name),
    ("body", service.body.map .object)]

def TapOptions.toJson (options : TapOptions) : Json :=
  .ofEntries [("displayName", some (.string options.displayName)),
    ("output", some (.string options.output)), ("value", some (.string options.value))]

def ButtonOptions.toJson (options : ButtonOptions) : Json :=
  .ofEntries [("listName", some (.string options.listName)),
    ("displayName", options.displayName.map .string), ("output", some (.string options.output))]

def CardContent.toJson (content : CardContent) : Json :=
  .ofEntries [("url", content.url.map .string), ("title", content.title.map .string),
    ("subtitle", content.subtitle.map .string), ("text", content.text.map .string),
    ("image", content.image.map .string), ("isThumbnail", content.isThumbnail),
    ("retryMessage", content.retryMessage.map .string),
    ("tapOptions", content.tapOptions.map TapOptions.toJson),
    ("buttonOptions", content.buttonOptions.map ButtonOptions.toJson)]

def OutputOperation.toJson (operation : OutputOperation) : Json :=
  .ofEntries [("operation", some operation.operation), ("output", some (.string operation.output))]

/-! ## Triggers -/

namespace Trigger

/-- The fields of a trigger besides its type. -/
def entries : Trigger → Entries
  | attachment contentTypes output =>
    [("contentTypes", some (.ofTexts contentTypes)), ("output", some (.string output))]
  | customEvent name output => [("name", some (.string name)), ("output", output.map .string)]
  | event e => [("event", some (.string e.name))]
  | intent name => [("intent", some (.string name))]
  | message values => [("values", some (.array (values.map MessageValue.toJson)))]
  | nestedDialogue => []

def toJson (trigger : Trigger) : Json :=
  .ofEntries (("type", some (.string trigger.typeName)) :: trigger.entries)

end Trigger

/-! ## Nodes -/

/-- The object of outputs, if one of its parts is there. -/
def Entries.outputs? (parts : Entries) : Option Json :=
  if parts.any fun part => part.2.isSome then some (.ofEntries parts) else none

namespace Node

/-- The fields of a node besides its type. -/
def entries : Node → Entries
  | action node =>
    [("service", some node.service.toJson),
      ("outputs", Entries.outputs? [("body", node.bodyOutputs.map Properties.toJson),
        ("header", node.headerOutputs.map Properties.toJson)]),
      ("nextNodeIndex", some node.next.toJson)]
  | attachmentPrompt node =>
    [("contentTypes", node.contentTypes.map .ofTexts), ("message", some (.string node.message)),
      ("retryMessage", some (.string node.retryMessage)),
      ("customContent", node.customContent.map CustomContent.toJson),
      ("output", some (.string node.output)), ("nextNodeIndex", some node.next.toJson)]
  | card node =>
    [("content", some node.content.toJson), ("nextNodeIndex", some node.next.toJson)]
  | cardCollection node =>
    [("listName", some (.string node.listName)), ("contentItem", some (.string node.contentItem)),
      ("content", some node.content.toJson), ("output", some (.string node.output)),
      ("pageSize", node.pageSize.map .number), ("nextNodeIndex", some node.next.toJson)]
  | choicePrompt node =>
    [("message", some (.string node.message)), ("retryMessage", some (.string node.retryMessage)),
      ("listName", some (.string node.listName)), ("displayName", node.displayName.map .string),
      ("output", some (.string node.output)), ("nextNodeIndex", some node.next.toJson)]
  | confirmationPrompt node =>
    [("message", some (.string node.message)), ("retryMessage", some (.string node.retryMessage)),
      ("positiveMessage", node.positiveMessage.map .string),
      ("negativeMessage", node.negativeMessage.map .string),
      ("output", some (.string node.output)), ("nextNodeIndex", some node.next.toJson)]
  | customCardCollection node =>
    [("listName", some (.string node.listName)), ("contentItem", some (.string node.contentItem)),
      ("customContent", some node.customContent.toJson),
      ("retryMessage", node.retryMessage.map .string),
      ("outputOperation", node.outputOperation.map OutputOperation.toJson),
      ("output", some (.string node.output)), ("pageSize", node.pageSize.map .number),
      ("validation", node.validation), ("nextNodeIndex", some node.next.toJson)]
  | customEvent node =>
    [("name", some (.string node.name)), ("data", node.data.map Lookup.toJson)]
  | decision node =>
    [("rule", some node.rule), ("passNodeIndex", some node.pass.toJson),
      ("failNodeIndex", some node.fail.toJson)]
  | dialogue node =>
    [("dialogueId", some (.string node.dialogueId)), ("inputs", node.inputs.map Inputs.toJson),
      ("outputs", node.outputs.map Outputs.toJson), ("nextNodeIndex", some node.next.toJson)]
  | downloadAction node =>
    [("service", some node.service.toJson),
      ("outputs", Entries.outputs? [("content", node.contentOutput.map .string),
        ("header", node.headerOutputs.map Properties.toJson)]),
      ("nextNodeIndex", some node.next.toJson)]
  | event e => [("event", some (.string e.name))]
  | message node =>
    [("message", some (.string node.message)),
      ("customContent", node.customContent.map CustomContent.toJson),
      ("nextNodeIndex", some node.next.toJson)]
  | operation node =>
    [("operation", some node.operation), ("output", some (.string node.output)),
      ("nextNodeIndex", some node.next.toJson)]
  | repeatDialogue node =>
    [("dialogueId", some (.string node.dialogueId)), ("inputs", some node.inputs.toJson),
      ("outputs", some node.outputs.toJson), ("repeatUntil", some node.repeatUntil),
      ("nextNodeIndex", some node.next.toJson)]
  | sequenceDialogue node =>
    [("dialogueId", some (.string node.dialogueId)), ("inputItem", some (.string node.inputItem)),
      ("inputs", node.inputs.map Inputs.toJson), ("listName", some (.string node.listName)),
      ("nextNodeIndex", some node.next.toJson)]
  | simplePrompt node =>
    [("message", some (.string node.message)), ("retryMessage", some (.string node.retryMessage)),
      ("customContent", node.customContent.map CustomContent.toJson),
      ("output", some (.string node.output)), ("validation", node.validation),
      ("nextNodeIndex", some node.next.toJson)]

def toJson (node : Node) : Json :=
  .ofEntries (("type", some (.string node.typeName)) :: node.entries)

end Node

/-! ## Documents -/

/-- The document of a dialogue. -/
def Definition.toJson (d : Definition) : Json :=
  .ofEntries [("trigger", some d.trigger.toJson),
    ("nodes", some (.array (d.nodes.map Node.toJson))), ("id", some (.string d.id)),
    ("model", d.model.map Properties.toJson), ("entities", d.entities.map Properties.toJson),
    ("background", d.background.map .bool)]

end DialogueLint
